import Savitri.GovernanceVoting
import Savitri.MapTotal

/-!
Where vote tokens are. A call may fail between any two writes, so the law is about every
storage a call can end in. Until the voting on a proposal ends nothing is returned or
due; then the code breaks the law, since the deposit is paid out before
`unlock_vote_tokens` refuses the proposal and the final status is never written.
-/
namespace Savitri.Governance
open Std (ExtTreeMap)
open Fallible FaultyStore MapTotal Transition
variable {address : Bytes} {amount : Nat} {proposalId : UInt64}
variable (proposal : StorageProposal)

def StorageProposal.isOpen : Bool := proposal.status = .pending || proposal.status = .activeVoting

def StorageProposal.openDeposit : Nat :=
  if proposal.isOpen then proposal.deposit else 0

variable (storage : Storage)

/-- Balances, tokens locked in votes, and deposits of open proposals. -/
def value : Nat :=
  total id storage.voteTokens + total Vote.voteAmount storage.votes +
    total StorageProposal.openDeposit storage.proposals

structure Kept (before after : Storage) : Prop where
  value : value after ≤ value before
  balances : ∀ address, after.balance address ≤ before.balance address
  votes : ∀ (key : Bytes × UInt64) (vote : Vote), before.votes[key]? = some vote →
    after.votes[key]? = some vote

theorem Kept.refl : Kept storage storage :=
  ⟨Nat.le_refl _, fun _ => Nat.le_refl _, fun _ _ found => found⟩

variable {first second third : Storage}

theorem Kept.trans (one : Kept first second) (two : Kept second third) : Kept first third :=
  ⟨two.value.trans one.value, fun address => (two.balances address).trans (one.balances address),
    fun key vote found => two.votes key vote (one.votes key vote found)⟩

/-- Proposals are stored under their id, and those with votes are open. -/
structure Sound (storage : Storage) : Prop where
  ids : ∀ (id : UInt64) (proposal : StorageProposal), storage.proposals[id]? = some proposal →
    proposal.id = id
  voting : ∀ (key : Bytes × UInt64) (vote : Vote), storage.votes[key]? = some vote →
    ∀ proposal, storage.proposals[key.2]? = some proposal → proposal.isOpen = true

def Fine (before after : Storage) : Prop := Kept before after ∧ Sound after

theorem Fine.trans (one : Fine first second) (two : Fine second third) : Fine first third :=
  ⟨one.1.trans two.1, two.2⟩

def StorageProposal.ended (now : Nat) : Bool :=
  (proposal.status = .activeVoting || proposal.status = .pending && proposal.reviewEnd ≤ now) &&
    proposal.votingEnd ≤ now

def StorageProposal.approves (totalVoteTokens : Nat) : Bool :=
  match totalVotes proposal with
  | .ok votes => proposalResult proposal votes totalVoteTokens = .approved
  | .error _ => false

def unvoted (proposalId : UInt64) : Bool :=
  storage.votes.toList.all fun entry => entry.1.2 != proposalId

/-- No proposal whose voting has ended has votes, or is approved and has a deposit. -/
def noReturnDue (now : Nat) : Bool :=
  storage.proposals.toList.all fun entry =>
    !entry.2.ended now ||
      ((!entry.2.approves storage.totalVoteTokens || entry.2.deposit = 0) && unvoted storage entry.1)

/-- The call ends the voting on no proposal with votes and has no deposit to return. -/
def unsettled : Call → Bool
  | .processExpiredProposals now => noReturnDue storage now
  | .updateProposalState proposalId now =>
    storage.proposals[proposalId]?.all fun proposal =>
      !(proposal.status = .activeVoting && proposal.votingEnd ≤ now) || unvoted storage proposalId
  | _ => true

/-- No vote is left on a proposal whose voting has ended: its voters would be due what they
locked. -/
def Unowed (now : Nat) : Prop :=
  ∀ (key : Bytes × UInt64) (vote : Vote), storage.votes[key]? = some vote →
    ∀ proposal, storage.proposals[key.2]? = some proposal → proposal.ended now = false

def Repaid : Call → Prop
  | .processExpiredProposals now => Unowed storage now
  | _ => True

section
variable {storage}
variable {proposal}

theorem balance_eq_weightAt : storage.balance address = weightAt id storage.voteTokens address := by
  unfold Storage.balance weightAt
  cases storage.voteTokens[address]? <;> rfl

variable (storage)

def Storage.taken (address : Bytes) (amount : Nat) : Storage :=
  { storage with
    voteTokens := storage.voteTokens.insert address (storage.balance address - amount) }

variable (key : Bytes × UInt64)

def Storage.withVote (vote : Vote) : Storage :=
  { storage with votes := storage.votes.insert key vote }

def Storage.withProposal (id : UInt64) (proposal : StorageProposal) : Storage :=
  { storage with proposals := storage.proposals.insert id proposal }

variable {storage}

theorem value_taken (enough : amount ≤ storage.balance address) :
    value (storage.taken address amount) + amount = value storage := by
  have written := total_insert id storage.voteTokens address (storage.balance address - amount)
  rw [← balance_eq_weightAt] at written
  simp only [value, Storage.taken, id_eq] at written ⊢
  omega

theorem balance_taken {other : Bytes} :
    (storage.taken address amount).balance other ≤ storage.balance other := by
  rw [balance_eq_weightAt, balance_eq_weightAt, Storage.taken, weightAt_insert]
  split
  · next same =>
      rw [← same, ← balance_eq_weightAt]
      exact Nat.sub_le _ _
  · exact Nat.le_refl _

theorem value_withVote {key : Bytes × UInt64} {vote : Vote} (new : storage.votes[key]? = none) :
    value (storage.withVote key vote) = value storage + vote.voteAmount := by
  have written := total_insert Vote.voteAmount storage.votes key vote
  have before : weightAt Vote.voteAmount storage.votes key = 0 := by
    rw [weightAt, new]
    rfl
  simp only [value, Storage.withVote] at written ⊢
  omega

theorem value_withProposal (storage : Storage) (id : UInt64) (proposal : StorageProposal) :
    value (storage.withProposal id proposal) +
        weightAt StorageProposal.openDeposit storage.proposals id =
      value storage + proposal.openDeposit := by
  have written := total_insert StorageProposal.openDeposit storage.proposals id proposal
  simp only [value, Storage.withProposal] at written ⊢
  omega

theorem getElem?_withProposal (id other : UInt64) (proposal : StorageProposal) :
    (storage.withProposal id proposal).proposals[other]? =
      if id = other then some proposal else storage.proposals[other]? := by
  unfold Storage.withProposal
  rw [ExtTreeMap.getElem?_insert]
  simp only [Std.LawfulEqCmp.compare_eq_iff_eq]

theorem getElem?_withVote (other : Bytes × UInt64) (vote : Vote) :
    (storage.withVote key vote).votes[other]? =
      if key = other then some vote else storage.votes[other]? := by
  unfold Storage.withVote
  rw [ExtTreeMap.getElem?_insert]
  simp only [Std.LawfulEqCmp.compare_eq_iff_eq]

theorem fine_taken (sound : Sound storage) (enough : amount ≤ storage.balance address) :
    Fine storage (storage.taken address amount) := by
  refine ⟨⟨?_, fun other => balance_taken, fun _ _ found => found⟩, sound.ids, sound.voting⟩
  have := value_taken enough
  omega

variable {id : UInt64}

theorem sound_withProposal (sound : Sound storage) (named : proposal.id = id)
    (voted : ∀ (voter : Bytes) (vote : Vote), storage.votes[(voter, id)]? = some vote →
      proposal.isOpen = true) : Sound (storage.withProposal id proposal) := by
  constructor
  · intro other stored found
    rw [getElem?_withProposal] at found
    split at found
    · next same =>
        cases found
        exact named.trans same
    · exact sound.ids other stored found
  · rintro ⟨voter, other⟩ vote cast stored found
    rw [getElem?_withProposal] at found
    split at found
    · next same =>
        cases found
        exact voted voter vote (same ▸ cast)
    · exact sound.voting (voter, other) vote cast stored found

theorem fine_withProposal {old : StorageProposal} (sound : Sound storage)
    (found : storage.proposals[id]? = some old) (named : proposal.id = old.id)
    (less : proposal.openDeposit ≤ old.openDeposit)
    (voted : ∀ (voter : Bytes) (vote : Vote), storage.votes[(voter, id)]? = some vote →
      proposal.isOpen = true) : Fine storage (storage.withProposal id proposal) := by
  have written := value_withProposal storage id proposal
  rw [weightAt, found] at written
  refine ⟨⟨?_, fun _ => Nat.le_refl _, fun _ _ found => found⟩,
    sound_withProposal sound (named.trans (sound.ids id old found)) voted⟩
  simp only [Option.map_some, Option.getD_some] at written
  omega

theorem openDeposit_le (proposal : StorageProposal) : proposal.openDeposit ≤ proposal.deposit := by
  unfold StorageProposal.openDeposit
  split
  · exact Nat.le_refl _
  · exact Nat.zero_le _

theorem openDeposit_of_isOpen (isOpen : proposal.isOpen = true) :
    proposal.openDeposit = proposal.deposit :=
  if_pos isOpen

theorem fine_withVote {voter : Bytes} (vote : Vote) (sound : Sound storage)
    (enough : vote.voteAmount ≤ storage.balance voter) (new : storage.votes[(voter, id)]? = none)
    (found : storage.proposals[id]? = some proposal) (isOpen : proposal.isOpen = true) :
    Fine storage ((storage.taken voter vote.voteAmount).withVote (voter, id) vote) := by
  have taken := fine_taken sound enough
  refine ⟨⟨?_, taken.1.balances, ?_⟩, sound.ids, ?_⟩
  · have locked : value ((storage.taken voter vote.voteAmount).withVote (voter, id) vote) =
        value (storage.taken voter vote.voteAmount) + vote.voteAmount := value_withVote new
    rw [locked, value_taken enough]
  · intro key other cast
    rw [getElem?_withVote]
    split
    · next same =>
        rw [← same, new] at cast
        cases cast
    · exact cast
  · intro key other cast stored at_
    rw [getElem?_withVote] at cast
    split at cast
    · next same =>
        subst same
        cases found.symm.trans at_
        exact isOpen
    · exact sound.voting key other cast stored at_

end

variable {good : Unit → Storage → Prop} {stored : StorageProposal}

section
variable {id : UInt64}
variable {env : Env} {storage : Storage} {bad : Storage → Prop}
variable {proposal : StorageProposal} {now : Nat} {status : StorageProposalStatus}

theorem ends_loadProposal {good : StorageProposal → Storage → Prop} (fine : bad storage)
    (next : ∀ proposal, storage.proposals[proposalId]? = some proposal → good proposal storage) :
    Ends (loadProposal env proposalId) storage bad good := by
  apply ends_bind
  apply ends_read fine
  apply ends_bind
  apply ends_present fine
  intro proposal found
  apply ends_bind
  apply ends_require fine
  intro _
  exact ends_pure (next proposal found)

variable {voteType : VoteType}

theorem ends_decrement (fine : bad storage) (next : good () (storage.taken address amount)) :
    Ends (decrementVoteTokenBalance address amount) storage bad good := by
  apply ends_bind
  apply ends_read fine
  exact ends_write fine next

theorem ends_putProposal (fine : bad storage)
    (next : good () (storage.withProposal proposalId proposal)) :
    Ends (putProposal proposalId proposal) storage bad good :=
  ends_write fine next

theorem ends_createProposal (sound : Sound storage) {creator : Address} {deposit : Nat}
    {description : String} {action : ProposalAction} :
    Ends (createProposal env creator deposit description action now) storage (Fine storage)
      fun _ => Fine storage := by
  have fine : Fine storage storage := ⟨.refl storage, sound⟩
  apply ends_bind
  apply ends_read fine
  apply ends_bind
  apply ends_require fine
  intro _
  apply ends_bind
  apply ends_read fine
  apply ends_bind
  apply ends_require fine
  intro enough
  replace enough : deposit ≤ storage.balance creator.toList := by simpa using enough
  have taken := fine_taken sound enough
  apply ends_bind
  apply ends_decrement fine
  apply ends_bind
  apply ends_read taken
  apply ends_bind
  apply ends_lift taken
  intro stored converted
  obtain ⟨_, sameDeposit, status⟩ := governanceProposalToStorageProposal_keeps converted
  apply ends_bind
  apply ends_putProposal taken
  apply ends_pure
  have before := value_taken enough
  have written := value_withProposal (storage.taken creator.toList deposit) stored.id stored
  have part := openDeposit_le stored
  refine ⟨⟨?_, taken.1.balances, taken.1.votes⟩, sound_withProposal taken.2 rfl ?_⟩
  · rw [sameDeposit] at part
    change stored.openDeposit ≤ deposit at part
    omega
  · intro _ _ _
    rw [StorageProposal.isOpen, status]
    rfl

theorem addVote_keeps {updated : StorageProposal}
    (added : addVote proposal voteType amount = .ok updated) :
    updated.id = proposal.id ∧ updated.openDeposit = proposal.openDeposit ∧
      updated.isOpen = proposal.isOpen := by
  cases voteType with
  | yes | no | abstain =>
    simp only [addVote] at added
    split at added
    · cases added
      exact ⟨rfl, rfl, rfl⟩
    · cases added

theorem ends_vote (sound : Sound storage) {voter : Address} {voteAmount : Nat} :
    Ends (vote env proposalId voter voteType voteAmount now) storage (Fine storage)
      fun _ => Fine storage := by
  have fine : Fine storage storage := ⟨.refl storage, sound⟩
  apply ends_bind
  apply ends_require fine
  intro _
  apply ends_bind
  apply ends_loadProposal fine
  intro proposal found
  apply ends_bind
  apply ends_require fine
  intro active
  replace active : proposal.isOpen = true := by
    simp_all [StorageProposal.isOpen]
  apply ends_bind
  apply ends_require fine
  intro _
  apply ends_bind
  apply ends_read fine
  apply ends_bind
  apply ends_require fine
  intro new
  replace new : storage.votes[(voter.toList, proposalId)]? = none := by simpa using new
  rw [getAvailableVoteTokens]
  apply ends_bind
  apply ends_read fine
  split
  · apply ends_bind
    apply ends_read fine
    apply ends_bind
    apply ends_read fine
    exact ends_fail fine
  · next enough =>
      replace enough : voteAmount ≤ storage.balance voter.toList := Nat.not_lt.mp enough
      have taken := fine_taken sound enough
      apply ends_bind
      apply ends_decrement fine
      have cast := fine_withVote
        { proposalId, voter := voter.toList, voteType, voteAmount, timestamp := now }
        sound enough new found active
      apply ends_bind
      apply ends_write taken
      apply ends_bind
      apply ends_lift cast
      intro updated added
      obtain ⟨named, deposit, isOpen⟩ := addVote_keeps added
      apply ends_putProposal cast
      apply cast.trans
      apply fine_withProposal cast.2 found named deposit.le
      intro _ _ _
      rw [isOpen, active]

theorem unvoted_spec (bare : unvoted storage proposalId = true) (voter : Bytes) :
    storage.votes[(voter, proposalId)]? = none := by
  cases cast : storage.votes[(voter, proposalId)]? with
  | none => rfl
  | some vote =>
    have other := List.all_eq_true.mp bare ((voter, proposalId), vote)
      (ExtTreeMap.mem_toList_iff_getElem?_eq_some.mpr cast)
    simp at other

theorem due_of_noReturnDue (none : noReturnDue storage now = true)
    (found : storage.proposals[id]? = some proposal) (ended : proposal.ended now = true) :
    (proposal.approves storage.totalVoteTokens = true → proposal.deposit = 0) ∧
      unvoted storage id = true := by
  have checked := List.all_eq_true.mp none (id, proposal)
    (ExtTreeMap.mem_toList_iff_getElem?_eq_some.mpr found)
  simp only [ended, Bool.not_true, Bool.false_or, Bool.and_eq_true] at checked
  refine ⟨fun approved => ?_, checked.2⟩
  simpa [approved] using checked.1

theorem unowed_of_noReturnDue (none : noReturnDue storage now = true) : Unowed storage now := by
  rintro ⟨voter, id⟩ vote cast proposal found
  by_contra ended
  have voteless := unvoted_spec (due_of_noReturnDue none found (by simpa using ended)).2 voter
  rw [voteless] at cast
  cases cast

theorem noReturnDue_withProposal (none : noReturnDue storage now = true)
    (running : proposal.ended now = false) :
    noReturnDue (storage.withProposal id proposal) now = true := by
  apply List.all_eq_true.mpr
  rintro ⟨other, stored⟩ member
  rw [ExtTreeMap.mem_toList_iff_getElem?_eq_some, getElem?_withProposal] at member
  split at member
  · cases member
    simp [running]
  · exact List.all_eq_true.mp none (other, stored)
      (ExtTreeMap.mem_toList_iff_getElem?_eq_some.mpr member)

theorem proposalResult_cases (proposal : StorageProposal) (votes totalVoteTokens : Nat) :
    proposalResult proposal votes totalVoteTokens = .approved ∨
      proposalResult proposal votes totalVoteTokens = .rejected := by
  unfold proposalResult
  split
  · exact Or.inr rfl
  · split
    · exact Or.inl rfl
    · exact Or.inr rfl

theorem ends_unlockVoteTokens (fine : bad storage)
    (found : storage.proposals[proposalId]? = some proposal) (isOpen : proposal.isOpen = true) :
    Ends (unlockVoteTokens env proposalId) storage bad fun _ _ => False := by
  apply ends_bind
  apply ends_loadProposal fine
  intro stored again
  cases found.symm.trans again
  apply ends_bind
  apply ends_require fine
  intro final
  simp only [StorageProposal.isOpen, Bool.or_eq_true, decide_eq_true_eq] at isOpen final
  rcases isOpen with status | status
  · simp [status] at final
  · simp [status] at final

theorem ends_unlockDeposit {proposal : Proposal}
    (fine : bad storage) (kept : proposal.deposit = 0 → good () storage)
    (paid : proposal.deposit ≠ 0 → ∀ tokens, good () { storage with voteTokens := tokens }) :
    Ends (unlockDeposit env proposal) storage bad good := by
  apply ends_bind
  apply ends_require fine
  intro _
  split
  · next none => exact ends_pure (kept none)
  · next some =>
      apply ends_bind
      apply ends_withContext
      apply ends_lift fine
      intro creator _
      apply ends_bind
      apply ends_require fine
      intro _
      apply ends_withContext
      apply ends_bind
      apply ends_read fine
      exact ends_write fine (paid some _)

theorem ends_finishProposal {proposal : StorageProposal} (fine : bad storage)
    (found : storage.proposals[id]? = some stored) (isOpen : stored.isOpen = true)
    (named : proposal.id = id)
    (paid : stored.approves storage.totalVoteTokens = true → proposal.deposit ≠ 0 →
      ∀ tokens, bad { storage with voteTokens := tokens }) :
    Ends (finishProposal env proposal) storage bad fun _ _ => False := by
  apply ends_bind
  apply ends_bind
  apply ends_loadProposal fine
  intro again at_
  rw [named] at at_
  cases found.symm.trans at_
  apply ends_bind
  apply ends_lift fine
  intro votes counted
  apply ends_bind
  apply ends_read fine
  apply ends_pure
  apply ends_bind
  apply ends_lift fine
  intro action _
  apply ends_bind
  -- Whatever was paid, the status that is read back is the old one.
  have unlocks : ∀ after : Storage, after.proposals = storage.proposals → bad after →
      Ends (unlockVoteTokens env proposal.id) after bad fun _ _ => False := by
    intro after same fineAfter
    apply ends_unlockVoteTokens fineAfter ?_ isOpen
    rw [same, named, found]
  rcases proposalResult_cases stored votes storage.totalVoteTokens with approved | rejected
  · have approves : stored.approves storage.totalVoteTokens = true := by
      simp [StorageProposal.approves, counted, approved]
    rw [approved]
    apply ends_bind
    apply ends_unlockDeposit fine
    · intro _
      exact (unlocks storage rfl fine).imp (fun _ holds => holds) (fun _ _ => False.elim)
    · intro some tokens
      exact (unlocks { storage with voteTokens := tokens } rfl (paid approves some tokens)).imp
        (fun _ holds => holds) (fun _ _ => False.elim)
  · rw [rejected]
    apply ends_bind
    apply ends_require fine
    intro _
    exact (unlocks storage rfl fine).imp (fun _ holds => holds) (fun _ _ => False.elim)

theorem isOpen_of_ended (ended : proposal.ended now = true) : proposal.isOpen = true := by
  simp only [StorageProposal.ended, StorageProposal.isOpen, Bool.and_eq_true, Bool.or_eq_true,
    decide_eq_true_eq] at ended ⊢
  rcases ended.1 with active | pending
  · exact Or.inr active
  · exact Or.inl pending.1

theorem ends_processProposal {good : Nat → Storage → Prop}
    (named : ∀ proposal, storage.proposals[proposalId]? = some proposal → proposal.id = proposalId)
    (fine : bad storage) (same : good 0 storage)
    (started : ∀ proposal, storage.proposals[proposalId]? = some proposal →
      proposal.status = .pending → now < proposal.votingEnd →
      good 0 (storage.withProposal proposalId { proposal with status := .activeVoting }))
    (paid : ∀ proposal, storage.proposals[proposalId]? = some proposal →
      proposal.ended now = true → proposal.approves storage.totalVoteTokens = true →
      proposal.deposit ≠ 0 → ∀ tokens, bad { storage with voteTokens := tokens }) :
    Ends (processProposal env now proposalId) storage bad good := by
  apply ends_bind
  apply ends_loadProposal fine
  intro proposal found
  dsimp only
  -- Finishing a proposal never succeeds: the stored status is still the old one.
  have finishes : ∀ changed : StorageProposal, changed.id = proposal.id →
      changed.deposit = proposal.deposit → proposal.ended now = true →
      Ends (finishProposal env changed >>= fun _ => pure 1) storage bad good := by
    intro changed sameId sameDeposit ended
    apply ends_bind
    have stops : Ends (finishProposal env changed) storage bad fun _ _ => False := by
      apply ends_finishProposal fine found (isOpen_of_ended ended)
      · rw [sameId, named proposal found]
      · intro approves some
        rw [sameDeposit] at some
        exact paid proposal found ended approves some
    exact stops.imp (fun _ holds => holds) (fun _ _ => False.elim)
  by_cases starts : (proposal.status = .pending && proposal.reviewEnd ≤ now : Bool) = true
  · rw [if_pos starts]
    by_cases past : proposal.votingEnd ≤ now
    · rw [if_pos ⟨rfl, past⟩]
      exact finishes _ rfl rfl (by simp [StorageProposal.ended, starts, past])
    · rw [if_neg (fun both => past both.2), if_pos starts]
      simp only [Bool.and_eq_true, decide_eq_true_eq] at starts
      have begun := started proposal found starts.1 (Nat.lt_of_not_le past)
      apply ends_bind
      apply ends_putProposal fine
      apply ends_pure
      rwa [← named proposal found] at begun
  · rw [if_neg starts]
    split
    · next past => exact finishes proposal rfl rfl (by simp [StorageProposal.ended, past])
    · exact ends_pure same

theorem fine_processProposal (sound : Sound storage) (none : noReturnDue storage now = true) :
    Ends (processProposal env now proposalId) storage
      (fun after => Fine storage after ∧ noReturnDue after now = true)
      fun _ after => Fine storage after ∧ noReturnDue after now = true := by
  have fine : Fine storage storage := ⟨.refl storage, sound⟩
  apply ends_processProposal (sound.ids proposalId) ⟨fine, none⟩ ⟨fine, none⟩
  · intro proposal found pending running
    have isOpen : proposal.isOpen = true := by simp [StorageProposal.isOpen, pending]
    constructor
    · apply fine_withProposal sound found
      · rfl
      · exact (openDeposit_le _).trans (openDeposit_of_isOpen isOpen).ge
      · intro _ _ _
        rfl
    · apply noReturnDue_withProposal none
      simp [StorageProposal.ended, running]
  · intro proposal found ended approves some
    exact absurd ((due_of_noReturnDue none found ended).1 approves) some

theorem ends_processProposals {ids : List UInt64} (count : Nat) (sound : Sound storage)
    (none : noReturnDue storage now = true) :
    Ends (processProposals env now ids count) storage
      (fun after => Fine storage after ∧ noReturnDue after now = true)
      fun _ after => Fine storage after ∧ noReturnDue after now = true := by
  induction ids generalizing storage count with
  | nil => exact ends_pure ⟨⟨.refl storage, sound⟩, none⟩
  | cons id rest ih =>
    apply ends_bind
    refine (fine_processProposal sound none).imp (fun _ fine => fine) ?_
    -- a proposal that is started now has its end ahead, so nothing falls due in between
    rintro processed after ⟨fine, still⟩
    exact (ih _ fine.2 still).imp (fun _ => And.imp_left fine.trans)
      (fun _ _ => And.imp_left fine.trans)

theorem ends_processExpiredProposals (sound : Sound storage) (none : noReturnDue storage now = true) :
    Ends (processExpiredProposals env now) storage
      (fun after => Fine storage after ∧ Unowed after now)
      fun _ after => Fine storage after ∧ Unowed after now := by
  apply ends_bind
  apply ends_read ⟨⟨.refl storage, sound⟩, unowed_of_noReturnDue none⟩
  exact (ends_processProposals 0 sound none).imp
    (fun _ => And.imp_right unowed_of_noReturnDue) fun _ _ => And.imp_right unowed_of_noReturnDue

theorem transition_changed {proposal changed : Proposal}
    (moved : proposal.transitionStateWithTimestamp now = (changed, true)) :
    changed.id = proposal.id ∧ changed.deposit = proposal.deposit ∧
      (proposal.status = .pending ∧ changed.status = .activeVoting ∨
        proposal.status = .activeVoting ∧ proposal.votingEnd ≤ now ∧ changed.status = .rejected) := by
  unfold Proposal.transitionStateWithTimestamp at moved
  split at moved
  · next pending =>
      split at moved
      · cases moved
        exact ⟨rfl, rfl, Or.inl ⟨pending, rfl⟩⟩
      · cases moved
  · next active =>
      split at moved
      · next past =>
          cases moved
          exact ⟨rfl, rfl, Or.inr ⟨active, past, rfl⟩⟩
      · cases moved
  · cases moved
  · cases moved

theorem toGovernance_eq_pending (same : status.toGovernance = .pending) : status = .pending := by
  cases status <;> first | rfl | cases same

theorem toGovernance_eq_activeVoting (same : status.toGovernance = .activeVoting) :
    status = .activeVoting := by
  cases status <;> first | rfl | cases same

theorem unvoted_of_unsettled
    (quiet : unsettled storage (.updateProposalState proposalId now) = true)
    (found : storage.proposals[proposalId]? = some stored) (active : stored.status = .activeVoting)
    (past : stored.votingEnd ≤ now) : unvoted storage proposalId = true := by
  simpa [unsettled, found, active, past] using quiet

theorem ends_updateProposalState (sound : Sound storage)
    (quiet : unsettled storage (.updateProposalState proposalId now) = true) :
    Ends (updateProposalState env proposalId now) storage (Fine storage) fun _ => Fine storage := by
  have fine : Fine storage storage := ⟨.refl storage, sound⟩
  apply ends_bind
  apply ends_loadProposal fine
  intro stored found
  apply ends_bind
  apply ends_lift fine
  intro proposal converted
  obtain ⟨sameId, sameDeposit, sameStatus, sameEnd⟩ :=
    storageProposalToGovernanceProposal_keeps converted
  rcases moved : proposal.transitionStateWithTimestamp now with ⟨changed, flag⟩
  cases flag with
  | false => exact ends_pure fine
  | true =>
    obtain ⟨changedId, changedDeposit, statuses⟩ := transition_changed moved
    apply ends_bind
    apply ends_lift fine
    intro updated back
    obtain ⟨updatedId, updatedDeposit, updatedStatus⟩ :=
      governanceProposalToStorageProposal_keeps back
    have named : updated.id = stored.id := updatedId.trans (changedId.trans sameId)
    have deposit : updated.deposit = stored.deposit :=
      updatedDeposit.trans (changedDeposit.trans sameDeposit)
    rw [sameStatus] at statuses
    have wasOpen : stored.isOpen = true := by
      unfold StorageProposal.isOpen
      rcases statuses with ⟨pending, _⟩ | ⟨active, _, _⟩
      · rw [toGovernance_eq_pending pending]
        rfl
      · rw [toGovernance_eq_activeVoting active]
        rfl
    have storedId := sound.ids proposalId stored found
    apply ends_bind
    apply ends_putProposal fine
    apply ends_pure
    refine fine_withProposal sound (by rwa [named, storedId]) named ?_ ?_
    · calc updated.openDeposit ≤ updated.deposit := openDeposit_le updated
        _ = stored.deposit := deposit
        _ = stored.openDeposit := (openDeposit_of_isOpen wasOpen).symm
    · intro voter vote cast
      rcases statuses with ⟨_, active⟩ | ⟨active, past, _⟩
      · rw [StorageProposal.isOpen, updatedStatus, active]
        rfl
      · -- A proposal that is rejected here has no votes.
        rw [named, storedId] at cast
        rw [sameEnd] at past
        have none := unvoted_of_unsettled quiet found (toGovernance_eq_activeVoting active) past
        rw [unvoted_spec none voter] at cast
        cases cast

theorem ends_exec (sound : Sound storage) {call : Call} (quiet : unsettled storage call = true) :
    Ends (call.exec env) storage (fun after => Fine storage after ∧ Repaid after call)
      fun _ after => Fine storage after ∧ Repaid after call := by
  cases call with
  | createProposal creator deposit description action now =>
    apply ends_bind
    exact (ends_createProposal sound).imp (fun _ fine => ⟨fine, trivial⟩)
      fun _ _ fine => ends_pure ⟨fine, trivial⟩
  | vote proposalId voter voteType voteAmount now =>
    exact (ends_vote sound).imp (fun _ fine => ⟨fine, trivial⟩) fun _ _ fine => ⟨fine, trivial⟩
  | processExpiredProposals now =>
    apply ends_bind
    exact (ends_processExpiredProposals sound quiet).imp (fun _ fine => fine)
      fun _ _ fine => ends_pure fine
  | updateProposalState proposalId now =>
    apply ends_bind
    exact (ends_updateProposalState sound quiet).imp (fun _ fine => ⟨fine, trivial⟩)
      fun _ _ fine => ends_pure ⟨fine, trivial⟩

theorem fine_step (sound : Sound storage) {event : Event}
    (quiet : unsettled storage event.call = true) :
    Fine storage (step env storage event).1 ∧ Repaid (step env storage event).1 event.call := by
  have here := @ends_exec env storage sound event.call quiet event.faults
  unfold step
  generalize perform (event.call.exec env) { store := storage, faults := event.faults } = outcome
    at here ⊢
  rcases outcome with ⟨after, failure | out⟩
  · exact here
  · exact here

end

/-- As long as no call ends the voting on a proposal with votes or has a deposit to return, no
call lets the tokens grow and none pays anything back. Every vote stays locked, on an open
proposal, and when the expired proposals have been processed no voter is due what it
locked. The calls that fail are among them. -/
theorem tokens_conserved_while_unsettled (env : Env) (start : Storage) (sound : Sound start)
    (events : List Event)
    (quiet : Along (step env) (fun storage event => unsettled storage event.call = true) start events) :
    Along (step env) (fun before event => Kept before (step env before event).1 ∧
        Repaid (step env before event).1 event.call) start events ∧
      Sound (run (step env) start events) := by
  constructor
  · exact along_of_invariant (step env) _ _ Sound
      (fun storage event sound here => (fine_step sound here).1.2)
      (fun storage event sound here => (fine_step sound here).imp_left And.left) start events sound quiet
  · exact run_invariant_along (step env) _ Sound
      (fun storage event sound here => (fine_step sound here).1.2) start events sound quiet

def sampleEnv : Env where
  hexError _ := "Odd number of digits"
  serializeConfig _ := .ok []
  deserializeConfig _ := .error "io error"
  proposalSize _ := 100
  voteSize _ := 100

def sampleHolder : Address := Vector.replicate 32 1

def sampleStart : Storage :=
  { voteTokens := (∅ : ExtTreeMap Bytes Nat).insert sampleHolder.toList 100, totalVoteTokens := 100 }

def sampleVoting : List Event :=
  [{ call := .createProposal sampleHolder 5 "upgrade" (.nonCore "upgrade") 0 },
    { call := .processExpiredProposals 86400 },
    { call := .vote 1 sampleHolder .yes 65 86401 }]

theorem sampleVoting_conserved :
    Along (step sampleEnv) (fun before event => Kept before (step sampleEnv before event).1 ∧
        Repaid (step sampleEnv before event).1 event.call) sampleStart sampleVoting ∧
      Sound (run (step sampleEnv) sampleStart sampleVoting) := by
  apply tokens_conserved_while_unsettled sampleEnv sampleStart
  · constructor
    · intro id proposal found
      simp [sampleStart] at found
    · intro key vote found
      simp [sampleStart] at found
  · decide +kernel

/-- The voting ends with an approval: each time the expired proposals are processed the deposit is
paid out again, and the call fails with the proposal still open. Rejected by
`update_proposal_state` instead, the proposal is final and the votes stay locked. -/
theorem deposit_returned_twice :
    (value sampleStart = 100 ∧ value (run (step sampleEnv) sampleStart (sampleVoting ++
        [{ call := .processExpiredProposals 691200 }, { call := .processExpiredProposals 691200 }])) =
          110) ∧
    ((run (step sampleEnv) sampleStart (sampleVoting ++ [{ call := .processExpiredProposals 691200 },
          { call := .processExpiredProposals 691200 }])).balance sampleHolder.toList = 40 ∧
      (run (step sampleEnv) sampleStart sampleVoting).balance sampleHolder.toList = 30) ∧
    ((run (step sampleEnv) sampleStart (sampleVoting ++ [{ call := .updateProposalState 1 691200 },
          { call := .processExpiredProposals 691200 }])).balance sampleHolder.toList = 30 ∧
      ((run (step sampleEnv) sampleStart (sampleVoting ++ [{ call := .updateProposalState 1 691200 },
          { call := .processExpiredProposals 691200 }])).proposals[(1 : UInt64)]?.map
            StorageProposal.status) = some .rejected) := by
  decide +kernel

end Savitri.Governance
