import Savitri.VoteTokens

/-!
What becomes of proposals over several calls. Each call that processes the expired ones looks
at the same ids again, and the first whose voting is over stops it, so that no final status is
ever written. A new proposal takes its id from a counter that no call advances.
-/
namespace Savitri.Governance
open Std (ExtTreeMap)
open Fallible FaultyStore Transition
variable {env : Env} {now : Nat}

def Filed (storage : Storage) : Prop :=
  ∀ (id : UInt64) (proposal : StorageProposal), storage.proposals[id]? = some proposal →
    proposal.id = id

section Expiry
def expire (env : Env) (now : Nat) (storage : Storage) (faults : List (Option String)) :
    Storage × Except Failure Nat :=
  let (after, result) := perform (processExpiredProposals env now) { store := storage, faults }
  (after.store, result)

def StorageProposal.settled (proposal : StorageProposal) (totalVoteTokens : Nat) : Prop :=
  (proposal.status = .approved ∨ proposal.status = .rejected) ∧
    (proposal.status = .approved ↔ proposal.approves totalVoteTokens = true)

def Settled (now : Nat) (storage : Storage) : Prop :=
  ∀ (id : UInt64) (proposal : StorageProposal), storage.proposals[id]? = some proposal →
    proposal.votingEnd ≤ now → proposal.settled storage.totalVoteTokens

def Storage.expired (storage : Storage) (now : Nat) (id : UInt64) : Option StorageProposal :=
  storage.proposals[id]?.filter fun proposal => proposal.votingEnd ≤ now

variable {id : UInt64} {proposal : StorageProposal}

theorem expired_eq_some {storage : Storage} :
    storage.expired now id = some proposal ↔
      storage.proposals[id]? = some proposal ∧ proposal.votingEnd ≤ now := by
  simp [Storage.expired, Option.filter_eq_some_iff]

theorem settled_iff_expired {storage : Storage} :
    Settled now storage ↔ ∀ id proposal, storage.expired now id = some proposal →
      proposal.settled storage.totalVoteTokens := by
  constructor
  · intro settled id proposal expired
    rw [expired_eq_some] at expired
    exact settled id proposal expired.1 expired.2
  · intro settled id proposal found past
    exact settled id proposal (expired_eq_some.mpr ⟨found, past⟩)

structure Waiting (now : Nat) (before after : Storage) : Prop where
  filed : Filed after
  tokens : after.totalVoteTokens = before.totalVoteTokens
  expired : ∀ id, after.expired now id = before.expired now id

variable {storage : Storage}
variable (filed : Filed storage)
include filed

theorem Waiting.refl : Waiting now storage storage :=
  ⟨filed, rfl, fun _ => rfl⟩

omit filed in
theorem Waiting.trans {first second third : Storage} (one : Waiting now first second)
    (two : Waiting now second third) : Waiting now first third :=
  ⟨two.filed, two.tokens.trans one.tokens, fun id => (two.expired id).trans (one.expired id)⟩

theorem filed_withProposal (named : proposal.id = id) : Filed (storage.withProposal id proposal) := by
  intro other stored found
  rw [getElem?_withProposal] at found
  split at found
  · next same =>
      cases found
      exact named.trans same
  · exact filed other stored found

theorem waiting_withProposal {old : StorageProposal} (found : storage.proposals[id]? = some old)
    (running : now < old.votingEnd) (named : proposal.id = old.id)
    (sameEnd : proposal.votingEnd = old.votingEnd) :
    Waiting now storage (storage.withProposal id proposal) := by
  constructor
  · exact filed_withProposal filed (named.trans (filed id old found))
  · rfl
  · intro other
    unfold Storage.expired
    rw [getElem?_withProposal]
    split
    · next same =>
        have late : ¬ old.votingEnd ≤ now := Nat.not_le.mpr running
        rw [← same, found]
        simp [Option.filter, sameEnd, late]
    · rfl

theorem waiting_processProposal {proposalId : UInt64} :
    Ends (processProposal env now proposalId) storage (Waiting now storage)
      fun _ => Waiting now storage := by
  apply ends_processProposal (filed proposalId) (.refl filed) (.refl filed)
  · intro proposal found _ running
    exact waiting_withProposal filed found running rfl rfl
  · -- A deposit that was paid out touches no proposal.
    intro proposal found _ _ _ tokens
    exact ⟨filed, rfl, fun _ => rfl⟩

omit filed in
theorem waiting_processProposals {ids : List UInt64} (count : Nat) (filed : Filed storage) :
    Ends (processProposals env now ids count) storage (Waiting now storage)
      fun _ => Waiting now storage := by
  induction ids generalizing storage count with
  | nil => exact ends_pure (.refl filed)
  | cons id rest ih =>
    apply ends_bind
    apply (waiting_processProposal filed).imp (fun _ waiting => waiting)
    intro processed after waiting
    exact (ih _ waiting.filed).imp (fun _ => waiting.trans) (fun _ _ => waiting.trans)

theorem waiting_expire {faults : List (Option String)} :
    Waiting now storage (expire env now storage faults).1 := by
  have ends : Ends (processExpiredProposals env now) storage (Waiting now storage)
      fun _ => Waiting now storage := by
    apply ends_bind
    apply ends_read (.refl filed)
    exact waiting_processProposals 0 filed
  have here := ends faults
  unfold expire
  generalize perform (processExpiredProposals env now) { store := storage, faults } = outcome
    at here ⊢
  rcases outcome with ⟨after, failure | count⟩
  · exact here
  · exact here

theorem waiting_run {calls : List (List (Option String))} :
    Waiting now storage (run (expire env now) storage calls) := by
  apply run_invariant (expire env now) (Waiting now storage)
  · intro state faults waiting
    exact waiting.trans (waiting_expire waiting.filed)
  · exact .refl filed

end Expiry

/-- However often the expired proposals are processed, and whatever accesses fail meanwhile, they
are all final afterwards exactly if they were before the first call. -/
theorem expired_settled_iff (env : Env) (start : Storage) (filed : Filed start) (now : Nat)
    (calls : List (List (Option String))) :
    Settled now (run (expire env now) start calls) ↔ Settled now start := by
  have waiting : Waiting now start (run (expire env now) start calls) := waiting_run filed
  rw [settled_iff_expired, settled_iff_expired, waiting.tokens]
  simp only [waiting.expired]

/-- A proposal that `update_proposal_state` rejected when its voting was over. -/
def sampleRejected : Storage :=
  run (step sampleEnv) sampleStart
    [{ call := .createProposal sampleHolder 5 "upgrade" (.nonCore "upgrade") 0 },
      { call := .processExpiredProposals 86400 }, { call := .updateProposalState 1 691200 }]

theorem sampleRejected_settled :
    Settled 691200 (run (expire sampleEnv 691200) sampleRejected [[], []]) := by
  have only : sampleRejected.proposals.toList.all (fun entry => entry.2.id == entry.1 &&
      (decide (entry.2.status = .rejected) &&
        !entry.2.approves sampleRejected.totalVoteTokens)) = true := by decide +kernel
  have each : ∀ (id : UInt64) (proposal : StorageProposal),
      sampleRejected.proposals[id]? = some proposal → proposal.id = id ∧
        proposal.status = .rejected ∧ proposal.approves sampleRejected.totalVoteTokens = false := by
    intro id proposal found
    have here := List.all_eq_true.mp only (id, proposal)
      (ExtTreeMap.mem_toList_iff_getElem?_eq_some.mpr found)
    simpa using here
  apply (expired_settled_iff sampleEnv sampleRejected (fun id proposal found =>
    (each id proposal found).1) 691200 [[], []]).mpr
  intro id proposal found _
  obtain ⟨_, rejected, refused⟩ := each id proposal found
  exact ⟨Or.inr rejected, by simp [rejected, refused]⟩

def sampleExpired : Storage :=
  run (expire sampleEnv 691200) (run (step sampleEnv) sampleStart sampleVoting) [[], []]

/-- The votes approve the proposal and its voting is over, and it is still open after two
calls. -/
theorem approved_stays_open :
    (sampleExpired.proposals[(1 : UInt64)]?.map fun proposal =>
        (decide (proposal.votingEnd ≤ 691200), proposal.approves sampleExpired.totalVoteTokens,
          decide (proposal.status = .activeVoting))) = some (true, true, true) := by
  decide +kernel

section Creation
structure Creation where
  creator : Address
  deposit : Nat
  description : String
  action : ProposalAction
  now : Nat
  faults : List (Option String) := []

def create (env : Env) (storage : Storage) (creation : Creation) : Storage × Except Failure Proposal :=
  let (after, result) := perform (createProposal env creation.creator creation.deposit
    creation.description creation.action creation.now) { store := storage, faults := creation.faults }
  (after.store, result)

def Storage.newId (storage : Storage) : UInt64 := storage.nextId.getD 1

/-- The call stored its proposal under an unused id, and the proposals and votes that were there
are there still. -/
def StoresFresh (env : Env) (storage : Storage) (creation : Creation) : Prop :=
  let after := (create env storage creation).1
  (∃ proposal stored, (create env storage creation).2 = .ok proposal ∧
      governanceProposalToStorageProposal env.toCodec proposal = .ok stored ∧
      storage.proposals[proposal.id]? = none ∧ after.proposals[proposal.id]? = some stored) ∧
    (∀ (id : UInt64) (earlier : StorageProposal), storage.proposals[id]? = some earlier →
      after.proposals[id]? = some earlier) ∧
    after.votes = storage.votes

structure Created (env : Env) (storage : Storage) (proposal : Proposal) (after : Storage) :
    Prop where
  named : proposal.id = storage.newId
  stored : ∃ stored, governanceProposalToStorageProposal env.toCodec proposal = .ok stored ∧
    after.proposals = storage.proposals.insert proposal.id stored
  votes : after.votes = storage.votes
  counter : after.nextId = storage.nextId

variable {storage : Storage}

theorem ends_created {creation : Creation} :
    Ends (createProposal env creation.creator creation.deposit creation.description creation.action
      creation.now) storage (fun _ => True) (Created env storage) := by
  apply ends_bind
  apply ends_read trivial
  apply ends_bind
  apply ends_require trivial
  intro _
  apply ends_bind
  apply ends_read trivial
  apply ends_bind
  apply ends_require trivial
  intro _
  apply ends_bind
  apply ends_decrement trivial
  apply ends_bind
  apply ends_read trivial
  apply ends_bind
  apply ends_lift trivial
  intro stored converted
  have named := (governanceProposalToStorageProposal_keeps converted).1
  apply ends_bind
  apply ends_putProposal trivial
  apply ends_pure
  constructor
  · rfl
  · refine ⟨stored, converted, ?_⟩
    rw [← named]
    rfl
  · rfl
  · rfl

variable {creation : Creation} {proposal : Proposal}
variable (ok : (create env storage creation).2 = .ok proposal)
include ok

theorem created_of_ok : Created env storage proposal (create env storage creation).1 := by
  have ends : Ends (createProposal env creation.creator creation.deposit creation.description
    creation.action creation.now) storage (fun _ => True) (Created env storage) :=
    ends_created
  have here := ends creation.faults
  unfold create at ok ⊢
  generalize perform (createProposal env creation.creator creation.deposit creation.description
    creation.action creation.now) { store := storage, faults := creation.faults } = outcome
    at here ok ⊢
  rcases outcome with ⟨after, failure | returned⟩
  · cases ok
  · cases ok
    exact here

omit ok in
theorem getElem?_created {after : Storage} (created : Created env storage proposal after) :
    ∃ stored, governanceProposalToStorageProposal env.toCodec proposal = .ok stored ∧
      ∀ id, after.proposals[id]? =
        if storage.newId = id then some stored else storage.proposals[id]? := by
  obtain ⟨stored, converted, written⟩ := created.stored
  refine ⟨stored, converted, ?_⟩
  intro id
  rw [written, ExtTreeMap.getElem?_insert, created.named]
  simp only [Std.LawfulEqCmp.compare_eq_iff_eq]

theorem storesFresh_iff :
    StoresFresh env storage creation ↔ storage.proposals[storage.newId]? = none := by
  have created := created_of_ok ok
  obtain ⟨stored, converted, reads⟩ := getElem?_created created
  constructor
  · rintro ⟨⟨returned, _, again, _, unused, _⟩, _⟩
    cases ok.symm.trans again
    rwa [created.named] at unused
  · intro unused
    refine ⟨⟨proposal, stored, ok, converted, ?_, ?_⟩, ?_, created.votes⟩
    · rwa [created.named]
    · rw [reads, if_pos created.named.symm]
    · intro id earlier found
      rw [reads, if_neg ?_]
      · exact found
      · rintro rfl
        rw [unused] at found
        cases found

/-- The counter stays, so its id is in use from the first call on. -/
theorem used_after_create :
    (create env storage creation).1.proposals[(create env storage creation).1.newId]? ≠ none := by
  have created := created_of_ok ok
  obtain ⟨stored, _, reads⟩ := getElem?_created created
  have same : storage.newId = (create env storage creation).1.newId := by
    unfold Storage.newId
    rw [created.counter]
  rw [reads, if_pos same]
  simp

omit ok

theorem exists_ok (ok : (create env storage creation).2.isOk = true) :
    ∃ proposal, (create env storage creation).2 = .ok proposal := by
  cases result : (create env storage creation).2 with
  | error failure => simp [result, Except.isOk, Except.toBool] at ok
  | ok proposal => exact ⟨proposal, rfl⟩

end Creation

/-- Of calls that succeed, only the first can find its id unused. -/
theorem creations_fresh_iff (env : Env) (start : Storage) (creations : List Creation)
    (succeed : Along (create env)
      (fun storage creation => (create env storage creation).2.isOk = true) start creations) :
    Along (create env) (StoresFresh env) start creations ↔
      creations.length ≤ 1 ∧ (creations ≠ [] → start.proposals[start.newId]? = none) := by
  cases creations with
  | nil => simp [Along]
  | cons creation rest =>
    obtain ⟨proposal, ok⟩ := exists_ok succeed.1
    have first := storesFresh_iff ok
    cases rest with
    | nil => simpa [Along] using first
    | cons second later =>
      obtain ⟨_, okSecond⟩ := exists_ok succeed.2.1
      constructor
      · rintro ⟨_, fresh, _⟩
        exact absurd ((storesFresh_iff okSecond).mp fresh) (used_after_create ok)
      · rintro ⟨short, _⟩
        simp at short

def sampleCreation (description : String) : Creation where
  creator := sampleHolder
  deposit := 5
  description
  action := .nonCore "upgrade"
  now := 0

theorem sampleCreation_fresh :
    Along (create sampleEnv) (StoresFresh sampleEnv) sampleStart [sampleCreation "first"] :=
  (creations_fresh_iff sampleEnv sampleStart [sampleCreation "first"] (by decide +kernel)).mpr
    (by decide +kernel)

/-- Two calls succeed, and one proposal is stored: the second took the place of the first. -/
theorem second_creation_overwrites :
    (outputs (create sampleEnv) sampleStart [sampleCreation "first", sampleCreation "second"]).map
        Except.isOk = [true, true] ∧
      (run (create sampleEnv) sampleStart [sampleCreation "first"]).proposals.toList.map
        (fun entry => (entry.1, entry.2.description)) = [(1, "first")] ∧
      (run (create sampleEnv) sampleStart
        [sampleCreation "first", sampleCreation "second"]).proposals.toList.map
        (fun entry => (entry.1, entry.2.description)) = [(1, "second")] := by
  decide +kernel

end Savitri.Governance
