import Savitri.BftConsensus

/-!
What the locks of the engine come to. A vote that passes its checks waits for the
votes, which it holds itself, so its check for consensus is never made; every other
call returns when it runs alone. Since nothing else leaves the round or decides it, no
interleaving of calls ever commits.
-/
namespace Savitri.BftConsensus
open Std Transition LockedCalls
variable {state : BftState} {choice : Bool} {blockData : List UInt8} {rest : Program}
  {data : Shared} {proposalId voterId proposerId : String} {timestamp : UInt64}
variable (engine : Engine)

section
variable {engine} {held : List (Lock × Mode)}

theorem waitsFor_increment {read : Shared → UInt64} {write : UInt64 → Shared → Shared}
    {rest : Shared → Program} (data : Shared) :
    (alone (increment engine read write rest) held data).waitsFor =
      if isFull engine (read data) then none
      else (alone (rest data) held (write (read data + 1) data)).waitsFor := by
  unfold increment
  rw [alone]
  split
  next => rfl
  next => rfl

theorem waitsFor_count {read : BftStats → UInt64} {write : UInt64 → BftStats → BftStats}
    (data : Shared) :
    (alone (count engine read write rest) held data).waitsFor =
      if isFull engine (read data.stats) then none
      else
        (alone rest held { data with stats := write (read data.stats + 1) data.stats }).waitsFor :=
  waitsFor_increment data

theorem alone_setState (free : blocks held Lock.state .exclusive = false) :
    alone (setState state rest) held data = alone rest held { data with state } :=
  alone_poke free

theorem createProposal_returns :
    (alone (createProposal engine blockData proposerId timestamp) [] data).waitsFor = none := by
  rw [createProposal, alone_peek rfl]
  cases refuseProposer data proposerId with
  | some error => rfl
  | none =>
    dsimp only
    rw [alone_peek rfl, alone]
    split
    next => rfl
    next =>
      rw [storeProposal, alone_acquire rfl, alone]
      split
      next => rfl
      next =>
        rw [alone_setState rfl, alone_acquire rfl, waitsFor_count]
        split <;> rfl

theorem nextRound_returns : (alone (nextRound engine) [] data).waitsFor = none := by
  rw [nextRound, alone_peek rfl]
  split
  next =>
    rw [alone_acquire rfl, waitsFor_increment]
    split
    next => rfl
    next =>
      rw [alone_acquire rfl, alone_acquire rfl, alone, alone_setState rfl,
        alone_acquire rfl, waitsFor_count]
      split <;> rfl
  next => rfl

/-- Once its vote is in, the call asks for the votes, which it has locked. -/
theorem storeVote_waitsFor {vote : BftVote} :
    (alone (storeVote engine vote) [] data).waitsFor =
      if hasVoted data vote || isFull engine data.stats.totalVotes then none else some .votes := by
  rw [storeVote, alone_acquire rfl, alone]
  by_cases again : hasVoted data vote = true
  · rw [if_pos again]
    simp [again]
    rfl
  · rw [if_neg again, if_neg again, alone_setState rfl, alone_acquire rfl, waitsFor_count]
    simp only [again, Bool.false_or]
    rfl

theorem castVote_waitsFor {vote : BftVote} :
    (alone (castVote engine vote) [] data).waitsFor =
      if vote.signature ≠ zeroSignature && isVerified engine data vote && !hasVoted data vote &&
        !isFull engine data.stats.totalVotes then some .votes else none := by
  unfold castVote
  by_cases unsigned : vote.signature = zeroSignature
  · simp [unsigned]
    rfl
  · rw [if_neg unsigned, alone_peek rfl]
    by_cases verified : isVerified engine data vote = true
    · rw [if_pos verified, storeVote_waitsFor]
      cases again : hasVoted data vote <;> cases full : isFull engine data.stats.totalVotes <;>
        simp [unsigned, verified]
    · rw [if_neg verified]
      simp [verified]
      rfl

end

def accepts (data : Shared) : Call → Bool
  | .vote proposalId voterId choice timestamp =>
    let vote :=
      signedVote engine data.currentRound data.idCounter proposalId voterId choice timestamp
    (refuseVoter data voterId).isNone && vote.signature ≠ zeroSignature &&
      isVerified engine data vote && !hasVoted data vote && !isFull engine data.stats.totalVotes
  | _ => false

theorem vote_waitsFor :
    (alone (vote engine proposalId voterId choice timestamp) [] data).waitsFor =
      if accepts engine data (.vote proposalId voterId choice timestamp) then some .votes
      else none := by
  rw [vote, alone_peek rfl, alone, alone_peek rfl]
  -- the counter of ids, raised by now, is in none of the checks
  have same : refuseVoter { data with idCounter := data.idCounter + 1 } voterId =
      refuseVoter data voterId := rfl
  rw [same]
  cases refused : refuseVoter data voterId with
  | some error => simp [accepts, refused, alone, Ending.waitsFor]
  | none =>
    dsimp only
    rw [castVote_waitsFor]
    simp only [accepts, refused, Option.isNone_none, Bool.true_and]
    rfl

/-- Run alone, a call asks for no lock that it holds itself exactly if it is not an accepted
vote. -/
theorem never_waits_for_itself_iff (data : Shared) (call : Call) :
    (∀ lock, alone (program engine call) [] data ≠ .waits lock) ↔
      accepts engine data call = false := by
  have waits : (∀ lock, alone (program engine call) [] data ≠ .waits lock) ↔
      (alone (program engine call) [] data).waitsFor = none := by
    cases alone (program engine call) [] data with
    | returned | waits => simp [Ending.waitsFor]
  rw [waits]
  cases call with
  | addValidator | removeValidator => exact iff_of_true rfl rfl
  | createProposal blockData proposerId timestamp =>
    simp [accepts, program, createProposal_returns]
  | vote proposalId voterId choice timestamp =>
    rw [program, vote_waitsFor]
    cases accepts engine data (.vote proposalId voterId choice timestamp) <;> simp
  | nextRound => simp [accepts, program, nextRound_returns]

def sampleEngine : Engine where
  localSigningKey := some (Vector.replicate 32 3)
  blake3 _ := Vector.replicate 32 0
  signMessage _ _ := some (Vector.replicate 64 5)
  verifySignature _ _ _ := true
  overflowChecks := false

def sampleValidator : ValidatorInfo where
  validatorId := "v1"
  publicKey := Vector.replicate 32 4
  status := .active

def sampleShared : Shared where
  validators := ExtTreeMap.ofList [("v1", sampleValidator)]

/-- The first vote of an active validator never returns. -/
theorem first_vote_waits_for_itself :
    accepts sampleEngine sampleShared (.vote "p" "v1" true 1000) = true ∧
      (alone (program sampleEngine (.vote "p" "v1" true 1000)) [] sampleShared).waitsFor =
        some .votes := by
  decide +kernel

section Interleavings
variable {engine} {held : List (Lock × Mode)} {good : Shared → Prop}

/-- Every vote stands under its voter, in the table of its round. -/
def Filed (data : Shared) : Prop :=
  ∀ (round : UInt64) (voter : String) (vote : BftVote),
    (roundVotes data round)[voter]? = some vote → vote.voterId = voter ∧ vote.round = round

def Open (data : Shared) : Prop :=
  data.state ≠ .committed ∧ data.state ≠ .timeout ∧ data.currentRound = 0 ∧ Filed data

theorem keeps_increment {read : Shared → UInt64} {write : UInt64 → Shared → Shared}
    {rest : Shared → Program} (kept : ∀ value data, good data → good (write value data))
    (later : ∀ data, good data → Keeps good held (rest data)) :
    Keeps good held (increment engine read write rest) := by
  apply keeps_access
  · intro data fine
    split
    · exact fine
    · exact kept _ data fine
  · intro data fine
    split
    · trivial
    · exact later data fine

theorem keeps_count {read : BftStats → UInt64} {write : UInt64 → BftStats → BftStats}
    (later : Keeps Open held rest) : Keeps Open held (count engine read write rest) :=
  keeps_increment (fun _ _ fine => fine) fun _ _ => later

theorem keeps_setState (uncommitted : state ≠ .committed) (inTime : state ≠ .timeout)
    (later : Keeps Open held rest) : Keeps Open held (setState state rest) :=
  keeps_poke (fun _ fine => ⟨uncommitted, inTime, fine.2.2⟩) later

theorem keeps_storeProposal (proposal : BftProposal) :
    Keeps Open [] (storeProposal engine proposal) := by
  intro _
  apply keeps_access
  · intro data fine
    split <;> exact fine
  · intro data _
    split
    next => trivial
    next =>
      apply keeps_setState (by decide) (by decide)
      intro _
      exact keeps_count trivial

theorem keeps_createProposal (timestamp : UInt64) :
    Keeps Open [] (createProposal engine blockData proposerId timestamp) := by
  apply keeps_peek
  intro data _
  split
  next => trivial
  next =>
    apply keeps_peek
    intro data _
    apply keeps_access (fun _ fine => fine)
    intro data _
    dsimp only
    split
    next => trivial
    next => exact keeps_storeProposal _

theorem filed_insert (filed : Filed data) {vote : BftVote} :
    Filed { data with
      votes := data.votes.insert vote.round
        ((roundVotes data vote.round).insert vote.voterId vote) } := by
  intro round voter found here
  unfold roundVotes at here
  rw [ExtTreeMap.getElem?_insert] at here
  by_cases same : vote.round = round
  · subst same
    rw [if_pos ReflCmp.compare_self, Option.getD_some, ExtTreeMap.getElem?_insert] at here
    split at here
    next sameVoter =>
      cases here
      exact ⟨LawfulEqCmp.compare_eq_iff_eq.mp sameVoter, rfl⟩
    next => exact filed _ _ _ here
  · rw [if_neg (by rwa [LawfulEqCmp.compare_eq_iff_eq])] at here
    exact filed _ _ _ here

theorem keeps_storeVote (vote : BftVote) : Keeps Open [] (storeVote engine vote) := by
  intro _
  apply keeps_access
  · intro data fine
    split
    next => exact fine
    next => exact ⟨fine.1, fine.2.1, fine.2.2.1, filed_insert fine.2.2.2⟩
  · intro data _
    split
    next => trivial
    next =>
      apply keeps_setState (by decide) (by decide)
      intro _
      apply keeps_count
      intro free
      exact absurd free (by decide)

theorem keeps_vote (timestamp : UInt64) :
    Keeps Open [] (vote engine proposalId voterId choice timestamp) := by
  apply keeps_peek
  intro data _
  apply keeps_access (fun _ fine => fine)
  intro data _
  apply keeps_peek
  intro data _
  split
  next => trivial
  next =>
    unfold castVote
    split
    next => trivial
    next =>
      apply keeps_peek
      intro data _
      split
      next => exact keeps_storeVote _
      next => trivial

theorem keeps_nextRound : Keeps Open [] (nextRound engine) := by
  apply keeps_peek
  intro data fine
  rw [if_neg]
  · trivial
  · rintro (committed | timeout)
    · exact fine.1 committed
    · exact fine.2.1 timeout

theorem keeps_program (call : Call) : Keeps Open [] (program engine call) := by
  cases call with
  | addValidator | removeValidator => exact keeps_poke (fun _ fine => fine) trivial
  | createProposal blockData proposerId timestamp =>
    exact keeps_createProposal timestamp
  | vote proposalId voterId choice timestamp => exact keeps_vote timestamp
  | nextRound => exact keeps_nextRound

variable (engine) in
def dataAfter (events : List (Event Call)) : Shared :=
  (run (step (program engine)) { data := {} } events).data

theorem open_run (events : List (Event Call)) : Open (dataAfter engine events) := by
  apply good_run _ keeps_program
  refine ⟨by decide, by decide, rfl, ?_⟩
  intro round voter vote found
  simp [roundVotes] at found

end Interleavings

/-- No interleaving of calls decides a round or leaves the first one, and every stored vote
stands under its own voter, in the table of its own round. -/
theorem first_round_undecided (events : List (Event Call)) :
    (dataAfter engine events).state ≠ .committed ∧ (dataAfter engine events).state ≠ .timeout ∧
      (dataAfter engine events).currentRound = 0 ∧
      ∀ (round : UInt64) (voter : String) (vote : BftVote),
        (roundVotes (dataAfter engine events) round)[voter]? = some vote →
          vote.voterId = voter ∧ vote.round = round := by
  obtain ⟨uncommitted, inTime, first, filed⟩ := @open_run engine events
  exact ⟨uncommitted, inTime, first, filed⟩

end Savitri.BftConsensus
