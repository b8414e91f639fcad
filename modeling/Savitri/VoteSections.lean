import Savitri.Votes

/-!
Concurrent calls on one vote aggregator. Every section under a lock is one event, in any
schedule: `add_vote` checks the issued certificates, looks up the quorum, tallies its vote
and marks the certificate, and a cleanup drops old votes and then old marks. The tally
issues the certificate. Its mark comes two sections later and may be dropped again, so a
vote that passed its check can be tallied for a proposal that is certified by then.
-/
namespace Savitri.VoteSections
open Std Transition Reordering LatticeTypes Votes
variable {more past : List ProposalKey} {id : Nat}

inductive Task where
  | idle
  | checked (vote : MasternodeVote)
  | ready (vote : MasternodeVote) (quorum : Nat)
  | certified (cert : BlockCertificate)
  | cleaning (floor : Nat)

structure Machine where
  aggregator : VoteAggregator
  tasks : Nat → Task := fun _ => .idle

inductive Event where
  | check (id : Nat) (vote : MasternodeVote)
  | lookUp (id : Nat)
  | tally (id : Nat) (now : Nat)
  | mark (id : Nat)
  | cleanVotes (id : Nat) (maxHeight : Nat)
  | cleanIssued (id : Nat)
  | setGroupMnSizes (order : Shuffle (String × Nat)) (sizes : ExtTreeMap String Nat)

def assign (machine : Machine) (id : Nat) (task : Task) : Machine :=
  { machine with tasks := fun other => if other = id then task else machine.tasks other }

/-- One section of one call. An event that does not come next in its call is void. -/
def step (crypto : Crypto) (machine : Machine) : Event → Machine × Option BlockCertificate
  | .check id vote =>
    match machine.tasks id with
    | .idle =>
      if verifyVoteSignature crypto vote && !isIssued machine.aggregator vote.key then
        (assign machine id (.checked vote), none)
      else (machine, none)
    | _ => (machine, none)
  | .lookUp id =>
    match machine.tasks id with
    | .checked vote =>
      (assign machine id (.ready vote (quorumForGroup machine.aggregator vote.groupId)), none)
    | _ => (machine, none)
  | .tally id now =>
    match machine.tasks id with
    | .ready vote quorum =>
      let tallied := tallyVote now machine.aggregator vote quorum
      let next := { machine with aggregator := tallied.1 }
      match tallied.2 with
      | some cert => (assign next id (.certified cert), some cert)
      | none => (assign next id .idle, none)
    | _ => (machine, none)
  | .mark id =>
    match machine.tasks id with
    | .certified cert =>
      (assign { machine with aggregator := markIssued machine.aggregator cert.key } id .idle, none)
    | _ => (machine, none)
  | .cleanVotes id maxHeight =>
    match machine.tasks id with
    | .idle =>
      let floor := cleanupFloor maxHeight
      (assign { machine with aggregator := cleanupVotes machine.aggregator floor } id
        (.cleaning floor), none)
    | _ => (machine, none)
  | .cleanIssued id =>
    match machine.tasks id with
    | .cleaning floor =>
      (assign { machine with aggregator := cleanupIssued machine.aggregator floor } id .idle, none)
    | _ => (machine, none)
  | .setGroupMnSizes order sizes =>
    ({ machine with aggregator := setGroupMnSizes order machine.aggregator sizes }, none)

/-- The moves of the machine, one for each section that finds its call at it. -/
inductive Move (crypto : Crypto) (machine : Machine) :
    Event → Machine → Option BlockCertificate → Prop
  | void (event : Event) (aggregator : VoteAggregator) :
      aggregator.issuedCerts = machine.aggregator.issuedCerts →
      Move crypto machine event { machine with aggregator } none
  | check (id : Nat) (vote : MasternodeVote) : machine.tasks id = .idle →
      verifyVoteSignature crypto vote = true → isIssued machine.aggregator vote.key = false →
      Move crypto machine (.check id vote) (assign machine id (.checked vote)) none
  | lookUp (id : Nat) (vote : MasternodeVote) : machine.tasks id = .checked vote →
      Move crypto machine (.lookUp id)
        (assign machine id (.ready vote (quorumForGroup machine.aggregator vote.groupId))) none
  | tallied (id now : Nat) (vote : MasternodeVote) (quorum : Nat) :
      machine.tasks id = .ready vote quorum →
      (tallyVote now machine.aggregator vote quorum).2 = none →
      Move crypto machine (.tally id now)
        (assign { machine with
          aggregator := (tallyVote now machine.aggregator vote quorum).1 } id .idle) none
  | certified (id now : Nat) (vote : MasternodeVote) (quorum : Nat) (cert : BlockCertificate) :
      machine.tasks id = .ready vote quorum →
      (tallyVote now machine.aggregator vote quorum).2 = some cert →
      Move crypto machine (.tally id now)
        (assign { machine with
          aggregator := (tallyVote now machine.aggregator vote quorum).1 } id
          (.certified cert)) (some cert)
  | mark (id : Nat) (cert : BlockCertificate) : machine.tasks id = .certified cert →
      Move crypto machine (.mark id)
        (assign { machine with aggregator := markIssued machine.aggregator cert.key } id .idle)
        none
  | cleanVotes (id maxHeight : Nat) : machine.tasks id = .idle →
      Move crypto machine (.cleanVotes id maxHeight)
        (assign { machine with
          aggregator := cleanupVotes machine.aggregator (cleanupFloor maxHeight) } id
          (.cleaning (cleanupFloor maxHeight))) none
  | cleanIssued (id floor : Nat) : machine.tasks id = .cleaning floor →
      Move crypto machine (.cleanIssued id)
        (assign { machine with aggregator := cleanupIssued machine.aggregator floor } id .idle)
        none

theorem step_move (crypto : Crypto) (machine : Machine) (event : Event) :
    Move crypto machine event (step crypto machine event).1 (step crypto machine event).2 := by
  have still : ∀ event, Move crypto machine event machine none := fun event =>
    Move.void event machine.aggregator rfl
  cases event with
  | check id vote =>
    simp only [step]
    split
    next free =>
      split
      next passes =>
        rw [Bool.and_eq_true, Bool.not_eq_true'] at passes
        exact Move.check id vote free passes.1 passes.2
      next => exact still _
    next => exact still _
  | lookUp id =>
    simp only [step]
    split
    next vote found => exact Move.lookUp id vote found
    next => exact still _
  | tally id now =>
    simp only [step]
    split
    next vote quorum found =>
      split
      next cert issued => exact Move.certified id now vote quorum cert found issued
      next none => exact Move.tallied id now vote quorum found none
    next => exact still _
  | mark id =>
    simp only [step]
    split
    next cert found => exact Move.mark id cert found
    next => exact still _
  | cleanVotes id maxHeight =>
    simp only [step]
    split
    next free => exact Move.cleanVotes id maxHeight free
    next => exact still _
  | cleanIssued id =>
    simp only [step]
    split
    next floor found => exact Move.cleanIssued id floor found
    next => exact still _
  | setGroupMnSizes order sizes => exact Move.void _ _ rfl

section
variable (crypto : Crypto)

theorem tasks_restored {tasks later : Nat → Task} (free : tasks id = .idle)
    (rest : ∀ other, other ≠ id → later other = tasks other) :
    (fun other => if other = id then .idle else later other) = tasks := by
  funext other
  by_cases here : other = id
  · rw [if_pos here, here, free]
  · rw [if_neg here, rest other here]

def issuedIn (machine : Machine) (events : List Event) : List BlockCertificate :=
  (outputs (step crypto) machine events).flatMap Option.toList

theorem sections_addVote {machine : Machine} {now : Nat} {vote : MasternodeVote}
    (free : machine.tasks id = .idle) :
    run (step crypto) machine [.check id vote, .lookUp id, .tally id now, .mark id] =
        { machine with aggregator := (addVote crypto now machine.aggregator vote).1 } ∧
      issuedIn crypto machine [.check id vote, .lookUp id, .tally id now, .mark id] =
        (addVote crypto now machine.aggregator vote).2.toList := by
  by_cases verified : verifyVoteSignature crypto vote = true
  · cases late : isIssued machine.aggregator vote.key with
    | true => simp [step, addVote, issuedIn, outputs, free, verified, late]
    | false =>
      have key := tallyVote_key now machine.aggregator vote
        (quorumForGroup machine.aggregator vote.groupId)
      cases result : (tallyVote now machine.aggregator vote
          (quorumForGroup machine.aggregator vote.groupId)).2 with
      | none | some cert =>
        simp only [step, addVote, issuedIn, outputs, run_cons, run_nil, free, verified, late,
          result, key, assign, if_true, Bool.not_false, Bool.and_true, Bool.false_eq_true, if_false]
        refine ⟨congrArg (Machine.mk _) ?_, rfl⟩
        exact tasks_restored free fun other differ => by simp [differ]
  · simp [step, addVote, issuedIn, outputs, free, verified]

end

section Unique
variable (crypto : Crypto)

def Holds (machine : Machine) (key : ProposalKey) : Prop :=
  ∃ id cert, machine.tasks id = .certified cert ∧ cert.key = key

variable (past : List BlockCertificate) (state : Recorded) {machine : Machine}

theorem holds_assign {aggregator : VoteAggregator} {task : Task} {key : ProposalKey}
    (holds : Holds machine key) (before : ∀ cert, machine.tasks id ≠ .certified cert) :
    Holds (assign { machine with aggregator } id task) key := by
  rcases holds with ⟨other, cert, found, same⟩
  have differ : other ≠ id := by
    rintro rfl
    exact before cert found
  exact ⟨other, cert, (if_neg differ).trans found, same⟩

variable {event : Event}

theorem move_holds {next : Machine} {output : Option BlockCertificate}
    (move : Move crypto machine event next output) {key : ProposalKey} (holds : Holds machine key) :
    Holds next key ∨ key ∈ next.aggregator.issuedCerts := by
  cases move with
  | void event aggregator _ => exact Or.inl holds
  | check id vote found | cleanVotes id maxHeight found | lookUp id vote found
  | tallied id now vote quorum found | certified id now vote quorum cert found
  | cleanIssued id floor found =>
    exact Or.inl (holds_assign holds (by simp [found]))
  | mark id cert found =>
    rcases holds with ⟨other, held, stored, same⟩
    by_cases here : other = id
    · rw [here, found, Task.certified.injEq] at stored
      rw [← same, ← stored]
      exact Or.inr List.mem_insert_self
    · exact Or.inl ⟨other, held, (if_neg here).trans stored, same⟩

abbrev Recorded := Machine × List ProposalKey

def dropped (machine : Machine) (event : Event) : List ProposalKey :=
  machine.aggregator.issuedCerts.filter fun key =>
    !isIssued (step crypto machine event).1.aggregator key

def recordedStep : Recorded → Event → Recorded × Option BlockCertificate :=
  recording (step crypto) (dropped crypto)

/-- No vote is tallied for a proposal that is marked by then, or that another call
has certified without marking it yet, or whose mark was dropped. -/
def Timely (state : Recorded) : Event → Prop
  | .tally id _ => ∀ vote quorum, state.1.tasks id = .ready vote quorum →
      vote.key ∉ state.1.aggregator.issuedCerts ∧ ¬ Holds state.1 vote.key ∧ vote.key ∉ state.2
  | _ => True

structure Accounted (past : List BlockCertificate) (state : Recorded) : Prop where
  traced : ∀ cert ∈ past, cert.key ∈ state.1.aggregator.issuedCerts ∨ Holds state.1 cert.key ∨
    cert.key ∈ state.2
  distinct : past.Pairwise fun first second => first.key ≠ second.key

theorem traced_step (event : Event) (key : ProposalKey)
    (traced : key ∈ state.1.aggregator.issuedCerts ∨ Holds state.1 key ∨ key ∈ state.2) :
    let next := (recordedStep crypto state event).1
    key ∈ next.1.aggregator.issuedCerts ∨ Holds next.1 key ∨ key ∈ next.2 := by
  rcases traced with marked | held | gone
  · by_cases stays : key ∈ (step crypto state.1 event).1.aggregator.issuedCerts
    · exact Or.inl stays
    · refine Or.inr (Or.inr (List.mem_append_right _ (List.mem_filter.mpr ⟨marked, ?_⟩)))
      simp [isIssued, stays]
  · rcases move_holds crypto (step_move crypto state.1 event) held with
      still | marked
    · exact Or.inr (Or.inl still)
    · exact Or.inl marked
  · exact Or.inr (Or.inr (List.mem_append_left _ gone))

theorem recordedStep_accounted (accounted : Accounted past state) (timely : Timely state event) :
    Accounted (past ++ (recordedStep crypto state event).2.toList)
      (recordedStep crypto state event).1 := by
  have kept : ∀ cert ∈ past, _ := fun cert member =>
    traced_step crypto state event cert.key (accounted.traced cert member)
  cases output : (step crypto state.1 event).2 with
  | none =>
    have quiet : (recordedStep crypto state event).2.toList = [] := by
      rw [recordedStep, recording, output]
      rfl
    rw [quiet, List.append_nil]
    exact ⟨kept, accounted.distinct⟩
  | some cert =>
    have issues : (recordedStep crypto state event).2.toList = [cert] := by
      rw [recordedStep, recording, output]
      rfl
    have move := step_move crypto state.1 event
    rw [output] at move
    rw [issues]
    generalize reached : (step crypto state.1 event).1 = next at move
    cases move with
    | certified id now vote quorum cert found tallied =>
      have key := tallyVote_key now state.1.aggregator vote quorum cert tallied
      rcases timely vote quorum found with ⟨unmarked, unheld, undropped⟩
      constructor
      · intro other member
        rw [List.mem_append, List.mem_singleton] at member
        rcases member with earlier | rfl
        · exact kept other earlier
        · refine Or.inr (Or.inl ⟨id, other, ?_, rfl⟩)
          rw [recordedStep, recording, reached]
          exact if_pos rfl
      · rw [List.pairwise_append]
        refine ⟨accounted.distinct, List.pairwise_singleton _ _, ?_⟩
        intro earlier member last single same
        rw [List.mem_singleton] at single
        rw [single, key] at same
        have traced := accounted.traced earlier member
        rw [same] at traced
        rcases traced with marked | held | gone
        · exact unmarked marked
        · exact unheld held
        · exact undropped gone

theorem run_accounted {events : List Event} (accounted : Accounted past state)
    (timely : Along (recordedStep crypto) Timely state events) :
    Accounted (past ++ issuedIn crypto state.1 events)
      (run (recordedStep crypto) state events) := by
  induction events generalizing past state with
  | nil =>
    rw [issuedIn, outputs, List.flatMap_nil, List.append_nil]
    exact accounted
  | cons event rest ih =>
    have next := ih _ _ (recordedStep_accounted crypto past state accounted timely.1) timely.2
    rw [List.append_assoc] at next
    exact next

/-- In every interleaving without a late tally, no two certificates are issued for
one height, round, block hash and group. -/
theorem certificates_unique (totalVoters : Nat) (events : List Event)
    (timely : Along (recordedStep crypto) Timely ({ aggregator := new totalVoters }, []) events) :
    (issuedIn crypto { aggregator := new totalVoters } events).Pairwise fun first second =>
      first.key ≠ second.key := by
  have start : Accounted [] ({ aggregator := new totalVoters }, []) :=
    ⟨fun cert member => absurd member List.not_mem_nil, List.Pairwise.nil⟩
  exact (run_accounted crypto [] _ start timely).distinct

end Unique

section Discipline
variable {crypto : Crypto}

def Task.key : Task → Option ProposalKey
  | .checked vote => some vote.key
  | .ready vote _ => some vote.key
  | .certified cert => some cert.key
  | _ => none

def Task.pending : Task → Option ProposalKey
  | .checked vote => some vote.key
  | .ready vote _ => some vote.key
  | _ => none

theorem Task.key_of_pending {task : Task} {key : ProposalKey} (pending : task.pending = some key) :
    task.key = some key := by
  cases task with
  | checked | ready => exact pending
  | idle | certified | cleaning => cases pending

/-- Calls for one proposal do not overlap, and none comes after its mark was dropped. -/
def Exclusive (state : Recorded) : Event → Prop
  | .check _ vote => (∀ other, (state.1.tasks other).key ≠ some vote.key) ∧ vote.key ∉ state.2
  | _ => True

structure Apart (state : Recorded) : Prop where
  single : ∀ first second key, (state.1.tasks first).key = some key →
    (state.1.tasks second).key = some key → first = second
  fresh : ∀ id key, (state.1.tasks id).pending = some key →
    key ∉ state.1.aggregator.issuedCerts ∧ key ∉ state.2

theorem not_dropped {machine : Machine} {key : ProposalKey}
    (fresh : key ∉ machine.aggregator.issuedCerts ∧ key ∉ past)
    (drops : ∀ key ∈ more, key ∈ machine.aggregator.issuedCerts) : key ∉ past ++ more := by
  intro gone
  rcases List.mem_append.mp gone with earlier | new
  · exact fresh.2 earlier
  · exact fresh.1 (drops key new)

variable {machine : Machine} (state : Recorded) (aggregator : VoteAggregator)
  {calls : List (Nat × MasternodeVote)} {events : List Event}

/-- A call goes on with its proposal or leaves it. Only its own key may be marked,
and only once it no longer waits. -/
theorem apart_assign (aggregator : VoteAggregator) (id : Nat) (task : Task)
    (apart : Apart (machine, past))
    (keys : ∀ key, task.key = some key → (machine.tasks id).key = some key)
    (waits : ∀ key, task.pending = some key → (machine.tasks id).pending = some key)
    (marks : ∀ key ∈ aggregator.issuedCerts, key ∈ machine.aggregator.issuedCerts ∨
      ((machine.tasks id).key = some key ∧ (machine.tasks id).pending = none))
    (drops : ∀ key ∈ more, key ∈ machine.aggregator.issuedCerts) :
    Apart (assign { machine with aggregator } id task, past ++ more) := by
  have keyBefore : ∀ other key, ((assign { machine with aggregator } id task).tasks other).key =
      some key → (machine.tasks other).key = some key := by
    intro other key found
    simp only [assign] at found
    split at found
    next here => exact here ▸ keys key found
    next => exact found
  constructor
  · intro first second key one two
    exact apart.single first second key (keyBefore first key one) (keyBefore second key two)
  · intro other key found
    have before : (machine.tasks other).pending = some key := by
      simp only [assign] at found
      split at found
      next here => exact here ▸ waits key found
      next => exact found
    have fresh := apart.fresh other key before
    refine ⟨fun marked => ?_, not_dropped fresh drops⟩
    rcases marks key marked with earlier | ⟨own, done⟩
    · exact fresh.1 earlier
    · rw [apart.single other id key (Task.key_of_pending before) own, done] at before
      cases before

theorem apart_check (id : Nat) {vote : MasternodeVote} (apart : Apart (machine, past))
    (alone : ∀ other, (machine.tasks other).key ≠ some vote.key)
    (fresh : vote.key ∉ machine.aggregator.issuedCerts ∧ vote.key ∉ past)
    (drops : ∀ key ∈ more, key ∈ machine.aggregator.issuedCerts) :
    Apart (assign machine id (.checked vote), past ++ more) := by
  constructor
  · intro first second key one two
    simp only [assign] at one two
    split at one <;> split at two
    next here there => rw [here, there]
    next => exact absurd (two.trans one.symm) (alone second)
    next => exact absurd (one.trans two.symm) (alone first)
    next => exact apart.single first second key one two
  · intro other key found
    have known : key ∉ machine.aggregator.issuedCerts ∧ key ∉ past := by
      simp only [assign] at found
      split at found
      next =>
        rw [← Option.some.inj found]
        exact fresh
      next => exact apart.fresh other key found
    exact ⟨known.1, not_dropped known drops⟩

theorem recordedStep_apart (event : Event) (apart : Apart state) (exclusive : Exclusive state event) :
    Apart (recordedStep crypto state event).1 := by
  have drops : ∀ key ∈ dropped crypto state.1 event, key ∈ state.1.aggregator.issuedCerts :=
    fun key member => (List.mem_filter.mp member).1
  have move := step_move crypto state.1 event
  rw [recordedStep, recording]
  generalize dropped crypto state.1 event = more at drops
  simp only
  generalize (step crypto state.1 event).1 = next at move
  generalize (step crypto state.1 event).2 = output at move
  -- Only a check takes up a new key; the other moves go on with the key of their task.
  cases move with
  | void event aggregator same =>
    constructor
    · exact apart.single
    · intro id key found
      have fresh := apart.fresh id key found
      exact ⟨same ▸ fresh.1, not_dropped fresh drops⟩
  | check id vote free _ unissued =>
    have unmarked : vote.key ∉ state.1.aggregator.issuedCerts := by
      simpa [isIssued] using unissued
    exact apart_check id apart exclusive.1 ⟨unmarked, exclusive.2⟩ drops
  | lookUp id vote found =>
    apply apart_assign _ id _ apart _ _ (fun _ => Or.inl) drops
    · intro key own
      rw [found]
      exact own
    · intro key own
      rw [found]
      exact own
  | tallied id now vote quorum found _ =>
    apply apart_assign _ id _ apart (by simp [Task.key]) (by simp [Task.pending]) _ drops
    intro key marked
    rw [tallyVote_issuedCerts] at marked
    exact Or.inl marked
  | certified id now vote quorum cert found tallied =>
    apply apart_assign _ id _ apart _ (by simp [Task.pending]) _ drops
    · intro key own
      rw [found]
      rw [Task.key, tallyVote_key now state.1.aggregator vote quorum cert tallied] at own
      exact own
    · intro key marked
      rw [tallyVote_issuedCerts] at marked
      exact Or.inl marked
  | mark id cert found =>
    apply apart_assign _ id _ apart (by simp [Task.key]) (by simp [Task.pending]) _ drops
    intro key marked
    rcases List.mem_insert_iff.mp marked with same | earlier
    · rw [found, same]
      exact Or.inr ⟨rfl, rfl⟩
    · exact Or.inl earlier
  | cleanVotes id maxHeight free =>
    exact apart_assign _ id _ apart (by simp [Task.key])
      (by simp [Task.pending]) (fun _ => Or.inl) drops
  | cleanIssued id floor found =>
    apply apart_assign _ id _ apart (by simp [Task.key]) (by simp [Task.pending]) _ drops
    intro key marked
    exact Or.inl (List.mem_filter.mp marked).1

theorem exclusive_timely (apart : Apart state)
    (exclusive : Along (recordedStep crypto) Exclusive state events) :
    Along (recordedStep crypto) Timely state events := by
  apply along_of_invariant (recordedStep crypto) Exclusive Timely Apart
    recordedStep_apart _ state events apart exclusive
  intro before event apart _
  cases event with
  | tally id now =>
    intro vote quorum found
    rcases apart.fresh id vote.key (by rw [found]; rfl) with ⟨unmarked, undropped⟩
    refine ⟨unmarked, ?_, undropped⟩
    rintro ⟨other, cert, held, same⟩
    have here := apart.single other id vote.key (by rw [held, ← same]; rfl) (by rw [found]; rfl)
    rw [here, found] at held
    cases held
  | _ => trivial

theorem dropped_nil {event : Event} (other : ∀ id, event ≠ .cleanIssued id) :
    dropped crypto machine event = [] := by
  rw [dropped, List.filter_eq_nil_iff]
  intro key marked
  have move := step_move crypto machine event
  generalize (step crypto machine event).1 = next at move ⊢
  generalize (step crypto machine event).2 = output at move
  have stays : key ∈ next.aggregator.issuedCerts := by
    cases move with
    | void event aggregator same => exact same ▸ marked
    | check | lookUp | cleanVotes => exact marked
    | tallied | certified =>
      simp only [assign, tallyVote_issuedCerts]
      exact marked
    | mark id cert _ => exact List.mem_insert_of_mem marked
    | cleanIssued id floor _ => exact absurd rfl (other id)
  simp [isIssued, stays]

theorem run_undropped (others : ∀ event ∈ events, ∀ id, event ≠ .cleanIssued id) :
    (run (recordedStep crypto) state events).2 = state.2 := by
  induction events generalizing state with
  | nil => rfl
  | cons event rest ih =>
    rw [List.forall_mem_cons] at others
    rw [run_cons, ih _ others.2, recordedStep, recording, dropped_nil others.1, List.append_nil]

/-- Calls of `add_vote` one after the other, as the event loop of the masternode
makes them. -/
def serialEvents (calls : List (Nat × MasternodeVote)) : List Event :=
  calls.flatMap fun call => [.check 0 call.2, .lookUp 0, .tally 0 call.1, .mark 0]

theorem serial_exclusive :
    Along (recordedStep crypto) Exclusive ({ aggregator }, []) (serialEvents calls) := by
  induction calls generalizing aggregator with
  | nil => trivial
  | cons call rest ih =>
    have after : run (recordedStep crypto) ({ aggregator }, [])
        [.check 0 call.2, .lookUp 0, .tally 0 call.1, .mark 0] =
        ({ aggregator := (addVote crypto call.1 aggregator call.2).1 }, []) := by
      apply Prod.ext
      · rw [recordedStep, run_recording]
        exact (sections_addVote crypto rfl).1
      · exact run_undropped _ (by simp)
    rw [serialEvents, List.flatMap_cons, along_append, after]
    exact ⟨⟨⟨by simp [Task.key], by simp⟩, trivial, trivial, trivial, trivial⟩, ih _⟩

theorem serial_timely :
    Along (recordedStep crypto) Timely ({ aggregator }, []) (serialEvents calls) := by
  apply exclusive_timely _ _ (serial_exclusive aggregator)
  constructor
  · intro first second key found
    cases found
  · intro id key found
    cases found

end Discipline

def patientEvents : List Event :=
  serialEvents [(0, sampleVote 1), (0, sampleVote 2), (0, sampleVote 1), (0, sampleVote 2)]

theorem patientEvents_unique :
    (issuedIn sampleCrypto { aggregator := new 2 } patientEvents).length = 1 ∧
      (issuedIn sampleCrypto { aggregator := new 2 } patientEvents).Pairwise
        fun first second => first.key ≠ second.key :=
  ⟨by decide +kernel, certificates_unique sampleCrypto 2 patientEvents (serial_timely (new 2))⟩

/-- The same votes in four calls, all of which make their check before any tally. -/
def hastyEvents : List Event :=
  [.check 1 (sampleVote 1), .check 2 (sampleVote 2), .check 3 (sampleVote 1),
    .check 4 (sampleVote 2), .lookUp 1, .lookUp 2, .lookUp 3, .lookUp 4,
    .tally 1 0, .tally 2 0, .mark 2, .tally 3 0, .tally 4 0, .mark 4]

/-- The same votes one call at a time, with a cleanup of the mark in the middle. -/
def forgetfulEvents : List Event :=
  serialEvents [(0, sampleVote 1), (0, sampleVote 2)] ++
    [.cleanVotes 0 16, .cleanIssued 0] ++
    serialEvents [(0, sampleVote 1), (0, sampleVote 2)]

/-- Both runs end with all calls returned and two certificates for one proposal. -/
theorem late_votes_certify_twice :
    (issuedIn sampleCrypto { aggregator := new 2 } hastyEvents).map BlockCertificate.key =
        [(sampleVote 1).key, (sampleVote 1).key] ∧
      (issuedIn sampleCrypto { aggregator := new 2 } forgetfulEvents).map BlockCertificate.key =
        [(sampleVote 1).key, (sampleVote 1).key] := by
  constructor <;> decide +kernel

end Savitri.VoteSections
