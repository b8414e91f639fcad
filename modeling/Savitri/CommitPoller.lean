import Savitri.CausalHistory
import Savitri.PivotSchedule

/-!
The commit poller of lattice_runtime.rs as a step machine. The poller holds the
aggregator lock for one attempt at a time, so calls of the other tasks fall
between any two of its steps; `Event.call` is such a call. A panic inside
`try_commit` ends the poller task and leaves the aggregator to the others.
-/
namespace Savitri.CommitPoller
open Std Relation LatticeTypes CellAggregator MachineInt LineageCommit
  CausalHistory PivotSchedule Transition

inductive Phase where
  | waiting
  | scanning (groupId : String) (ranked : List (String × Nat)) (cycle maxCycle : Nat)
  | sweeping
  | crashed

structure Poller where
  aggregator : LatticeAggregator
  lastCommittedCycle : Option Nat
  phase : Phase

/-- A committed cycle with the aggregator state it was decided in. -/
structure Emission where
  aggregator : LatticeAggregator
  cycle : Cycle

inductive Event where
  | call (input : Call)
  | tick (provided : Option (String × List (String × Nat))) (currentRound : UInt64)
  | attempt
  | sweep

def maxAttemptCycle (currentRound : UInt64) : Nat := currentRound.toNat / 2 - 1

def startCycle (lastCommittedCycle : Option Nat) : Nat := (lastCommittedCycle.map (· + 1)).getD 0

variable (crypto : Crypto) (poller : Poller)

def attempt (groupId : String) (ranked : List (String × Nat)) (cycle maxCycle : Nat) :
    Poller × Option Emission :=
  if maxCycle < cycle then ({ poller with phase := .sweeping }, none) else
  match pivotForCycle crypto groupId cycle ranked with
  | none => ({ poller with phase := .sweeping }, none)
  | some pivot =>
    match tryCommit crypto poller.aggregator cycle pivot groupId with
    -- A panic unwinds the poller task only.
    | none => ({ poller with phase := .crashed }, none)
    | some (.committed cy) =>
      ({ poller with
          lastCommittedCycle := some cycle
          phase := .scanning groupId ranked (cycle + 1) maxCycle },
        some ⟨poller.aggregator, cy⟩)
    -- Both refusals leave the loop, whatever later cycles could do.
    | some .anchorNotCertified => ({ poller with phase := .sweeping }, none)
    | some (.belowFollowerQuorum _ _) => ({ poller with phase := .sweeping }, none)

def step : Event → Poller × Option Emission
  | .call input =>
    ({ poller with aggregator := (call crypto poller.aggregator input).1 }, none)
  | .tick provided currentRound =>
    match poller.phase, provided with
    | .waiting, some (groupId, ranked) =>
      ({ poller with
          phase := .scanning groupId ranked (startCycle poller.lastCommittedCycle)
            (maxAttemptCycle currentRound) }, none)
    | _, _ => (poller, none)
  | .attempt =>
    match poller.phase with
    | .scanning groupId ranked cycle maxCycle =>
      attempt crypto poller groupId ranked cycle maxCycle
    | _ => (poller, none)
  | .sweep =>
    match poller.phase with
    | .sweeping =>
      ({ poller with
          aggregator := (gcOldCells poller.aggregator).1
          phase := .waiting }, none)
    | _ => (poller, none)

def idle (aggregator : LatticeAggregator) (lastCommittedCycle : Option Nat) : Poller :=
  { aggregator, lastCommittedCycle, phase := .waiting }

def emissions (events : List Event) : List Emission :=
  (outputs (step crypto) poller events).filterMap id

variable {crypto} {poller}

theorem emissions_cons {event : Event} {rest : List Event} :
    emissions crypto poller (event :: rest) =
      (step crypto poller event).2.toList ++
        emissions crypto (step crypto poller event).1 rest := by
  cases emitted : (step crypto poller event).2 <;> simp [emissions, outputs, emitted]

theorem emissions_append {first second : List Event} :
    emissions crypto poller (first ++ second) =
      emissions crypto poller first ++
        emissions crypto (run (step crypto) poller first) second := by
  rw [emissions, outputs_append, List.filterMap_append]
  rfl

section
variable (crypto : Crypto) (poller : Poller)

theorem attempt_cases (groupId : String) (ranked : List (String × Nat)) (cycle maxCycle : Nat) :
    (∃ phase, attempt crypto poller groupId ranked cycle maxCycle =
        ({ poller with phase }, none) ∧ (phase = .sweeping ∨ phase = .crashed)) ∨
      ∃ pivot cy, cycle ≤ maxCycle ∧ pivotForCycle crypto groupId cycle ranked = some pivot ∧
        tryCommit crypto poller.aggregator cycle pivot groupId = some (.committed cy) ∧
        attempt crypto poller groupId ranked cycle maxCycle =
          ({ poller with
              lastCommittedCycle := some cycle
              phase := .scanning groupId ranked (cycle + 1) maxCycle },
            some ⟨poller.aggregator, cy⟩) := by
  unfold attempt
  by_cases past : maxCycle < cycle
  · exact Or.inl ⟨.sweeping, by simp [past], Or.inl rfl⟩
  · cases elected : pivotForCycle crypto groupId cycle ranked with
    | none => exact Or.inl ⟨.sweeping, by simp [past], Or.inl rfl⟩
    | some pivot =>
      cases decided : tryCommit crypto poller.aggregator cycle pivot groupId with
      | none => exact Or.inl ⟨.crashed, by simp [past, decided], Or.inr rfl⟩
      | some decision =>
        cases decision with
        | committed cy =>
          exact Or.inr ⟨pivot, cy, by omega, rfl, decided, by simp [past, decided]⟩
        | anchorNotCertified | belowFollowerQuorum =>
          exact Or.inl ⟨.sweeping, by simp [past, decided], Or.inl rfl⟩

def Ahead (poller : Poller) : Prop :=
  match poller.phase with
  | .scanning _ _ cycle _ => startCycle poller.lastCommittedCycle ≤ cycle
  | _ => True

theorem step_cases (event : Event) (ahead : Ahead poller) :
    ((step crypto poller event).2 = none ∧
        (step crypto poller event).1.lastCommittedCycle = poller.lastCommittedCycle ∧
        Ahead (step crypto poller event).1) ∨
      ∃ groupId cycle pivot cy, startCycle poller.lastCommittedCycle ≤ cycle ∧
        tryCommit crypto poller.aggregator cycle pivot groupId = some (.committed cy) ∧
        (step crypto poller event).2 = some ⟨poller.aggregator, cy⟩ ∧
        (step crypto poller event).1.lastCommittedCycle = some cycle ∧
        Ahead (step crypto poller event).1 := by
  cases event with
  | call input => exact Or.inl ⟨rfl, rfl, ahead⟩
  | tick provided currentRound =>
    left
    simp only [step]
    split
    · exact ⟨rfl, rfl, Nat.le_refl _⟩
    · exact ⟨rfl, rfl, ahead⟩
  | attempt =>
    cases phase : poller.phase with
    | scanning groupId ranked cycle maxCycle =>
      have floor : startCycle poller.lastCommittedCycle ≤ cycle := by
        simpa [Ahead, phase] using ahead
      simp only [step, phase]
      rcases attempt_cases crypto poller groupId ranked cycle maxCycle with
        ⟨next, moved, sweeps | crashes⟩ | ⟨pivot, cy, _, _, decided, moved⟩
      · rw [moved, sweeps]
        exact Or.inl ⟨rfl, rfl, trivial⟩
      · rw [moved, crashes]
        exact Or.inl ⟨rfl, rfl, trivial⟩
      · rw [moved]
        exact Or.inr ⟨groupId, cycle, pivot, cy, floor, decided, rfl, rfl, Nat.le_refl _⟩
    | waiting | sweeping | crashed => exact Or.inl (by simpa [step, phase] using ahead)
  | sweep =>
    left
    simp only [step]
    split
    · exact ⟨rfl, rfl, trivial⟩
    · exact ⟨rfl, rfl, ahead⟩

theorem step_valid (event : Event) (valid : Valid crypto poller.aggregator) :
    Valid crypto (step crypto poller event).1.aggregator := by
  cases event with
  | call input => exact call_valid poller.aggregator input valid
  | tick provided currentRound =>
    simp only [step]
    split <;> exact valid
  | attempt =>
    cases phase : poller.phase with
    | scanning groupId ranked cycle maxCycle =>
      simp only [step, phase]
      rcases attempt_cases crypto poller groupId ranked cycle maxCycle with
        ⟨_, moved, _⟩ | ⟨_, _, _, _, _, moved⟩
      · rw [moved]
        exact valid
      · rw [moved]
        exact valid
    | waiting | sweeping | crashed => simpa [step, phase] using valid
  | sweep =>
    simp only [step]
    split
    · exact gcOldCells_valid valid
    · exact valid

end

theorem emissions_ordered (crypto : Crypto) (poller : Poller) (events : List Event)
    (ahead : Ahead poller) (valid : Valid crypto poller.aggregator) :
    (emissions crypto poller events).Pairwise
        (fun earlier later => earlier.cycle.index < later.cycle.index) ∧
      ∀ emission ∈ emissions crypto poller events,
        startCycle poller.lastCommittedCycle ≤ emission.cycle.index ∧
        Valid crypto emission.aggregator ∧
        ∃ pivot groupId, tryCommit crypto emission.aggregator emission.cycle.index pivot
          groupId = some (.committed emission.cycle) := by
  -- The floor of the later emissions is one above the cycle just committed.
  induction events generalizing poller with
  | nil => simp [emissions, outputs]
  | cons event rest ih =>
    have nextValid := step_valid crypto poller event valid
    rcases step_cases crypto poller event ahead with
      ⟨silent, kept, nextAhead⟩ | ⟨groupId, cycle, pivot, cy, floor, decided, emitted, moved, nextAhead⟩
    · have later := ih (step crypto poller event).1 nextAhead nextValid
      rw [kept] at later
      simpa [emissions_cons, silent] using later
    · have later := ih (step crypto poller event).1 nextAhead nextValid
      rw [moved] at later
      obtain ⟨_, _, _, _, _, _, index, _⟩ :=
        tryCommit_committed crypto poller.aggregator cycle pivot groupId cy decided
      have split : emissions crypto poller (event :: rest) =
          ⟨poller.aggregator, cy⟩ :: emissions crypto (step crypto poller event).1 rest := by
        rw [emissions_cons, emitted]
        rfl
      rw [split, List.pairwise_cons]
      refine ⟨⟨?_, later.1⟩, ?_⟩
      · intro emission member
        have bound := (later.2 emission member).1
        simp only [startCycle, Option.map_some, Option.getD_some] at bound
        simp only [index]
        omega
      · intro emission member
        rcases List.mem_cons.mp member with here | member
        · subst emission
          simp only [index]
          exact ⟨floor, valid, pivot, groupId, decided⟩
        · obtain ⟨bound, rest⟩ := later.2 emission member
          simp only [startCycle, Option.map_some, Option.getD_some] at bound
          exact ⟨by omega, rest⟩

def InLineage (crypto : Crypto) (agg : LatticeAggregator) (root id : CellId) : Prop :=
  ReflTransGen (Worklist.Edge (parentsOf crypto agg)) root id ∧
    (resolve crypto agg id).isSome = true

/-- Over every run of the poller, each cycle index is emitted at most once, no
list repeats a cell, and two lists share the cells of both causal histories. -/
theorem emitted_cycles_share_lineage (crypto : Crypto) (config : AggregatorConfig)
    (events : List Event) :
    (emissions crypto (idle (new config) none) events).Pairwise
        (fun earlier later => earlier.cycle.index < later.cycle.index) ∧
      ∀ first ∈ emissions crypto (idle (new config) none) events,
        first.cycle.committedCells.Nodup ∧
        ∀ second ∈ emissions crypto (idle (new config) none) events, ∀ id : CellId,
          (id ∈ first.cycle.committedCells ∧ id ∈ second.cycle.committedCells) ↔
            InLineage crypto first.aggregator first.cycle.pivotCell id ∧
              InLineage crypto second.aggregator second.cycle.pivotCell id := by
  obtain ⟨ordered, decided⟩ := emissions_ordered crypto (idle (new config) none) events
    trivial (new_valid config)
  refine ⟨ordered, ?_⟩
  intro first firstMem
  obtain ⟨_, firstValid, firstPivot, firstGroup, firstDecided⟩ := decided first firstMem
  refine ⟨committedCells_nodup firstValid firstDecided, ?_⟩
  intro second secondMem id
  obtain ⟨_, secondValid, secondPivot, secondGroup, secondDecided⟩ := decided second secondMem
  rw [mem_committedCells firstValid firstDecided, mem_committedCells secondValid secondDecided]
  rfl

def chainCells : List LatticeCell :=
  let first := sampleCell 0 "alice" [] 1
  let second := sampleCell 1 "bob" [first.cellId sampleCrypto] 2
  let third := sampleCell 2 "alice" [second.cellId sampleCrypto] 3
  let fourth := sampleCell 3 "bob" [third.cellId sampleCrypto] 4
  [first, second, third, fourth]

def chainPoll : List Event :=
  (soloCertify chainCells).map Event.call ++
    [.tick (some ("group_1_0_1", [("alice", 100)])) 4, .attempt, .attempt]

/-- Cycles 0 and 1 are both emitted, and both list the cell of round 0. -/
theorem chain_committed_twice :
    ¬ ∀ first ∈ emissions sampleCrypto (idle (new soloConfig) none) chainPoll,
      ∀ second ∈ emissions sampleCrypto (idle (new soloConfig) none) chainPoll,
        first.cycle.index ≠ second.cycle.index →
          first.cycle.committedCells.Disjoint second.cycle.committedCells := by
  intro disjoint
  have lists : (emissions sampleCrypto (idle (new soloConfig) none) chainPoll).map
      (fun emission => (emission.cycle.index, emission.cycle.committedCells)) =
        [(0, (chainCells.take 1).map (LatticeCell.cellId sampleCrypto)),
          (1, (chainCells.take 3).map (LatticeCell.cellId sampleCrypto))] := by
    decide +kernel
  obtain ⟨first, firstMem, firstRow⟩ := List.mem_map.mp
    (lists ▸ List.mem_cons_self : (0, (chainCells.take 1).map (LatticeCell.cellId sampleCrypto)) ∈ _)
  obtain ⟨second, secondMem, secondRow⟩ := List.mem_map.mp
    (lists ▸ List.mem_cons_of_mem _ List.mem_cons_self :
      (1, (chainCells.take 3).map (LatticeCell.cellId sampleCrypto)) ∈ _)
  rw [Prod.mk.injEq] at firstRow secondRow
  have apart := disjoint first firstMem second secondMem (by rw [firstRow.1, secondRow.1]; simp)
  rw [firstRow.2, secondRow.2] at apart
  exact apart List.mem_cons_self List.mem_cons_self

section Pass
/-- Certified cells of the cycle's follow round that name `anchorId` as a parent. -/
def followers (agg : LatticeAggregator) (cycle : Nat) (anchorId : CellId) :
    List (CellKey × CellCertificate) :=
  agg.certified.toList.filter fun entry =>
    entry.1.1 == followRound cycle && entry.2.cell.parents.contains anchorId

/-- The pivot's anchor cell is certified and has a quorum of certified followers. -/
def Committable (crypto : Crypto) (agg : LatticeAggregator) (groupId : String)
    (ranked : List (String × Nat)) (cycle : Nat) : Prop :=
  ∃ pivot anchor, pivotForCycle crypto groupId cycle ranked = some pivot ∧
    certifiedGet agg (anchorRound cycle) pivot = some anchor ∧
    quorum agg ≤ (followers agg cycle (anchor.cellId crypto)).length

/-- One undisturbed pass: a tick, attempts until the loop has been left, the sweep. -/
def pass (groupId : String) (ranked : List (String × Nat)) (currentRound : UInt64) : List Event :=
  .tick (some (groupId, ranked)) currentRound ::
    List.replicate (maxAttemptCycle currentRound + 2) .attempt ++ [.sweep]

def commits (crypto : Crypto) (agg : LatticeAggregator) (groupId : String)
    (ranked : List (String × Nat)) (cycle : Nat) : Bool :=
  ((pivotForCycle crypto groupId cycle ranked).bind fun pivot =>
    (tryCommit crypto agg cycle pivot groupId).bind CommitDecision.cycle?).isSome

variable (crypto : Crypto) (agg : LatticeAggregator) (last : Option Nat) (groupId : String)
  (ranked : List (String × Nat)) (currentRound : UInt64) (cycle : Nat)

theorem attempt_of_commits (poller : Poller) (groupId : String) (ranked : List (String × Nat))
    (cycle maxCycle : Nat) (inRange : cycle ≤ maxCycle)
    (commit : commits crypto poller.aggregator groupId ranked cycle = true) :
    (attempt crypto poller groupId ranked cycle maxCycle).2.isSome = true := by
  obtain ⟨cy, found⟩ := Option.isSome_iff_exists.mp commit
  simp only [Option.bind_eq_some_iff, CommitDecision.cycle?_eq_some] at found
  obtain ⟨pivot, elected, _, decided, rfl⟩ := found
  simp [attempt, Nat.not_lt.mpr inRange, elected, decided]

theorem mem_takeWhile_range' {keeps : Nat → Bool} (first : Nat) {count cycle : Nat} :
    cycle ∈ (List.range' first count).takeWhile keeps ↔
      first ≤ cycle ∧ cycle < first + count ∧
        ∀ earlier, first ≤ earlier → earlier ≤ cycle → keeps earlier = true := by
  induction count generalizing first with
  | zero =>
    simp only [List.range'_zero, List.takeWhile_nil, List.not_mem_nil, false_iff]
    omega
  | succ count ih =>
    rw [List.range'_succ, List.takeWhile_cons]
    cases head : keeps first with
    | false =>
      simp only [Bool.false_eq_true, ↓reduceIte, List.not_mem_nil, false_iff]
      rintro ⟨lower, _, every⟩
      simp [every first (Nat.le_refl _) lower] at head
    | true =>
      simp only [↓reduceIte, List.mem_cons, ih]
      constructor
      · rintro (here | ⟨lower, upper, every⟩)
        · subst cycle
          refine ⟨Nat.le_refl _, by omega, ?_⟩
          intro earlier above below
          rwa [Nat.le_antisymm below above]
        · refine ⟨by omega, by omega, ?_⟩
          intro earlier above below
          rcases Nat.eq_or_lt_of_le above with same | beyond
          · rwa [← same]
          · exact every earlier beyond below
      · rintro ⟨lower, upper, every⟩
        rcases Nat.eq_or_lt_of_le lower with same | beyond
        · exact Or.inl same.symm
        · refine Or.inr ⟨beyond, by omega, ?_⟩
          intro earlier above below
          exact every earlier (by omega) below

theorem followRound_below (inRange : cycle ≤ maxAttemptCycle currentRound) :
    followRound cycle < u64Max := by
  have bound := currentRound.toNat_lt
  unfold followRound anchorRound saturatingAdd saturatingMul u64Max
  unfold maxAttemptCycle at inRange
  omega

theorem followers_length (anchorId : CellId) {certs : List CellCertificate}
    (listed : certifiedAtRound agg (followRound cycle) = some certs) :
    certs.countP (fun cert => cert.cell.parents.contains anchorId) =
      (followers agg cycle anchorId).length := by
  unfold certifiedAtRound at listed
  split at listed
  · rw [Option.some.injEq] at listed
    rw [← listed, List.countP_map, List.countP_filter, followers, ← List.countP_eq_length_filter]
    apply List.countP_congr
    intro entry _
    simp only [Function.comp_apply, Bool.and_eq_true,
      and_comm (b := entry.2.cell.parents.contains anchorId = true), beq_iff_eq]
    rw [← Bool.and_eq_true, inRound_iff]
  · cases listed

theorem commits_iff (bounded : followRound cycle < u64Max) :
    commits crypto agg groupId ranked cycle = true ↔
      Committable crypto agg groupId ranked cycle ∧ agg.highWaterRound < u64Max := by
  constructor
  · intro commit
    obtain ⟨cy, found⟩ := Option.isSome_iff_exists.mp commit
    obtain ⟨pivot, elected, decision, decided, committed⟩ :
        ∃ pivot, pivotForCycle crypto groupId cycle ranked = some pivot ∧
          ∃ decision, tryCommit crypto agg cycle pivot groupId = some decision ∧
            decision.cycle? = some cy := by
      simpa only [Option.bind_eq_some_iff] using found
    rw [CommitDecision.cycle?_eq_some] at committed
    subst decision
    obtain ⟨anchor, certs, located, listed, enough, walked, _⟩ :=
      tryCommit_committed crypto agg cycle pivot groupId cy decided
    rw [followers_length agg cycle _ listed] at enough
    exact ⟨⟨pivot, anchor, elected, located, enough⟩, walkCausalHistory_below crypto agg _ _ _ walked⟩
  · rintro ⟨⟨pivot, anchor, elected, located, enough⟩, below⟩
    obtain ⟨certs, listed⟩ :=
      Option.isSome_iff_exists.mp ((certifiedAtRound_isSome agg _).mpr bounded)
    rw [← followers_length agg cycle _ listed] at enough
    obtain ⟨walk, walked⟩ := Option.isSome_iff_exists.mp
      (walkLoop_isSome crypto agg below (walkFuel agg)
        (walkStart (anchor.cellId crypto) (anchorRound cycle)))
    have notFew : ¬ certs.countP (fun cert =>
        cert.cell.parents.contains (anchor.cellId crypto)) < quorum agg := by omega
    simp only [commits, elected, tryCommit, located, listed, walkCausalHistory, walked,
      Option.bind_eq_bind, Option.bind_some, Option.map_some, if_neg notFew]
    rfl

theorem idle_attempts (poller : Poller) (count : Nat) (left : ∀ groupId ranked cycle maxCycle,
      poller.phase ≠ .scanning groupId ranked cycle maxCycle) :
    run (step crypto) poller (List.replicate count .attempt) = poller ∧
      emissions crypto poller (List.replicate count .attempt) = [] := by
  have stays : step crypto poller .attempt = (poller, none) := by
    cases phase : poller.phase with
    | scanning groupId ranked cycle maxCycle => exact absurd phase (left _ _ _ _)
    | waiting | sweeping | crashed => simp [step, phase]
  induction count with
  | zero => exact ⟨rfl, rfl⟩
  | succ count ih =>
    rw [List.replicate_succ, run_cons, emissions_cons, stays]
    exact ih

theorem scan_emits (maxCycle count : Nat) (enough : maxCycle + 1 - cycle < count) :
    (emissions crypto ⟨agg, last, .scanning groupId ranked cycle maxCycle⟩
        (List.replicate count .attempt)).map (fun emission => emission.cycle.index) =
      (List.range' cycle (maxCycle + 1 - cycle)).takeWhile (commits crypto agg groupId ranked) ∧
      ((run (step crypto) ⟨agg, last, .scanning groupId ranked cycle maxCycle⟩
          (List.replicate count .attempt)).phase = .sweeping ∨
        (run (step crypto) ⟨agg, last, .scanning groupId ranked cycle maxCycle⟩
          (List.replicate count .attempt)).phase = .crashed) := by
  induction count generalizing last cycle with
  | zero => omega
  | succ count ih =>
    rw [List.replicate_succ, run_cons, emissions_cons]
    simp only [step]
    rcases attempt_cases crypto ⟨agg, last, .scanning groupId ranked cycle maxCycle⟩ groupId
      ranked cycle maxCycle with ⟨final, moved, stops⟩ | ⟨pivot, cy, inRange, elected, decided, moved⟩
    · -- Leaving the loop: the range is empty or its first cycle does not commit.
      have leaves : ∀ groupId ranked cycle maxCycle,
          final ≠ .scanning groupId ranked cycle maxCycle := by
        rcases stops with rfl | rfl <;> simp
      have idle := idle_attempts crypto ⟨agg, last, final⟩ count leaves
      rw [moved, idle.1, idle.2]
      refine ⟨?_, stops⟩
      by_cases past : maxCycle < cycle
      · rw [Nat.sub_eq_zero_of_le past]
        rfl
      · have blocked : commits crypto agg groupId ranked cycle = false := by
          rw [← Bool.not_eq_true]
          intro commit
          have emits := attempt_of_commits crypto
            ⟨agg, last, .scanning groupId ranked cycle maxCycle⟩ groupId ranked cycle
            maxCycle (by omega) commit
          rw [moved] at emits
          cases emits
        obtain ⟨size, sized⟩ : ∃ size, maxCycle + 1 - cycle = size + 1 :=
          ⟨maxCycle - cycle, by omega⟩
        rw [sized, List.range'_succ, List.takeWhile_cons, blocked]
        rfl
    · -- A commit moves the scan on by one cycle and shortens the range by one.
      have commit : commits crypto agg groupId ranked cycle = true := by
        simp [commits, elected, decided, CommitDecision.cycle?]
      have later := ih (some cycle) (cycle + 1) (by omega)
      obtain ⟨_, _, _, _, _, _, index, _⟩ :=
        tryCommit_committed crypto agg cycle pivot groupId cy decided
      rw [moved]
      refine ⟨?_, later.2⟩
      have sized : maxCycle + 1 - cycle = (maxCycle + 1 - (cycle + 1)) + 1 := by omega
      rw [sized, List.range'_succ, List.takeWhile_cons, commit, List.map_append, later.1]
      simp [index]

theorem pass_emits :
    (emissions crypto (idle agg last) (pass groupId ranked currentRound)).map
        (fun emission => emission.cycle.index) =
      (List.range' (startCycle last) (maxAttemptCycle currentRound + 1 - startCycle last)).takeWhile
        (commits crypto agg groupId ranked) := by
  have scanned := scan_emits crypto agg last groupId ranked (startCycle last)
    (maxAttemptCycle currentRound) (maxAttemptCycle currentRound + 2) (by omega)
  have swept : ∀ poller : Poller, emissions crypto poller [.sweep] = [] := by
    intro poller
    rw [emissions_cons]
    cases phase : poller.phase <;> simp [step, phase, emissions, outputs]
  rw [pass, List.cons_append, emissions_cons, emissions_append, swept, List.append_nil]
  exact scanned.1

theorem pass_emits_iff :
    (∃ emission ∈ emissions crypto (idle agg last) (pass groupId ranked currentRound),
        emission.cycle.index = cycle) ↔
      startCycle last ≤ cycle ∧ cycle ≤ maxAttemptCycle currentRound ∧
        ∀ earlier, startCycle last ≤ earlier → earlier ≤ cycle →
          commits crypto agg groupId ranked earlier = true := by
  rw [← List.mem_map, pass_emits, mem_takeWhile_range']
  constructor
  all_goals
    rintro ⟨lower, upper, every⟩
    exact ⟨lower, by omega, every⟩

/-- The condition under which a pass finds all its committable cycles: none of
them stands behind a cycle that cannot commit, and no walk panics. -/
theorem pass_emits_committable_iff (crypto : Crypto) (agg : LatticeAggregator)
    (last : Option Nat) (groupId : String) (ranked : List (String × Nat))
    (currentRound : UInt64) :
    (∀ cycle, startCycle last ≤ cycle → cycle ≤ maxAttemptCycle currentRound →
        Committable crypto agg groupId ranked cycle →
        ∃ emission ∈ emissions crypto (idle agg last) (pass groupId ranked currentRound),
          emission.cycle.index = cycle) ↔
      (∀ blocked later, startCycle last ≤ blocked → blocked < later →
        later ≤ maxAttemptCycle currentRound → Committable crypto agg groupId ranked later →
        Committable crypto agg groupId ranked blocked) ∧
      (u64Max ≤ agg.highWaterRound → ∀ cycle, startCycle last ≤ cycle →
        cycle ≤ maxAttemptCycle currentRound →
        ¬ Committable crypto agg groupId ranked cycle) := by
  have emitted := pass_emits_iff crypto agg last groupId ranked currentRound
  have decided : ∀ cycle, cycle ≤ maxAttemptCycle currentRound →
      (commits crypto agg groupId ranked cycle = true ↔
        Committable crypto agg groupId ranked cycle ∧ agg.highWaterRound < u64Max) :=
    fun cycle upper => commits_iff crypto agg groupId ranked cycle
      (followRound_below currentRound cycle upper)
  -- A committed cycle stands on the commits of all cycles before it in the pass.
  constructor
  · intro complete
    constructor
    · intro blocked later lower before upper committable
      obtain ⟨_, _, every⟩ := (emitted later).mp (complete later (by omega) upper committable)
      exact ((decided blocked (by omega)).mp (every blocked lower (by omega))).1
    · intro last cycle lower upper committable
      obtain ⟨_, _, every⟩ := (emitted cycle).mp (complete cycle lower upper committable)
      have below := ((decided cycle upper).mp (every cycle lower (Nat.le_refl _))).2
      omega
  · rintro ⟨inOrder, noPanic⟩ cycle lower upper committable
    refine (emitted cycle).mpr ⟨lower, upper, ?_⟩
    intro earlier above before
    apply (decided earlier (by omega)).mpr
    constructor
    · rcases Nat.eq_or_lt_of_le before with same | strict
      · rwa [same]
      · exact inOrder earlier cycle above strict upper committable
    · by_contra high
      exact noPanic (by omega) cycle lower upper committable

/-- Cycle 0 has no certified anchor; cycle 1 has one, with its follower. -/
def lateCells : List LatticeCell :=
  let anchor := sampleCell 2 "alice" [] 1
  let follower := sampleCell 3 "bob" [anchor.cellId sampleCrypto] 2
  [anchor, follower]

theorem absent_pivot_blocks_later_cycle :
    ¬ ∀ cycle, startCycle none ≤ cycle → cycle ≤ maxAttemptCycle 4 →
      Committable sampleCrypto
        (run (call sampleCrypto) (new soloConfig) (soloCertify lateCells)) "group_1_0_1"
        [("alice", 100)] cycle →
      ∃ emission ∈ emissions sampleCrypto
          (idle (run (call sampleCrypto) (new soloConfig) (soloCertify lateCells)) none)
          (pass "group_1_0_1" [("alice", 100)] 4), emission.cycle.index = cycle := by
  intro complete
  have committable : commits sampleCrypto
      (run (call sampleCrypto) (new soloConfig) (soloCertify lateCells)) "group_1_0_1"
      [("alice", 100)] 1 = true := by
    decide +kernel
  have silent : (emissions sampleCrypto
      (idle (run (call sampleCrypto) (new soloConfig) (soloCertify lateCells)) none)
      (pass "group_1_0_1" [("alice", 100)] 4)).length = 0 := by
    decide +kernel
  obtain ⟨emission, member, _⟩ := complete 1 (by decide) (by decide)
    ((commits_iff _ _ _ _ _ (by decide)).mp committable).1
  rw [List.length_eq_zero_iff.mp silent] at member
  cases member

end Pass

end Savitri.CommitPoller
