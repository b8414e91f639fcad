import Savitri.LatencyCanon

/-!
The receive side of the latency reports, from
savitri-lightnode/src/latency_canon_state.rs, cut along the lock it takes. An ingest is
one section: it appends to the bounded buffer and drops the cached table. A rebuild is
two: it computes the table from the buffer, and later stores it. A poisoned lock is not
modelled.
-/
namespace Savitri.LatencyCache
open Transition Reordering LatencyCanon

def maxBufferedReports : Nat := 512

structure Rebuild where
  windowEnd : UInt64
  windowSize : UInt64
  table : LatencyTable

structure CanonState where
  buffer : List LatencyReport := []
  cached : Option LatencyTable := none
  rebuilding : Nat → Option Rebuild := fun _ => none

inductive Section where
  | ingestReport (report : LatencyReport)
  | rebuildRead (task : Nat) (order : Shuffle (String × List LatencyReport))
      (windowEnd windowSize : UInt64)
  | rebuildStore (task : Nat)

def step (state : CanonState) : Section → CanonState × Option LatencyTable
  | .ingestReport report =>
    let kept := if state.buffer.length ≥ maxBufferedReports then state.buffer.tail else state.buffer
    ({ state with buffer := kept ++ [report], cached := none }, none)
  | .rebuildRead task order windowEnd windowSize =>
    let table := rebuildFromReports order state.buffer windowEnd windowSize
    ({ state with
        rebuilding := Function.update state.rebuilding task
          (some { windowEnd, windowSize, table }) }, none)
  | .rebuildStore task =>
    match state.rebuilding task with
    | some rebuild =>
      ({ state with
          cached := some rebuild.table
          rebuilding := Function.update state.rebuilding task none }, some rebuild.table)
    | none => (state, none)

def Section.OfTask (task : Nat) : Section → Prop
  | .ingestReport _ => False
  | .rebuildRead other _ _ _ => other = task
  | .rebuildStore other => other = task

def Coherent (state : CanonState) : Prop :=
  ∀ table, state.cached = some table → ∃ windowEnd windowSize,
    table = rebuildFromReports .plain state.buffer windowEnd windowSize

def Undisturbed (sections : List Section) : Prop :=
  ∀ front task order windowEnd windowSize middle back,
    sections = front ++ .rebuildRead task order windowEnd windowSize ::
      (middle ++ .rebuildStore task :: back) →
    (∀ other ∈ middle, ¬ other.OfTask task) → ∀ report, .ingestReport report ∉ middle

section
theorem Undisturbed.start {front back : List Section} (undisturbed : Undisturbed (front ++ back)) :
    Undisturbed front := by
  intro first task order windowEnd windowSize middle rest split apart
  apply undisturbed first task order windowEnd windowSize middle (rest ++ back) _ apart
  rw [split]
  simp

variable (state : CanonState) {sections : List Section}

theorem run_buffer (quiet : ∀ report, .ingestReport report ∉ sections) :
    (run step state sections).buffer = state.buffer := by
  induction sections generalizing state with
  | nil => rfl
  | cons first rest ih =>
    rw [run_cons, ih _ fun report member => quiet report (List.mem_cons_of_mem _ member)]
    cases first with
    | ingestReport report => exact absurd List.mem_cons_self (quiet report)
    | rebuildRead task order windowEnd windowSize => rfl
    | rebuildStore task =>
      simp only [step]
      split <;> rfl

variable {task : Nat} {rebuild : Rebuild}

theorem step_rebuilding {last : Section}
    (found : (step state last).1.rebuilding task = some rebuild) :
    (¬ last.OfTask task ∧ state.rebuilding task = some rebuild) ∨
      ∃ order, last = .rebuildRead task order rebuild.windowEnd rebuild.windowSize ∧
        rebuild.table = rebuildFromReports order state.buffer rebuild.windowEnd
          rebuild.windowSize := by
  cases last with
  | ingestReport report => exact Or.inl ⟨id, found⟩
  | rebuildRead other order windowEnd windowSize =>
    by_cases own : task = other
    · subst own
      simp only [step, Function.update_self, Option.some.injEq] at found
      subst found
      exact Or.inr ⟨order, rfl, rfl⟩
    · simp only [step, Function.update_of_ne own] at found
      exact Or.inl ⟨fun same => own same.symm, found⟩
  | rebuildStore other =>
    simp only [step] at found
    by_cases own : task = other
    · subst own
      split at found
      next => simp at found
      next absent =>
        rw [absent] at found
        cases found
    · refine Or.inl ⟨fun same => own same.symm, ?_⟩
      split at found
      · simpa only [Function.update_of_ne own] using found
      · exact found

theorem rebuilding_read (found : (run step {} sections).rebuilding task = some rebuild) :
    ∃ front order middle,
      sections = front ++ .rebuildRead task order rebuild.windowEnd rebuild.windowSize :: middle ∧
        (∀ other ∈ middle, ¬ other.OfTask task) ∧
        rebuild.table = rebuildFromReports order (run step {} front).buffer rebuild.windowEnd
          rebuild.windowSize := by
  induction sections using List.reverseRecOn with
  | nil => cases found
  | append_singleton sections last ih =>
    rw [run_concat] at found
    rcases step_rebuilding _ found with
      ⟨apart, before⟩ | ⟨order, rfl, table⟩
    · rcases ih before with ⟨front, order, middle, split, others, table⟩
      refine ⟨front, order, middle ++ [last], by simp [split], ?_, table⟩
      intro other member
      rcases List.mem_append.mp member with inMiddle | isLast
      · exact others other inMiddle
      · rw [List.mem_singleton.mp isLast]
        exact apart
    · exact ⟨sections, order, [], rfl, by simp, table⟩

/-- In every interleaving without an ingest between the two sections of a rebuild, a
cached table is the one of the buffer as it is. -/
theorem cached_coherent (sections : List Section) (undisturbed : Undisturbed sections) :
    Coherent (run step {} sections) := by
  induction sections using List.reverseRecOn with
  | nil =>
    intro table cached
    cases cached
  | append_singleton sections last ih =>
    have before := ih undisturbed.start
    rw [run_concat]
    intro table cached
    cases last with
    | ingestReport report => cases cached
    | rebuildRead task order windowEnd windowSize => exact before table cached
    | rebuildStore task =>
      simp only [step] at cached ⊢
      split at cached
      next rebuild found =>
        rcases rebuilding_read found with
          ⟨front, order, middle, split, apart, computed⟩
        have quiet := undisturbed front task order rebuild.windowEnd rebuild.windowSize middle
          [] (by simp [split]) apart
        have same : (run step {} sections).buffer = (run step {} front).buffer := by
          rw [split, run_append, run_cons, run_buffer _ quiet]
          rfl
        refine ⟨rebuild.windowEnd, rebuild.windowSize, ?_⟩
        rw [← Option.some.inj cached, computed, ← same]
        exact rebuild_order _ _ _
      next => exact before table cached

end

def Section.isRead : Section → Bool
  | .rebuildRead .. => true
  | _ => false

def Section.isIngest : Section → Bool
  | .ingestReport _ => true
  | _ => false

theorem undisturbed_of_pairwise {sections : List Section}
    (ordered : sections.Pairwise fun earlier later => ¬ (earlier.isRead ∧ later.isIngest)) :
    Undisturbed sections := by
  rintro front task order windowEnd windowSize middle back rfl _ report member
  have later := (List.pairwise_cons.mp (List.pairwise_append.mp ordered).2.1).1
  exact later (.ingestReport report) (List.mem_append_left _ member) ⟨rfl, rfl⟩

def quietSections : List Section :=
  [.ingestReport (sampleReport "a" 10), .ingestReport (sampleReport "b" 30),
    .rebuildRead 0 .plain 9 3, .rebuildStore 0]

theorem quietSections_coherent :
    (run step {} quietSections).cached.isSome = true ∧ Coherent (run step {} quietSections) := by
  refine ⟨by decide +kernel, cached_coherent quietSections ?_⟩
  apply undisturbed_of_pairwise
  decide +kernel

/-- A report comes in while a rebuild has read the buffer and not yet stored its table. -/
def staleSections : List Section :=
  [.ingestReport (sampleReport "a" 10), .ingestReport (sampleReport "b" 30),
    .rebuildRead 0 .plain 9 3, .ingestReport (sampleReport "d" 50), .rebuildStore 0]

def staleBuffer : List LatencyReport :=
  [sampleReport "a" 10, sampleReport "b" 30, sampleReport "d" 50]

/-- The cached table has the median of two reports, and no window of the buffer, which
has three, gives that table. -/
theorem stale_table_cached : ¬ Coherent (run step {} staleSections) := by
  intro coherent
  have cached : (run step {} staleSections).cached =
      some (rebuildFromReports .plain [sampleReport "a" 10, sampleReport "b" 30] 9 3) := rfl
  rcases coherent _ cached with ⟨windowEnd, windowSize, same⟩
  have buffer : (run step {} staleSections).buffer = staleBuffer := rfl
  rw [buffer] at same
  have ends : 9 = windowEnd := congrArg LatencyTable.lastUpdateRound same
  subst ends
  have entry := congrArg (fun table => table.entries[("group_1_0_1", "c")]?) same
  have current : rebuildFromReports .plain staleBuffer 9 windowSize =
      rebuildFromReports .plain staleBuffer 9 3 := by
    simp only [rebuildFromReports]
    rw [inWindow_of_round, inWindow_of_round] <;> decide
  rw [current] at entry
  exact absurd entry (by decide +kernel)

end Savitri.LatencyCache
