import Mathlib

/-!
Finite runs of a deterministic machine. A step consumes one action and
returns the next state with one output; a run folds the step over a list of
actions. `Along` asks a condition of every step of a run at the state the
step starts from, so a guarded invariant needs only its step lemma.
-/
namespace Savitri.Transition
universe u v w
variable {State : Type u} {Action : Type v} {Output : Type w}

def run (step : State → Action → State × Output) : State → List Action → State
  | state, [] => state
  | state, action :: rest => run step (step state action).1 rest

def outputs (step : State → Action → State × Output) : State → List Action → List Output
  | _, [] => []
  | state, action :: rest => (step state action).2 :: outputs step (step state action).1 rest

def Along (step : State → Action → State × Output) (ok : State → Action → Prop) :
    State → List Action → Prop
  | _, [] => True
  | state, action :: rest => ok state action ∧ Along step ok (step state action).1 rest

/-- The sum of a measure over the steps of a run, each taken where it starts. -/
def tally (step : State → Action → State × Output) (measure : State → Action → Nat) :
    State → List Action → Nat
  | _, [] => 0
  | state, action :: rest =>
    measure state action + tally step measure (step state action).1 rest

/-- The machine with a record of what is observed of each of its steps. -/
def recording {Record : Type*} (step : State → Action → State × Output)
    (observe : State → Action → List Record) (state : State × List Record) (action : Action) :
    (State × List Record) × Output :=
  let next := step state.1 action
  ((next.1, state.2 ++ observe state.1 action), next.2)

variable (step : State → Action → State × Output)
variable (ok : State → Action → Prop) (state : State) (invariant : State → Prop)
  {measure : State → Action → Nat} (first second : State → Action → Prop) (quantity : State → Nat)
  (actions : List Action)

@[simp] theorem run_nil : run step state [] = state := rfl

@[simp] theorem run_cons (action : Action) (rest : List Action) :
    run step state (action :: rest) = run step (step state action).1 rest := rfl

theorem run_append {first second : List Action} :
    run step state (first ++ second) = run step (run step state first) second := by
  induction first generalizing state with
  | nil => rfl
  | cons action rest ih => exact ih (step state action).1

theorem run_concat {front : List Action} {action : Action} :
    run step state (front ++ [action]) = (step (run step state front) action).1 := by
  rw [run_append]
  rfl

theorem run_recording {Record : Type*} {observe : State → Action → List Record}
    (state : State × List Record) {actions : List Action} :
    (run (recording step observe) state actions).1 = run step state.1 actions := by
  induction actions generalizing state with
  | nil => rfl
  | cons action rest ih => exact ih (recording step observe state action).1

theorem outputs_append {first second : List Action} :
    outputs step state (first ++ second) =
      outputs step state first ++ outputs step (run step state first) second := by
  induction first generalizing state with
  | nil => rfl
  | cons action rest ih => simp only [List.cons_append, outputs, run_cons, ih]

theorem along_append {first second : List Action} :
    Along step ok state (first ++ second) ↔
      Along step ok state first ∧ Along step ok (run step state first) second := by
  induction first generalizing state with
  | nil => simp [Along]
  | cons action rest ih => simp only [List.cons_append, Along, run_cons, ih, and_assoc]

theorem along_iff_split :
    Along step ok state actions ↔
      ∀ front action back, actions = front ++ action :: back →
        ok (run step state front) action := by
  induction actions generalizing state with
  | nil => simp [Along]
  | cons head rest ih =>
    simp only [Along, ih]
    constructor
    · rintro ⟨first, later⟩ front action back split
      cases front with
      | nil =>
        simp only [List.nil_append, List.cons.injEq] at split
        rw [← split.1]
        exact first
      | cons other front =>
        simp only [List.cons_append, List.cons.injEq] at split
        rw [← split.1]
        exact later front action back split.2
    · intro every
      refine ⟨every [] head rest rfl, ?_⟩
      intro front action back split
      exact every (head :: front) action back (by rw [split]; rfl)

theorem along_and (state : State) (actions : List Action) (one : Along step first state actions)
    (two : Along step second state actions) :
    Along step (fun before action => first before action ∧ second before action) state
      actions := by
  induction actions generalizing state with
  | nil => trivial
  | cons action rest ih => exact ⟨⟨one.1, two.1⟩, ih _ one.2 two.2⟩

instance decidableAlong (ok : State → Action → Prop)
    [decidable : ∀ state action, Decidable (ok state action)] :
    ∀ state actions, Decidable (Along step ok state actions)
  | _, [] => isTrue trivial
  | state, action :: rest =>
    have := decidableAlong ok (step state action).1 rest
    inferInstanceAs (Decidable (ok state action ∧ Along step ok (step state action).1 rest))

theorem along_of_forall (every : ∀ action ∈ actions, ∀ before, ok before action) :
    Along step ok state actions := by
  induction actions generalizing state with
  | nil => trivial
  | cons action rest ih =>
    exact ⟨every action List.mem_cons_self state,
      ih _ fun later member => every later (List.mem_cons_of_mem _ member)⟩

theorem run_invariant_along (keeps : ∀ state action, invariant state → ok state action →
      invariant (step state action).1) (state : State) (actions : List Action)
    (initial : invariant state) (guarded : Along step ok state actions) :
    invariant (run step state actions) := by
  induction actions generalizing state with
  | nil => exact initial
  | cons action rest ih =>
    exact ih (step state action).1 (keeps state action initial guarded.1) guarded.2

theorem along_of_invariant (good : State → Action → Prop) (invariant : State → Prop)
    (keeps : ∀ state action, invariant state → ok state action → invariant (step state action).1)
    (gives : ∀ state action, invariant state → ok state action → good state action) (state : State)
    (actions : List Action) (initial : invariant state) (guarded : Along step ok state actions) :
    Along step good state actions := by
  induction actions generalizing state with
  | nil => trivial
  | cons action rest ih =>
    exact ⟨gives state action initial guarded.1,
      ih (step state action).1 (keeps state action initial guarded.1) guarded.2⟩

theorem along_invariant_iff (exact : ∀ state action, invariant state →
      (invariant (step state action).1 ↔ ok state action)) (state : State) {actions : List Action}
    (initial : invariant state) :
    Along step (fun before action => invariant (step before action).1) state actions ↔
      Along step ok state actions := by
  induction actions generalizing state with
  | nil => rfl
  | cons action rest ih =>
    constructor
    · rintro ⟨kept, later⟩
      exact ⟨(exact state action initial).mp kept, (ih _ kept).mp later⟩
    · rintro ⟨guard, later⟩
      have kept := (exact state action initial).mpr guard
      exact ⟨kept, (ih _ kept).mpr later⟩

theorem run_invariant (keeps : ∀ state action, invariant state → invariant (step state action).1)
    (state : State) (actions : List Action) (initial : invariant state) :
    invariant (run step state actions) := by
  induction actions generalizing state with
  | nil => exact initial
  | cons action rest ih => exact ih (step state action).1 (keeps state action initial)

/-- Outputs of a guarded run: what a step's output satisfies at the state after the
step, and every later step keeps, holds of it at the end of the run. -/
theorem outputs_sound_along (sound : State → Output → Prop)
    (keeps : ∀ state action, invariant state → ok state action → invariant (step state action).1)
    (issues : ∀ state action, invariant state → ok state action →
      sound (step state action).1 (step state action).2)
    (lasts : ∀ state action output, invariant state → ok state action → sound state output →
      sound (step state action).1 output) (state : State) {actions : List Action}
    (initial : invariant state) (guarded : Along step ok state actions) :
    ∀ output ∈ outputs step state actions, sound (run step state actions) output := by
  -- what holds of an output at some state still holds at the end of the run
  have stays : ∀ actions state output, invariant state → Along step ok state actions →
      sound state output → sound (run step state actions) output := by
    intro actions
    induction actions with
    | nil => exact fun _ _ _ _ holds => holds
    | cons action rest ih =>
      intro state output before along holds
      exact ih _ output (keeps state action before along.1) along.2
        (lasts state action output before along.1 holds)
  induction actions generalizing state with
  | nil => exact fun _ member => absurd member List.not_mem_nil
  | cons action rest ih =>
    intro output member
    have after := keeps state action initial guarded.1
    rcases List.mem_cons.mp member with rfl | later
    · exact stays rest _ _ after guarded.2 (issues state action initial guarded.1)
    · exact ih _ after guarded.2 output later

theorem run_relates (relation : State → State → Prop) (refl : ∀ state, relation state state)
    (trans : ∀ first second third, relation first second → relation second third →
      relation first third) (state : State) {actions : List Action}
    (steps : Along step (fun before action => relation before (step before action).1)
      state actions) : relation state (run step state actions) := by
  induction actions generalizing state with
  | nil => exact refl state
  | cons action rest ih =>
    exact trans _ _ _ steps.1 (ih (step state action).1 steps.2)

variable {ok}

theorem along_congr
    (same : ∀ state action, ok state action → (first state action ↔ second state action))
    (state : State) {actions : List Action} (guarded : Along step ok state actions) :
    Along step first state actions ↔ Along step second state actions := by
  induction actions generalizing state with
  | nil => rfl
  | cons action rest ih => exact and_congr (same state action guarded.1) (ih _ guarded.2)

theorem along_iff_along (same : ∀ state action, first state action ↔ second state action)
    {state : State} {actions : List Action} :
    Along step first state actions ↔ Along step second state actions :=
  along_congr step first second (fun state action _ => same state action)
    state (along_of_forall step _ state actions fun _ _ _ => trivial)

theorem tally_outputs (measure : Output → Nat) (state : State) (actions : List Action) :
    tally step (fun before action => measure (step before action).2) state actions =
      ((outputs step state actions).map measure).sum := by
  induction actions generalizing state with
  | nil => rfl
  | cons action rest ih => simp only [tally, outputs, List.map_cons, List.sum_cons, ih]

theorem tally_append (state : State) {first second : List Action} :
    tally step measure state (first ++ second) =
      tally step measure state first + tally step measure (run step state first) second := by
  induction first generalizing state with
  | nil => simp [tally]
  | cons action rest ih => simp only [List.cons_append, tally, run_cons, ih, Nat.add_assoc]

theorem tally_eq_zero (none : ∀ state action, measure state action = 0) (state : State)
    {actions : List Action} : tally step measure state actions = 0 := by
  induction actions generalizing state with
  | nil => rfl
  | cons action rest ih => simp only [tally, none, ih]

theorem tally_eq_zero_iff (state : State) {actions : List Action} :
    tally step measure state actions = 0 ↔
      Along step (fun before action => measure before action = 0) state actions := by
  induction actions generalizing state with
  | nil => simp [tally, Along]
  | cons action rest ih => simp only [tally, Along, Nat.add_eq_zero_iff, ih]

theorem tally_add {first second : State → Action → Nat} (state : State) {actions : List Action} :
    tally step (fun before action => first before action + second before action) state actions =
      tally step first state actions + tally step second state actions := by
  induction actions generalizing state with
  | nil => rfl
  | cons action rest ih =>
    simp only [tally, ih]
    omega

theorem tally_le_tally {first second : State → Action → Nat}
    (less : ∀ state action, first state action ≤ second state action) (state : State)
    {actions : List Action} : tally step first state actions ≤ tally step second state actions := by
  induction actions generalizing state with
  | nil => exact Nat.le_refl _
  | cons action rest ih => exact Nat.add_le_add (less state action) (ih _)

theorem along_within (measure : State → Action → Nat) (bound : Nat)
    (grows : ∀ state action, quantity (step state action).1 ≤ quantity state + measure state action)
    (state : State) (actions : List Action)
    (within : quantity state + tally step measure state actions ≤ bound) :
    Along step (fun before action => quantity before + measure before action ≤ bound) state
      actions := by
  induction actions generalizing state with
  | nil => trivial
  | cons action rest ih =>
    simp only [tally] at within
    constructor
    · omega
    · apply ih
      have := grows state action
      omega

variable (ok)

/-- Bookkeeping over a run: when every guarded step books its changes of a
quantity as costs and gains, so does the run. -/
theorem run_books_along (cost loss gain : State → Action → Nat)
    (books : ∀ state action, ok state action →
      quantity (step state action).1 + cost state action + loss state action =
        quantity state + gain state action) (state : State) (actions : List Action)
    (guarded : Along step ok state actions) :
    quantity (run step state actions) + tally step cost state actions +
        tally step loss state actions =
      quantity state + tally step gain state actions := by
  induction actions generalizing state with
  | nil => simp [tally]
  | cons action rest ih =>
    have here := books state action guarded.1
    have later := ih (step state action).1 guarded.2
    simp only [run_cons, tally]
    omega

end Savitri.Transition
