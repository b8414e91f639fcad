import Savitri.Transition

/-!
Computations over a state that may fail. A failure does not roll back: what was done to
the state before it stays done. A failure is a list of texts, the cause last; a caller
that passes it on may put a text in front. The rules say when each form returns, and
from which state it goes on.
-/
namespace Savitri.Fallible
abbrev Failure := List String

abbrev Action (State Out : Type) := ExceptT Failure (StateM State) Out

variable {State Out Value : Type}
variable (action : Action State Out)

/-- The state afterwards and the result, also where the action fails. -/
def perform (before : State) : State × Except Failure Out := (action.run.run before).swap

def Returns (before : State) (out : Out) (after : State) : Prop :=
  perform action before = (after, .ok out)

def fail (text : String) : Action State Out := throw [text]

def require (holds : Bool) (text : String) : Action State Unit :=
  if holds then pure () else fail text

/-- `ok_or_else`: a missing value is a failure. -/
def present (value : Option Out) (text : String) : Action State Out :=
  match value with
  | some out => pure out
  | none => fail text

/-- `?` on a result of something that does not touch the state. -/
def lift (result : Except String Out) : Action State Out :=
  match result with
  | .ok out => pure out
  | .error text => fail text

def withContext (text : String) (action : Action State Out) : Action State Out :=
  ExceptT.adapt (text :: ·) action

section
variable {before after : State} {out : Out}

theorem returns_of_ok {action : Action State Out} (ok : (perform action before).2 = .ok out) :
    Returns action before out (perform action before).1 :=
  Prod.ext rfl ok

theorem exists_returns {action : Action State Out} (ok : (perform action before).2.isOk = true) :
    ∃ out, Returns action before out (perform action before).1 := by
  cases result : (perform action before).2 with
  | error failure => simp [result, Except.isOk, Except.toBool] at ok
  | ok out => exact ⟨out, returns_of_ok result⟩

@[simp]
theorem returns_pure (value : Out) :
    Returns (pure value : Action State Out) before out after ↔ value = out ∧ before = after := by
  constructor
  · intro returned
    cases returned
    exact ⟨rfl, rfl⟩
  · rintro ⟨rfl, rfl⟩
    rfl

variable {text : String} {action : Action State Value} {next : Value → Action State Out}

theorem perform_bind :
    perform (action >>= next) before =
      match perform action before with
      | (middle, .ok value) => perform (next value) middle
      | (middle, .error failure) => (middle, .error failure) := by
  simp only [perform, StateT.run_bind, ExceptT.run_bind]
  rcases action.run.run before with ⟨failure | value, middle⟩ <;> rfl

theorem returns_bind :
    Returns (action >>= next) before out after ↔
      ∃ value middle, Returns action before value middle ∧
        Returns (next value) middle out after := by
  unfold Returns
  rw [perform_bind]
  rcases perform action before with ⟨middle, failure | value⟩
  · simp
  · simp

@[simp]
theorem returns_fail : ¬ Returns (fail text : Action State Out) before out after := by
  intro returned
  cases returned

variable {nothing : Unit}

@[simp]
theorem returns_require (holds : Bool) (text : String) :
    Returns (require holds text) before nothing after ↔ holds = true ∧ before = after := by
  cases holds with
  | false | true => simp [require]

@[simp]
theorem returns_present (value : Option Out) (text : String) :
    Returns (present value text) before out after ↔ value = some out ∧ before = after := by
  cases value with
  | none | some => simp [present]

theorem perform_withContext {action : Action State Out} :
    perform (withContext text action) before =
      ((perform action before).1, (perform action before).2.mapError (text :: ·)) := rfl

@[simp]
theorem returns_withContext {action : Action State Out} :
    Returns (withContext text action) before out after ↔ Returns action before out after := by
  unfold Returns
  rw [perform_withContext]
  rcases perform action before with ⟨middle, failure | value⟩
  · simp [Except.mapError]
  · simp [Except.mapError]

@[simp]
theorem returns_get {state : State} :
    Returns (get : Action State State) before state after ↔ before = state ∧ before = after := by
  constructor
  · intro returned
    cases returned
    exact ⟨rfl, rfl⟩
  · rintro ⟨rfl, rfl⟩
    rfl

@[simp]
theorem returns_modify {change : State → State} :
    Returns (modify change : Action State Unit) before nothing after ↔ change before = after := by
  constructor
  · intro returned
    cases returned
    rfl
  · rintro rfl
    rfl

end

end Savitri.Fallible
