import Mathlib.Logic.Basic
import Mathlib.Tactic.Common

/-!
Two machines that take the same labels one by one. Where related states stay related
exactly under a condition on the label and the right state, all states of a run are related
exactly when every label meets the condition. What the left machine needs besides, such as
where it stands in its program, is an invariant over the labels still to come.
-/
namespace Savitri.Lockstep
universe u v w
variable {Label : Type u} {Left : Type v} {Right : Type w}
  (left : Left → Option Left) (right : Label → Right → Option Right)

/-- A relation between the two states before every step and after the last one. -/
def EveryState (related : Left → Right → Prop) : List Label → Left → Right → Prop
  | [], before, other => related before other
  | label :: rest, before, other =>
    related before other ∧
      ∃ after after', left before = some after ∧ right label other = some after' ∧
        EveryState related rest after after'

def EveryStep (same : Label → Right → Prop) : List Label → Right → Prop
  | [], _ => True
  | label :: rest, other =>
    same label other ∧ ∀ after, right label other = some after → EveryStep same rest after

def Runs : List Label → Left → Prop
  | [], _ => True
  | _ :: rest, before => ∃ after, left before = some after ∧ Runs rest after

instance decidableRuns : ∀ (labels : List Label) before, Decidable (Runs left labels before)
  | [], _ => isTrue trivial
  | _ :: rest, before =>
    match stepped : left before with
    | none => isFalse fun ⟨_, other, _⟩ => by cases stepped.symm.trans other
    | some after =>
      have := decidableRuns rest after
      decidable_of_iff (Runs left rest after) (by simp [Runs, stepped])

variable {left right} {related : Left → Right → Prop} {same : Label → Right → Prop}
variable {labels : List Label}

theorem EveryState.start {before : Left} {other : Right}
    (states : EveryState left right related labels before other) : related before other := by
  cases labels with
  | nil => exact states
  | cons label rest => exact states.1

theorem everyState_iff_everyStep (ahead : List Label → Left → Prop)
    (follows : ∀ label rest before other after, ahead (label :: rest) before →
      related before other → left before = some after → ahead rest after ∧
        ∃ after', right label other = some after' ∧ (related after after' ↔ same label other))
    {before : Left} {other : Right} (start : ahead labels before) (met : related before other)
    (runs : Runs left labels before) :
    EveryState left right related labels before other ↔ EveryStep right same labels other := by
  induction labels generalizing before other with
  | nil => exact iff_of_true met trivial
  | cons label rest ih =>
    obtain ⟨after, stepped, runs⟩ := runs
    obtain ⟨later, after', followed, exact⟩ :=
      follows label rest before other after start met stepped
    constructor
    · rintro ⟨_, next, next', stepped', followed', states⟩
      cases stepped.symm.trans stepped'
      cases followed.symm.trans followed'
      have kept := states.start
      refine ⟨exact.mp kept, fun next' followed' => ?_⟩
      cases followed.symm.trans followed'
      exact (ih later kept runs).mp states
    · rintro ⟨agrees, steps⟩
      exact ⟨met, after, after', stepped, followed,
        (ih later (exact.mpr agrees) runs).mpr (steps after' followed)⟩

end Savitri.Lockstep
