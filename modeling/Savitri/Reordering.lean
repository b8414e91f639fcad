import Savitri.Transition

/-!
When the order of a run does not matter. Insertion sort carries an action only
past actions that stand against the order, so a run ends in the same state
after sorting as soon as every such pair commutes.
-/
namespace Savitri.Reordering
open Transition
universe u v w x
variable {State : Type u} {Action : Type v} {Output : Type w} {Other : Type x}
variable (step : State → Action → State × Output)

/-- The order in which a hash table hands out its entries: some permutation of them. -/
structure Shuffle (Item : Type u) where
  order : List Item → List Item
  perm : ∀ items, (order items).Perm items

def Shuffle.plain {Item : Type u} : Shuffle Item where
  order items := items
  perm _ := List.Perm.refl _

def Shuffle.last {Item : Type u} [DecidableEq Item] (item : Item) : Shuffle Item where
  order items := if item ∈ items then items.erase item ++ [item] else items
  perm items := by
    split
    next member =>
      exact (List.perm_append_singleton item _).trans (List.perm_cons_erase member).symm
    next => exact List.Perm.refl _

/-- The two actions end in the same state in either order. -/
def Commutes (first second : Action) : Prop :=
  ∀ state, (step (step state first).1 second).1 = (step (step state second).1 first).1

variable {step}

section
variable {before : Action → Action → Prop} [DecidableRel before]

theorem run_orderedInsert {action : Action} {rest : List Action} (state : State)
    (passes : ∀ other ∈ rest, ¬ before action other → Commutes step action other) :
    run step state (rest.orderedInsert before action) = run step state (action :: rest) := by
  induction rest generalizing state with
  | nil => rfl
  | cons other rest ih =>
    by_cases inOrder : before action other
    · rw [List.orderedInsert_cons_of_le before rest inOrder]
    · have swap := passes other List.mem_cons_self inOrder state
      rw [List.orderedInsert_of_not_le before rest inOrder, run_cons,
        ih _ fun later member => passes later (List.mem_cons_of_mem _ member)]
      simp only [run_cons, swap]

theorem run_insertionSort {actions : List Action} (state : State)
    (inversions : actions.Pairwise fun first second =>
      ¬ before first second → Commutes step first second) :
    run step state (actions.insertionSort before) = run step state actions := by
  induction actions generalizing state with
  | nil => rfl
  | cons action rest ih =>
    rw [List.pairwise_cons] at inversions
    rw [List.insertionSort_cons, run_orderedInsert state, run_cons, run_cons, ih _ inversions.2]
    intro other member
    exact inversions.1 other ((List.mem_insertionSort before).mp member)

end

/-- Two machines that agree wherever a guard holds agree on every guarded run. -/
theorem run_eq_along {other : State → Action → State × Other} {ok : State → Action → Prop}
    (same : ∀ state action, ok state action → (step state action).1 = (other state action).1)
    (state : State) (actions : List Action) (guarded : Along step ok state actions) :
    run step state actions = run other state actions := by
  induction actions generalizing state with
  | nil => rfl
  | cons action rest ih =>
    rw [run_cons, run_cons, ← same state action guarded.1]
    exact ih _ guarded.2

end Savitri.Reordering
