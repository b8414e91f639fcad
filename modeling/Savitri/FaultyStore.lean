import Savitri.Fallible

/-!
A store behind accesses that may fail. Each access first takes the next answer of its
surroundings; a fault ends the computation there and takes nothing back. `Ends` holds of a
computation if it ends well for every list of answers, with one condition for the stores
it can return from and one for those it can fail in.
-/
namespace Savitri.FaultyStore
open Fallible

structure World (Store : Type) where
  store : Store
  faults : List (Option String)

variable {Store Out Value : Type}

def touch : Action (World Store) Unit := do
  let world ← get
  match world.faults with
  | [] => pure ()
  | answer :: rest =>
    set { world with faults := rest }
    match answer with
    | none => pure ()
    | some text => fail text

def read (view : Store → Out) : Action (World Store) Out := do
  touch
  return view (← get).store

def write (change : Store → Store) : Action (World Store) Unit := do
  touch
  modify fun world => { world with store := change world.store }

def Ends (action : Action (World Store) Out) (store : Store) (bad : Store → Prop)
    (good : Out → Store → Prop) : Prop :=
  ∀ faults, match perform action { store, faults } with
    | (after, .ok out) => good out after.store
    | (after, .error _) => bad after.store

variable {text : String}

section
variable {store : Store} {bad : Store → Prop} {good : Out → Store → Prop}

theorem ends_pure {out : Out} (holds : good out store) : Ends (pure out) store bad good :=
  fun _ => holds

theorem ends_fail (fine : bad store) : Ends (fail text : Action (World Store) Out) store bad good :=
  fun _ => fine

theorem ends_bind {action : Action (World Store) Value} {next : Value → Action (World Store) Out}
    (first : Ends action store bad fun value middle => Ends (next value) middle bad good) :
    Ends (action >>= next) store bad good := by
  intro faults
  rw [perform_bind]
  have here := first faults
  generalize perform action { store, faults } = outcome at here ⊢
  rcases outcome with ⟨⟨middle, rest⟩, failure | value⟩
  · exact here
  · exact here rest

variable {action : Action (World Store) Out}

theorem Ends.imp {bad' : Store → Prop} {good' : Out → Store → Prop}
    (ends : Ends action store bad good) (worse : ∀ after, bad after → bad' after)
    (better : ∀ out after, good out after → good' out after) : Ends action store bad' good' := by
  intro faults
  have here := ends faults
  generalize perform action { store, faults } = outcome at here ⊢
  rcases outcome with ⟨after, failure | out⟩
  · exact worse _ here
  · exact better _ _ here

variable (fine : bad store)
include fine

theorem ends_require {holds : Bool} {good : Unit → Store → Prop}
    (next : holds = true → good () store) : Ends (require holds text) store bad good := by
  cases holds with
  | false => exact ends_fail fine
  | true => exact ends_pure (next rfl)

theorem ends_present {value : Option Out}
    (next : ∀ out, value = some out → good out store) : Ends (present value text) store bad good := by
  cases value with
  | none => exact ends_fail fine
  | some out => exact ends_pure (next out rfl)

theorem ends_lift {result : Except String Out} (next : ∀ out, result = .ok out → good out store) :
    Ends (lift result) store bad good := by
  cases result with
  | error text => exact ends_fail fine
  | ok out => exact ends_pure (next out rfl)

omit fine in
theorem ends_withContext (ends : Ends action store bad good) :
    Ends (withContext text action) store bad good := by
  intro faults
  rw [perform_withContext]
  have here := ends faults
  generalize perform action { store, faults } = outcome at here ⊢
  rcases outcome with ⟨after, failure | out⟩
  · exact here
  · exact here

theorem ends_touch {good : Unit → Store → Prop} (next : good () store) : Ends touch store bad good := by
  intro faults
  cases faults with
  | nil => exact next
  | cons answer rest =>
    cases answer with
    | none => exact next
    | some text => exact fine

theorem ends_read {view : Store → Out} (next : good (view store) store) :
    Ends (read view) store bad good :=
  ends_bind (ends_touch fine (fun _ => next))

theorem ends_write {change : Store → Store} {good : Unit → Store → Prop}
    (next : good () (change store)) : Ends (write change) store bad good :=
  ends_bind (ends_touch fine (fun _ => next))

end

end Savitri.FaultyStore
