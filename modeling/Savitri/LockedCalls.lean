import Savitri.Transition

/-!
Calls that share data under read-write locks. A call is a program that takes and gives
back locks and accesses the data atomically under them; one that is over or dropped
gives back what it still holds. A lock is not reentrant: a call that asks for one it
holds in a conflicting mode waits for itself. Calls run
interleaved in any order, so an invariant is asked of the accesses a call can reach,
and what stands behind such a request is not among them.
-/
namespace Savitri.LockedCalls
open Transition

inductive Mode where
  | shared
  | exclusive
  deriving DecidableEq

def Mode.conflicts : Mode → Mode → Bool
  | .shared, .shared => false
  | _, _ => true

inductive Prog (Lock Data Out : Type) where
  | done (out : Out)
  | acquire (lock : Lock) (mode : Mode) (rest : Prog Lock Data Out)
  | release (lock : Lock) (mode : Mode) (rest : Prog Lock Data Out)
  | access (act : Data → Data) (rest : Data → Prog Lock Data Out)

variable {Call Lock Data Out : Type} [DecidableEq Lock]

def blocks (held : List (Lock × Mode)) (lock : Lock) (mode : Mode) : Bool :=
  held.any fun taken => taken.1 = lock && taken.2.conflicts mode

namespace Prog

def peek (lock : Lock) (rest : Data → Prog Lock Data Out) : Prog Lock Data Out :=
  .acquire lock .shared (.access id fun data => .release lock .shared (rest data))

def poke (lock : Lock) (act : Data → Data) (rest : Prog Lock Data Out) : Prog Lock Data Out :=
  .acquire lock .exclusive (.access act fun _ => .release lock .exclusive rest)

end Prog

variable {held : List (Lock × Mode)} {act : Data → Data}

section
inductive Ending (Lock Data Out : Type) where
  | returned (out : Out) (data : Data)
  | waits (lock : Lock)

def Ending.waitsFor : Ending Lock Data Out → Option Lock
  | .returned _ _ => none
  | .waits lock => some lock

def alone : Prog Lock Data Out → List (Lock × Mode) → Data → Ending Lock Data Out
  | .done out, _, data => .returned out data
  | .acquire lock mode rest, held, data =>
    if blocks held lock mode then .waits lock else alone rest ((lock, mode) :: held) data
  | .release lock mode rest, held, data => alone rest (held.erase (lock, mode)) data
  | .access act rest, held, data => alone (rest data) held (act data)

variable {lock : Lock}
variable {rest : Prog Lock Data Out} {data : Data}

theorem alone_acquire {mode : Mode} (free : blocks held lock mode = false) :
    alone (.acquire lock mode rest) held data = alone rest ((lock, mode) :: held) data := by
  rw [alone, free]
  rfl

theorem alone_peek {rest : Data → Prog Lock Data Out} (free : blocks held lock .shared = false) :
    alone (.peek lock rest) held data = alone (rest data) held data := by
  rw [Prog.peek, alone_acquire free]
  simp only [alone, id_eq, List.erase_cons_head]

theorem alone_poke (free : blocks held lock .exclusive = false) :
    alone (.poke lock act rest) held data = alone rest held (act data) := by
  rw [Prog.poke, alone_acquire free]
  simp only [alone, List.erase_cons_head]

end

section Interleaving
structure Task (Call Lock Data Out : Type) where
  call : Call
  prog : Prog Lock Data Out
  held : List (Lock × Mode) := []

structure System (Call Lock Data Out : Type) where
  data : Data
  tasks : List (Task Call Lock Data Out) := []

inductive Event (Call : Type) where
  | start (call : Call)
  | advance (index : Nat)
  | cancel (index : Nat)

namespace System
variable (system : System Call Lock Data Out)

def isHeld (lock : Lock) (mode : Mode) : Bool :=
  system.tasks.any fun task => blocks task.held lock mode

def advance (index : Nat) : System Call Lock Data Out × Option Out :=
  match system.tasks[index]? with
  | none => (system, none)
  | some task =>
    match task.prog with
    | .done out => ({ system with tasks := system.tasks.eraseIdx index }, some out)
    | .acquire lock mode rest =>
      if system.isHeld lock mode then (system, none)
      else
        ({ system with
            tasks := system.tasks.set index
              { task with prog := rest, held := (lock, mode) :: task.held } }, none)
    | .release lock mode rest =>
      ({ system with
          tasks := system.tasks.set index
            { task with prog := rest, held := task.held.erase (lock, mode) } }, none)
    | .access act rest =>
      ({ data := act system.data,
         tasks := system.tasks.set index { task with prog := rest system.data } }, none)

end System

variable (program : Call → Prog Lock Data Out)

def step (system : System Call Lock Data Out) : Event Call → System Call Lock Data Out × Option Out
  | .start call => ({ system with tasks := system.tasks ++ [{ call, prog := program call }] }, none)
  | .advance index => system.advance index
  | .cancel index => ({ system with tasks := system.tasks.eraseIdx index }, none)

variable (good : Data → Prop)

/-- Every access that the program can reach, while it holds the locks, keeps the data good. -/
def Keeps : List (Lock × Mode) → Prog Lock Data Out → Prop
  | _, .done _ => True
  | held, .acquire lock mode rest =>
    blocks held lock mode = false → Keeps ((lock, mode) :: held) rest
  | held, .release lock mode rest => Keeps (held.erase (lock, mode)) rest
  | held, .access act rest => ∀ data, good data → good (act data) ∧ Keeps held (rest data)

structure Sound (system : System Call Lock Data Out) : Prop where
  data : good system.data
  tasks : ∀ task ∈ system.tasks, Keeps good task.held task.prog

variable {good} {system : System Call Lock Data Out} {lock : Lock}
variable {rest : Data → Prog Lock Data Out}

theorem keeps_access (kept : ∀ data, good data → good (act data))
    (later : ∀ data, good data → Keeps good held (rest data)) : Keeps good held (.access act rest) :=
  fun data fine => ⟨kept data fine, later data fine⟩

theorem keeps_peek (later : ∀ data, good data → Keeps good held (rest data)) :
    Keeps good held (.peek lock rest) := by
  intro _ data fine
  refine ⟨fine, ?_⟩
  simp only [Keeps, List.erase_cons_head]
  exact later data fine

theorem keeps_poke {rest : Prog Lock Data Out} (kept : ∀ data, good data → good (act data))
    (later : Keeps good held rest) : Keeps good held (.poke lock act rest) := by
  intro _ data fine
  refine ⟨kept data fine, ?_⟩
  simp only [Keeps, List.erase_cons_head]
  exact later

variable {data : Data}

theorem sound_set (sound : Sound good system) (index : Nat) (fine : good data)
    {task : Task Call Lock Data Out} (keeps : Keeps good task.held task.prog) :
    Sound good { data, tasks := system.tasks.set index task } := by
  refine ⟨fine, ?_⟩
  intro other member
  rcases List.mem_or_eq_of_mem_set member with old | new
  · exact sound.tasks other old
  · rw [new]
    exact keeps

theorem sound_eraseIdx (sound : Sound good system) (index : Nat) :
    Sound good { system with tasks := system.tasks.eraseIdx index } :=
  ⟨sound.data, fun task member => sound.tasks task (List.mem_of_mem_eraseIdx member)⟩

theorem sound_advance (sound : Sound good system) (index : Nat) :
    Sound good (system.advance index).1 := by
  unfold System.advance
  split
  next => exact sound
  next task found =>
    have keeps := sound.tasks task (List.mem_of_getElem? found)
    split
    next => exact sound_eraseIdx sound index
    next lock mode rest same =>
      rw [same] at keeps
      split
      next => exact sound
      next free =>
        -- nobody holds the lock against the request, the call itself included
        apply sound_set sound index sound.data
        apply keeps
        simp only [System.isHeld, List.any_eq_true, not_exists, not_and, Bool.not_eq_true] at free
        exact free task (List.mem_of_getElem? found)
    next lock mode rest same =>
      rw [same] at keeps
      exact sound_set sound index sound.data keeps
    next act rest same =>
      rw [same] at keeps
      obtain ⟨fine, later⟩ := keeps system.data sound.data
      exact sound_set sound index fine later

/-- In every interleaving of calls that keep the data good, and whatever calls are dropped on the
way, the data stays good. -/
theorem good_run (keeps : ∀ call, Keeps good [] (program call)) (fine : good data)
    (events : List (Event Call)) : good (run (step program) { data } events).data := by
  have sound : Sound good (run (step program) ({ data } : System Call Lock Data Out) events) := by
    apply run_invariant (step program) (Sound good)
    · intro system event sound
      cases event with
      | start call =>
        refine ⟨sound.data, ?_⟩
        intro task member
        rcases List.mem_append.mp member with old | new
        · exact sound.tasks task old
        · rw [List.mem_singleton.mp new]
          exact keeps call
      | advance index => exact sound_advance sound index
      | cancel index => exact sound_eraseIdx sound index
    · exact ⟨fine, fun task member => absurd member List.not_mem_nil⟩
  exact sound.data

end Interleaving

end Savitri.LockedCalls
