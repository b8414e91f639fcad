import Mathlib.Order.Basic

/-!
Loops that fetch and act until one of the two stops them with an outcome. A budget that
every act uses up bounds the number of acts; an invariant that every act keeps holds at
every turn of the loop. `Meets` is the rule both are stated with: what holds of the
outcome if the computation stops, and of the value if it goes on.
-/
namespace Savitri.Loops
variable {State Out Value Next : Type}

section
def Meets (onStop : Out → Prop) (onNext : Value → Prop) : Except Out Value → Prop
  | .error out => onStop out
  | .ok value => onNext value

variable {onStop onStop' : Out → Prop} {onNext onNext' : Value → Prop}

@[simp]
theorem meets_ok {value : Value} : Meets onStop onNext (.ok value) ↔ onNext value := Iff.rfl

variable {out : Out}

@[simp]
theorem meets_error : Meets onStop onNext (.error out) ↔ onStop out := Iff.rfl

@[simp]
theorem meets_pure {value : Value} :
    Meets onStop onNext (pure value : Except Out Value) ↔ onNext value := Iff.rfl

@[simp]
theorem meets_throw : Meets onStop onNext (throw out : Except Out Value) ↔ onStop out := Iff.rfl

theorem Meets.bind {goal : Next → Prop} {first : Except Out Value}
    {second : Value → Except Out Next} (done : Meets onStop onNext first)
    (goesOn : ∀ value, onNext value → Meets onStop goal (second value)) :
    Meets onStop goal (first >>= second) := by
  cases first with
  | error out => exact done
  | ok value => exact goesOn value done

theorem Meets.imp {computation : Except Out Value} (meets : Meets onStop onNext computation)
    (stops : ∀ out, onStop out → onStop' out) (goesOn : ∀ value, onNext value → onNext' value) :
    Meets onStop' onNext' computation := by
  cases computation with
  | error out => exact stops out meets
  | ok value => exact goesOn value meets

end

structure Loop (State Out : Type) where
  fetch : State → Except Out State
  act : State → Except Out State

namespace Loop
variable (loop : Loop State Out)

def run : Nat → State → Option Out
  | 0, _ => none
  | fuel + 1, state =>
    match loop.fetch state with
    | .error out => some out
    | .ok ready =>
      match loop.act ready with
      | .error out => some out
      | .ok next => run fuel next

def turn (state : State) : Except Out State := loop.fetch state >>= loop.act

def turns : Nat → State → Except Out State
  | 0, state => .ok state
  | count + 1, state => loop.turn state >>= turns count

def tally (cost : State → Nat) : Nat → State → Nat
  | 0, _ => 0
  | fuel + 1, state =>
    match loop.fetch state with
    | .error _ => 0
    | .ok ready =>
      cost ready +
        match loop.act ready with
        | .error _ => 0
        | .ok next => tally cost fuel next

def Acts (ok : State → Prop) : Nat → State → Prop
  | 0, _ => True
  | fuel + 1, state =>
    match loop.fetch state with
    | .error _ => True
    | .ok ready =>
      ok ready ∧
        match loop.act ready with
        | .error _ => True
        | .ok next => Acts ok fuel next

def Heads (ok : State → Prop) : Nat → State → Prop
  | 0, state => ok state
  | fuel + 1, state =>
    ok state ∧
      match loop.fetch state with
      | .error _ => True
      | .ok ready =>
        match loop.act ready with
        | .error _ => True
        | .ok next => Heads ok fuel next

instance decidableActs (ok : State → Prop) [decidable : ∀ state, Decidable (ok state)] :
    ∀ fuel state, Decidable (loop.Acts ok fuel state)
  | 0, _ => isTrue trivial
  | fuel + 1, state =>
    match fetched : loop.fetch state with
    | .error _ => isTrue (by simp [Acts, fetched])
    | .ok ready =>
      match acted : loop.act ready with
      | .error _ => decidable_of_iff (ok ready) (by simp [Acts, fetched, acted])
      | .ok next =>
        have := decidableActs ok fuel next
        decidable_of_iff (ok ready ∧ loop.Acts ok fuel next) (by simp [Acts, fetched, acted])

def Spends (budget : State → Nat) : Prop :=
  ∀ state ready, loop.fetch state = .ok ready →
    0 < budget state ∧ Meets (fun _ => True) (fun next => budget next < budget state)
      (loop.act ready)

variable {loop}
variable {budget : State → Nat} {ok weaker : State → Prop}

theorem run_isSome (spends : loop.Spends budget) (fuel : Nat) (state : State)
    (enough : budget state < fuel) : (loop.run fuel state).isSome = true := by
  induction fuel generalizing state with
  | zero => exact absurd enough (Nat.not_lt_zero _)
  | succ fuel ih =>
    cases fetched : loop.fetch state with
    | error out => simp [run, fetched]
    | ok ready =>
      obtain ⟨_, spent⟩ := spends state ready fetched
      cases acted : loop.act ready with
      | error out => simp [run, fetched, acted]
      | ok next =>
        rw [acted, meets_ok] at spent
        simp only [run, fetched, acted]
        exact ih next (by omega)

theorem tally_le_budget (spends : loop.Spends budget) (fuel : Nat) (state : State) :
    loop.tally (fun _ => 1) fuel state ≤ budget state := by
  induction fuel generalizing state with
  | zero => exact Nat.zero_le _
  | succ fuel ih =>
    cases fetched : loop.fetch state with
    | error out => simp [tally, fetched]
    | ok ready =>
      obtain ⟨positive, spent⟩ := spends state ready fetched
      cases acted : loop.act ready with
      | error out =>
        simp only [tally, fetched, acted]
        exact positive
      | ok next =>
        rw [acted, meets_ok] at spent
        have rest := ih next
        simp only [tally, fetched, acted]
        omega

theorem run_mono {fuel more : Nat} {state : State} {out : Out}
    (stopped : loop.run fuel state = some out) (le : fuel ≤ more) : loop.run more state = some out := by
  induction fuel generalizing more state with
  | zero => cases stopped
  | succ fuel ih =>
    obtain ⟨more, rfl⟩ : ∃ less, more = less + 1 := ⟨more - 1, by omega⟩
    unfold run at stopped ⊢
    cases fetched : loop.fetch state with
    | error other => simpa only [fetched] using stopped
    | ok ready =>
      cases acted : loop.act ready with
      | error other => simpa only [fetched, acted] using stopped
      | ok next =>
        simp only [fetched, acted] at stopped ⊢
        exact ih stopped (by omega)

theorem Acts.imp (implies : ∀ state, ok state → weaker state) (fuel : Nat) (state : State)
    (acts : loop.Acts ok fuel state) : loop.Acts weaker fuel state := by
  induction fuel generalizing state with
  | zero => trivial
  | succ fuel ih =>
    cases fetched : loop.fetch state with
    | error out => simp [Acts, fetched]
    | ok ready =>
      cases acted : loop.act ready with
      | error out =>
        simp only [Acts, fetched, acted] at acts ⊢
        exact ⟨implies ready acts.1, trivial⟩
      | ok next =>
        simp only [Acts, fetched, acted] at acts ⊢
        exact ⟨implies ready acts.1, ih next acts.2⟩

theorem Heads.imp (implies : ∀ state, ok state → weaker state) (fuel : Nat) (state : State)
    (heads : loop.Heads ok fuel state) : loop.Heads weaker fuel state := by
  induction fuel generalizing state with
  | zero => exact implies state heads
  | succ fuel ih =>
    cases fetched : loop.fetch state with
    | error out =>
      simp only [Heads, fetched] at heads ⊢
      exact ⟨implies state heads.1, trivial⟩
    | ok ready =>
      cases acted : loop.act ready with
      | error out =>
        simp only [Heads, fetched, acted] at heads ⊢
        exact ⟨implies state heads.1, trivial⟩
      | ok next =>
        simp only [Heads, fetched, acted] at heads ⊢
        exact ⟨implies state heads.1, ih next heads.2⟩

theorem heads_of_invariant (ok invariant : State → Prop) (allowed : Out → Prop)
    (keeps : ∀ state ready, invariant state → loop.fetch state = .ok ready → ok ready →
      Meets allowed invariant (loop.act ready))
    (ends : ∀ state out, invariant state → loop.fetch state = .error out → allowed out)
    (fuel : Nat) (state : State) (initial : invariant state)
    (acts : loop.Acts ok fuel state) :
    loop.Heads invariant fuel state ∧ ∀ out, loop.run fuel state = some out → allowed out := by
  induction fuel generalizing state with
  | zero => exact ⟨initial, fun out stopped => by cases stopped⟩
  | succ fuel ih =>
    cases fetched : loop.fetch state with
    | error out =>
      have stops := ends state out initial fetched
      simp only [Heads, run, fetched, Option.some.injEq, forall_eq']
      exact ⟨⟨initial, trivial⟩, stops⟩
    | ok ready =>
      simp only [Acts, fetched] at acts
      have kept := keeps state ready initial fetched acts.1
      cases acted : loop.act ready with
      | error out =>
        rw [acted, meets_error] at kept
        simp only [Heads, run, fetched, acted, Option.some.injEq, forall_eq']
        exact ⟨⟨initial, trivial⟩, kept⟩
      | ok next =>
        rw [acted, meets_ok] at kept
        simp only [acted] at acts
        obtain ⟨heads, outcome⟩ := ih next kept acts.2
        simp only [Heads, run, fetched, acted]
        exact ⟨⟨initial, heads⟩, outcome⟩

theorem tally_le_mul (cost : State → Nat) (bound fuel : Nat) (state : State)
    (acts : loop.Acts (fun ready => cost ready ≤ bound) fuel state) :
    loop.tally cost fuel state ≤ bound * loop.tally (fun _ => 1) fuel state := by
  induction fuel generalizing state with
  | zero => exact Nat.zero_le _
  | succ fuel ih =>
    cases fetched : loop.fetch state with
    | error out => simp [tally, fetched]
    | ok ready =>
      simp only [Acts, fetched] at acts
      cases acted : loop.act ready with
      | error out =>
        simp only [tally, fetched, acted, Nat.add_zero, Nat.mul_one]
        exact acts.1
      | ok next =>
        simp only [acted] at acts
        have rest := ih next acts.2
        simp only [tally, fetched, acted, Nat.mul_add, Nat.mul_one]
        exact Nat.add_le_add acts.1 rest

end Loop

end Savitri.Loops
