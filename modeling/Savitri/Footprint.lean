import Mathlib

/-!
Operations on an ordered table that read and write inside an area of its keys.
Two of them commute when their areas are disjoint. An update of one key is the
smallest such operation; the entry it leaves depends on the entry it found.
-/
namespace Savitri.Footprint
open Std
universe u v
variable {Key : Type u} {Value : Type v} {cmp : Key → Key → Ordering} [TransCmp cmp]

def Agree (area : Set Key) (left right : ExtTreeMap Key Value cmp) : Prop :=
  ∀ key ∈ area, left[key]? = right[key]?

/-- Outside its area an operation writes nothing, and what it writes inside
depends on the entries inside. -/
structure Local (area : Set Key)
    (operation : ExtTreeMap Key Value cmp → ExtTreeMap Key Value cmp) : Prop where
  keeps : ∀ table key, key ∉ area → (operation table)[key]? = table[key]?
  reads : ∀ left right, Agree area left right → Agree area (operation left) (operation right)

/-- The entry an operation leaves at a key depends on the entry it found there. -/
def Pointwise (operation : ExtTreeMap Key Value cmp → ExtTreeMap Key Value cmp) : Prop :=
  ∀ (left right : ExtTreeMap Key Value cmp) (key : Key), left[key]? = right[key]? →
    (operation left)[key]? = (operation right)[key]?

variable {area other : Set Key}
variable {first second : ExtTreeMap Key Value cmp → ExtTreeMap Key Value cmp}

theorem local_id : Local area (fun table : ExtTreeMap Key Value cmp => table) where
  keeps _ _ _ := rfl
  reads _ _ agree := agree

theorem Local.mono (inside : Local area first) (wider : area ⊆ other) : Local other first where
  keeps table key outside := inside.keeps table key fun member => outside (wider member)
  reads left right agree := by
    intro key member
    by_cases within : key ∈ area
    · exact inside.reads left right (fun near member => agree near (wider member)) key within
    · rw [inside.keeps left key within, inside.keeps right key within]
      exact agree key member

theorem Local.comp (later : Local area second) (earlier : Local area first) :
    Local area (fun table => second (first table)) where
  keeps table key outside := by
    rw [later.keeps (first table) key outside, earlier.keeps table key outside]
  reads left right agree := later.reads _ _ (earlier.reads left right agree)

theorem Local.commute [LawfulEqCmp cmp] (here : Local area first) (there : Local other second)
    (disjoint : Disjoint area other) : Function.Commute first second := by
  intro table
  have untouched : Agree area (second table) table := fun key member =>
    there.keeps table key (Set.disjoint_left.mp disjoint member)
  have unread : Agree other (first table) table := fun key member =>
    here.keeps table key (Set.disjoint_right.mp disjoint member)
  apply ExtTreeMap.ext_getElem?
  intro key
  by_cases within : key ∈ area
  · rw [here.reads _ _ untouched key within,
      there.keeps (first table) key (Set.disjoint_left.mp disjoint within)]
  · rw [here.keeps (second table) key within]
    by_cases beyond : key ∈ other
    · exact (there.reads _ _ unread key beyond).symm
    · rw [there.keeps (first table) key beyond, there.keeps table key beyond,
        here.keeps table key within]

section
/-- Replace the entry of a key by what `change` makes of it; `none` leaves the
table as it is. -/
def update (key : Key) (change : Option Value → Option Value)
    (table : ExtTreeMap Key Value cmp) : ExtTreeMap Key Value cmp :=
  match change table[key]? with
  | some value => table.insert key value
  | none => table

variable [LawfulEqCmp cmp]

theorem getElem?_update [DecidableEq Key] (key near : Key)
    (change : Option Value → Option Value) (table : ExtTreeMap Key Value cmp) :
    (update key change table)[near]? =
      if key = near then (change table[near]?).or table[near]? else table[near]? := by
  unfold update
  by_cases here : key = near
  · subst here
    cases change table[key]? <;> simp
  · rw [if_neg here]
    cases change table[key]? with
    | none => rfl
    | some value => simp [ExtTreeMap.getElem?_insert, here]

variable {key : Key} {change : Option Value → Option Value}

theorem pointwise_update :
    Pointwise (update key change : ExtTreeMap Key Value cmp → ExtTreeMap Key Value cmp) := by
  classical
  intro left right near same
  rw [getElem?_update, getElem?_update, same]

theorem local_update (member : key ∈ area) :
    Local area (update key change : ExtTreeMap Key Value cmp → ExtTreeMap Key Value cmp) where
  keeps table near outside := by
    classical
    rw [getElem?_update, if_neg]
    rintro rfl
    exact outside member
  reads left right agree near inside := pointwise_update left right near (agree near inside)

end

end Savitri.Footprint
