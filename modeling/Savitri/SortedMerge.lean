import Mathlib

/-!
The merge of two tables given as ascending lists, in which the second one overrides the
first. It is ascending again and holds what the second list holds, and of the first what
is not overridden. An ascending list is determined by its entries.
-/
namespace Savitri.SortedMerge
open Std
variable {Key Value : Type} [Ord Key]

def Ascending (entries : List (Key × Value)) : Prop :=
  entries.Pairwise fun first second => compare first.1 second.1 = .lt

def overrideWith : List (Key × Value) → List (Key × Value) → List (Key × Value)
  | [], writes => writes
  | base, [] => base
  | (key, value) :: base, (other, written) :: writes =>
    match compare key other with
    | .lt => (key, value) :: overrideWith base ((other, written) :: writes)
    | .gt => (other, written) :: overrideWith ((key, value) :: base) writes
    | .eq => (other, written) :: overrideWith base writes
termination_by base writes => base.length + writes.length

variable {base writes : List (Key × Value)}

theorem mem_or_mem_of_mem_overrideWith {entry : Key × Value}
    (member : entry ∈ overrideWith base writes) : entry ∈ base ∨ entry ∈ writes := by
  fun_induction overrideWith base writes with
  | case1 writes => exact Or.inr member
  | case2 base => exact Or.inl member
  | case3 key value base other written writes below ih =>
    rcases List.mem_cons.mp member with rfl | later
    · simp
    · rcases ih later with inBase | inWrites
      · exact Or.inl (List.mem_cons_of_mem _ inBase)
      · exact Or.inr inWrites
  | case4 key value base other written writes above ih =>
    rcases List.mem_cons.mp member with rfl | later
    · simp
    · rcases ih later with inBase | inWrites
      · exact Or.inl inBase
      · exact Or.inr (List.mem_cons_of_mem _ inWrites)
  | case5 key value base other written writes same ih =>
    rcases List.mem_cons.mp member with rfl | later
    · simp
    · rcases ih later with inBase | inWrites
      · exact Or.inl (List.mem_cons_of_mem _ inBase)
      · exact Or.inr (List.mem_cons_of_mem _ inWrites)

theorem ne_of_compare_lt [LawfulEqOrd Key] {left right : Key} (below : compare left right = .lt) :
    left ≠ right := by
  rintro rfl
  rw [compare_self] at below
  cases below

theorem below_all [TransOrd Key] {key head : Key} {value : Value} {rest : List (Key × Value)}
    (below : compare key head = .lt) (ascending : Ascending ((head, value) :: rest)) :
    ∀ entry ∈ (head, value) :: rest, compare key entry.1 = .lt := by
  intro entry member
  rcases List.mem_cons.mp member with rfl | later
  · exact below
  · exact TransCmp.lt_trans below (List.rel_of_pairwise_cons ascending later)

theorem writes_sublist_overrideWith : writes.Sublist (overrideWith base writes) := by
  fun_induction overrideWith base writes with
  | case1 => exact List.Sublist.refl _
  | case2 => exact List.nil_sublist _
  | case3 key value base other written writes below ih => exact ih.cons _
  | case4 key value base other written writes above ih
  | case5 key value base other written writes same ih => exact ih.cons_cons _

theorem keys_sublist_overrideWith [LawfulEqOrd Key] :
    (base.map Prod.fst).Sublist ((overrideWith base writes).map Prod.fst) := by
  fun_induction overrideWith base writes with
  | case1 => exact List.nil_sublist _
  | case2 => exact List.Sublist.refl _
  | case3 key value base other written writes below ih => exact ih.cons_cons _
  | case4 key value base other written writes above ih => exact ih.cons _
  | case5 key value base other written writes same ih =>
    obtain rfl := LawfulEqCmp.eq_of_compare same
    exact ih.cons_cons _

variable [TransOrd Key] [LawfulEqOrd Key]

theorem eq_of_same_entries {left right : List (Key × Value)} (leftAscending : Ascending left)
    (rightAscending : Ascending right) (same : ∀ entry, entry ∈ left ↔ entry ∈ right) :
    left = right := by
  have irrefl : Irrefl fun first second : Key × Value => compare first.1 second.1 = .lt :=
    ⟨fun _ below => ne_of_compare_lt below rfl⟩
  have antisymm : Antisymm fun first second : Key × Value => compare first.1 second.1 = .lt :=
    ⟨fun first _ below above => absurd rfl (ne_of_compare_lt (TransCmp.lt_trans below above))⟩
  exact List.Pairwise.eq_of_mem_iff leftAscending rightAscending same

theorem ascending_overrideWith (baseAscending : Ascending base) (writesAscending : Ascending writes) :
    Ascending (overrideWith base writes) := by
  fun_induction overrideWith base writes with
  | case1 writes => exact writesAscending
  | case2 base => exact baseAscending
  | case3 key value base other written writes below ih =>
    refine List.pairwise_cons.mpr ⟨?_, ih baseAscending.of_cons writesAscending⟩
    intro entry member
    rcases mem_or_mem_of_mem_overrideWith member with inBase | inWrites
    · exact List.rel_of_pairwise_cons baseAscending inBase
    · exact below_all below writesAscending entry inWrites
  | case4 key value base other written writes above ih =>
    refine List.pairwise_cons.mpr ⟨?_, ih baseAscending writesAscending.of_cons⟩
    intro entry member
    rcases mem_or_mem_of_mem_overrideWith member with inBase | inWrites
    · exact below_all (OrientedCmp.lt_of_gt above) baseAscending entry inBase
    · exact List.rel_of_pairwise_cons writesAscending inWrites
  | case5 key value base other written writes same ih =>
    obtain rfl := LawfulEqCmp.eq_of_compare same
    refine List.pairwise_cons.mpr ⟨?_, ih baseAscending.of_cons writesAscending.of_cons⟩
    intro entry member
    rcases mem_or_mem_of_mem_overrideWith member with inBase | inWrites
    · exact List.rel_of_pairwise_cons baseAscending inBase
    · exact List.rel_of_pairwise_cons writesAscending inWrites

theorem mem_overrideWith (baseAscending : Ascending base) (writesAscending : Ascending writes)
    {entry : Key × Value} :
    entry ∈ overrideWith base writes ↔
      entry ∈ writes ∨ entry ∈ base ∧ ∀ write ∈ writes, write.1 ≠ entry.1 := by
  fun_induction overrideWith base writes with
  | case1 | case2 => simp
  | case3 key value base other written writes below ih =>
    -- the first key of the base is below every key written
    have apart : ∀ write ∈ (other, written) :: writes, write.1 ≠ key := fun write member =>
      (ne_of_compare_lt (below_all below writesAscending write member)).symm
    rw [List.mem_cons, ih baseAscending.of_cons writesAscending]
    constructor
    · rintro (rfl | inWrites | ⟨inBase, free⟩)
      · exact Or.inr ⟨List.mem_cons_self, apart⟩
      · exact Or.inl inWrites
      · exact Or.inr ⟨List.mem_cons_of_mem _ inBase, free⟩
    · rintro (inWrites | ⟨inBase, free⟩)
      · exact Or.inr (Or.inl inWrites)
      · rcases List.mem_cons.mp inBase with rfl | later
        · exact Or.inl rfl
        · exact Or.inr (Or.inr ⟨later, free⟩)
  | case4 key value base other written writes above ih =>
    have apart : ∀ held ∈ (key, value) :: base, other ≠ held.1 := fun held member =>
      ne_of_compare_lt (below_all (OrientedCmp.lt_of_gt above) baseAscending held member)
    rw [List.mem_cons, ih baseAscending writesAscending.of_cons]
    constructor
    · rintro (rfl | inWrites | ⟨inBase, free⟩)
      · exact Or.inl List.mem_cons_self
      · exact Or.inl (List.mem_cons_of_mem _ inWrites)
      · exact Or.inr ⟨inBase, List.forall_mem_cons.mpr ⟨apart entry inBase, free⟩⟩
    · rintro (inWrites | ⟨inBase, free⟩)
      · rcases List.mem_cons.mp inWrites with rfl | later
        · exact Or.inl rfl
        · exact Or.inr (Or.inl later)
      · exact Or.inr (Or.inr ⟨inBase, (List.forall_mem_cons.mp free).2⟩)
  | case5 key value base other written writes same ih =>
    obtain rfl := LawfulEqCmp.eq_of_compare same
    rw [List.mem_cons, ih baseAscending.of_cons writesAscending.of_cons]
    constructor
    · rintro (rfl | inWrites | ⟨inBase, free⟩)
      · exact Or.inl List.mem_cons_self
      · exact Or.inl (List.mem_cons_of_mem _ inWrites)
      · exact Or.inr ⟨List.mem_cons_of_mem _ inBase, List.forall_mem_cons.mpr
          ⟨ne_of_compare_lt (List.rel_of_pairwise_cons baseAscending inBase), free⟩⟩
    · rintro (inWrites | ⟨inBase, free⟩)
      · rcases List.mem_cons.mp inWrites with rfl | later
        · exact Or.inl rfl
        · exact Or.inr (Or.inl later)
      · have first := List.forall_mem_cons.mp free
        rcases List.mem_cons.mp inBase with rfl | later
        · exact absurd rfl first.1
        · exact Or.inr (Or.inr ⟨later, first.2⟩)

end Savitri.SortedMerge
