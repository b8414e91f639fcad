import Mathlib

/-!
Lexicographic comparison of pairs, the order of tuple keys in ordered tables.
The instances let such keys index `Std.ExtTreeMap` with its full lookup theory.
-/
namespace Savitri.PairOrder
open Std
universe u v
variable {First : Type u} {Second : Type v} [Ord First] [Ord Second]

def pairCompare : First × Second → First × Second → Ordering :=
  compareLex (compareOn Prod.fst) (compareOn Prod.snd)

instance [TransOrd First] [TransOrd Second] : TransCmp (@pairCompare First Second _ _) :=
  inferInstanceAs (TransCmp (compareLex _ _))

instance [LawfulEqOrd First] [LawfulEqOrd Second] :
    LawfulEqCmp (@pairCompare First Second _ _) where
  compare_self {pair} := by simp [pairCompare, compareLex, compareOn]
  eq_of_compare {left right} same := by
    simp only [pairCompare, compareLex_eq_eq, compareOn] at same
    exact Prod.ext (LawfulEqOrd.eq_of_compare same.1) (LawfulEqOrd.eq_of_compare same.2)

theorem pairCompare_same_fst [LawfulEqOrd First] {first : First} {left right : Second} :
    pairCompare (first, left) (first, right) = compare left right := by
  simp [pairCompare, compareLex, compareOn]

section
variable {Item : Type u} {Key : Type v} (cmp : Key → Key → Ordering) [TransCmp cmp]

theorem pairwise_insertionSort_key (key : Item → Key) (items : List Item) :
    (items.insertionSort fun first second => (cmp (key first) (key second)).isLE).Pairwise
      fun first second => (cmp (key first) (key second)).isLE = true := by
  have total : Std.Total fun first second => (cmp (key first) (key second)).isLE = true := by
    constructor
    intro first second
    by_cases forward : (cmp (key first) (key second)).isLE = true
    · exact Or.inl forward
    · rw [Bool.not_eq_true, Ordering.isLE_eq_false] at forward
      have backward : cmp (key second) (key first) = .lt := OrientedCmp.gt_iff_lt.mp forward
      exact Or.inr (by rw [backward]; rfl)
  have trans : IsTrans Item fun first second =>
      (cmp (key first) (key second)).isLE = true := by
    constructor
    intro first second third below above
    exact TransCmp.isLE_trans below above
  exact List.pairwise_insertionSort _ items

end

section
variable {Key : Type u} {Value : Type v} [BEq Value] [LawfulBEq Value]
variable {cmp : Key → Key → Ordering} [OrientedCmp cmp]
variable {rows : List (Key × Value)} {earlier later : Key × Value}

theorem idxOf_lt_of_key_lt (sorted : rows.Pairwise fun first second => cmp first.1 second.1 = .lt)
    (distinct : (rows.map Prod.snd).Nodup) (earlierMem : earlier ∈ rows) (laterMem : later ∈ rows)
    (lt : cmp earlier.1 later.1 = .lt) :
    (rows.map Prod.snd).idxOf earlier.2 < (rows.map Prod.snd).idxOf later.2 := by
  induction rows with
  | nil => cases earlierMem
  | cons head rest ih =>
    rw [List.map_cons, List.nodup_cons] at distinct
    rw [List.pairwise_cons] at sorted
    have below : ∀ row ∈ rest, head.2 ≠ row.2 := fun row member same =>
      distinct.1 (same ▸ List.mem_map_of_mem member)
    rcases List.mem_cons.mp laterMem with here | laterRest
    · -- Nothing sorts before the head.
      subst later
      have notBefore : cmp head.1 earlier.1 ≠ .lt := by
        rw [← OrientedCmp.gt_iff_lt] at lt
        simp [lt]
      rcases List.mem_cons.mp earlierMem with same | earlierRest
      · subst earlier
        exact absurd lt notBefore
      · exact absurd (sorted.1 earlier earlierRest) notBefore
    · rw [List.map_cons, List.idxOf_cons_ne _ (below later laterRest)]
      rcases List.mem_cons.mp earlierMem with same | earlierRest
      · subst earlier
        rw [List.idxOf_cons_self]
        exact Nat.succ_pos _
      · rw [List.idxOf_cons_ne _ (below earlier earlierRest)]
        exact Nat.succ_lt_succ (ih sorted.2 distinct.2 earlierRest laterRest)

theorem idxOf_lt_iff_key_lt [LawfulEqCmp cmp]
    (sorted : rows.Pairwise fun first second => cmp first.1 second.1 = .lt)
    (distinct : (rows.map Prod.snd).Nodup) (earlierMem : earlier ∈ rows) (laterMem : later ∈ rows)
    (sameKey : earlier.1 = later.1 → earlier = later) :
    (rows.map Prod.snd).idxOf earlier.2 < (rows.map Prod.snd).idxOf later.2 ↔
      cmp earlier.1 later.1 = .lt := by
  constructor
  · intro before
    cases order : cmp earlier.1 later.1 with
    | lt => rfl
    | eq =>
      rw [sameKey (LawfulEqCmp.eq_of_compare order)] at before
      exact absurd before (Nat.lt_irrefl _)
    | gt =>
      have after := idxOf_lt_of_key_lt sorted distinct laterMem
        earlierMem (OrientedCmp.gt_iff_lt.mp order)
      omega
  · exact idxOf_lt_of_key_lt sorted distinct earlierMem laterMem

end

end Savitri.PairOrder
