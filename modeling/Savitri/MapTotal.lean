import Mathlib

/-!
The total weight of the values in an ordered table, and how one write changes
it: the new value counts, the value it replaces no longer does.
-/
namespace Savitri.MapTotal
open Std
universe u v
variable {Key : Type u} {Value : Type v} {cmp : Key → Key → Ordering}
variable {key : Key} {table : ExtTreeMap Key Value cmp} {other : Key}

theorem sum_add_eq_of_agree [DecidableEq Key] (keys : Finset Key) (member : key ∈ keys)
    (first second : Key → Nat) (agree : ∀ other ∈ keys, other ≠ key → first other = second other) :
    ∑ other ∈ keys, first other + second key = ∑ other ∈ keys, second other + first key := by
  have elsewhere : ∑ other ∈ keys.erase key, first other =
      ∑ other ∈ keys.erase key, second other := by
    apply Finset.sum_congr rfl
    intro other inRest
    exact agree other (Finset.mem_of_mem_erase inRest) (Finset.ne_of_mem_erase inRest)
  rw [← Finset.sum_erase_add keys _ member, ← Finset.sum_erase_add keys second member, elsewhere]
  exact Nat.add_right_comm _ _ _

def total (weight : Value → Nat) (table : ExtTreeMap Key Value cmp) [TransCmp cmp] : Nat :=
  (table.toList.map fun entry => weight entry.2).sum

variable [TransCmp cmp]

def weightAt (weight : Value → Nat) (table : ExtTreeMap Key Value cmp) (key : Key) : Nat :=
  (table[key]?.map weight).getD 0

variable [LawfulEqCmp cmp] (weight : Value → Nat)

theorem total_eq_sum [DecidableEq Key] (table : ExtTreeMap Key Value cmp) (keys : Finset Key)
    (covers : ∀ key ∈ table, key ∈ keys) :
    total weight table = ∑ key ∈ keys, weightAt weight table key := by
  have distinct : table.keys.Nodup := by
    apply table.distinct_keys.imp
    intro left right differ same
    exact differ (LawfulEqCmp.compare_eq_iff_eq.mpr same)
  have listed : total weight table = (table.keys.map (weightAt weight table)).sum := by
    rw [total, ← ExtTreeMap.map_fst_toList_eq_keys, List.map_map]
    apply congrArg
    apply List.map_congr_left
    intro entry member
    have found := ExtTreeMap.mem_toList_iff_getElem?_eq_some.mp member
    simp [weightAt, found]
  rw [listed, ← List.sum_toFinset _ distinct]
  apply Finset.sum_subset
  · intro key member
    exact covers key (by simpa using member)
  · intro key _ outside
    have absent : key ∉ table := by simpa using outside
    simp [weightAt, absent]

theorem total_le_total [DecidableEq Key] {first second : ExtTreeMap Key Value cmp}
    (below : ∀ key, weightAt weight first key ≤ weightAt weight second key) :
    total weight first ≤ total weight second := by
  let keys := first.keys.toFinset ∪ second.keys.toFinset
  rw [total_eq_sum weight first keys (by simp +contextual [keys]),
    total_eq_sum weight second keys (by simp +contextual [keys])]
  exact Finset.sum_le_sum fun key _ => below key

theorem weightAt_insert [DecidableEq Key] {value : Value} :
    weightAt weight (table.insert key value) other =
      if key = other then weight value else weightAt weight table other := by
  unfold weightAt
  rw [ExtTreeMap.getElem?_insert]
  by_cases same : key = other
  · simp [same]
  · simp [same, LawfulEqCmp.compare_eq_iff_eq]

theorem weightAt_erase [DecidableEq Key] :
    weightAt weight (table.erase key) other =
      if key = other then 0 else weightAt weight table other := by
  unfold weightAt
  rw [ExtTreeMap.getElem?_erase]
  by_cases same : key = other
  · simp [same]
  · simp [same, LawfulEqCmp.compare_eq_iff_eq]

theorem total_insert [DecidableEq Key] (table : ExtTreeMap Key Value cmp) (key : Key)
    (value : Value) :
    total weight (table.insert key value) + weightAt weight table key =
      total weight table + weight value := by
  let keys := insert key table.keys.toFinset
  have before := total_eq_sum weight table keys (fun other member => by simp [keys, member])
  have after := total_eq_sum weight (table.insert key value) keys (by
    intro other member
    rw [ExtTreeMap.mem_insert, LawfulEqCmp.compare_eq_iff_eq] at member
    rcases member with same | member
    · simp [keys, same]
    · simp [keys, member])
  have inside : key ∈ keys := by simp [keys]
  have here : weightAt weight (table.insert key value) key = weight value := by
    rw [weightAt_insert, if_pos rfl]
  rw [before, after, ← here]
  apply sum_add_eq_of_agree keys inside
  intro other _ differs
  rw [weightAt_insert, if_neg differs.symm]

theorem total_erase [DecidableEq Key] (table : ExtTreeMap Key Value cmp) (key : Key) :
    total weight (table.erase key) + weightAt weight table key = total weight table := by
  let keys := insert key table.keys.toFinset
  have before := total_eq_sum weight table keys (fun other member => by simp [keys, member])
  have after := total_eq_sum weight (table.erase key) keys (by
    intro other member
    simp [keys, (ExtTreeMap.mem_erase.mp member).2])
  have inside : key ∈ keys := by simp [keys]
  have here : weightAt weight (table.erase key) key = 0 := by
    rw [weightAt_erase, if_pos rfl]
  rw [before, after, ← Nat.add_zero (∑ other ∈ keys, weightAt weight table other), ← here]
  apply sum_add_eq_of_agree keys inside
  intro other _ differs
  rw [weightAt_erase, if_neg differs.symm]

theorem perm_flatMap_push {Item : Type*} [DecidableEq Key] [DecidableEq Item]
    {table : ExtTreeMap Key (List Item) cmp} {item : Item} :
    ((table.insert key (table[key]?.getD [] ++ [item])).toList.flatMap Prod.snd).Perm
      (item :: table.toList.flatMap Prod.snd) := by
  rw [List.perm_iff_count]
  intro other
  have counted := total_insert (List.count other) table key (table[key]?.getD [] ++ [item])
  have before : weightAt (List.count other) table key =
      (table[key]?.getD []).count other := by
    unfold weightAt
    cases table[key]? <;> rfl
  rw [before, List.count_append] at counted
  have flat : ∀ lists : ExtTreeMap Key (List Item) cmp,
      (lists.toList.flatMap Prod.snd).count other = total (List.count other) lists :=
    fun lists => List.count_flatMap
  rw [List.count_cons, flat, flat]
  rw [List.count_singleton] at counted
  omega

end Savitri.MapTotal
