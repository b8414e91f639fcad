import Mathlib

/-!
Ordered tables that a loop fills. `lastWrites` inserts one entry after the other, so a
key keeps the last value written under it; `collect` pushes every item to the list under
its key, so a key has its items in their order.
-/
namespace Savitri.TableFold
open Std
universe u v w
variable {Key : Type u} {Value : Type v} {Item : Type w} {cmp : Key → Key → Ordering}
variable [TransCmp cmp] [LawfulEqCmp cmp] [DecidableEq Key]

def lastWrites (entries : List (Key × Value)) : ExtTreeMap Key Value cmp :=
  entries.foldl (fun table entry => table.insert entry.1 entry.2) ∅

variable (entries : List (Key × Value)) (key : Key)

theorem getElem?_lastWrites :
    (lastWrites entries : ExtTreeMap Key Value cmp)[key]? =
      ((entries.filter fun entry => decide (entry.1 = key)).getLast?).map Prod.snd := by
  induction entries using List.reverseRecOn with
  | nil => simp [lastWrites]
  | append_singleton entries entry ih =>
    have last : (lastWrites (entries ++ [entry]) : ExtTreeMap Key Value cmp) =
        (lastWrites entries).insert entry.1 entry.2 := by simp [lastWrites]
    rw [last, ExtTreeMap.getElem?_insert, List.filter_append]
    by_cases same : entry.1 = key
    · simp [same, LawfulEqCmp.compare_eq_iff_eq]
    · simp [same, LawfulEqCmp.compare_eq_iff_eq, ih]

theorem getElem?_lastWrites_of_single (value : Value) (written : (key, value) ∈ entries)
    (single : ∀ other, (key, other) ∈ entries → other = value) :
    (lastWrites entries : ExtTreeMap Key Value cmp)[key]? = some value := by
  rw [getElem?_lastWrites]
  have present : (key, value) ∈ entries.filter fun entry => decide (entry.1 = key) :=
    List.mem_filter.mpr ⟨written, by simp⟩
  cases last : (entries.filter fun entry => decide (entry.1 = key)).getLast? with
  | none =>
    rw [List.getLast?_eq_none_iff.mp last] at present
    cases present
  | some entry =>
    rcases List.mem_filter.mp (List.mem_of_getLast? last) with ⟨inEntries, sameKey⟩
    rw [Option.map_some, single entry.2 (of_decide_eq_true sameKey ▸ inEntries)]

theorem getElem?_lastWrites_of_absent (absent : ∀ value, (key, value) ∉ entries) :
    (lastWrites entries : ExtTreeMap Key Value cmp)[key]? = none := by
  have none : (entries.filter fun entry => decide (entry.1 = key)) = [] := by
    rw [List.filter_eq_nil_iff]
    intro entry member same
    exact absent entry.2 (of_decide_eq_true same ▸ member)
  rw [getElem?_lastWrites, none]
  rfl

variable (keyOf : Item → Key)

def collect (items : List Item) : ExtTreeMap Key (List Item) cmp :=
  items.foldl (fun table item =>
    table.insert (keyOf item) (table[keyOf item]?.getD [] ++ [item])) ∅

theorem getElem?_collect (items : List Item) (key : Key) :
    (collect keyOf items : ExtTreeMap Key (List Item) cmp)[key]? =
      if (items.filter fun item => decide (keyOf item = key)) = [] then none
      else some (items.filter fun item => decide (keyOf item = key)) := by
  induction items using List.reverseRecOn with
  | nil => simp [collect]
  | append_singleton items item ih =>
    have last : (collect keyOf (items ++ [item]) : ExtTreeMap Key (List Item) cmp) =
        (collect keyOf items).insert (keyOf item)
          ((collect keyOf items : ExtTreeMap Key (List Item) cmp)[keyOf item]?.getD [] ++
            [item]) := by
      simp [collect]
    rw [last, ExtTreeMap.getElem?_insert, List.filter_append]
    by_cases same : keyOf item = key
    · subst same
      rw [if_pos (by simp [LawfulEqCmp.compare_eq_iff_eq]), ih]
      by_cases empty : (items.filter fun other => decide (keyOf other = keyOf item)) = [] <;>
        simp [empty]
    · simp [same, LawfulEqCmp.compare_eq_iff_eq, ih]

omit [LawfulEqCmp cmp] [DecidableEq Key] in
theorem values_eq_map_toList (table : ExtTreeMap Key Value cmp) :
    table.values = table.toList.map Prod.snd := by
  have folded : table.values = table.foldr (fun _ value listed => value :: listed) [] := by
    rcases table with ⟨⟨table⟩⟩
    induction table using Quotient.ind
    rfl
  rw [folded, ExtTreeMap.foldr_eq_foldr_toList]
  induction table.toList with
  | nil => rfl
  | cons entry rest ih => rw [List.foldr_cons, List.map_cons, ih]

/-- Entries counted by their keys, where the keys are known as a finite set. -/
theorem countP_toList {table : ExtTreeMap Key Value cmp} {names : Finset Key}
    (same : ∀ key, key ∈ table ↔ key ∈ names) (p : Key → Prop) [DecidablePred p] :
    table.toList.countP (fun entry => p entry.1) = (names.filter p).card := by
  have distinct : table.keys.Nodup := by
    apply table.distinct_keys.imp
    intro left right differ equal
    exact differ (LawfulEqCmp.compare_eq_iff_eq.mpr equal)
  have listed : names.filter p = (table.keys.filter p).toFinset := by
    ext key
    simp [← same]
  rw [listed, List.toFinset_card_of_nodup (distinct.filter _), ← List.countP_eq_length_filter,
    ← ExtTreeMap.map_fst_toList_eq_keys, List.countP_map]
  rfl

end Savitri.TableFold
