import Mathlib

/-!
An index beside a table of items: each of its keys leads to one item. The index
is backed when the item under a key is an item recorded under that very key; an
item then stands under one key at most, and taking the key out of the index is
the same as taking the item out of it.
-/
namespace Savitri.SecondaryIndex
open Std
universe u v
variable {Key : Type u} {Item : Type v} {cmp : Key → Key → Ordering}
variable [TransCmp cmp] [LawfulEqCmp cmp]

def Backed (index : ExtTreeMap Key Item cmp) (keyOf : Item → Option Key) : Prop :=
  ∀ key item, index[key]? = some item → keyOf item = some key

omit [LawfulEqCmp cmp] in
theorem backed_empty {keyOf : Item → Option Key} : Backed (∅ : ExtTreeMap Key Item cmp) keyOf := by
  intro key item found
  simp at found

variable {index : ExtTreeMap Key Item cmp} {keyOf later : Item → Option Key}
variable {key : Key} {item : Item}

theorem backed_insert (backed : Backed index keyOf) (fresh : keyOf item = none)
    (recorded : later item = some key) (kept : ∀ other, other ≠ item → later other = keyOf other) :
    Backed (index.insert key item) later := by
  intro other found here
  rw [ExtTreeMap.getElem?_insert] at here
  split at here
  next same =>
    cases here
    rw [recorded, LawfulEqCmp.compare_eq_iff_eq.mp same]
  next =>
    have listed := backed other found here
    have differs : found ≠ item := by
      rintro rfl
      rw [fresh] at listed
      cases listed
    rw [kept found differs, listed]

variable [DecidableEq Item]

def forget (index : ExtTreeMap Key Item cmp) (item : Item) : ExtTreeMap Key Item cmp :=
  index.filter fun _ other => other ≠ item

theorem getElem?_forget_eq_some (item other : Item) (key : Key) :
    (forget index item)[key]? = some other ↔ index[key]? = some other ∧ other ≠ item := by
  rw [forget, ExtTreeMap.getElem?_filter', Option.filter_eq_some_iff, decide_eq_true_eq]

theorem backed_forget (backed : Backed index keyOf)
    (kept : ∀ other, other ≠ item → later other = keyOf other) : Backed (forget index item) later := by
  intro key other found
  obtain ⟨before, differs⟩ := (getElem?_forget_eq_some item other key).mp found
  rw [kept other differs]
  exact backed key other before

theorem erase_eq_forget (backed : Backed index keyOf) (found : index[key]? = some item) :
    index.erase key = forget index item := by
  apply ExtTreeMap.ext_getElem?
  intro other
  apply Option.ext
  intro value
  rw [getElem?_forget_eq_some, ExtTreeMap.getElem?_erase]
  by_cases same : key = other
  · subst same
    rw [if_pos ReflCmp.compare_self, found]
    simp only [reduceCtorEq, Option.some.injEq, false_iff, not_and, not_not]
    exact Eq.symm
  · rw [if_neg (by rwa [LawfulEqCmp.compare_eq_iff_eq])]
    constructor
    · intro there
      refine ⟨there, ?_⟩
      rintro rfl
      -- one item would be recorded under two keys
      have listed := backed key value found
      rw [backed other value there] at listed
      exact same (Option.some.inj listed).symm
    · exact And.left

theorem forget_forget : forget (forget index item) item = forget index item := by
  apply ExtTreeMap.ext_getElem?
  intro key
  apply Option.ext
  intro value
  rw [getElem?_forget_eq_some, getElem?_forget_eq_some, and_assoc, and_self]

end Savitri.SecondaryIndex
