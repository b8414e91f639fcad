import Mathlib

/-!
`swap_remove` on lists: the last element takes the place of the removed one. Every
other element keeps its position, and nothing but the removed element is lost.
-/
namespace Savitri.SwapRemove
universe u
variable {Item : Type u}

def swapRemove (items : List Item) (index : Nat) : List Item :=
  match items.getLast? with
  | none => []
  | some last => (items.set index last).dropLast

variable (items : List Item) (index : Nat)

@[simp] theorem length_swapRemove : (swapRemove items index).length = items.length - 1 := by
  unfold swapRemove
  cases last : items.getLast? with
  | none => simp [List.getLast?_eq_none_iff.mp last]
  | some item => simp

theorem getElem?_swapRemove (position : Nat) (inside : index < items.length) :
    (swapRemove items index)[position]? =
      if position < items.length - 1 then
        if position = index then items[items.length - 1]? else items[position]?
      else none := by
  unfold swapRemove
  cases found : items.getLast? with
  | none =>
    rw [List.getLast?_eq_none_iff.mp found] at inside
    cases inside
  | some last =>
    rw [List.getLast?_eq_getElem?] at found
    simp only [List.getElem?_dropLast, List.length_set, List.getElem?_set]
    by_cases before : position < items.length - 1
    · by_cases same : index = position
      · subst same
        simp [before, inside, found]
      · simp [before, same, Ne.symm same]
    · simp [before]

variable {items} {index}

theorem swapRemove_last (last : index + 1 = items.length) :
    swapRemove items index = items.dropLast := by
  apply List.ext_getElem?
  intro position
  rw [getElem?_swapRemove items index position (by omega), List.getElem?_dropLast]
  by_cases before : position < items.length - 1
  · have differs : position ≠ index := by omega
    simp [before, differs]
  · simp [before]

variable {item : Item}

theorem perm_swapRemove (found : items[index]? = some item) :
    (item :: swapRemove items index).Perm items := by
  obtain ⟨inside, rfl⟩ := List.getElem?_eq_some_iff.mp found
  have nonempty : items ≠ [] := List.ne_nil_of_length_pos (by omega)
  obtain ⟨front, last, rfl⟩ : ∃ front last, items = front ++ [last] :=
    ⟨items.dropLast, items.getLast nonempty, (List.dropLast_append_getLast nonempty).symm⟩
  have swapped : swapRemove (front ++ [last]) index =
      ((front ++ [last]).set index last).dropLast := by
    simp [swapRemove]
  by_cases tail : index = front.length
  · subst tail
    rw [swapRemove_last (by simp)]
    simpa using (List.perm_append_singleton last front).symm
  · have early : index < front.length := by simp at inside; omega
    have split : front = front.take index ++ front[index] :: front.drop (index + 1) := by simp
    have placed : front.set index last =
        front.take index ++ last :: front.drop (index + 1) := by
      rw [List.set_eq_take_append_cons_drop, if_pos early]
    rw [swapped, List.set_append_left _ _ early, List.dropLast_concat,
      List.getElem_append_left early, placed]
    calc List.Perm
          (front[index] :: (front.take index ++ last :: front.drop (index + 1)))
          (front[index] :: last :: (front.take index ++ front.drop (index + 1))) :=
          List.perm_middle.cons _
      List.Perm _ (last :: front[index] :: (front.take index ++ front.drop (index + 1))) :=
          List.Perm.swap _ _ _
      List.Perm _ (last :: (front.take index ++ front[index] :: front.drop (index + 1))) :=
          List.perm_middle.symm.cons _
      List.Perm _ (last :: front) := by rw [← split]
      List.Perm _ (front ++ [last]) := (List.perm_append_singleton last front).symm

theorem take_swapRemove (inside : index < items.length) :
    (swapRemove items index).take index = items.take index := by
  apply List.ext_getElem?
  intro position
  rw [List.getElem?_take, List.getElem?_take]
  by_cases before : position < index
  · rw [if_pos before, if_pos before, getElem?_swapRemove items index position inside,
      if_pos (by omega), if_neg (by omega)]
  · rw [if_neg before, if_neg before]

theorem perm_drop_swapRemove (found : items[index]? = some item) :
    ((swapRemove items index).drop index).Perm (items.drop (index + 1)) := by
  have inside : index < items.length := (List.getElem?_eq_some_iff.mp found).1
  have split : items = items.take index ++ item :: items.drop (index + 1) := by
    obtain ⟨_, rfl⟩ := List.getElem?_eq_some_iff.mp found
    simp
  have left : swapRemove items index =
      items.take index ++ (swapRemove items index).drop index := by
    conv_lhs => rw [← List.take_append_drop index (swapRemove items index)]
    rw [take_swapRemove inside]
  have whole : List.Perm (item :: (items.take index ++ (swapRemove items index).drop index))
      (items.take index ++ item :: items.drop (index + 1)) := by
    rw [← left, ← split]
    exact perm_swapRemove found
  exact (List.perm_append_left_iff _).mp ((List.perm_cons _).mp (whole.trans List.perm_middle))

end Savitri.SwapRemove
