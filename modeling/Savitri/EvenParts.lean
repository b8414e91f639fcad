import Mathlib

/-!
Cutting a list into consecutive slices of given sizes, and the sizes of an even division:
every part gets the quotient, and the first ones, as many as the remainder, one more.
-/
namespace Savitri.EvenParts
variable {Item : Type}

def evenSize (total parts index : Nat) : Nat :=
  if index < total % parts then total / parts + 1 else total / parts

def evenSizes (total parts : Nat) : List Nat := (List.range parts).map (evenSize total parts)

def cuts : List Nat → Nat → List (Nat × Nat)
  | [], _ => []
  | size :: rest, offset => (offset, offset + size) :: cuts rest (offset + size)

def slice (items : List Item) (bounds : Nat × Nat) : List Item :=
  (items.drop bounds.1).take (bounds.2 - bounds.1)

variable (total parts : Nat) (items : List Item)

theorem div_le_evenSize (index : Nat) : total / parts ≤ evenSize total parts index := by
  unfold evenSize
  split
  · exact Nat.le_succ _
  · exact Nat.le_refl _

theorem evenSize_le (index : Nat) : evenSize total parts index ≤ total / parts + 1 := by
  unfold evenSize
  split
  · exact Nat.le_refl _
  · exact Nat.le_succ _

theorem sum_evenSize {count : Nat} :
    ((List.range count).map (evenSize total parts)).sum =
      count * (total / parts) + min count (total % parts) := by
  induction count with
  | zero => simp
  | succ count ih =>
    rw [List.range_succ, List.map_append, List.sum_append, ih, Nat.succ_mul]
    simp only [List.map_cons, List.map_nil, List.sum_cons, List.sum_nil, evenSize]
    split
    · omega
    · omega

theorem sum_evenSizes {total parts : Nat} (positive : 0 < parts) :
    (evenSizes total parts).sum = total := by
  have rest : total % parts < parts := Nat.mod_lt _ positive
  rw [evenSizes, sum_evenSize, Nat.min_eq_right rest.le]
  exact Nat.div_add_mod total parts

theorem flatten_cuts {sizes : List Nat} (offset : Nat) :
    ((cuts sizes offset).map (slice items)).flatten = (items.drop offset).take sizes.sum := by
  induction sizes generalizing offset with
  | nil => simp [cuts]
  | cons size rest ih =>
    have first : slice items (offset, offset + size) = (items.drop offset).take size := by
      simp [slice]
    rw [cuts, List.map_cons, List.flatten_cons, ih, first, List.sum_cons, List.take_add, List.drop_drop]

theorem length_slices (sizes : List Nat) (offset : Nat) (fits : offset + sizes.sum ≤ items.length) :
    (cuts sizes offset).map (fun bounds => (slice items bounds).length) = sizes := by
  induction sizes generalizing offset with
  | nil => rfl
  | cons size rest ih =>
    rw [List.sum_cons] at fits
    rw [cuts, List.map_cons, ih (offset + size) (by omega)]
    have first : (slice items (offset, offset + size)).length = size := by
      simp only [slice, List.length_take, List.length_drop]
      omega
    rw [first]

end Savitri.EvenParts
