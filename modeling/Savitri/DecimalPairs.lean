import Mathlib

/-!
Bytes written one after the other in decimal, and digits read two at a time to the
base sixteen. No sequence of bytes but the empty one is what its own decimal digits
read as: a first byte that were would be zero, then so would be each byte whose
digits are read from zeros before it, and zeros alone have one digit each.
-/
namespace Savitri.DecimalPairs

def decimalDigits (number : Nat) : List Nat :=
  if number < 10 then [number]
  else if number < 100 then [number / 10, number % 10]
  else [number / 100, number / 10 % 10, number % 10]

def spread (bytes : List UInt8) : List Nat := bytes.flatMap fun byte => decimalDigits byte.toNat

theorem spread_append {front back : List UInt8} :
    spread (front ++ back) = spread front ++ spread back :=
  List.flatMap_append

theorem spread_zeros {count : Nat} : spread (List.replicate count 0) = List.replicate count 0 := by
  induction count with
  | zero => rfl
  | succ count ih =>
    rw [List.replicate_succ, List.replicate_succ, ← ih]
    rfl

/-- A digit left over has no reading. -/
def readPairs : List Nat → Option (List UInt8)
  | [] => some []
  | [_] => none
  | high :: low :: rest => (readPairs rest).map (UInt8.ofNat (high * 16 + low) :: ·)

variable {bytes : List UInt8} {digits : List Nat}

theorem length_readPairs (read : readPairs digits = some bytes) : digits.length = 2 * bytes.length := by
  fun_induction readPairs digits generalizing bytes with
  | case1 =>
    cases read
    rfl
  | case2 => cases read
  | case3 high low rest ih =>
    obtain ⟨tail, readTail, rfl⟩ := Option.map_eq_some_iff.mp read
    have shorter := ih readTail
    simp only [List.length_cons]
    omega

theorem exists_readPairs (half : Nat) (even : digits.length = 2 * half) :
    ∃ bytes, readPairs digits = some bytes := by
  fun_induction readPairs digits generalizing half with
  | case1 => exact ⟨[], rfl⟩
  | case2 => simp at even; omega
  | case3 high low rest ih =>
    simp only [List.length_cons] at even
    obtain ⟨bytes, read⟩ := ih (half - 1) (by omega)
    exact ⟨_, by rw [read]; rfl⟩

variable {byte : UInt8} {number index : Nat} {rest : List Nat}

theorem getElem?_readPairs (read : readPairs digits = some bytes)
    {index : Nat} (found : bytes[index]? = some byte) :
    ∃ high low, digits[2 * index]? = some high ∧ digits[2 * index + 1]? = some low ∧
      byte = UInt8.ofNat (high * 16 + low) := by
  fun_induction readPairs digits generalizing bytes index with
  | case1 =>
    cases read
    cases found
  | case2 => cases read
  | case3 high low rest ih =>
    obtain ⟨tail, readTail, rfl⟩ := Option.map_eq_some_iff.mp read
    cases index with
    | zero =>
      cases found
      exact ⟨high, low, rfl, rfl, rfl⟩
    | succ index => exact ih readTail found

theorem lt_of_mem_decimalDigits {digit : Nat} (small : number < 256)
    (member : digit ∈ decimalDigits number) : digit < 10 := by
  unfold decimalDigits at member
  split_ifs at member <;> simp at member <;> omega

theorem lt_of_mem_spread {digit : Nat} (member : digit ∈ spread bytes) : digit < 10 := by
  obtain ⟨byte, _, inByte⟩ := List.mem_flatMap.mp member
  exact lt_of_mem_decimalDigits byte.toNat_lt inByte

/-- What the pair of digits for a byte comes to, without the wrap to eight bits. -/
theorem toNat_of_pair (read : readPairs (spread bytes) = some bytes)
    (found : bytes[index]? = some byte) :
    ∃ high low, (spread bytes)[2 * index]? = some high ∧ (spread bytes)[2 * index + 1]? = some low ∧
      byte.toNat = high * 16 + low := by
  obtain ⟨high, low, first, second, same⟩ := getElem?_readPairs read found
  refine ⟨high, low, first, second, ?_⟩
  have highSmall := lt_of_mem_spread (List.mem_of_getElem? first)
  have lowSmall := lt_of_mem_spread (List.mem_of_getElem? second)
  rw [same, UInt8.toNat_ofNat']
  omega

theorem eq_zero_of_head (head : (decimalDigits number ++ rest)[0]? = some 0) : number = 0 := by
  unfold decimalDigits at head
  split_ifs at head <;> simp at head <;> omega

theorem first_eq_zero {high low : Nat} (first : (decimalDigits byte.toNat ++ rest)[0]? = some high)
    (second : (decimalDigits byte.toNat ++ rest)[1]? = some low)
    (same : byte.toNat = high * 16 + low) : byte.toNat = 0 := by
  unfold decimalDigits at first second
  split_ifs at first second
  all_goals
    simp at first second
    omega

theorem eq_zero_of_read (read : readPairs (spread bytes) = some bytes) {byte : UInt8}
    (found : bytes[index]? = some byte) : byte = 0 := by
  induction index using Nat.strong_induction_on generalizing byte with
  | _ index earlier =>
    obtain ⟨within, rfl⟩ := List.getElem?_eq_some_iff.mp found
    -- the zeros before the byte have one digit each, so its digits start at its own index
    have front : bytes.take index = List.replicate index 0 := by
      rw [List.eq_replicate_iff]
      refine ⟨List.length_take_of_le within.le, ?_⟩
      intro other member
      obtain ⟨position, here⟩ := List.mem_iff_getElem?.mp member
      rw [List.getElem?_take] at here
      split at here
      next before => exact earlier position before here
      next => cases here
    have split : spread bytes = List.replicate index 0 ++
        (decimalDigits bytes[index].toNat ++ spread (bytes.drop (index + 1))) := by
      conv_lhs =>
        rw [← List.take_append_drop index bytes, front, List.drop_eq_getElem_cons within]
      rw [spread_append, spread_zeros]
      rfl
    have digit : ∀ offset, (spread bytes)[index + offset]? =
        (decimalDigits bytes[index].toNat ++ spread (bytes.drop (index + 1)))[offset]? := by
      intro offset
      rw [split, List.getElem?_append_right (by simp)]
      simp
    apply UInt8.toNat_inj.mp
    rcases Nat.eq_zero_or_pos index with rfl | later
    · obtain ⟨high, low, first, second, same⟩ := toNat_of_pair read found
      exact first_eq_zero ((digit 0).symm.trans first) ((digit 1).symm.trans second) same
    · have half : index / 2 < index := by omega
      obtain ⟨zero, here⟩ : ∃ zero, bytes[index / 2]? = some zero :=
        ⟨_, List.getElem?_eq_getElem (half.trans within)⟩
      obtain ⟨high, low, first, second, same⟩ := toNat_of_pair read here
      rw [earlier (index / 2) half here] at same
      have head : (spread bytes)[index]? = some 0 := by
        rcases Nat.mod_two_eq_zero_or_one index with even | odd
        · have position : 2 * (index / 2) = index := by omega
          rw [position] at first
          rw [first, show high = 0 by simp at same; omega]
        · have position : 2 * (index / 2) + 1 = index := by omega
          rw [position] at second
          rw [second, show low = 0 by simp at same; omega]
      exact eq_zero_of_head ((digit 0).symm.trans head)

theorem readPairs_spread_ne (filled : bytes ≠ []) : readPairs (spread bytes) ≠ some bytes := by
  intro read
  have zeros : bytes = List.replicate bytes.length 0 := by
    rw [List.eq_replicate_iff]
    refine ⟨rfl, ?_⟩
    intro byte member
    obtain ⟨index, found⟩ := List.mem_iff_getElem?.mp member
    exact eq_zero_of_read read found
  have short : (spread bytes).length = bytes.length := by
    rw [zeros, spread_zeros, List.length_replicate, List.length_replicate]
  have even := length_readPairs read
  have some : 0 < bytes.length := List.length_pos_iff.mpr filled
  omega

end Savitri.DecimalPairs
