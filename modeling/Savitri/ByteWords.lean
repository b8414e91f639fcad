import Mathlib

/-!
Numbers and texts as bytes, and integers of a fixed width. Little-endian bytes of a given
width are a bijection onto the numbers below `256 ^ width`. Two texts with the same bytes
are the same text. Saturating arithmetic is on `Nat` under an explicit bound and on bit
vectors under their own.
-/
namespace Savitri.LeBytes

def fromLeBytes : List UInt8 → Nat
  | [] => 0
  | byte :: rest => byte.toNat + 256 * fromLeBytes rest

theorem fromLeBytes_lt (bytes : List UInt8) : fromLeBytes bytes < 256 ^ bytes.length := by
  induction bytes with
  | nil => simp [fromLeBytes]
  | cons byte rest ih =>
    have small := byte.toNat_lt
    rw [fromLeBytes, List.length_cons, Nat.pow_succ]
    omega

theorem fromLeBytes_inj {left right : List UInt8} (sameLength : left.length = right.length)
    (same : fromLeBytes left = fromLeBytes right) : left = right := by
  induction left generalizing right with
  | nil => exact (List.length_eq_zero_iff.mp sameLength.symm).symm
  | cons byte rest ih =>
    cases right with
    | nil => cases sameLength
    | cons other others =>
      have small := byte.toNat_lt
      have smallOther := other.toNat_lt
      simp only [fromLeBytes] at same
      have head : byte.toNat = other.toNat := by omega
      have tail : fromLeBytes rest = fromLeBytes others := by omega
      rw [UInt8.toNat_inj.mp head, ih (Nat.succ.inj sameLength) tail]

end Savitri.LeBytes

namespace Savitri.Utf8
variable {bytes : ByteArray}

theorem toList_loop {index : Nat} {seen : List UInt8} :
    ByteArray.toList.loop bytes index seen = seen.reverse ++ bytes.data.toList.drop index := by
  fun_induction ByteArray.toList.loop bytes index seen with
  | case1 index seen inside ih =>
    have within : index < bytes.data.toList.length := by simpa using inside
    have found : bytes.get! index = bytes.data.toList[index] := getElem!_pos bytes.data index within
    rw [ih, List.reverse_cons, List.append_assoc, List.singleton_append,
      List.drop_eq_getElem_cons within, found]
  | case2 index seen past =>
    have beyond : bytes.data.toList.length ≤ index := by simpa using past
    rw [List.drop_eq_nil_of_le beyond, List.append_nil]

theorem toList_eq_data : bytes.toList = bytes.data.toList := by
  rw [ByteArray.toList, toList_loop]
  simp

theorem toUTF8_ofList {chars : List Char} :
    (String.ofList chars).toUTF8.toList = chars.flatMap String.utf8EncodeChar := by
  rw [toList_eq_data, String.toUTF8_eq_toByteArray, String.toByteArray_ofList, List.utf8Encode]
  simp

theorem toUTF8_injective {left right : String}
    (same : left.toUTF8.toList = right.toUTF8.toList) : left = right := by
  rw [toList_eq_data, toList_eq_data, Array.toList_inj, ← ByteArray.ext_iff] at same
  exact String.toByteArray_inj.mp same

end Savitri.Utf8

namespace Savitri.MachineInt

def u64Max : Nat := 2 ^ 64 - 1
def u128Max : Nat := 2 ^ 128 - 1

def saturatingAdd (bound left right : Nat) : Nat := min (left + right) bound
def saturatingMul (bound left right : Nat) : Nat := min (left * right) bound

def addSaturating {width : Nat} (left right : BitVec width) : BitVec width :=
  if left.toNat + right.toNat < 2 ^ width then left + right else BitVec.allOnes width

variable {width : Nat} {left right : BitVec width}

theorem toNat_addSaturating :
    (addSaturating left right).toNat = min (left.toNat + right.toNat) (2 ^ width - 1) := by
  unfold addSaturating
  split
  · rw [BitVec.toNat_add, Nat.mod_eq_of_lt (by assumption)]
    omega
  · rw [BitVec.toNat_allOnes]
    omega

theorem addSaturating_of_lt (fits : left.toNat + right.toNat < 2 ^ width) :
    addSaturating left right = left + right :=
  if_pos fits

theorem addSaturating_right_comm {value first second : BitVec width} :
    addSaturating (addSaturating value first) second =
      addSaturating (addSaturating value second) first := by
  apply BitVec.eq_of_toNat_eq
  simp only [toNat_addSaturating]
  omega

end Savitri.MachineInt
