import Mathlib.Data.String.Basic
import Mathlib.Tactic.IntervalCases
import Savitri.ByteWords

/-!
Lower-case hexadecimal text for byte strings, with the decoder's two refusals
in the order it makes them: an odd number of digits first, then the first byte
that is no hexadecimal digit together with its position. What is encoded decodes
to itself.
-/
namespace Savitri.HexCodec
variable {bytes : List UInt8}

inductive FromHexError where
  | invalidHexCharacter (c : UInt8) (index : Nat)
  | oddLength
  deriving DecidableEq, Repr

def digit (value : Nat) : Char :=
  if value < 10 then Char.ofNat (48 + value) else Char.ofNat (87 + value)

def encode (bytes : List UInt8) : String :=
  String.ofList (bytes.flatMap fun byte => [digit (byte.toNat / 16), digit (byte.toNat % 16)])

/-- Both letter cases are digits, so different texts may name the same bytes. -/
def value (c : UInt8) (index : Nat) : Except FromHexError Nat :=
  if 48 ≤ c ∧ c ≤ 57 then .ok (c.toNat - 48)
  else if 65 ≤ c ∧ c ≤ 70 then .ok (c.toNat - 55)
  else if 97 ≤ c ∧ c ≤ 102 then .ok (c.toNat - 87)
  else .error (.invalidHexCharacter c index)

def decodePairs : Nat → List UInt8 → Except FromHexError (List UInt8)
  | index, high :: low :: rest => do
    let upper ← value high index
    let lower ← value low (index + 1)
    let tail ← decodePairs (index + 2) rest
    return UInt8.ofNat (16 * upper + lower) :: tail
  | _, _ => .ok []

def decode (text : String) : Except FromHexError (List UInt8) :=
  let bytes := text.toUTF8.toList
  if bytes.length % 2 = 1 then .error .oddLength else decodePairs 0 bytes

/-- The decoder on digits that are given as bytes. -/
def decodeBytes (digits : List UInt8) : Except FromHexError (List UInt8) :=
  if digits.length % 2 = 1 then .error .oddLength else decodePairs 0 digits

theorem length_decodePairs {index : Nat} (decoded : List UInt8) (even : bytes.length % 2 = 0)
    (ok : decodePairs index bytes = .ok decoded) : bytes.length = 2 * decoded.length := by
  fun_induction decodePairs index bytes generalizing decoded with
  | case1 index high low rest ih =>
    cases upper : value high index with
    | error refusal => simp [upper, bind, Except.bind] at ok
    | ok first =>
      cases lower : value low (index + 1) with
      | error refusal => simp [upper, lower, bind, Except.bind] at ok
      | ok second =>
        cases tail : decodePairs (index + 2) rest with
        | error refusal => simp [upper, lower, tail, bind, Except.bind] at ok
        | ok others =>
          simp only [upper, lower, tail, bind, Except.bind, pure, Except.pure, Except.ok.injEq] at ok
          have shorter := ih others (by simp at even; omega) tail
          rw [← ok]
          simp only [List.length_cons]
          omega
  | case2 bytes index short =>
    -- an even number of bytes that is not two or more
    cases bytes with
    | nil => cases ok; rfl
    | cons only rest =>
      cases rest with
      | nil => simp at even
      | cons second rest => exact absurd rfl (short only second rest)

theorem length_decode {text : String} {decoded : List UInt8} (ok : decode text = .ok decoded) :
    text.toUTF8.toList.length = 2 * decoded.length := by
  unfold decode at ok
  simp only at ok
  split at ok
  next odd => cases ok
  next even => exact length_decodePairs decoded (by omega) ok

theorem value_digit (number index : Nat) (small : number < 16) :
    ∃ byte, String.utf8EncodeChar (digit number) = [byte] ∧ value byte index = .ok number := by
  refine ⟨UInt8.ofNat (digit number).toNat, ?_⟩
  interval_cases number <;> exact ⟨by decide, rfl⟩

theorem decodePairs_encoded (bytes : List UInt8) (index : Nat) :
    let text := (bytes.flatMap fun byte =>
      [digit (byte.toNat / 16), digit (byte.toNat % 16)]).flatMap String.utf8EncodeChar
    text.length % 2 = 0 ∧ decodePairs index text = .ok bytes := by
  induction bytes generalizing index with
  | nil => exact ⟨rfl, rfl⟩
  | cons byte rest ih =>
    have small := byte.toNat_lt
    obtain ⟨high, highByte, upper⟩ := value_digit (byte.toNat / 16) index (by omega)
    obtain ⟨low, lowByte, lower⟩ := value_digit (byte.toNat % 16) (index + 1) (by omega)
    have whole : UInt8.ofNat (16 * (byte.toNat / 16) + byte.toNat % 16) = byte := by
      rw [Nat.div_add_mod, UInt8.ofNat_toNat]
    obtain ⟨even, decoded⟩ := ih (index + 2)
    simp only [List.flatMap_cons, highByte, lowByte, List.cons_append, List.nil_append]
    constructor
    · simp only [List.length_cons]
      omega
    · simp only [decodePairs, upper, lower, decoded, bind, Except.bind, whole]
      rfl

theorem decode_encode : decode (encode bytes) = .ok bytes := by
  obtain ⟨even, decoded⟩ := decodePairs_encoded bytes 0
  unfold decode encode
  simp only [Utf8.toUTF8_ofList, decoded]
  rw [if_neg (by omega)]

end Savitri.HexCodec
