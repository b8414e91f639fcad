import Savitri.MempoolTypes

/-!
The three wire forms of a transaction that the mempool reads: the extended form of the
light node, the mempool's own `SignedTx` and the core `Transaction`. All are `bincode`
with fixed-width integers. A text is kept as its bytes, which must be UTF-8; fields of a
form that no reader of it uses are read and dropped.
-/
namespace Savitri.TxWire
open LeBytes

/-- `SignedTx` of mempool/types.rs. -/
structure SignedTx where
  fromAddress : List UInt8
  toAddress : List UInt8
  amount : UInt64
  nonce : UInt64
  fee : UInt64
  pubkey : List UInt8
  sig : List UInt8
  preVerified : Bool
  deriving DecidableEq

abbrev Reader := StateT (List UInt8) Option

def readBytes (count : Nat) : Reader (List UInt8) := fun input =>
  if count ≤ input.length then some (input.take count, input.drop count) else none

def readNat (width : Nat) : Reader Nat := do
  return fromLeBytes (← readBytes width)

def readU64 : Reader UInt64 := do
  return UInt64.ofNat (← readNat 8)

def readBool : Reader Bool := do
  match ← readNat 1 with
  | 0 => return false
  | 1 => return true
  | _ => failure

def readOption {Item : Type} (read : Reader Item) : Reader (Option Item) := do
  if ← readBool then return some (← read) else return none

def readVec : Reader (List UInt8) := do
  readBytes (← readNat 8)

def readText : Reader (List UInt8) := do
  let bytes ← readVec
  if (ByteArray.mk bytes.toArray).validateUTF8 then return bytes else failure

def hexOrRaw (text : List UInt8) : List UInt8 :=
  if text.length % 2 = 1 then text else
  match HexCodec.decodePairs 0 text with
  | .ok bytes => bytes
  | .error _ => text

/-- `TransactionExtCompat`, with the texts of its two addresses. -/
def readTransactionExt : Reader SignedTx := do
  let fromAddress ← readText
  let toAddress ← readText
  let amount ← readU64
  let nonce ← readU64
  let fee ← readOption (readNat 16)
  let _data ← readOption readVec
  let pubkey ← readVec
  let sig ← readBytes 64
  let preVerified ← readBool
  return { fromAddress, toAddress, amount, nonce, fee := UInt64.ofNat (fee.getD 1000), pubkey, sig,
           preVerified }

variable (bytes : List UInt8)

/-- The extended form is refused with bytes left over, and above a mebibyte. -/
def decodeTransactionExt : Option SignedTx :=
  if 1048576 < bytes.length then none else
  match readTransactionExt bytes with
  | some (tx, []) => some tx
  | _ => none

def readSignedTx : Reader SignedTx := do
  let fromAddress ← readVec
  let toAddress ← readVec
  let amount ← readU64
  let nonce ← readU64
  let fee ← readU64
  let pubkey ← readVec
  let sig ← readVec
  let preVerified ← readBool
  return { fromAddress, toAddress, amount, nonce, fee, pubkey, sig, preVerified }

/-- The mempool's own form, if its fields have their lengths. -/
def decodeInternal : Option SignedTx :=
  match readSignedTx bytes with
  | some (tx, _) =>
    if tx.fromAddress.length = 32 ∧ tx.toAddress.length = 32 ∧ tx.sig.length = 64 ∧
        tx.pubkey.length = 32 then some tx
    else none
  | none => none

structure CoreTransaction where
  fromAddress : List UInt8 := []
  toAddress : List UInt8 := []
  amount : UInt64 := 0
  nonce : UInt64 := 0
  fee : UInt64 := 0
  signature : List UInt8 := []
  pubkey : List UInt8 := []
  preVerified : Bool := false

def readTransaction : Reader CoreTransaction := do
  let fromAddress ← readText
  let toAddress ← readText
  let amount ← readU64
  let nonce ← readU64
  let fee ← readU64
  let signature ← readVec
  let _data ← readVec
  let _timestamp ← readU64
  let pubkey ← readVec
  let _sig ← readVec
  let preVerified ← readBool
  return { fromAddress, toAddress, amount, nonce, fee, signature, pubkey, preVerified }

def decodeTransaction : Option CoreTransaction := (readTransaction bytes).map (·.1)

def deserializeSignedTx : Option CoreTransaction :=
  if bytes.length < 64 then none else decodeTransaction bytes

def createSignedTxFromBytes (rawTx : List UInt8) : Option SignedTx :=
  let canonical := (decodeTransactionExt rawTx).filter fun tx =>
    tx.fromAddress.length = 64 ∧ tx.pubkey.length = 32
  match canonical with
  | some tx =>
    some { tx with fromAddress := hexOrRaw tx.fromAddress, toAddress := hexOrRaw tx.toAddress }
  | none =>
    match decodeInternal rawTx with
    | some tx => some tx
    | none =>
      (deserializeSignedTx rawTx).map fun tx =>
        { fromAddress := hexOrRaw tx.fromAddress, toAddress := hexOrRaw tx.toAddress,
          amount := tx.amount, nonce := tx.nonce, fee := tx.fee,
          pubkey := List.replicate 32 0, sig := tx.signature, preVerified := false }

/-- `try_deserialize_transaction_ext`: here the sender must be hexadecimal. -/
def tryDeserializeTransactionExt : Option SignedTx :=
  match decodeTransactionExt bytes with
  | none => none
  | some tx =>
    if tx.fromAddress.length ≠ 64 ∨ tx.pubkey.length ≠ 32 then none else
    match HexCodec.decodePairs 0 tx.fromAddress with
    | .ok fromAddress => some { tx with fromAddress, toAddress := hexOrRaw tx.toAddress }
    | .error _ => none

def createDefaultSignedTx : SignedTx :=
  { fromAddress := List.replicate 32 0, toAddress := List.replicate 32 0, amount := 0, nonce := 0,
    fee := 1000, pubkey := List.replicate 32 0, sig := List.replicate 32 0, preVerified := false }

/-- The decoder of the prevalidation, which never fails. -/
def deserializeTransactionFromBytes : SignedTx :=
  match tryDeserializeTransactionExt bytes with
  | some tx => tx
  | none =>
    match decodeInternal bytes with
    | some tx => tx
    | none =>
      match decodeTransaction bytes with
      | some tx =>
        { fromAddress := tx.fromAddress, toAddress := tx.toAddress, amount := tx.amount,
          nonce := tx.nonce, fee := tx.fee, pubkey := tx.pubkey, sig := tx.signature,
          preVerified := tx.preVerified }
      | none => createDefaultSignedTx

end Savitri.TxWire
