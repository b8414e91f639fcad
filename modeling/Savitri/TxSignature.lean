import Savitri.Proposals

/-!
Signatures of transactions as a light node builds and verifies them, from
savitri-lightnode/src/tx.rs and the canonical layout of
savitri-core/src/crypto/signature.rs. The signed bytes are the sender, the
recipient, two fixed-width numbers, an optional fee and optional data, with no length
and no mark of what is present. The sender has 64 bytes, so the bytes can be cut
differently at the recipient, the fee and the data.
-/
namespace Savitri.TxSignature
open LatticeTypes Proposals

structure TransactionExt where
  fromAddr : String
  toAddr : String
  amount : UInt64
  nonce : UInt64
  fee : Option (BitVec 128)
  data : Option (List UInt8)
  pubkey : List UInt8
  sig : Signature
  preVerified : Bool
  deriving DecidableEq

def buildTxSignableV1 (fromBytes toBytes : List UInt8) (amount nonce : UInt64)
    (fee : BitVec 128) : List UInt8 :=
  fromBytes ++ toBytes ++ toLeBytes 8 amount.toNat ++ toLeBytes 8 nonce.toNat ++
    toLeBytes 16 fee.toNat

def feeBytes (fee : Option (BitVec 128)) : List UInt8 :=
  match fee with
  | some fee => toLeBytes 16 fee.toNat
  | none => []

variable (tx : TransactionExt)

/-- The layout of contract calls and of the builders that leave the fee out. -/
def legacyMessage : List UInt8 :=
  tx.fromAddr.toUTF8.toList ++ tx.toAddr.toUTF8.toList ++ toLeBytes 8 tx.amount.toNat ++
    toLeBytes 8 tx.nonce.toNat ++ feeBytes tx.fee ++ tx.data.getD []

/-- The builder and the verifier choose the layout alike. -/
def signable : List UInt8 :=
  match tx.data, tx.fee with
  | none, some fee =>
    buildTxSignableV1 tx.fromAddr.toUTF8.toList tx.toAddr.toUTF8.toList tx.amount tx.nonce fee
  | _, _ => legacyMessage tx

theorem signable_eq {tx : TransactionExt} : signable tx = legacyMessage tx := by
  unfold signable
  split
  next noData paid =>
    rw [legacyMessage, noData, paid]
    simp [buildTxSignableV1, feeBytes]
  next => rfl

variable (scheme : Scheme)

/-- SHA-256, then Ed25519 over the digest. -/
def verifyTxSignatureV1 (signable : List UInt8) (signature : Signature) (key : PublicKey) : Bool :=
  scheme.parses key && scheme.verify key (scheme.sha256 signable).toList signature

def verifyTransactionSignatureExt (tx : TransactionExt) : Bool :=
  if sized : tx.pubkey.length = 32 then
    match HexCodec.decode tx.fromAddr with
    | .error _ => false
    | .ok fromBytes =>
      if fromBytes == tx.pubkey then
        verifyTxSignatureV1 scheme (signable tx) tx.sig ⟨tx.pubkey.toArray, by simpa using sized⟩
      else false
  else false

theorem verify_accepted (tx : TransactionExt)
    (accepted : verifyTransactionSignatureExt scheme tx = true) :
    tx.fromAddr.toUTF8.toList.length = 64 ∧
      ∃ key : PublicKey, key.toList = tx.pubkey ∧
        scheme.verify key (scheme.sha256 (signable tx)).toList tx.sig = true := by
  unfold verifyTransactionSignatureExt at accepted
  split at accepted
  next sized =>
    split at accepted
    · cases accepted
    next fromBytes decoded =>
      split at accepted
      next same =>
        have isKey : fromBytes = tx.pubkey := by simpa using same
        have digits := HexCodec.length_decode decoded
        rw [isKey, sized] at digits
        rw [verifyTxSignatureV1, Bool.and_eq_true] at accepted
        exact ⟨digits, _, rfl, accepted.2⟩
      next => cases accepted
  next => cases accepted

/-- The builder signs the digest of the layout with the key it puts in the transaction. -/
def buildAndSignTransactionExt (key : PublicKey) (sign : List UInt8 → Signature)
    (fromAddr toAddr : String) (amount nonce : UInt64) (fee : Option (BitVec 128))
    (data : Option (List UInt8)) : TransactionExt :=
  let tx : TransactionExt :=
    { fromAddr, toAddr, amount, nonce, fee, data, pubkey := key.toList,
      sig := Vector.replicate 64 0, preVerified := false }
  { tx with sig := sign (scheme.sha256 (signable tx)).toList }

def payment : String × UInt64 × UInt64 × Option (BitVec 128) × Option (List UInt8) :=
  (tx.toAddr, tx.amount, tx.nonce, tx.fee, tx.data)

theorem toLeBytes_uint64 {left right : UInt64}
    (same : toLeBytes 8 left.toNat = toLeBytes 8 right.toNat) : left = right := by
  have bytes : left.toNat % 2 ^ 64 = right.toNat % 2 ^ 64 := toLeBytes_injective same
  rw [Nat.mod_eq_of_lt left.toNat_lt, Nat.mod_eq_of_lt right.toNat_lt] at bytes
  exact UInt64.toNat_inj.mp bytes

theorem toLeBytes_bitVec {left right : BitVec 128}
    (same : toLeBytes 16 left.toNat = toLeBytes 16 right.toNat) : left = right := by
  have bytes : left.toNat % 2 ^ 128 = right.toNat % 2 ^ 128 := toLeBytes_injective same
  rw [Nat.mod_eq_of_lt left.isLt, Nat.mod_eq_of_lt right.isLt] at bytes
  exact BitVec.eq_of_toNat_eq bytes

theorem feeBytes_append_inj {left right : Option (BitVec 128)} {rest other : List UInt8}
    (present : left.isSome = right.isSome)
    (same : feeBytes left ++ rest = feeBytes right ++ other) : left = right ∧ rest = other := by
  cases left with
  | none =>
    cases right with
    | none => exact ⟨rfl, same⟩
    | some fee => cases present
  | some fee =>
    cases right with
    | none => cases present
    | some paid =>
      have parts := List.append_inj same (by simp [feeBytes])
      exact ⟨congrArg some (toLeBytes_bitVec parts.1), parts.2⟩

theorem getD_injective {left right : Option (List UInt8)} (present : left.isSome = right.isSome)
    (same : left.getD [] = right.getD []) : left = right := by
  cases left with
  | none =>
    cases right with
    | none => rfl
    | some bytes => cases present
  | some bytes =>
    cases right with
    | none => cases present
    | some other => exact congrArg some same

theorem payment_of_legacyMessage {first second : TransactionExt}
    (fromSize : first.fromAddr.toUTF8.toList.length = second.fromAddr.toUTF8.toList.length)
    (toSize : first.toAddr.toUTF8.toList.length = second.toAddr.toUTF8.toList.length)
    (fees : first.fee.isSome = second.fee.isSome) (datas : first.data.isSome = second.data.isSome)
    (same : legacyMessage first = legacyMessage second) : payment first = payment second := by
  unfold legacyMessage at same
  simp only [List.append_assoc] at same
  have senders := List.append_inj same fromSize
  have recipients := List.append_inj senders.2 toSize
  have amounts := List.append_inj recipients.2 (by simp)
  have nonces := List.append_inj amounts.2 (by simp)
  rcases feeBytes_append_inj fees nonces.2 with ⟨fee, rest⟩
  unfold payment
  rw [Utf8.toUTF8_injective recipients.1, toLeBytes_uint64 amounts.1, toLeBytes_uint64 nonces.1,
    fee, getD_injective datas rest]

/-- Two accepted transactions with one key and one signature make the same payment
exactly when their recipients have equally many bytes and they have the same optional
fields. -/
theorem same_payment_iff (first second : TransactionExt)
    (firstAccepted : verifyTransactionSignatureExt scheme first = true)
    (secondAccepted : verifyTransactionSignatureExt scheme second = true)
    (samePubkey : first.pubkey = second.pubkey) (sameSig : first.sig = second.sig)
    (binds : ∀ key one two signature, scheme.verify key one signature = true →
      scheme.verify key two signature = true → one = two)
    (noCollision : scheme.sha256 (signable first) = scheme.sha256 (signable second) →
      signable first = signable second) :
    payment first = payment second ↔
      first.toAddr.toUTF8.toList.length = second.toAddr.toUTF8.toList.length ∧
        first.fee.isSome = second.fee.isSome ∧ first.data.isSome = second.data.isSome := by
  constructor
  · intro same
    simp only [payment, Prod.mk.injEq] at same
    rcases same with ⟨recipient, _, _, fee, data⟩
    rw [recipient, fee, data]
    exact ⟨rfl, rfl, rfl⟩
  · rintro ⟨toSize, fees, datas⟩
    rcases verify_accepted scheme first firstAccepted with ⟨firstSize, key, firstKey, verified⟩
    rcases verify_accepted scheme second secondAccepted with
      ⟨secondSize, other, otherKey, otherVerified⟩
    have sameKey : other = key := by
      apply Vector.toList_inj.mp
      rw [otherKey, firstKey, samePubkey]
    rw [sameKey, ← sameSig] at otherVerified
    have digests := Vector.toList_inj.mp (binds key _ _ first.sig verified otherVerified)
    have layouts := noCollision digests
    rw [signable_eq, signable_eq] at layouts
    exact payment_of_legacyMessage (firstSize.trans secondSize.symm) toSize fees datas layouts

def echoScheme : Scheme where
  toCrypto := { blake3 := sampleCrypto.blake3, verify := fun _ message signature =>
    message.length == 32 && signature.toList.take 32 == message }
  parses _ := true
  verifyStrict _ message signature := message.length == 32 && signature.toList.take 32 == message
  sha256 bytes := Vector.replicate 32 (sampleDigest bytes)

theorem echo_binds (key : PublicKey) (one two : List UInt8) (signature : Signature)
    (first : echoScheme.verify key one signature = true)
    (second : echoScheme.verify key two signature = true) : one = two := by
  simp only [echoScheme, Bool.and_eq_true, beq_iff_eq] at first second
  rw [← first.2, ← second.2]

def sampleBuilt (toAddr : String) (amount nonce : UInt64) (fee : Option (BitVec 128))
    (data : Option (List UInt8)) : TransactionExt :=
  buildAndSignTransactionExt echoScheme (sampleKey 1)
    (fun digest => Vector.ofFn fun index => digest.getD index.val 0)
    (HexCodec.encode (sampleKey 1).toList) toAddr amount nonce fee data

def transfer : TransactionExt := sampleBuilt "bob" 7 1 (some 5) none

/-- A transfer and a copy that a node has marked as verified. -/
theorem transfer_binds : payment transfer = payment { transfer with preVerified := true } :=
  (same_payment_iff echoScheme transfer { transfer with preVerified := true }
    (by decide +kernel) (by decide +kernel) rfl rfl echo_binds (fun _ => rfl)).mpr ⟨rfl, rfl, rfl⟩

/-- The bytes of the fee as data, and no fee. -/
def feeAsData : TransactionExt := { transfer with fee := none, data := some (toLeBytes 16 5) }

/-- The recipient's last eight bytes as the amount, the amount as the nonce, and so on;
what is left over is data. -/
def longRecipient : TransactionExt := sampleBuilt "bobAAAAAAAA" 7 1 (some 5) none

def shiftedRecipient : TransactionExt :=
  { longRecipient with
    toAddr := "bob", amount := 0x4141414141414141, nonce := 7
    fee := some (5 * 2 ^ 64 + 1), data := some (toLeBytes 8 0) }

theorem one_signature_two_payments :
    (verifyTransactionSignatureExt echoScheme transfer = true ∧
      verifyTransactionSignatureExt echoScheme feeAsData = true ∧
      payment transfer ≠ payment feeAsData) ∧
    verifyTransactionSignatureExt echoScheme longRecipient = true ∧
      verifyTransactionSignatureExt echoScheme shiftedRecipient = true ∧
      longRecipient.pubkey = shiftedRecipient.pubkey ∧
      longRecipient.sig = shiftedRecipient.sig ∧
      longRecipient.toAddr ≠ shiftedRecipient.toAddr ∧
      longRecipient.amount ≠ shiftedRecipient.amount ∧
      longRecipient.nonce ≠ shiftedRecipient.nonce := by
  refine ⟨⟨?_, ?_, ?_⟩, ?_, ?_, ?_, ?_, ?_, ?_, ?_⟩ <;> decide +kernel

end Savitri.TxSignature
