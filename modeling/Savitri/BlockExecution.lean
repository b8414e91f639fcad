import Savitri.ByteWords
import Savitri.HexCodec
import Savitri.PairOrder
import Savitri.Transition

/-!
Transactions, accounts and the sequential executors of p2p/block.rs. Storage
and overlay are tables from address bytes to accounts; an executor reads the
overlay first, then storage, and takes a missing account for an empty one
(as it does a failed read; reads succeed here). Balances are
`u128`, nonces and amounts `u64`; `nonce += 1` wraps as in a release build.
-/
namespace Savitri.BlockExecution
open Std PairOrder MachineInt

abbrev Address := List UInt8

structure Account where
  balance : BitVec 128 := 0
  nonce : UInt64 := 0
  deriving DecidableEq

abbrev Accounts := ExtTreeMap Address Account

/-- The fields of a `TransactionExt` that the executors read. -/
structure SignedTx where
  sender : String
  recipient : String
  amount : UInt64
  nonce : UInt64
  fee : Option (BitVec 128)
  preVerified : Bool := true
  deriving DecidableEq

variable (tx : SignedTx)

def SignedTx.feeOrZero : BitVec 128 := tx.fee.getD 0

def SignedTx.wideAmount : BitVec 128 := BitVec.ofNat 128 tx.amount.toNat

def SignedTx.totalDebit : BitVec 128 := addSaturating tx.wideAmount tx.feeOrZero

inductive ExecutionError where
  | invalidSender (error : HexCodec.FromHexError)
  | invalidRecipient (error : HexCodec.FromHexError)
  | notPreVerified (idx : Nat)
  | amountFeeOverflow
  | insufficientBalance (balance required : BitVec 128)
  | invalidNonce (expected got : UInt64)
  | balanceOverflow
  deriving DecidableEq

def SignedTx.addresses : Except ExecutionError (Address × Address) := do
  let sender ← (HexCodec.decode tx.sender).mapError .invalidSender
  let recipient ← (HexCodec.decode tx.recipient).mapError .invalidRecipient
  return (sender, recipient)

structure Receipt where
  txIdx : Nat
  sender : String
  recipient : String
  amount : UInt64
  fee : BitVec 128
  nonce : UInt64
  deriving DecidableEq

variable (receipt : Receipt)

def Receipt.key : String := "receipt:" ++ toString receipt.txIdx

def Receipt.data : String :=
  "tx_idx:" ++ toString receipt.txIdx ++ "|sender:" ++ receipt.sender ++
    "|recipient:" ++ receipt.recipient ++ "|amount:" ++ toString receipt.amount.toNat ++
    "|fee:" ++ toString receipt.fee.toNat ++ "|nonce:" ++ toString receipt.nonce.toNat

def Receipt.entry : List UInt8 × List UInt8 :=
  (receipt.key.toUTF8.toList, receipt.data.toUTF8.toList)

def readAccount (storage overlay : Accounts) (address : Address) : Account :=
  ((overlay[address]?).or storage[address]?).getD {}

/-- The two writes every executor ends with, in their order: where both
addresses are the same, the second write is the one that stays. -/
def transfer (overlay : Accounts) (sender recipient : Address)
    (senderAccount recipientAccount : Account) (tx : SignedTx) : Accounts :=
  (overlay.insert sender
    { balance := senderAccount.balance - tx.totalDebit, nonce := senderAccount.nonce + 1 }).insert
      recipient
    { recipientAccount with balance := addSaturating recipientAccount.balance tx.wideAmount }

section
/-- One turn of the loop of `apply_certified_block_direct`, addresses decoded. -/
def applyCertifiedTx (storage overlay : Accounts) (tx : SignedTx) (idx : Nat)
    (sender recipient : Address) : Accounts × Option Receipt :=
  let senderAccount := readAccount storage overlay sender
  let recipientAccount := readAccount storage overlay recipient
  -- A replayed nonce and an uncovered debit skip the transaction, not the block.
  if tx.nonce < senderAccount.nonce then (overlay, none) else
  -- A nonce ahead of local state is fast-forwarded on trust in the certificate.
  let senderAccount :=
    if senderAccount.nonce < tx.nonce then { senderAccount with nonce := tx.nonce }
    else senderAccount
  if senderAccount.balance < tx.totalDebit then (overlay, none) else
  (transfer overlay sender recipient senderAccount recipientAccount tx,
    some { txIdx := idx, sender := HexCodec.encode sender,
           recipient := HexCodec.encode recipient, amount := tx.amount,
           fee := tx.feeOrZero, nonce := tx.nonce })

/-- Stable sort by `(from, nonce)`, each transaction with its index in the block. -/
def sortedOrder (txs : List SignedTx) : List (SignedTx × Nat) :=
  txs.zipIdx.insertionSort fun first second =>
    (pairCompare (first.1.sender, first.1.nonce.toNat) (second.1.sender, second.1.nonce.toNat)).isLE

variable (txs : List SignedTx) (action : SignedTx × Nat)

theorem mem_sortedOrder : action ∈ sortedOrder txs ↔ action ∈ txs.zipIdx := List.mem_insertionSort _

theorem fst_mem_of_mem_sortedOrder (member : action ∈ sortedOrder txs) : action.1 ∈ txs :=
  List.mem_of_getElem? (List.mem_zipIdx_iff_getElem?.mp ((mem_sortedOrder txs action).mp member))

def certifiedLoop (storage : Accounts) :
    List (SignedTx × Nat) → Accounts → List Receipt →
      Except ExecutionError (Accounts × List Receipt)
  | [], overlay, receipts => .ok (overlay, receipts)
  | (tx, idx) :: rest, overlay, receipts => do
    -- An address that does not decode is the one failure that ends the block.
    let (sender, recipient) ← tx.addresses
    let (overlay, receipt) := applyCertifiedTx storage overlay tx idx sender recipient
    certifiedLoop storage rest overlay (receipts ++ receipt.toList)

def applyCertifiedBlockDirect (storage : Accounts) (txs : List SignedTx) :
    Except ExecutionError (Accounts × List Receipt) :=
  certifiedLoop storage (sortedOrder txs) ∅ []

end

/-- `apply_signed_tx_overlay` on the transaction its bytes decode to. -/
def applySignedTxOverlay (storage overlay : Accounts) (receipts : List Receipt)
    (tx : SignedTx) (idx : Nat) : Except ExecutionError (Accounts × List Receipt) :=
  if !tx.preVerified then .error (.notPreVerified idx) else
  match tx.addresses with
  | .error failure => .error failure
  | .ok (sender, recipient) =>
  let senderAccount := readAccount storage overlay sender
  let recipientAccount := readAccount storage overlay recipient
  if 2 ^ 128 ≤ tx.wideAmount.toNat + tx.feeOrZero.toNat then .error .amountFeeOverflow else
  let totalRequired := tx.wideAmount + tx.feeOrZero
  if senderAccount.balance < totalRequired then
    .error (.insufficientBalance senderAccount.balance totalRequired)
  else if senderAccount.nonce ≠ tx.nonce then
    .error (.invalidNonce senderAccount.nonce tx.nonce)
  -- The credit is checked on the balance read before the debit, also in a self-transfer.
  else if 2 ^ 128 ≤ recipientAccount.balance.toNat + tx.wideAmount.toNat then
    .error .balanceOverflow
  else
    let debited : Account :=
      { balance := senderAccount.balance - totalRequired, nonce := senderAccount.nonce + 1 }
    let credited : Account :=
      { recipientAccount with balance := recipientAccount.balance + tx.wideAmount }
    .ok ((overlay.insert sender debited).insert recipient credited,
      receipts ++ [{ txIdx := idx, sender := HexCodec.encode sender,
                     recipient := HexCodec.encode recipient, amount := tx.amount,
                     fee := tx.feeOrZero, nonce := tx.nonce }])

/-- The loop of `execute_block_without_commit`, in `(from, nonce)` order. -/
def signedLoop (storage : Accounts) :
    List (SignedTx × Nat) → Accounts → List Receipt →
      Except ExecutionError (Accounts × List Receipt)
  | [], overlay, receipts => .ok (overlay, receipts)
  | (tx, idx) :: rest, overlay, receipts => do
    let (overlay, receipts) ← applySignedTxOverlay storage overlay receipts tx idx
    signedLoop storage rest overlay receipts

end Savitri.BlockExecution
