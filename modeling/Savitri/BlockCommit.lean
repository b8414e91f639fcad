import Savitri.BlockExecution
import Savitri.LatticeTypes

/-!
The commit path of p2p/block.rs: `commit_pending_block` executes the block,
writes the overlay (in full above the stored head, nonces only below it), then
credits fees and rewards. Nothing is rolled back: a late failure keeps the
earlier writes. Storage is the account table and what the backend keeps of the chain
head; its reads and writes succeed here, except that a head may be unreadable. Receipts, indices and account data are not kept.
-/
namespace Savitri.BlockCommit
open Std MachineInt BlockExecution LatticeTypes

structure Block where
  hash : Vector UInt8 64
  height : UInt64
  timestamp : UInt64
  parentHash : Vector UInt8 64
  stateRoot : Vector UInt8 32
  txRoot : Vector UInt8 32
  proposer : Vector UInt8 32
  deriving DecidableEq

inductive HeaderError where
  | genesisParent
  | missingParent
  | zeroHash
  | timestampAhead
  | timestampBehind
  | zeroStateRoot
  | zeroTxRoot
  deriving DecidableEq

inductive CommitError where
  | header (error : HeaderError)
  | execution (error : ExecutionError)
  | rewardOverflow
  deriving DecidableEq

def zeroHash : Vector UInt8 64 := Vector.replicate 64 0
def zeroRoot : Vector UInt8 32 := Vector.replicate 32 0

/-- The clock is read in seconds; `now - 86400 * 30` wraps for a clock within a
month of the epoch, as `u64` does in a release build. -/
def validateBlockHeader (now : UInt64) (block : Block) : Except HeaderError Unit :=
  if block.height = 0 ∧ block.parentHash ≠ zeroHash then .error .genesisParent
  else if block.height ≠ 0 ∧ block.parentHash = zeroHash then .error .missingParent
  else if block.hash = zeroHash then .error .zeroHash
  else if now + 3600 < block.timestamp then .error .timestampAhead
  else if block.timestamp < now - 86400 * 30 then .error .timestampBehind
  else if block.stateRoot = zeroRoot then .error .zeroStateRoot
  else if block.txRoot = zeroRoot then .error .zeroTxRoot
  else .ok ()

section
variable (sha256 : List UInt8 → Vector UInt8 32)

def computeStateRootFromOverlay (overlay : Accounts) : Vector UInt8 32 :=
  sha256 (overlay.toList.flatMap fun entry =>
    entry.1 ++ toLeBytes 16 entry.2.balance.toNat ++ toLeBytes 8 entry.2.nonce.toNat)

def computeTxRootFromReceipts (receipts : List Receipt) : Vector UInt8 32 :=
  let sorted := (receipts.map Receipt.entry).insertionSort fun first second =>
    (compare first.1 second.1).isLE
  sha256 (sorted.flatMap fun entry => entry.1 ++ entry.2)

def computeBlockHash (block : Block) : Vector UInt8 64 :=
  let digest := sha256 (block.parentHash.toList ++ (block.stateRoot ++ zeroRoot).toList ++
    (block.txRoot ++ zeroRoot).toList ++ toLeBytes 8 block.height.toNat)
  digest ++ zeroRoot

/-- The uncertified executor; the block gets the roots of this execution. -/
def executeBlockWithoutCommit (now : UInt64) (storage : Accounts) (block : Block)
    (txs : List SignedTx) : Except CommitError (Block × Accounts) := do
  let _ ← (validateBlockHeader now block).mapError .header
  let (overlay, receipts) ← (signedLoop storage (sortedOrder txs) ∅ []).mapError .execution
  let block := { block with
    stateRoot := computeStateRootFromOverlay sha256 overlay
    txRoot := computeTxRootFromReceipts sha256 receipts }
  return ({ block with hash := computeBlockHash sha256 block }, overlay)

end

section
/-- How a storage backend answers for the head of a lane; the empty lane is the
legacy single chain. -/
structure HeadStore (Heads : Type) where
  chainHead : Heads → String → Except Unit (Option UInt64)
  setChainHead : Heads → String → UInt64 → Heads

structure NodeStorage (Heads : Type) where
  accounts : Accounts
  heads : Heads

/-- The in-memory backend keeps blocks by height, without lanes: its head is the
highest block, and eviction never reaches that one. -/
def memoryHeads : HeadStore (Option UInt64) where
  chainHead head _ := .ok head
  setChainHead head _ height := some (match head with
    | some current => if current < height then height else current
    | none => height)

variable {Heads : Type} (store : HeadStore Heads)

/-- Above the head, without a head, or with a head that cannot be read. -/
def shouldUpdate (heads : Heads) (lane : String) (height : UInt64) : Bool :=
  match store.chainHead heads lane with
  | .ok (some head) => decide (head < height)
  | .ok none => true
  | .error () => true

end

variable (accounts : Accounts)

/-- The branch for a block that does not advance the chain: only higher nonces
are taken over, an account that exists keeps its balance. -/
def mergeNonce (entry : Address × Account) : Accounts :=
  let existing := accounts[entry.1]?
  if (existing.map Account.nonce).getD 0 < entry.2.nonce then
    accounts.insert entry.1
      { balance := (existing.map Account.balance).getD entry.2.balance,
        nonce := entry.2.nonce }
  else accounts

def writeOverlay (advances : Bool) (accounts overlay : Accounts) : Accounts :=
  if advances then accounts ∪ overlay else overlay.toList.foldl mergeNonce accounts

def accountOf (address : Address) : Account := (accounts[address]?).getD {}

def creditAccount (address : Address) (amount : BitVec 128) : Accounts :=
  let account := accountOf accounts address
  accounts.insert address { account with balance := addSaturating account.balance amount }

def treasuryAddress : Address := List.replicate 31 0 ++ [1]

/-- Every transaction of the block counts here, also one that was not applied. -/
def totalFees (txs : List SignedTx) : BitVec 128 :=
  txs.foldl (fun fees tx => addSaturating fees tx.feeOrZero) 0

def burnAmount (fees : BitVec 128) : BitVec 128 := fees / 2
/-- The product with 60 wraps for fees near the end of `u128`. -/
def treasuryAmount (fees : BitVec 128) : BitVec 128 := (fees - burnAmount fees) * 60 / 100
def proposerAmount (fees : BitVec 128) : BitVec 128 := fees - burnAmount fees - treasuryAmount fees

def distributeBlockFees (fees : BitVec 128) (proposer : Address) : Accounts :=
  let accounts :=
    if 0 < treasuryAmount fees then
      creditAccount accounts treasuryAddress (treasuryAmount fees)
    else accounts
  if 0 < proposerAmount fees then creditAccount accounts proposer (proposerAmount fees)
  else accounts

def calculateP2pReward (pouScore : UInt64) : BitVec 128 :=
  1000 + BitVec.ofNat 128 pouScore.toNat * 10

/-- An overflow ends the loop with an error; the nodes before it stay rewarded. -/
def distributeFeesToP2pNodes (accounts : Accounts) :
    List (Vector UInt8 32 × UInt64) → Accounts × Except CommitError Unit
  | [] => (accounts, .ok ())
  | (address, pouScore) :: rest =>
    let account := accountOf accounts address.toList
    let reward := calculateP2pReward pouScore
    if 2 ^ 128 ≤ account.balance.toNat + reward.toNat then (accounts, .error .rewardOverflow)
    else
      distributeFeesToP2pNodes
        (accounts.insert address.toList { account with balance := account.balance + reward })
        rest

section
/-- One call of `commit_pending_block`, with the clock as it reads then. -/
structure PendingCommit where
  block : Block
  signedTxs : List SignedTx
  p2pNodes : Option (List (Vector UInt8 32 × UInt64)) := none
  isMnCertified : Bool := true
  lane : String := ""
  now : UInt64

def PendingCommit.fees (pending : PendingCommit) : BitVec 128 := totalFees pending.signedTxs

variable (sha256 : List UInt8 → Vector UInt8 32)
variable (accounts : Accounts)

/-- The block and overlay to be written: execution by the path its certificate
selects, then the header check that precedes every write. -/
def executePending (pending : PendingCommit) : Except CommitError (Block × Accounts) := do
  let (block, overlay) ←
    if pending.isMnCertified then
      ((applyCertifiedBlockDirect accounts pending.signedTxs).mapError CommitError.execution).map
        fun result => (pending.block, result.1)
    else executeBlockWithoutCommit sha256 pending.now accounts pending.block pending.signedTxs
  let _ ← (validateBlockHeader pending.now block).mapError .header
  return (block, overlay)

variable {accounts} in
theorem executePending_certified {pending : PendingCommit} {block : Block} {overlay : Accounts}
    (certified : pending.isMnCertified = true)
    (executed : executePending sha256 accounts pending = .ok (block, overlay)) :
    block = pending.block ∧ ∃ receipts,
      applyCertifiedBlockDirect accounts pending.signedTxs = .ok (overlay, receipts) := by
  unfold executePending at executed
  rw [if_pos certified] at executed
  cases applied : applyCertifiedBlockDirect accounts pending.signedTxs with
  | error failure =>
    simp [applied, Except.mapError, Except.map, bind, Except.bind] at executed
  | ok result =>
    cases header : validateBlockHeader pending.now pending.block with
    | error failure =>
      simp [applied, header, Except.mapError, Except.map, bind, Except.bind] at executed
    | ok done =>
      simp only [applied, header, Except.mapError, Except.map, bind, Except.bind, pure,
        Except.pure, Except.ok.injEq, Prod.mk.injEq] at executed
      rcases executed with ⟨same, rfl⟩
      exact ⟨same.symm, result.2, rfl⟩

def payFees (pending : PendingCommit) : Accounts :=
  if 0 < pending.fees then
    distributeBlockFees accounts pending.fees pending.block.proposer.toList
  else accounts

def payNodes (pending : PendingCommit) : Accounts × Except CommitError Unit :=
  match pending.p2pNodes with
  | some nodes => distributeFeesToP2pNodes accounts nodes
  | none => (accounts, .ok ())

variable {Heads : Type} (store : HeadStore Heads)

def commitPendingBlock (storage : NodeStorage Heads) (pending : PendingCommit) :
    NodeStorage Heads × Except CommitError (Vector UInt8 64) :=
  match executePending sha256 storage.accounts pending with
  | .error failure => (storage, .error failure)
  | .ok (block, overlay) =>
    let advances := shouldUpdate store storage.heads pending.lane block.height
    let written := writeOverlay advances storage.accounts overlay
    let heads :=
      if advances then store.setChainHead storage.heads pending.lane block.height
      else storage.heads
    let rewarded := payNodes (payFees written pending) pending
    ({ accounts := rewarded.1, heads }, rewarded.2.map fun _ => pending.block.hash)

end

def sampleSha256 (_ : List UInt8) : Vector UInt8 32 := Vector.replicate 32 7

def sampleBlock (height : UInt64) : Block :=
  { hash := Vector.replicate 64 1, height, timestamp := 1700000000,
    parentHash := Vector.replicate 64 1, stateRoot := Vector.replicate 32 1,
    txRoot := Vector.replicate 32 1, proposer := Vector.replicate 32 9 }

end Savitri.BlockCommit
