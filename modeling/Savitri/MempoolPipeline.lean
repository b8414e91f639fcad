import Savitri.MempoolMoves
import Savitri.TxWire

/-!
The pipeline of mempool/integration.rs around the mempool: prevalidation, admission,
block drains with their in-flight records, commits and the restore paths. Locks never
fail here, and parallel loops run in the order of their lists. The oracle validator
trusts no provider, so an oracle transaction is always refused. Metrics, state tracking
and account snapshots other than their nonces are left out.
-/
namespace Savitri.MempoolPipeline
open Std (ExtTreeMap)
open BlockExecution (Address)
open AccountReads ReplayPrevention MempoolTypes MempoolAdmission MempoolCore TxWire

/-- What the pipeline takes from its libraries: the hash of the byte store, the hash of
the duplicate check, the signature check, the stream nonce and the shard of an address. -/
structure Primitives where
  sha256 : List UInt8 → TxHash
  blake3 : List UInt8 → TxHash
  verifySignature : List UInt8 → Bool
  extractStreamNonce : SignedTx → List UInt8 → TxClass → Option UInt64
  shardForSender : Address → Nat → Nat

structure PipelineEnv where
  now : Instant
  storage : Storage
  replayPrevention : Option (ReplayPrevention.State × Storage) := none
  snapshotNonce : Address → UInt64 := fun _ => 0

def PipelineEnv.mempoolEnv (env : PipelineEnv) : Env :=
  { now := env.now, storage := some env.storage, replayPrevention := env.replayPrevention }

structure SenderRegistry where
  addressToId : Address → Option SenderId := fun _ => none
  nextId : SenderId := 1

def SenderRegistry.getOrAllocate (registry : SenderRegistry) (address : Address) :
    SenderRegistry × SenderId :=
  match registry.addressToId address with
  | some id => (registry, id)
  | none =>
    ({ addressToId := Function.update registry.addressToId address (some registry.nextId)
       nextId := min (registry.nextId + 1) (2 ^ 32 - 1) }, registry.nextId)

structure Prevalidator where
  senderRegistry : SenderRegistry := {}
  txStorage : TxStorage := {}

def isOracle (bytes : List UInt8) : Bool := 33 ≤ bytes.length ∧ bytes.head? = some 2

def classifyTx (tx : SignedTx) (bytes : List UInt8) : TxClass :=
  let length := tx.toAddress.length
  if length = 0 then .system
  else if length = 32 then .financial
  else if tx.amount = 0 ∧ 8 ≤ length then .ioTData
  else if 32 < length ∧ 12 ≤ length ∧ length % 4 = 0 then .federatedUpdate
  else if 64 < length ∧ 200 < bytes.length then .federatedUpdate
  else .financial

def prevalidationNonceWindow : Nat := 3500

def checkNonceSoft (snapshotNonce nonce : UInt64) : Bool :=
  snapshotNonce = 0 ∨
    snapshotNonce ≤ nonce ∧ nonce.toNat ≤ snapshotNonce.toNat + prevalidationNonceWindow

/-- The first 32 bytes of an address, filled up with zeros. -/
def fixedAddress (address : Address) : Address :=
  address.take 32 ++ List.replicate (32 - address.length) 0

/-- `prevalidate_internal` behind the checks of `prevalidate_batch`. The bytes are
stored before the last two checks, which may still refuse them. -/
def Prevalidator.prevalidate (prims : Primitives) (pre : Prevalidator) (env : PipelineEnv)
    (bytes : List UInt8) : Prevalidator × Except String PrevalidatedTx :=
  if isOracle bytes then (pre, .error "Untrusted oracle provider")
  else if !prims.verifySignature bytes then (pre, .error "signature verification failed")
  else
  let tx := deserializeTransactionFromBytes bytes
  let (senderRegistry, senderId) := pre.senderRegistry.getOrAllocate tx.fromAddress
  let (txStorage, txHandle, isDuplicate) := pre.txStorage.store prims.sha256 bytes
  let txClass := classifyTx tx bytes
  let result :=
    if isDuplicate then .error "duplicate transaction"
    else if !checkNonceSoft (env.snapshotNonce tx.fromAddress) tx.nonce then
      .error "invalid nonce"
    else if 2 ^ 64 ≤ tx.amount.toNat + tx.fee.toNat then .error "amount + fee overflow"
    else .ok {
      senderId
      senderAddress := fixedAddress tx.fromAddress
      nonce := tx.nonce
      maxFee := tx.fee
      amount := tx.amount
      txHandle
      txClass
      streamNonce := prims.extractStreamNonce tx bytes txClass }
  ({ senderRegistry, txStorage }, result)

def Prevalidator.prevalidateBatch (prims : Primitives) (pre : Prevalidator) (env : PipelineEnv)
    (raws : List (List UInt8)) : Prevalidator × List PrevalidatedTx :=
  raws.foldl (fun (pre, valid) bytes =>
    let (pre, result) := pre.prevalidate prims env bytes
    (pre, valid ++ result.toOption.toList)) (pre, [])

section Pipeline
structure InFlightEntry where
  height : UInt64
  insertedAt : Instant
  txs : List MempoolTx

abbrev BlockHash := List UInt8

structure ShardFilter where
  numShards : Nat
  localShards : List Nat

def ShardFilter.isLocal (prims : Primitives) (filter : ShardFilter) (address : Address) : Bool :=
  decide (prims.shardForSender address filter.numShards ∈ filter.localShards)

inductive SchedulingError where
  | mismatchedLengths (mempoolCount signedCount : Nat)
  | noValidTransactions

/-- The text of an address is empty or has nothing but the digit zero. -/
def blank (text : List UInt8) : Bool := text.all (· == 48)

/-- `validate_transaction`; the two hashes it compares last are one computation. -/
def validateTransaction (mempoolTx : MempoolTx) (signedTx : CoreTransaction) : Except String Unit :=
  if mempoolTx.fee = 0 then .error "Transaction fee cannot be zero"
  else if blank signedTx.fromAddress then .error "Invalid sender address"
  else if blank signedTx.toAddress then .error "Invalid recipient address"
  else if signedTx.amount = 0 then .error "Transaction amount cannot be zero"
  else .ok ()

/-- The dispatcher passes the valid pairs on in the order they came. -/
def scheduleTransactionsSafe (mempoolTxs : List MempoolTx) (signedTxs : List CoreTransaction) :
    Except SchedulingError (List MempoolTx × List CoreTransaction) :=
  if mempoolTxs.isEmpty || signedTxs.isEmpty then .ok (mempoolTxs, signedTxs)
  else if mempoolTxs.length ≠ signedTxs.length then
    .error (.mismatchedLengths mempoolTxs.length signedTxs.length)
  else
    let valid := (mempoolTxs.zip signedTxs).filter fun pair =>
      (validateTransaction pair.1 pair.2).isOk
    if valid.isEmpty then .error .noValidTransactions else .ok valid.unzip

structure Pipeline where
  prevalidator : Prevalidator := {}
  mempool : Mempool
  inFlightTxs : List MempoolTx := []
  inFlightByBlock : ExtTreeMap BlockHash InFlightEntry := ∅
  shardFilter : Option ShardFilter := none
  dispatcher : Bool := false
  prefetching : Bool := false

def Pipeline.fresh (config : AdmissionConfig) (now : Instant) (dispatcher prefetching : Bool) :
    Pipeline :=
  { mempool := Mempool.fresh (seconds 120) now { config }, dispatcher, prefetching }

variable (prims : Primitives)
variable (p : Pipeline) (env : PipelineEnv)

def Pipeline.processRawTransactions (raws : List (List UInt8)) : Pipeline :=
  let (prevalidator, prevalidated) := p.prevalidator.prevalidateBatch prims env raws
  if prevalidated.isEmpty then { p with prevalidator } else
  { p with
    prevalidator
    mempool := (p.mempool.addPrevalidatedBatch env.mempoolEnv prevalidated true).1 }

def Pipeline.processSingleRawTransaction (raw : List UInt8) : Pipeline :=
  let (prevalidator, result) := p.prevalidator.prevalidate prims env raw
  match result with
  | .error _ => { p with prevalidator }
  | .ok pv =>
    { p with
      prevalidator
      mempool := (p.mempool.addPrevalidatedWithSource env.mempoolEnv pv
        (some (prims.blake3 raw)) true).1 }

/-- The filter keeps what came through the local RPC and what belongs to a local shard. -/
def Pipeline.keepsTx (tx : MempoolTx) : Bool :=
  match p.shardFilter with
  | none => true
  | some filter => tx.rpcAccepted || filter.isLocal prims tx.senderAddress

def slotLe (first second : MempoolTx) : Bool :=
  first.senderId < second.senderId ∨ first.senderId = second.senderId ∧ first.nonce ≤ second.nonce

/-- What becomes of a drained batch: it is ordered, the transactions of other shards go
back to the mempool, and the rest are in flight. -/
def Pipeline.routeBatch (drained : List MempoolTx) : Pipeline × List MempoolTx :=
  let sorted := drained.insertionSort fun first second => slotLe first second
  let batch := sorted.filter (p.keepsTx prims)
  let remote := sorted.filter fun tx => !p.keepsTx prims tx
  ({ p with
     mempool := p.mempool.restoreDrainedTxs remote
     inFlightTxs := p.inFlightTxs ++ batch }, batch)

def decodeHandle (store : TxStorage) (handle : TxHandle) : Option SignedTx :=
  (store.get handle).bind createSignedTxFromBytes

/-- Steps 3, 4 and 6: the bytes of the batch are decoded, and both lists are cut to the
length of the shorter one. The dispatcher is given default transactions in place of the
decoded ones. -/
def Pipeline.pairUp (mempoolTxs : List MempoolTx) : List MempoolTx × List SignedTx :=
  let signedTxs := mempoolTxs.filterMap fun tx =>
    decodeHandle p.prevalidator.txStorage tx.txHandle
  if p.dispatcher then
    match scheduleTransactionsSafe mempoolTxs (signedTxs.map fun _ => {}) with
    | .error _ => ([], [])
    | .ok (scheduledMempool, scheduledSigned) =>
      let minLen := min scheduledMempool.length scheduledSigned.length
      (scheduledMempool.take minLen, signedTxs.take minLen)
  else
    let minLen := min mempoolTxs.length signedTxs.length
    (mempoolTxs.take minLen, signedTxs.take minLen)

/-- The lookahead of the prefetcher peeks at the mempool, which only purges it. -/
def Pipeline.lookAhead : Pipeline :=
  if p.prefetching then
    { p with mempool := p.mempool.purgeExpiredInternalIfNeeded env.mempoolEnv }
  else p

def Pipeline.drainForBlockProduction (maxTxs : Nat) : Pipeline × List MempoolTx × List SignedTx :=
  let (mempool, drained) := p.mempool.drainFairBatch env.mempoolEnv maxTxs
  if drained.isEmpty then ({ p with mempool }, [], []) else
  let (p, mempoolTxs) := { p with mempool }.routeBatch prims drained
  (p.lookAhead env, p.pairUp mempoolTxs)

def storageNonce (storage : Storage) (address : Address) : UInt64 :=
  match storage address with
  | .ok (some bytes) =>
    match decodeEither bytes with
    | .ok account => account.nonce
    | .error _ => 0
  | _ => 0

def isStale (storage : Storage) (tx : MempoolTx) : Bool :=
  tx.nonce < storageNonce storage tx.senderAddress

/-- The removal of a transaction that is not in the mempool any more. -/
def recordStale (mempool : Mempool) (tx : MempoolTx) : Mempool :=
  { mempool with admission := mempool.admission.recordRemoval tx.senderId tx.txClass tx.txHash }

def Pipeline.restoreInFlightTxs : Pipeline :=
  let keep := p.inFlightTxs.filter fun tx => !isStale env.storage tx
  let dropStale := p.inFlightTxs.filter (isStale env.storage)
  { p with
    inFlightTxs := []
    mempool := (dropStale.foldl recordStale p.mempool).restoreDrainedTxs keep }

def Pipeline.recordInFlightForBlock (blockHash : BlockHash) (height : UInt64) (txs : List MempoolTx) :
    Pipeline :=
  if txs.isEmpty then p else
  { p with
    inFlightByBlock := p.inFlightByBlock.insert blockHash { height, insertedAt := env.now, txs } }

def Pipeline.restoreInFlightForBlock (blockHash : BlockHash) : Pipeline :=
  match p.inFlightByBlock[blockHash]? with
  | none => p
  | some entry =>
    { p with
      inFlightByBlock := p.inFlightByBlock.erase blockHash
      mempool := p.mempool.restoreDrainedTxs entry.txs }

/-- The loop of the two scans: the chosen entries leave the table and go back. -/
def Pipeline.restoreEntries (chosen : BlockHash → InFlightEntry → Bool) : Pipeline :=
  let entries := (p.inFlightByBlock.filter chosen).toList
  { p with
    inFlightByBlock := p.inFlightByBlock.filter fun hash entry => !chosen hash entry
    mempool := entries.foldl (fun mempool entry => mempool.restoreDrainedTxs entry.2.txs)
      p.mempool }

def Pipeline.restoreOrphanedAtHeight (committedHeight : UInt64) (committedHash : BlockHash) :
    Pipeline :=
  p.restoreEntries fun hash entry => entry.height = committedHeight ∧ hash ≠ committedHash

def Pipeline.restoreInFlightOlderThan (maxAge : Nat) : Pipeline :=
  p.restoreEntries fun _ entry => maxAge ≤ env.now - entry.insertedAt

def committedAddresses (store : TxStorage) (handles : List TxHandle) : List Address :=
  (handles.filterMap store.get).foldl (fun addresses bytes =>
    let tx := deserializeTransactionFromBytes bytes
    (addresses.insert tx.fromAddress).insert tx.toAddress) []

/-- The map of nonce updates is a list with one entry for each sender. -/
def Prevalidator.buildNonceUpdates (pre : Prevalidator) (storage : Storage)
    (handles : List TxHandle) : Prevalidator × List (SenderId × UInt64) :=
  (committedAddresses pre.txStorage handles).foldl (fun (pre, updates) address =>
    let (senderRegistry, id) := pre.senderRegistry.getOrAllocate address
    let pre := { pre with senderRegistry }
    match storage address with
    | .ok (some bytes) =>
      match decodeEither bytes with
      | .ok account => (pre, (id, account.nonce) :: updates.filter (·.1 ≠ id))
      | .error _ => (pre, updates)
    | _ => (pre, updates)) (pre, [])

def Pipeline.onBlockCommitted (p : Pipeline) (env : PipelineEnv)
    (committedHandles : List TxHandle) : Pipeline :=
  { p with mempool := p.mempool.onBlockCommitted env.mempoolEnv committedHandles [] }

/-- The handles of step 1b: stored transactions below the committed nonce. -/
def staleHandles (mempool : Mempool) (nonceUpdates : List (SenderId × UInt64)) : List TxHandle :=
  let stale := mempool.stored.filter fun tx =>
    (nonceUpdates.lookup tx.senderId).any fun committedNonce => decide (tx.nonce < committedNonce)
  stale.map (·.txHandle)

def Pipeline.onBlockCommittedWithNonces (committedHandles : List TxHandle)
    (nonceUpdates : List (SenderId × UInt64)) : Pipeline :=
  let (prevalidator, nonceUpdates) :=
    if nonceUpdates.isEmpty ∧ !committedHandles.isEmpty then
      p.prevalidator.buildNonceUpdates env.storage committedHandles
    else (p.prevalidator, nonceUpdates)
  let mempool := p.mempool.onBlockCommitted env.mempoolEnv committedHandles nonceUpdates
  { p with
    prevalidator
    mempool := mempool.removeByHandles (staleHandles mempool nonceUpdates) }

end Pipeline

inductive Action where
  | processRawTransactions (env : PipelineEnv) (raws : List (List UInt8))
  | processSingleRawTransaction (env : PipelineEnv) (raw : List UInt8)
  | drainForBlockProduction (env : PipelineEnv) (maxTxs : Nat)
  | recordInFlightForBlock (env : PipelineEnv) (blockHash : BlockHash) (height : UInt64)
      (txs : List MempoolTx)
  | clearInFlightTxs
  | clearInFlightForBlock (blockHash : BlockHash)
  | restoreInFlightTxs (env : PipelineEnv)
  | restoreInFlightForBlock (blockHash : BlockHash)
  | restoreOrphanedAtHeight (committedHeight : UInt64) (committedHash : BlockHash)
  | restoreInFlightOlderThan (env : PipelineEnv) (maxAge : Nat)
  | onBlockCommitted (env : PipelineEnv) (committedHandles : List TxHandle)
  | onBlockCommittedWithNonces (env : PipelineEnv) (committedHandles : List TxHandle)
      (nonceUpdates : List (SenderId × UInt64))
  /-- The end of a final validation, which removes what it refused. -/
  | removeByHandles (handles : List TxHandle)
  /-- `len`, `peek_pending` and `find_handles_from_signed_txs` purge and look. -/
  | peekPending (env : PipelineEnv)
  | purgeExpired (env : PipelineEnv)
  | setShardFilter (filter : Option ShardFilter)

/-- The output is the two lists of a drain, empty for the other actions. -/
def act (prims : Primitives) (p : Pipeline) : Action → Pipeline × List MempoolTx × List SignedTx
  | .processRawTransactions env raws => (p.processRawTransactions prims env raws, [], [])
  | .processSingleRawTransaction env raw => (p.processSingleRawTransaction prims env raw, [], [])
  | .drainForBlockProduction env maxTxs => p.drainForBlockProduction prims env maxTxs
  | .recordInFlightForBlock env blockHash height txs =>
    (p.recordInFlightForBlock env blockHash height txs, [], [])
  | .clearInFlightTxs => ({ p with inFlightTxs := [] }, [], [])
  | .clearInFlightForBlock blockHash =>
    ({ p with inFlightByBlock := p.inFlightByBlock.erase blockHash }, [], [])
  | .restoreInFlightTxs env => (p.restoreInFlightTxs env, [], [])
  | .restoreInFlightForBlock blockHash => (p.restoreInFlightForBlock blockHash, [], [])
  | .restoreOrphanedAtHeight committedHeight committedHash =>
    (p.restoreOrphanedAtHeight committedHeight committedHash, [], [])
  | .restoreInFlightOlderThan env maxAge => (p.restoreInFlightOlderThan env maxAge, [], [])
  | .onBlockCommitted env committedHandles => (p.onBlockCommitted env committedHandles, [], [])
  | .onBlockCommittedWithNonces env committedHandles nonceUpdates =>
    (p.onBlockCommittedWithNonces env committedHandles nonceUpdates, [], [])
  | .removeByHandles handles => ({ p with mempool := p.mempool.removeByHandles handles }, [], [])
  | .peekPending env =>
    ({ p with mempool := p.mempool.purgeExpiredInternalIfNeeded env.mempoolEnv }, [], [])
  | .purgeExpired env =>
    ({ p with mempool := p.mempool.purgeExpiredInternal env.mempoolEnv }, [], [])
  | .setShardFilter filter => ({ p with shardFilter := filter }, [], [])

def samplePrims : Primitives where
  sha256 := id
  blake3 := id
  verifySignature _ := true
  extractStreamNonce _ _ _ := none
  shardForSender _ _ := 0

def sampleWord (width : Nat) (byte : UInt8) : List UInt8 := byte :: List.replicate (width - 1) 0

/-- The extended form of a transfer of 5 for a fee of 255; sender and receiver are a
hexadecimal digit repeated. -/
def sampleWire (fromDigit nonce : UInt8) : List UInt8 :=
  sampleWord 8 64 ++ List.replicate 64 fromDigit ++ sampleWord 8 64 ++ List.replicate 64 57 ++
    sampleWord 8 5 ++ sampleWord 8 nonce ++ [1] ++ sampleWord 16 255 ++ [0] ++
    sampleWord 8 32 ++ List.replicate 32 0 ++ List.replicate 64 0 ++ [0]

variable (nonces : List (Address × UInt8))

def sampleStorage : Storage := fun address =>
  .ok ((nonces.lookup address).map fun nonce => sampleWord 16 255 ++ sampleWord 8 nonce)

def sampleEnv : PipelineEnv := { now := 0, storage := sampleStorage nonces }

def sampleConfig : AdmissionConfig := { feeFloor := 0 }

end Savitri.MempoolPipeline
