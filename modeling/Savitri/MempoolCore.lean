import Savitri.MempoolAdmission
import Savitri.SwapRemove

/-!
The ready queues of mempool/core.rs: one queue for each sender in a vector, an index
from senders to positions, and for each class a round-robin list of positions. An
operation sees one instant, however often its source reads the clock. Metrics,
diagnostics and the two caps of `MempoolConfig`, which nothing reads, are left out. Where
the source would panic on a position out of range, the model leaves the state as it is;
`MempoolIndex` shows that no position is.
-/
namespace Savitri.MempoolCore
open ReplayPrevention MempoolTypes MempoolAdmission SwapRemove

structure ReadyQueue where
  senderId : SenderId
  queue : List MempoolTx

structure Mempool where
  ttl : Nat := seconds 120
  readyVec : List ReadyQueue := []
  readyIndex : List (Option Nat) := []
  rrVecByClass : TxClass → List Nat := fun _ => []
  rrPosByClass : TxClass → Nat := fun _ => 0
  counts : List Nat := []
  total : Nat := 0
  lastPurge : Instant := 0
  purgeInterval : Nat := seconds 1
  admission : AdmissionControl := {}

inductive AdmissionOutcome where
  | admitted
  | queued
  | rejected (reason : String)
  deriving DecidableEq

variable (mp : Mempool)

def Mempool.stored : List MempoolTx := mp.readyVec.flatMap (·.queue)

variable (idx : Nat)

def Mempool.queueAt : List MempoolTx := (mp.readyVec[idx]?.map (·.queue)).getD []

def Mempool.setQueue (queue : List MempoolTx) : Mempool :=
  { mp with readyVec := mp.readyVec.modify idx fun rq => { rq with queue } }

def resize {Item : Type} (items : List Item) (length : Nat) (fill : Item) : List Item :=
  items.take length ++ List.replicate (length - items.length) fill

variable (sender : SenderId)

def Mempool.ensureIndexCapacity : Mempool :=
  if mp.readyIndex.length ≤ sender ∨ mp.counts.length ≤ sender then
    let currentCapacity := max mp.readyIndex.length mp.counts.length
    let newCapacity := max (max (currentCapacity * 2) (sender + 1)) 2
    { mp with
      readyIndex := resize mp.readyIndex newCapacity none
      counts := resize mp.counts newCapacity 0 }
  else mp

/-- The entries of the removed position itself stay where the last queue moves in: only
entries past the end are dropped. -/
def Mempool.removeReadyQueue : Mempool :=
  match mp.readyVec[idx]? with
  | none => mp
  | some removed =>
    let lastIdx := mp.readyVec.length - 1
    let readyVec := swapRemove mp.readyVec idx
    let cleared := mp.readyIndex.set removed.senderId none
    let rrVecByClass := fun txClass =>
      ((mp.rrVecByClass txClass).map fun slot =>
        if idx ≠ lastIdx ∧ slot = lastIdx then idx else slot).filter
          fun slot => decide (slot < readyVec.length)
    { mp with
      readyVec
      readyIndex :=
        if idx ≠ lastIdx then
          match readyVec[idx]? with
          | some swapped => cleared.set swapped.senderId (some idx)
          | none => cleared
        else cleared
      rrVecByClass
      rrPosByClass := fun txClass =>
        if (rrVecByClass txClass).length ≤ mp.rrPosByClass txClass then 0
        else mp.rrPosByClass txClass }

def Mempool.forget (tx : MempoolTx) : Mempool :=
  { mp with
    total := mp.total - 1
    counts := mp.counts.modify sender (· - 1)
    admission := mp.admission.recordRemoval sender tx.txClass tx.txHash }

def Mempool.getOrCreateQueue : Mempool × Nat :=
  match mp.readyIndex[sender]?.join with
  | some idx => (mp, idx)
  | none =>
    ({ mp with
       readyVec := mp.readyVec ++ [{ senderId := sender, queue := [] }]
       readyIndex := mp.readyIndex.set sender (some mp.readyVec.length) },
      mp.readyVec.length)

def Mempool.pushRoundRobin (txClass : TxClass) (idx : Nat) : Mempool :=
  { mp with
    rrVecByClass := Function.update mp.rrVecByClass txClass (mp.rrVecByClass txClass ++ [idx]) }

variable (tx : MempoolTx)

def Mempool.appendTo : Mempool :=
  let queue := mp.queueAt idx
  let pushed := { mp.setQueue idx (queue ++ [tx]) with
    total := mp.total + 1
    counts := mp.counts.modify tx.senderId (· + 1) }
  if queue.isEmpty then pushed.pushRoundRobin tx.txClass idx else pushed

def Mempool.enqueue : Mempool :=
  let opened := (mp.ensureIndexCapacity tx.senderId).getOrCreateQueue tx.senderId
  opened.1.appendTo opened.2 tx

variable (env : Env) (pv : PrevalidatedTx) (txHash : Option TxHash)

def Mempool.addPrevalidatedWithSource (fromRpc : Bool) : Mempool × AdmissionOutcome :=
  let (admission, result) := mp.admission.checkAdmission env pv txHash fromRpc
  match result with
  | .admitted =>
    let mp := { mp with admission := admission.recordAdmission env.now pv txHash }
    (mp.enqueue (.ofPrevalidated pv env.now txHash fromRpc), .admitted)
  | .queued => ({ mp with admission }, .queued)
  | .rejected reason => ({ mp with admission }, .rejected reason)

def Mempool.addPrevalidated : Mempool × AdmissionOutcome :=
  mp.addPrevalidatedWithSource env pv txHash false

def Mempool.sweepQueue (rq : ReadyQueue) (drop : MempoolTx → Bool) : Mempool :=
  let mp := (rq.queue.filter drop).foldl (fun mp tx => mp.forget rq.senderId tx) mp
  mp.setQueue idx (rq.queue.filter fun tx => !drop tx)

/-- The loop shared by purge, removal and eviction. A queue that is removed has the last
one in its place, which is swept next, so there are as many turns as queues. -/
def Mempool.sweep (drops : SenderId → Option (MempoolTx → Bool)) (removesIdle : Bool) :
    Nat → Nat → Mempool → Mempool
  | 0, _, mp => mp
  | turns + 1, idx, mp =>
    match mp.readyVec[idx]? with
    | none => mp
    | some rq =>
      match drops rq.senderId with
      | none => sweep drops removesIdle turns (idx + 1) mp
      | some drop =>
        let swept := mp.sweepQueue idx rq drop
        if (swept.queueAt idx).isEmpty ∧ (removesIdle ∨ rq.queue ≠ []) then
          sweep drops removesIdle turns idx (swept.removeReadyQueue idx)
        else sweep drops removesIdle turns (idx + 1) swept

def Mempool.expired (now : Instant) (tx : MempoolTx) : Bool := decide (mp.ttl < now - tx.inserted)

def Mempool.purgeExpiredInternal : Mempool :=
  sweep (fun _ => some (mp.expired env.now)) true mp.readyVec.length 0
    { mp with lastPurge := env.now }

/-- The purge is skipped within half an interval of the last one. -/
def Mempool.purgeDue : Bool := decide (mp.purgeInterval / 2 ≤ env.now - mp.lastPurge)

def Mempool.purgeExpiredInternalIfNeeded : Mempool :=
  if mp.purgeDue env then mp.purgeExpiredInternal env else mp

def Mempool.removeByHandles (handles : List TxHandle) : Mempool :=
  if handles.isEmpty then mp else
  sweep (fun _ => some fun tx => decide (tx.txHandle ∈ handles)) true mp.readyVec.length 0 mp

/-- A queue that was empty before stays, unlike in the other two sweeps. -/
def Mempool.evictStale (nonceUpdates : List (SenderId × UInt64)) : Mempool :=
  if nonceUpdates.isEmpty then mp else
  sweep (fun sender => (nonceUpdates.lookup sender).map fun confirmedNonce tx =>
    decide (tx.nonce < confirmedNonce)) false mp.readyVec.length 0 mp

def Mempool.addPrevalidatedBatch (pvs : List PrevalidatedTx) (fromRpc : Bool) :
    Mempool × List AdmissionOutcome :=
  pvs.foldl (fun (mp, results) pv =>
    let (mp, outcome) := mp.addPrevalidatedWithSource env pv none fromRpc
    (mp, results ++ [outcome])) (mp.purgeExpiredInternalIfNeeded env, [])

def Mempool.onBlockCommitted (committedHandles : List TxHandle)
    (nonceUpdates : List (SenderId × UInt64)) : Mempool :=
  let mp := (mp.removeByHandles committedHandles).evictStale nonceUpdates
  let (admission, promoted) := mp.admission.promoteQueued env.now nonceUpdates
  promoted.foldl (fun mp (pv, txHash) => (mp.addPrevalidated env pv txHash).1) { mp with admission }

def burstPerSender : Nat := 8

def popBurst (max idx : Nat) : Nat → Mempool → List MempoolTx → Mempool × List MempoolTx
  | 0, mp, out => (mp, out)
  | burst + 1, mp, out =>
    if max ≤ out.length then (mp, out) else
    match mp.readyVec[idx]? with
    | some { senderId, queue := tx :: rest } =>
      popBurst max idx burst ((mp.forget senderId tx).setQueue idx rest) (out ++ [tx])
    | _ => (mp, out)

/-- An emptied queue leaves the list of the class it was served through, and only that. -/
def Mempool.retireQueue (txClass : TxClass) (idx : Nat) : Mempool :=
  if (mp.queueAt idx).isEmpty then
    let rrVec := (mp.rrVecByClass txClass).filter (· ≠ idx)
    { mp with
      rrVecByClass := Function.update mp.rrVecByClass txClass rrVec
      rrPosByClass := Function.update mp.rrPosByClass txClass
        (if rrVec.length ≤ mp.rrPosByClass txClass then 0 else mp.rrPosByClass txClass) }
  else mp

def drainClass (max : Nat) (state : Mempool × List MempoolTx) (txClass : TxClass) :
    Mempool × List MempoolTx :=
  let (mp, out) := state
  if max ≤ out.length then (mp, out) else
  let rrVec := mp.rrVecByClass txClass
  let pos := if rrVec.length ≤ mp.rrPosByClass txClass then 0 else mp.rrPosByClass txClass
  match rrVec[pos]? with
  | none => (mp, out)
  | some idx =>
    let mp := { mp with
      rrPosByClass := Function.update mp.rrPosByClass txClass ((pos + 1) % rrVec.length) }
    if mp.readyVec.length ≤ idx then (mp, out) else
    let (mp, out) := popBurst max idx burstPerSender mp out
    (mp.retireQueue txClass idx, out)

def drainRound (max : Nat) (state : Mempool × List MempoolTx) : Mempool × List MempoolTx :=
  TxClass.all.foldl (drainClass max) state

/-- Rounds until the batch is full or a round pops nothing. Each round before the last
pops at least one transaction, so the number of stored ones bounds them. -/
def drainLoop (max : Nat) : Nat → Mempool × List MempoolTx → Mempool × List MempoolTx
  | 0, state => state
  | rounds + 1, state =>
    if max ≤ state.2.length then state else
    let next := drainRound max state
    if next.2.length = state.2.length then next else drainLoop max rounds next

def Mempool.sortQueues : Mempool :=
  { mp with
    readyVec := mp.readyVec.map fun rq =>
      { rq with queue := rq.queue.insertionSort fun first second => first.nonce ≤ second.nonce } }

def Mempool.drainFairBatch (max : Nat) : Mempool × List MempoolTx :=
  let mp := mp.purgeExpiredInternalIfNeeded env
  if max = 0 then (mp, []) else
  drainLoop max (mp.stored.length + 1) (mp.sortQueues, [])

/-- A sender with a queue gets the transaction in front, with no round-robin entry even
if that queue was empty. -/
def Mempool.putBack : Mempool :=
  match mp.readyIndex[tx.senderId]?.join with
  | some idx =>
    if idx < mp.readyVec.length then
      { mp.setQueue idx (tx :: mp.queueAt idx) with
        counts := mp.counts.modify tx.senderId (· + 1)
        total := mp.total + 1 }
    else mp
  | none =>
    let opened : Mempool := { mp with
      readyVec := mp.readyVec ++ [{ senderId := tx.senderId, queue := [tx] }]
      readyIndex := mp.readyIndex.set tx.senderId (some mp.readyVec.length)
      counts := mp.counts.set tx.senderId 1
      total := mp.total + 1 }
    opened.pushRoundRobin tx.txClass mp.readyVec.length

/-- One turn of the loop of `restore_drained_txs`. -/
def Mempool.restoreDrainedTx : Mempool :=
  let mp := (mp.ensureIndexCapacity tx.senderId).putBack tx
  { mp with admission := mp.admission.recordRestoration tx.senderId tx.txClass }

def Mempool.restoreDrainedTxs (txs : List MempoolTx) : Mempool :=
  txs.foldl Mempool.restoreDrainedTx mp

inductive Operation where
  | addPrevalidated (env : Env) (pv : PrevalidatedTx) (txHash : Option TxHash) (fromRpc : Bool)
  | addPrevalidatedBatch (env : Env) (pvs : List PrevalidatedTx) (fromRpc : Bool)
  | drainFairBatch (env : Env) (max : Nat)
  | restoreDrainedTxs (txs : List MempoolTx)
  | purgeExpired (env : Env)
  | purgeExpiredIfNeeded (env : Env)
  | removeByHandles (handles : List TxHandle)
  | onBlockCommitted (env : Env) (committedHandles : List TxHandle)
      (nonceUpdates : List (SenderId × UInt64))

/-- The output is the batch of a drain, and nothing for the other operations. -/
def operate : Operation → Mempool × List MempoolTx
  | .addPrevalidated env pv txHash fromRpc =>
    ((mp.addPrevalidatedWithSource env pv txHash fromRpc).1, [])
  | .addPrevalidatedBatch env pvs fromRpc => ((mp.addPrevalidatedBatch env pvs fromRpc).1, [])
  | .drainFairBatch env max => mp.drainFairBatch env max
  | .restoreDrainedTxs txs => (mp.restoreDrainedTxs txs, [])
  | .purgeExpired env => (mp.purgeExpiredInternal env, [])
  | .purgeExpiredIfNeeded env => (mp.purgeExpiredInternalIfNeeded env, [])
  | .removeByHandles handles => (mp.removeByHandles handles, [])
  | .onBlockCommitted env committedHandles nonceUpdates =>
    (mp.onBlockCommitted env committedHandles nonceUpdates, [])

def Mempool.fresh (ttl : Nat) (now : Instant) (admission : AdmissionControl) : Mempool :=
  { ttl, admission, lastPurge := now }

end Savitri.MempoolCore
