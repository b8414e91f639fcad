import Savitri.MempoolTypes

/-!
The pool of mempool/queued_pool.rs for transactions whose nonce is ahead of the
account: one queue for each sender, ordered by nonce. Statistics are left out.
-/
namespace Savitri.QueuedTxs
open Std (ExtTreeMap)
open BlockExecution ReplayPrevention MempoolTypes

structure QueuedPoolConfig where
  maxPerAccount : Nat := 3000
  maxTotal : Nat := 30000
  maxNonceGap : UInt64 := queuedPoolMaxNonceGap
  ttl : Nat := seconds 300
  cleanupInterval : Nat := seconds 30

structure QueuedTx where
  pv : PrevalidatedTx
  txHash : Option TxHash
  queuedAt : Instant
  accountNonceAtQueue : UInt64

abbrev AccountQueue := ExtTreeMap UInt64 QueuedTx

inductive QueuedPoolError where
  | nonceGapTooLarge (nonce accountNonce maxGap : UInt64)
  | poolFull (total max : Nat)
  | accountQueueFull (senderId : SenderId) (count max : Nat)
  | duplicateNonce (nonce : UInt64) (senderId : SenderId)

def QueuedPoolError.text : QueuedPoolError → String
  | .nonceGapTooLarge nonce accountNonce maxGap =>
    "Nonce gap too large: tx nonce " ++ toString nonce.toNat ++ ", account nonce " ++
      toString accountNonce.toNat ++ ", max gap " ++ toString maxGap.toNat
  | .poolFull total max =>
    "Queued pool full: " ++ toString total ++ "/" ++ toString max ++ " transactions"
  | .accountQueueFull senderId count max =>
    "Account queue full for sender " ++ toString senderId ++ ": " ++ toString count ++ "/" ++
      toString max
  | .duplicateNonce nonce senderId =>
    "Duplicate nonce " ++ toString nonce.toNat ++ " for sender " ++ toString senderId ++
      " in queued pool"

structure QueuedPool where
  config : QueuedPoolConfig := {}
  accounts : ExtTreeMap SenderId AccountQueue := ∅
  total : Nat := 0
  lastCleanup : Instant := 0

variable (pool : QueuedPool)

def QueuedPool.queueOf (sender : SenderId) : AccountQueue := pool.accounts[sender]?.getD ∅

def QueuedPool.tryQueue (now : Instant) (pv : PrevalidatedTx) (txHash : Option TxHash)
    (accountNonce : UInt64) : QueuedPool × Except QueuedPoolError Unit :=
  let gap := if pv.nonce < accountNonce then 0 else pv.nonce - accountNonce
  if pool.config.maxNonceGap < gap then
    (pool, .error (.nonceGapTooLarge pv.nonce accountNonce pool.config.maxNonceGap))
  else if pool.config.maxTotal ≤ pool.total then
    (pool, .error (.poolFull pool.total pool.config.maxTotal))
  else
  let queue := pool.queueOf pv.senderId
  -- the entry is created before the queue is found full
  let pool := { pool with accounts := pool.accounts.insert pv.senderId queue }
  let queued := { pv, txHash, queuedAt := now, accountNonceAtQueue := accountNonce }
  let accounts := pool.accounts.insert pv.senderId (queue.insert pv.nonce queued)
  if pool.config.maxPerAccount ≤ queue.size then
    (pool, .error (.accountQueueFull pv.senderId queue.size pool.config.maxPerAccount))
  else
  match queue[pv.nonce]? with
  | some existing =>
    if existing.pv.maxFee < pv.maxFee then ({ pool with accounts }, .ok ())
    else (pool, .error (.duplicateNonce pv.nonce pv.senderId))
  | none => ({ pool with accounts, total := pool.total + 1 }, .ok ())

/-- The scan of `promote` in nonce order: the nonces that leave the queue, and the
transactions among them that go on to the main pool. -/
def promoteScan (newAccountNonce : UInt64) :
    List (UInt64 × QueuedTx) → UInt64 → List UInt64 × List (PrevalidatedTx × Option TxHash)
  | [], _ => ([], [])
  | (nonce, queued) :: rest, nextExpected =>
    if nonce < newAccountNonce then
      let (toRemove, promoted) := promoteScan newAccountNonce rest nextExpected
      (nonce :: toRemove, promoted)
    else if nonce = nextExpected then
      let (toRemove, promoted) := promoteScan newAccountNonce rest (nextExpected + 1)
      (nonce :: toRemove, (queued.pv, queued.txHash) :: promoted)
    else ([], [])

/-- The final sort by nonce finds the promoted list sorted and is left out. -/
def QueuedPool.promote (sender : SenderId) (newAccountNonce : UInt64) :
    QueuedPool × List (PrevalidatedTx × Option TxHash) :=
  match pool.accounts[sender]? with
  | none => (pool, [])
  | some queue =>
    let (toRemove, promoted) := promoteScan newAccountNonce queue.toList newAccountNonce
    let queue := toRemove.foldl (fun queue nonce => queue.erase nonce) queue
    ({ pool with
       accounts :=
         if queue.isEmpty then pool.accounts.erase sender
         else pool.accounts.insert sender queue
       total := pool.total - toRemove.length }, promoted)

def QueuedPool.promoteBatch (nonceUpdates : List (SenderId × UInt64)) :
    QueuedPool × List (PrevalidatedTx × Option TxHash) :=
  nonceUpdates.foldl (fun (pool, promoted) update =>
    let next := pool.promote update.1 update.2
    (next.1, promoted ++ next.2)) (pool, [])

def QueuedPool.cleanupExpired (now : Instant) : QueuedPool :=
  if now - pool.lastCleanup < pool.config.cleanupInterval then pool else
  let kept := pool.accounts.map fun _ queue =>
    queue.filter fun _ queued => decide (now - queued.queuedAt < pool.config.ttl)
  let sizeOf := fun (accounts : ExtTreeMap SenderId AccountQueue) =>
    (accounts.toList.map fun entry => entry.2.size).sum
  { pool with
    lastCleanup := now
    accounts := kept.filter fun _ queue => !queue.isEmpty
    total := pool.total - (sizeOf pool.accounts - sizeOf kept) }

end Savitri.QueuedTxs
