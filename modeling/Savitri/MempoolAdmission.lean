import Savitri.QueuedTxs

/-!
Admission control of mempool/admission.rs: the checks a transaction passes on its way
into the ready queues, and the counters and duplicate tables they read. Counters read
a missing entry as zero, so they are plain functions here.
-/
namespace Savitri.MempoolAdmission
open Std (ExtTreeMap)
open BlockExecution AccountReads ReplayPrevention MempoolTypes QueuedTxs

structure AdmissionConfig where
  maxPerSender : Nat := 2000
  maxPerDevice : Nat := 512
  globalCap : Nat := 1000000
  feeFloor : UInt64 := 1000
  feeFloorPerClass : TxClass → Option UInt64 := fun _ => none
  quotaPerClass : TxClass → Option Nat := fun
    | .financial => some 500000
    | .ioTData => some 200000
    | .federatedUpdate => some 50000
    | .system => some 20000
  rateLimitWindow : Nat := seconds 60
  rateLimitPerSender : Nat := 5000

structure SeenTransaction where
  senderId : SenderId
  nonce : UInt64
  insertedAt : Instant

structure AdmissionControl where
  config : AdmissionConfig := {}
  senderCounts : SenderId → Nat := fun _ => 0
  deviceCounts : SenderId → Nat := fun _ => 0
  classCounts : TxClass → Nat := fun _ => 0
  globalCount : Nat := 0
  /-- The instants a sender's rate limiter remembers. -/
  rateLimiters : SenderId → List Instant := fun _ => []
  contributions : SenderId → Nat := fun _ => 0
  maxContributions : Nat := 100
  seenTransactions : ExtTreeMap TxHash SeenTransaction := ∅
  maxSeenTransactions : Nat := 100000
  admittedNonces : SenderId → UInt64 → Option Instant := fun _ _ => none
  admittedTtl : Nat := seconds 300
  admitCallsSinceEvict : Nat := 0
  queuedPool : QueuedPool := {}

inductive AdmissionResult where
  | admitted
  | queued
  | rejected (reason : String)
  deriving DecidableEq

variable (adm : AdmissionControl)

def AdmissionControl.evictAgedEntries (now : Instant) : AdmissionControl :=
  { adm with
    seenTransactions := adm.seenTransactions.filter fun _ seen =>
      decide (now - seen.insertedAt ≤ adm.admittedTtl)
    admittedNonces := fun sender nonce =>
      (adm.admittedNonces sender nonce).filter fun insertedAt =>
        decide (now - insertedAt ≤ adm.admittedTtl) }

/-- Every 1024th call of the check sweeps the duplicate tables first. -/
def AdmissionControl.countCall (now : Instant) : AdmissionControl :=
  let calls := adm.admitCallsSinceEvict + 1
  if 1024 ≤ calls then { adm with admitCallsSinceEvict := 0 }.evictAgedEntries now
  else { adm with admitCallsSinceEvict := calls }

variable {pv : PrevalidatedTx} {txHash : Option TxHash} {accountNonce : UInt64}

section Checks
/-- Step 0, the replay cache; a nonce too far ahead is left to the queued pool. -/
def replayRejection (env : Env) (pv : PrevalidatedTx) (txHash : Option TxHash) : Option String :=
  match env.replayPrevention, txHash with
  | some (replay, storage), some hash =>
    if isReplayTransaction replay hash pv.senderAddress pv.nonce then
      some "replay attack detected"
    else match validateTransactionNonce storage pv.senderAddress pv.nonce with
      | .ok () | .error (.nonceTooFar ..) => none
      | .error error => some ("replay prevention: " ++ error.text)
  | _, _ => none

/-- What step 1, the account gate, decides. A transaction to be queued comes with the
account nonce it is measured from and the head of the text of a refusal. -/
inductive Gate where
  | pass
  | queue (accountNonce : UInt64) (refusal : String)
  | reject (reason : String)

def accountGate (storage : Storage) (pv : PrevalidatedTx) (fromRpc : Bool) : Gate :=
  match storage pv.senderAddress with
  | .error error => .reject ("storage error: " ++ error)
  | .ok none =>
    -- an unknown account counts as empty for the local RPC, and waits otherwise
    if !fromRpc then .queue 0 "new account queued pool: "
    else if admissionMaxMainPoolNonceGapRpc < pv.nonce then
      .queue 0 "queued pool (rpc, no acct): "
    else .pass
  | .ok (some bytes) =>
    match decodeEither bytes with
    | .error _ => .reject "account decode failed"
    | .ok account =>
      let gapCeiling :=
        if fromRpc then admissionMaxMainPoolNonceGapRpc else admissionMaxMainPoolNonceGap
      if pv.nonce < account.nonce then .reject "nonce too low"
      else if account.nonce + gapCeiling < pv.nonce then
        .queue account.nonce "queued pool: "
      else if account.balance.toNat < pv.maxFee.toNat + pv.amount.toNat then
        .reject "insufficient balance"
      else .pass

def extractDeviceId (pv : PrevalidatedTx) : Option SenderId :=
  if pv.txClass = .ioTData then some pv.senderId else none

variable (adm : AdmissionControl)

/-- Steps 2 to 7: duplicates, fee floor, caps and quotas. -/
def AdmissionControl.limitRejection (pv : PrevalidatedTx) (txHash : Option TxHash) : Option String :=
  let feeFloor := (adm.config.feeFloorPerClass pv.txClass).getD adm.config.feeFloor
  match txHash.bind fun hash => adm.seenTransactions[hash]? with
  | some seen =>
    if seen.senderId = pv.senderId ∧ seen.nonce = pv.nonce then some "duplicate transaction"
    else some "hash collision"
  | none =>
    if pv.txClass ≠ .system ∧ pv.maxFee < feeFloor then some "fee too low"
    else if adm.config.maxPerSender ≤ adm.senderCounts pv.senderId then
      some "per-sender cap exceeded"
    else if adm.config.globalCap ≤ adm.globalCount then some "global cap exceeded"
    else if (adm.config.quotaPerClass pv.txClass).any (· ≤ adm.classCounts pv.txClass) then
      some "per-class quota exceeded"
    else if (extractDeviceId pv).any fun device =>
        decide (adm.config.maxPerDevice ≤ adm.deviceCounts device) then
      some "per-device cap exceeded"
    else none

def isRated (txClass : TxClass) : Bool := txClass = .ioTData ∨ txClass = .federatedUpdate

/-- Steps 8 and 9. A call within the rate limit is remembered, also when the round
contribution then refuses it. -/
def AdmissionControl.rateCheck (now : Instant) (pv : PrevalidatedTx) :
    AdmissionControl × AdmissionResult :=
  if !isRated pv.txClass then (adm, .admitted) else
  let recent := (adm.rateLimiters pv.senderId).filter fun instant =>
    decide (now - instant < adm.config.rateLimitWindow)
  let remember := fun instants => { adm with
    rateLimiters := Function.update adm.rateLimiters pv.senderId instants }
  if adm.config.rateLimitPerSender ≤ recent.length then
    (remember recent, .rejected "rate limit exceeded")
  else if adm.maxContributions ≤ adm.contributions pv.senderId then
    (remember (recent ++ [now]), .rejected "round contribution limit exceeded")
  else (remember (recent ++ [now]), .admitted)

def AdmissionControl.parkOrReject (now : Instant) (pv : PrevalidatedTx) (txHash : Option TxHash)
    (accountNonce : UInt64) (refusal : String) : AdmissionControl × AdmissionResult :=
  let (pool, outcome) := adm.queuedPool.tryQueue now pv txHash accountNonce
  match outcome with
  | .ok () => ({ adm with queuedPool := pool }, .queued)
  | .error error => ({ adm with queuedPool := pool }, .rejected (refusal ++ error.text))

/-- `check_admission_ext_with_source`. -/
def AdmissionControl.checkAdmission (env : Env) (pv : PrevalidatedTx) (txHash : Option TxHash)
    (fromRpc : Bool) : AdmissionControl × AdmissionResult :=
  let adm := adm.countCall env.now
  if (adm.admittedNonces pv.senderId pv.nonce).isSome then
    (adm, .rejected ("duplicate (sender_id=" ++ toString pv.senderId ++ ", nonce=" ++
      toString pv.nonce.toNat ++ ") already admitted"))
  else match replayRejection env pv txHash with
  | some reason => (adm, .rejected reason)
  | none =>
  let gate := match env.storage with
    | some storage => accountGate storage pv fromRpc
    | none => .pass
  match gate with
  | .reject reason => (adm, .rejected reason)
  | .queue accountNonce refusal => adm.parkOrReject env.now pv txHash accountNonce refusal
  | .pass =>
    match adm.limitRejection pv txHash with
    | some reason => (adm, .rejected reason)
    | none => adm.rateCheck env.now pv

variable {adm} {now : Instant}

theorem parkOrReject_spec {refusal : String} :
    (adm.parkOrReject now pv txHash accountNonce refusal).1 =
        { adm with queuedPool := (adm.queuedPool.tryQueue now pv txHash accountNonce).1 } ∧
      (adm.parkOrReject now pv txHash accountNonce refusal).2 ≠ .admitted := by
  unfold AdmissionControl.parkOrReject
  simp only
  split
  · exact ⟨rfl, by simp⟩
  · exact ⟨rfl, by simp⟩

theorem rateCheck_spec : ∃ rateLimiters, (adm.rateCheck now pv).1 = { adm with rateLimiters } := by
  unfold AdmissionControl.rateCheck
  simp only
  split
  · exact ⟨adm.rateLimiters, rfl⟩
  · split
    · exact ⟨_, rfl⟩
    · split
      · exact ⟨_, rfl⟩
      · exact ⟨_, rfl⟩

theorem checkAdmission_cases (adm : AdmissionControl) (env : Env) (pv : PrevalidatedTx)
    (txHash : Option TxHash) (fromRpc : Bool) :
    let counted := adm.countCall env.now
    let checked := adm.checkAdmission env pv txHash fromRpc
    (checked.1 = counted ∧ checked.2 ≠ .admitted) ∨
    (∃ accountNonce refusal, checked = counted.parkOrReject env.now pv txHash accountNonce refusal) ∨
    (checked = counted.rateCheck env.now pv ∧
      counted.admittedNonces pv.senderId pv.nonce = none) := by
  intro counted checked
  simp only [checked, AdmissionControl.checkAdmission]
  split
  · exact Or.inl ⟨rfl, by simp⟩
  · next absent =>
      have none := Option.not_isSome_iff_eq_none.mp absent
      split
      · exact Or.inl ⟨rfl, by simp⟩
      · split
        · exact Or.inl ⟨rfl, by simp⟩
        · exact Or.inr (Or.inl ⟨_, _, rfl⟩)
        · split
          · exact Or.inl ⟨rfl, by simp⟩
          · exact Or.inr (Or.inr ⟨rfl, none⟩)

end Checks

section FutureNonces
variable {adm : AdmissionControl} {now : Instant}

theorem queuedPool_countCall : (adm.countCall now).queuedPool = adm.queuedPool := by
  unfold AdmissionControl.countCall
  simp only
  split <;> rfl

theorem tryQueue_ok_iff {pool : QueuedPool} (ahead : accountNonce ≤ pv.nonce)
    (room : pool.total < pool.config.maxTotal)
    (ownRoom : (pool.queueOf pv.senderId).size < pool.config.maxPerAccount)
    (new : (pool.queueOf pv.senderId)[pv.nonce]? = none) :
    (pool.tryQueue now pv txHash accountNonce).2 = .ok () ↔
      pv.nonce - accountNonce ≤ pool.config.maxNonceGap := by
  unfold QueuedPool.tryQueue
  simp only [if_neg (UInt64.not_lt.mpr ahead), if_neg (Nat.not_le.mpr room),
    if_neg (Nat.not_le.mpr ownRoom), new]
  split
  next wide => simp [UInt64.not_le.mpr wide]
  next narrow => simp [UInt64.not_lt.mp narrow]

theorem parkOrReject_queued_iff {refusal : String} :
    (adm.parkOrReject now pv txHash accountNonce refusal).2 = .queued ↔
      (adm.queuedPool.tryQueue now pv txHash accountNonce).2 = .ok () := by
  unfold AdmissionControl.parkOrReject
  simp only
  split
  next parked => simp [parked]
  next refused => simp [refused]

theorem accountGate_beyond {storage : Storage} {bytes : List UInt8} {account : Account}
    (found : storage pv.senderAddress = .ok (some bytes)) (decoded : decodeEither bytes = .ok account)
    (beyond : account.nonce.toNat + admissionMaxMainPoolNonceGap.toNat < pv.nonce.toNat) :
    accountGate storage pv false = .queue account.nonce "queued pool: " := by
  have ahead : ¬ pv.nonce < account.nonce := by
    rw [UInt64.lt_iff_toNat_lt]
    omega
  have exceeds : account.nonce + admissionMaxMainPoolNonceGap < pv.nonce := by
    rw [UInt64.lt_iff_toNat_lt, UInt64.toNat_add, Nat.mod_eq_of_lt]
    · exact beyond
    · exact beyond.trans pv.nonce.toNat_lt
  simp only [accountGate, found, decoded, if_neg ahead, Bool.false_eq_true, if_false, if_pos exceeds]

/-- A gossip transaction beyond the gap of the main pool is parked if the gap of the queued
pool is the wider one; with the pool's own default, which is the same, it never is. -/
theorem gossip_parked_iff (adm : AdmissionControl) (env : Env) (pv : PrevalidatedTx)
    (txHash : Option TxHash) (storage : Storage) (bytes : List UInt8) (account : Account)
    (stored : env.storage = some storage)
    (found : storage pv.senderAddress = .ok (some bytes)) (decoded : decodeEither bytes = .ok account)
    (beyond : account.nonce.toNat + admissionMaxMainPoolNonceGap.toNat < pv.nonce.toNat)
    (room : adm.queuedPool.total < adm.queuedPool.config.maxTotal)
    (ownRoom : (adm.queuedPool.queueOf pv.senderId).size < adm.queuedPool.config.maxPerAccount)
    (new : (adm.queuedPool.queueOf pv.senderId)[pv.nonce]? = none) :
    ((adm.checkAdmission env pv txHash false).2 = .queued ↔
      (adm.countCall env.now).admittedNonces pv.senderId pv.nonce = none ∧
      replayRejection env pv txHash = none ∧
      pv.nonce - account.nonce ≤ adm.queuedPool.config.maxNonceGap) ∧
    (adm.queuedPool.config.maxNonceGap = queuedPoolMaxNonceGap →
      (adm.checkAdmission env pv txHash false).2 ≠ .queued) := by
  have ahead : account.nonce ≤ pv.nonce := by
    rw [UInt64.le_iff_toNat_le]
    omega
  have parked : (adm.checkAdmission env pv txHash false).2 = .queued ↔
      (adm.countCall env.now).admittedNonces pv.senderId pv.nonce = none ∧
      replayRejection env pv txHash = none ∧
      pv.nonce - account.nonce ≤ adm.queuedPool.config.maxNonceGap := by
    simp only [AdmissionControl.checkAdmission, stored, accountGate_beyond found decoded beyond]
    split
    next admitted =>
      obtain ⟨instant, known⟩ := Option.isSome_iff_exists.mp admitted
      simp [known]
    next fresh =>
      rw [Option.not_isSome_iff_eq_none.mp fresh]
      split
      next reason replayed => simp [replayed]
      next passed =>
        rw [parkOrReject_queued_iff, queuedPool_countCall, tryQueue_ok_iff ahead room ownRoom new]
        simp [passed]
  refine ⟨parked, ?_⟩
  rw [Ne, parked]
  rintro same ⟨_, _, narrow⟩
  rw [same, UInt64.le_iff_toNat_le, UInt64.toNat_sub_of_le _ _ ahead] at narrow
  have equal : queuedPoolMaxNonceGap.toNat = admissionMaxMainPoolNonceGap.toNat := rfl
  omega

def futureTx (nonce : UInt64) : PrevalidatedTx :=
  { senderId := 1, senderAddress := [1], nonce, maxFee := 1000, amount := 0, txHandle := 0 }

/-- An account without transactions yet. -/
def futureEnv : Env := { now := 0, storage := some fun _ => .ok (some (List.replicate 24 0)) }

/-- A queued pool with a gap of 3500 parks the nonce 3001. -/
theorem wider_pool_parks :
    (AdmissionControl.checkAdmission { queuedPool := { config := { maxNonceGap := 3500 } } }
      futureEnv (futureTx 3001) none false).2 = .queued :=
  (gossip_parked_iff { queuedPool := { config := { maxNonceGap := 3500 } } } futureEnv
    (futureTx 3001) none (fun _ => .ok (some (List.replicate 24 0))) (List.replicate 24 0) {}
    rfl rfl (by decide +kernel) (by decide +kernel) (by decide +kernel) (by decide +kernel)
    (by decide +kernel)).1.mpr ⟨by decide +kernel, rfl, by decide⟩

/-- The nonce 3001 of an account at nonce 0 is refused by an empty queued pool. -/
theorem future_nonce_refused :
    (AdmissionControl.checkAdmission {} futureEnv (futureTx 3001) none false).2 =
        .rejected ("queued pool: " ++
          (QueuedPoolError.nonceGapTooLarge 3001 0 queuedPoolMaxNonceGap).text) ∧
      (AdmissionControl.checkAdmission {} futureEnv (futureTx 3500) none false).2 ≠ .queued := by
  decide +kernel

end FutureNonces

/-- The oldest thousand of the seen transactions make room for a new one. -/
def AdmissionControl.makeRoom : ExtTreeMap TxHash SeenTransaction :=
  if adm.seenTransactions.size < adm.maxSeenTransactions then adm.seenTransactions else
  let oldest := (adm.seenTransactions.toList.insertionSort fun first second =>
    first.2.insertedAt ≤ second.2.insertedAt).take 1000
  oldest.foldl (fun seen entry => seen.erase entry.1) adm.seenTransactions

def AdmissionControl.recordAdmission (now : Instant) (pv : PrevalidatedTx) (txHash : Option TxHash) :
    AdmissionControl :=
  { adm with
    seenTransactions := match txHash with
      | some hash => adm.makeRoom.insert hash
          { senderId := pv.senderId, nonce := pv.nonce, insertedAt := now }
      | none => adm.seenTransactions
    admittedNonces := Function.update adm.admittedNonces pv.senderId
      (Function.update (adm.admittedNonces pv.senderId) pv.nonce (some now))
    senderCounts := Function.update adm.senderCounts pv.senderId (adm.senderCounts pv.senderId + 1)
    classCounts := Function.update adm.classCounts pv.txClass (adm.classCounts pv.txClass + 1)
    globalCount := adm.globalCount + 1
    deviceCounts := match extractDeviceId pv with
      | some device => Function.update adm.deviceCounts device (adm.deviceCounts device + 1)
      | none => adm.deviceCounts
    contributions :=
      if isRated pv.txClass then
        Function.update adm.contributions pv.senderId (adm.contributions pv.senderId + 1)
      else adm.contributions }

/-- A removal with a hash also forgets the pair that was recorded under the hash. -/
def AdmissionControl.forgetSeen (txHash : Option TxHash) : AdmissionControl :=
  match txHash with
  | none => adm
  | some hash =>
    match adm.seenTransactions[hash]? with
    | none => adm
    | some seen =>
      { adm with
        seenTransactions := adm.seenTransactions.erase hash
        admittedNonces := Function.update adm.admittedNonces seen.senderId
          (Function.update (adm.admittedNonces seen.senderId) seen.nonce none) }

def AdmissionControl.recordRemoval (sender : SenderId) (txClass : TxClass) (txHash : Option TxHash) :
    AdmissionControl :=
  let adm := adm.forgetSeen txHash
  { adm with
    senderCounts := Function.update adm.senderCounts sender (adm.senderCounts sender - 1)
    classCounts := Function.update adm.classCounts txClass (adm.classCounts txClass - 1)
    globalCount := adm.globalCount - 1
    deviceCounts :=
      if txClass = .ioTData then
        Function.update adm.deviceCounts sender (adm.deviceCounts sender - 1)
      else adm.deviceCounts }

def AdmissionControl.recordRestoration (sender : SenderId) (txClass : TxClass) : AdmissionControl :=
  { adm with
    senderCounts := Function.update adm.senderCounts sender (adm.senderCounts sender + 1)
    classCounts := Function.update adm.classCounts txClass (adm.classCounts txClass + 1)
    globalCount := adm.globalCount + 1
    deviceCounts :=
      if txClass = .ioTData then
        Function.update adm.deviceCounts sender (adm.deviceCounts sender + 1)
      else adm.deviceCounts }

/-- What a block commit does to the admission control: the queued pool is swept and
promoted from, and a new round of contributions begins. -/
def AdmissionControl.promoteQueued (now : Instant) (nonceUpdates : List (SenderId × UInt64)) :
    AdmissionControl × List (PrevalidatedTx × Option TxHash) :=
  let (pool, promoted) := (adm.queuedPool.cleanupExpired now).promoteBatch nonceUpdates
  ({ adm with queuedPool := pool, contributions := fun _ => 0 }, promoted)

end Savitri.MempoolAdmission
