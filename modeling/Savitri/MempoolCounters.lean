import Savitri.MempoolPipeline
import Savitri.MempoolQueues

/-!
The counters of the admission control against the content of the mempool. Each move
that puts a transaction into a queue or takes one out records it once, with the sender
and the class of the transaction. The one record without a move is that of a stale
transaction on the way back from flight.
-/
namespace Savitri.MempoolCore
open BlockExecution ReplayPrevention MempoolTypes MempoolAdmission Transition

structure Agrees (admission : AdmissionControl) (txs : List MempoolTx) : Prop where
  globalCount : admission.globalCount = txs.length
  senderCounts : ∀ sender, admission.senderCounts sender = txs.countP (·.senderId = sender)
  classCounts : ∀ txClass, admission.classCounts txClass = txs.countP (·.txClass = txClass)

namespace Agrees
variable {admission next : AdmissionControl} {txs : List MempoolTx}
variable (agrees : Agrees admission txs)
include agrees

theorem perm {others : List MempoolTx} (same : others.Perm txs) : Agrees admission others := by
  constructor
  · rw [agrees.globalCount, same.length_eq]
  · intro sender
    rw [agrees.senderCounts, same.countP_eq]
  · intro txClass
    rw [agrees.classCounts, same.countP_eq]

theorem congr (globalCount : next.globalCount = admission.globalCount)
    (senderCounts : next.senderCounts = admission.senderCounts)
    (classCounts : next.classCounts = admission.classCounts) : Agrees next txs := by
  constructor
  · rw [globalCount, agrees.globalCount]
  · rw [senderCounts]
    exact agrees.senderCounts
  · rw [classCounts]
    exact agrees.classCounts

theorem cons (tx : MempoolTx) (globalCount : next.globalCount = admission.globalCount + 1)
    (senderCounts : next.senderCounts =
      Function.update admission.senderCounts tx.senderId (admission.senderCounts tx.senderId + 1))
    (classCounts : next.classCounts =
      Function.update admission.classCounts tx.txClass (admission.classCounts tx.txClass + 1)) :
    Agrees next (tx :: txs) := by
  constructor
  · rw [globalCount, agrees.globalCount, List.length_cons]
  · intro sender
    rw [senderCounts, Function.update_apply, List.countP_cons, ← agrees.senderCounts]
    grind
  · intro txClass
    rw [classCounts, Function.update_apply, List.countP_cons, ← agrees.classCounts]
    grind

omit agrees in
theorem recordRemoval {tx : MempoolTx} (agrees : Agrees admission (tx :: txs))
    (txHash : Option TxHash) : Agrees (admission.recordRemoval tx.senderId tx.txClass txHash) txs := by
  have forgotten : Agrees (admission.forgetSeen txHash) (tx :: txs) := by
    unfold AdmissionControl.forgetSeen
    split
    · exact agrees
    · split
      · exact agrees
      · exact agrees.congr rfl rfl rfl
  constructor
  · have count := forgotten.globalCount
    simp only [AdmissionControl.recordRemoval, List.length_cons] at count ⊢
    omega
  · intro sender
    have count := forgotten.senderCounts sender
    simp only [AdmissionControl.recordRemoval, Function.update_apply, List.countP_cons] at count ⊢
    grind
  · intro txClass
    have count := forgotten.classCounts txClass
    simp only [AdmissionControl.recordRemoval, Function.update_apply, List.countP_cons] at count ⊢
    grind

theorem checkAdmission (env : Env) (pv : PrevalidatedTx) (txHash : Option TxHash) (fromRpc : Bool) :
    Agrees (admission.checkAdmission env pv txHash fromRpc).1 txs := by
  have counted : Agrees (admission.countCall env.now) txs := by
    unfold AdmissionControl.countCall
    simp only
    split
    · exact agrees.congr rfl rfl rfl
    · exact agrees.congr rfl rfl rfl
  rcases checkAdmission_cases admission env pv txHash fromRpc with
    ⟨refused, _⟩ | ⟨accountNonce, refusal, parked⟩ | ⟨rated, _⟩
  · rw [refused]
    exact counted
  · rw [parked, parkOrReject_spec.1]
    exact counted.congr rfl rfl rfl
  · obtain ⟨_, limited⟩ := rateCheck_spec
    rw [rated, limited]
    exact counted.congr rfl rfl rfl

end Agrees

structure Counted (mp : Mempool) : Prop where
  shelved : Shelved mp
  agrees : Agrees mp.admission mp.stored

theorem agrees_ledger : Ledger Agrees where
  perm agrees same := agrees.perm same
  removes agrees := agrees.recordRemoval _

theorem counted_kept : Kept Counted where
  shrinks move counted :=
    ⟨counted.shelved.shrinks move, agrees_ledger.shrinks move counted.shelved counted.agrees⟩
  adds mp env pv txHash fromRpc counted := by
    have checked := counted.agrees.checkAdmission env pv txHash fromRpc
    constructor
    · exact counted.shelved.adds env pv txHash fromRpc
    · rcases counted.shelved.adds_stored env pv txHash fromRpc with
        ⟨_, admission, stored⟩ | ⟨admission, stored⟩
      · rw [admission]
        apply Agrees.perm _ stored
        exact checked.cons (.ofPrevalidated pv env.now txHash fromRpc) rfl rfl rfl
      · rw [admission, stored]
        exact checked
  restores mp tx counted := by
    have stored := (restoreDrainedTx_stored counted.shelved.indexed counted.shelved.owned tx).2
    constructor
    · exact counted.shelved.restores tx
    · rw [admission_restoreDrainedTx]
      apply Agrees.perm _ stored
      exact counted.agrees.cons tx rfl rfl rfl
  promotes _ _ _ counted :=
    ⟨counted.shelved.congr rfl rfl rfl rfl, counted.agrees.congr rfl rfl rfl⟩

theorem counted_fresh {ttl : Nat} {now : Instant} {config : AdmissionConfig} :
    Counted (Mempool.fresh ttl now { config }) := by
  constructor
  · exact shelved_fresh
  · constructor <;> simp [Mempool.fresh, Mempool.stored]

end Savitri.MempoolCore

namespace Savitri.MempoolPipeline
open MempoolTypes MempoolAdmission MempoolCore Transition
open BlockExecution (Address)

section
variable {invariant : Mempool → Prop} (kept : Kept invariant)
include kept
variable {p : Pipeline}

theorem kept_restoreEntries (chosen : BlockHash → InFlightEntry → Bool)
    (before : invariant p.mempool) : invariant (p.restoreEntries chosen).mempool :=
  List.foldlRecOn _ _ (motive := invariant) before fun mempool holds entry _ =>
    kept.restoreDrainedTxs mempool entry.2.txs holds

theorem kept_drain (prims : Primitives) (env : PipelineEnv) (maxTxs : Nat)
    (before : invariant p.mempool) :
    invariant (p.drainForBlockProduction prims env maxTxs).1.mempool := by
  have drained := kept.moves (moves_drainFairBatch env.mempoolEnv maxTxs) before
  have routed := kept.restoreDrainedTxs (p.mempool.drainFairBatch env.mempoolEnv maxTxs).1
  unfold Pipeline.drainForBlockProduction
  simp only
  split
  · exact drained
  · unfold Pipeline.lookAhead
    split
    · exact kept.moves (moves_purgeIfNeeded _ env.mempoolEnv) (routed _ drained)
    · exact routed _ drained

end

def NothingStale (p : Pipeline) : Action → Prop
  | .restoreInFlightTxs env => ∀ tx ∈ p.inFlightTxs, isStale env.storage tx = false
  | _ => True

instance decidableNothingStale (p : Pipeline) :
    ∀ action, Decidable (NothingStale p action)
  | .restoreInFlightTxs env =>
    inferInstanceAs (Decidable (∀ tx ∈ p.inFlightTxs, isStale env.storage tx = false))
  | .processRawTransactions .. | .processSingleRawTransaction .. | .drainForBlockProduction ..
  | .recordInFlightForBlock .. | .clearInFlightTxs | .clearInFlightForBlock _
  | .restoreInFlightForBlock _ | .restoreOrphanedAtHeight .. | .restoreInFlightOlderThan ..
  | .onBlockCommitted .. | .onBlockCommittedWithNonces .. | .removeByHandles _ | .peekPending _
  | .purgeExpired _ | .setShardFilter _ => isTrue trivial

theorem kept_act {invariant : Mempool → Prop} (kept : Kept invariant) {prims : Primitives}
    {p : Pipeline} {action : Action} (before : invariant p.mempool)
    (current : NothingStale p action) : invariant (act prims p action).1.mempool := by
  cases action with
  | processRawTransactions env raws =>
    simp only [act, Pipeline.processRawTransactions]
    split
    · exact before
    · exact kept.addPrevalidatedBatch _ _ _ _ before
  | processSingleRawTransaction env raw =>
    simp only [act, Pipeline.processSingleRawTransaction]
    split
    · exact before
    · exact kept.adds _ _ _ _ _ before
  | drainForBlockProduction env maxTxs => exact kept_drain kept prims env maxTxs before
  | recordInFlightForBlock env blockHash height txs =>
    simp only [act, Pipeline.recordInFlightForBlock]
    split <;> exact before
  | clearInFlightTxs | clearInFlightForBlock | setShardFilter => exact before
  | restoreInFlightTxs env =>
    have none : p.inFlightTxs.filter (isStale env.storage) = [] :=
      List.filter_eq_nil_iff.mpr fun tx member => by simp [current tx member]
    simp only [act, Pipeline.restoreInFlightTxs, none, List.foldl_nil]
    exact kept.restoreDrainedTxs _ _ before
  | restoreInFlightForBlock blockHash =>
    simp only [act, Pipeline.restoreInFlightForBlock]
    split
    · exact before
    · exact kept.restoreDrainedTxs _ _ before
  | restoreOrphanedAtHeight | restoreInFlightOlderThan => exact kept_restoreEntries kept _ before
  | onBlockCommitted env committedHandles => exact kept.onBlockCommitted _ _ _ _ before
  | onBlockCommittedWithNonces env committedHandles nonceUpdates =>
    exact kept.moves (moves_removeByHandles _) (kept.onBlockCommitted _ _ _ _ before)
  | removeByHandles handles => exact kept.moves (moves_removeByHandles _) before
  | peekPending env => exact kept.moves (moves_purgeIfNeeded _ _) before
  | purgeExpired env => exact kept.moves (moves_purgeExpiredInternal _) before

section
variable (prims : Primitives) (config : AdmissionConfig) (start : Instant)
  (dispatcher prefetching : Bool)

/-- In a run that restores nothing stale, the three counters are the numbers of stored
transactions, of those of a sender and of those of a class. -/
theorem admission_counts_stored (actions : List Action)
    (current : Along (act prims) NothingStale
      (Pipeline.fresh config start dispatcher prefetching) actions) :
    let p := run (act prims) (Pipeline.fresh config start dispatcher prefetching) actions
    p.mempool.admission.globalCount = p.mempool.stored.length ∧
      (∀ sender, p.mempool.admission.senderCounts sender =
        p.mempool.stored.countP (·.senderId = sender)) ∧
      ∀ txClass, p.mempool.admission.classCounts txClass =
        p.mempool.stored.countP (·.txClass = txClass) := by
  intro p
  have counted : Counted p.mempool :=
    run_invariant_along (act prims) NothingStale (fun p => Counted p.mempool)
      (fun _ _ before current => kept_act counted_kept before current)
      _ actions counted_fresh current
  exact ⟨counted.agrees.globalCount, counted.agrees.senderCounts, counted.agrees.classCounts⟩

end

def drainAndRestore (nonces : List (Address × UInt8)) : List Action :=
  [.processSingleRawTransaction (sampleEnv []) (sampleWire 49 0),
    .processSingleRawTransaction (sampleEnv []) (sampleWire 50 0),
    .drainForBlockProduction (sampleEnv []) 1, .restoreInFlightTxs (sampleEnv nonces)]

theorem restored_counts :
    let before := Pipeline.fresh sampleConfig 0 false false
    let p := run (act samplePrims) before (drainAndRestore [])
    Along (act samplePrims) NothingStale before (drainAndRestore []) ∧
      p.mempool.admission.globalCount = p.mempool.stored.length := by
  have current : Along (act samplePrims) NothingStale (Pipeline.fresh sampleConfig 0 false false)
      (drainAndRestore []) := by
    decide +kernel
  have counts := admission_counts_stored samplePrims sampleConfig 0 false false _ current
  exact ⟨current, counts.1⟩

/-- The account of the first sender has moved on, so its transaction is dropped on the
way back and its removal is recorded a second time: the other one is stored and not
counted. -/
theorem staleRestore_undercounts :
    let p := run (act samplePrims) (Pipeline.fresh sampleConfig 0 false false)
      (drainAndRestore [(List.replicate 32 17, 1)])
    p.mempool.stored.length = 1 ∧ p.mempool.admission.globalCount = 0 ∧
      p.mempool.stored.countP (·.txClass = .financial) = 1 ∧
      p.mempool.admission.classCounts .financial = 0 := by
  decide +kernel

end Savitri.MempoolPipeline
