import Savitri.MempoolIndex

/-!
The mempool as a list of stored transactions beside the admission control. Every
transaction stands in the queue of its sender, so each operation is seen from outside
as transactions that enter or leave the list, each with its record.
-/
namespace Savitri.MempoolCore
open ReplayPrevention MempoolTypes MempoolAdmission SwapRemove

def Owned (queues : List ReadyQueue) : Prop :=
  ∀ rq ∈ queues, ∀ tx ∈ rq.queue, tx.senderId = rq.senderId

structure Shelved (mp : Mempool) : Prop where
  indexed : Indexed mp
  owned : Owned mp.readyVec

variable {mp next : Mempool} {tx : MempoolTx}

section
variable {idx : Nat} {rq : ReadyQueue}
variable {queue : List MempoolTx}
variable (owned : Owned mp.readyVec)
include owned

theorem Owned.write (found : mp.readyVec[idx]? = some rq)
    (mine : ∀ tx ∈ queue, tx.senderId = rq.senderId) : Owned (mp.setQueue idx queue).readyVec := by
  obtain ⟨front, back, split, _, modified⟩ := exists_split found
  intro other member
  rw [Mempool.setQueue, modified, List.mem_append, List.mem_cons] at member
  rcases member with inFront | rfl | inBack
  · exact owned other (by simp [split, inFront])
  · exact mine
  · exact owned other (by simp [split, inBack])

omit owned in
theorem Owned.subset {queues others : List ReadyQueue} (owned : Owned queues)
    (within : ∀ rq ∈ others, ∃ old ∈ queues, rq.senderId = old.senderId ∧ rq.queue ⊆ old.queue) :
    Owned others := by
  intro rq member tx inQueue
  obtain ⟨old, oldMember, same, subset⟩ := within rq member
  rw [owned old oldMember tx (subset inQueue), same]

theorem Owned.openQueue (sender : SenderId) (mine : ∀ tx ∈ queue, tx.senderId = sender) :
    Owned (mp.readyVec ++ [{ senderId := sender, queue }]) := by
  intro rq member
  rcases List.mem_append.mp member with old | new
  · exact owned rq old
  · rw [List.mem_singleton.mp new]
    exact mine

theorem pushed_stored (found : mp.readyVec[idx]? = some rq) (mine : tx.senderId = rq.senderId)
    (pushed : queue.Perm (tx :: rq.queue))
    (readyVec : next.readyVec = (mp.setQueue idx queue).readyVec) :
    Owned next.readyVec ∧ next.stored.Perm (tx :: mp.stored) := by
  have member := List.mem_of_getElem? found
  constructor
  · rw [readyVec]
    apply owned.write found
    intro other inQueue
    rcases List.mem_cons.mp (pushed.subset inQueue) with rfl | old
    · exact mine
    · exact owned rq member other old
  · have exchanged := perm_stored_setQueue found queue
    have same : next.stored = (mp.setQueue idx queue).stored := by
      simp only [Mempool.stored, readyVec]
    rw [same, List.perm_iff_count]
    intro other
    have before := exchanged.count_eq other
    have queued := pushed.count_eq other
    simp only [List.count_append, List.count_cons] at before queued ⊢
    omega

theorem opened_stored
    (readyVec : next.readyVec = mp.readyVec ++ [{ senderId := tx.senderId, queue := [tx] }]) :
    Owned next.readyVec ∧ next.stored.Perm (tx :: mp.stored) := by
  constructor
  · rw [readyVec]
    exact owned.openQueue tx.senderId (by simp)
  · simp only [Mempool.stored, readyVec, List.flatMap_append, List.flatMap_cons, List.flatMap_nil,
      List.append_nil]
    exact List.perm_append_singleton tx _

omit owned in
theorem readyVec_ensureIndexCapacity (mp : Mempool) (sender : SenderId) :
    (mp.ensureIndexCapacity sender).readyVec = mp.readyVec := by
  unfold Mempool.ensureIndexCapacity
  split <;> rfl

theorem getOrCreateQueue_stored (sender : SenderId) :
    Owned (mp.getOrCreateQueue sender).1.readyVec ∧
      (mp.getOrCreateQueue sender).1.stored = mp.stored := by
  unfold Mempool.getOrCreateQueue
  split
  · exact ⟨owned, rfl⟩
  · constructor
    · exact owned.openQueue sender (by simp)
    · simp [Mempool.stored]

omit owned

theorem enqueue_stored (indexed : Indexed mp) (owned : Owned mp.readyVec) :
    Owned (mp.enqueue tx).readyVec ∧ (mp.enqueue tx).stored.Perm (tx :: mp.stored) := by
  obtain ⟨roomy, inside⟩ := indexed.ensureIndexCapacity tx.senderId
  obtain ⟨_, queue, found⟩ := roomy.getOrCreateQueue inside
  have same := readyVec_ensureIndexCapacity mp tx.senderId
  have mine : Owned (mp.ensureIndexCapacity tx.senderId).readyVec := same ▸ owned
  obtain ⟨opened, stored⟩ := getOrCreateQueue_stored mine tx.senderId
  have before : (mp.ensureIndexCapacity tx.senderId).stored = mp.stored := by
    simp only [Mempool.stored, same]
  rw [← before, ← stored]
  apply pushed_stored opened found rfl (List.perm_append_singleton tx queue)
  have here := queueAt_of_getElem? found
  simp only [Mempool.enqueue, Mempool.appendTo, here]
  split <;> rfl

theorem putBack_stored (indexed : Indexed mp) (owned : Owned mp.readyVec) (tx : MempoolTx) :
    Owned (mp.putBack tx).readyVec ∧ (mp.putBack tx).stored.Perm (tx :: mp.stored) := by
  unfold Mempool.putBack
  split
  · next idx position =>
      have named := (indexed.index tx.senderId idx).mp position
      obtain ⟨rq, found, same⟩ := Option.map_eq_some_iff.mp named
      rw [if_pos (List.getElem?_eq_some_iff.mp found).1]
      apply pushed_stored owned found same.symm (List.Perm.refl (tx :: rq.queue))
      rw [← queueAt_of_getElem? found]
  · exact opened_stored owned rfl

theorem restoreDrainedTx_stored (indexed : Indexed mp) (owned : Owned mp.readyVec)
    (tx : MempoolTx) :
    Owned (mp.restoreDrainedTx tx).readyVec ∧
      (mp.restoreDrainedTx tx).stored.Perm (tx :: mp.stored) := by
  have roomy := (indexed.ensureIndexCapacity tx.senderId).1
  have same := readyVec_ensureIndexCapacity mp tx.senderId
  have placed := putBack_stored roomy (same ▸ owned) tx
  simp only [Mempool.stored, same] at placed
  exact placed

end

namespace Shelved
variable {idx : Nat}
variable (shelved : Shelved mp)
include shelved

theorem drop {rq : ReadyQueue} {before after : List MempoolTx}
    (found : mp.readyVec[idx]? = some rq) (split : rq.queue = before ++ tx :: after) :
    Shelved ((mp.forget rq.senderId tx).setQueue idx (before ++ after)) := by
  have owned : Owned (mp.forget rq.senderId tx).readyVec := shelved.owned
  constructor
  · exact shelved.indexed.drop found split
  · apply owned.write found
    intro other inQueue
    apply shelved.owned rq (List.mem_of_getElem? found)
    rw [split]
    rcases List.mem_append.mp inQueue with front | back
    · simp [front]
    · simp [back]

theorem dismantle (idle : mp.queueAt idx = []) : Shelved (mp.removeReadyQueue idx) := by
  constructor
  · exact shelved.indexed.dismantle idle
  · apply shelved.owned.subset
    intro rq member
    refine ⟨rq, ?_, rfl, List.Subset.refl _⟩
    cases found : mp.readyVec[idx]? with
    | none => simpa [Mempool.removeReadyQueue, found] using member
    | some removed =>
      have left : rq ∈ swapRemove mp.readyVec idx := by
        simpa [Mempool.removeReadyQueue, found] using member
      exact (perm_swapRemove found).subset (List.mem_cons_of_mem _ left)

theorem arrange {sort : List MempoolTx → List MempoolTx} (same : ∀ queue, (sort queue).Perm queue) :
    Shelved { mp with
      readyVec := mp.readyVec.map fun rq => { rq with queue := sort rq.queue } } := by
  constructor
  · exact shelved.indexed.arrange same
  · apply shelved.owned.subset
    intro rq member
    obtain ⟨old, oldMember, rfl⟩ := List.mem_map.mp member
    exact ⟨old, oldMember, rfl, (same old.queue).subset⟩

theorem congr (readyVec : next.readyVec = mp.readyVec)
    (readyIndex : next.readyIndex = mp.readyIndex) (counts : next.counts = mp.counts)
    (total : next.total = mp.total) : Shelved next := by
  constructor
  · exact shelved.indexed.congr readyVec readyIndex counts total
  · rw [readyVec]
    exact shelved.owned

omit shelved in
theorem shrinks (move : Shrinks mp next) (shelved : Shelved mp) : Shelved next := by
  cases move with
  | drop idx rq before tx after found split => exact shelved.drop found split
  | dismantle idx idle => exact shelved.dismantle idle
  | arrange sort same => exact shelved.arrange same
  | rotate | stamp => exact shelved.congr rfl rfl rfl rfl

theorem enqueue (tx : MempoolTx) : Shelved (mp.enqueue tx) :=
  ⟨shelved.indexed.enqueue tx, (enqueue_stored shelved.indexed shelved.owned).1⟩

theorem adds (env : Env) (pv : PrevalidatedTx) (txHash : Option TxHash) (fromRpc : Bool) :
    Shelved (mp.addPrevalidatedWithSource env pv txHash fromRpc).1 := by
  rcases addPrevalidatedWithSource_cases mp env pv txHash fromRpc with ⟨_, same⟩ | ⟨_, same⟩
  · rw [same]
    apply Shelved.enqueue
    exact shelved.congr rfl rfl rfl rfl
  · rw [same]
    exact shelved.congr rfl rfl rfl rfl

theorem restores (tx : MempoolTx) : Shelved (mp.restoreDrainedTx tx) :=
  ⟨shelved.indexed.restoreDrainedTx tx, (restoreDrainedTx_stored shelved.indexed shelved.owned tx).1⟩

end Shelved

theorem shelved_kept : Kept Shelved where
  shrinks move shelved := shelved.shrinks move
  adds _ env pv txHash fromRpc shelved := shelved.adds env pv txHash fromRpc
  restores _ tx shelved := shelved.restores tx
  promotes _ _ _ shelved := shelved.congr rfl rfl rfl rfl

theorem shelved_fresh {ttl : Nat} {now : Instant} {admission : AdmissionControl} :
    Shelved (Mempool.fresh ttl now admission) :=
  ⟨indexed_fresh, by simp [Owned, Mempool.fresh]⟩

section Records
/-- A relation between the records and the stored transactions that does not depend on
their order and follows every recorded removal. -/
structure Ledger (holds : AdmissionControl → List MempoolTx → Prop) : Prop where
  perm : ∀ {admission txs others}, holds admission txs → List.Perm others txs →
    holds admission others
  removes : ∀ {admission tx txs}, holds admission (tx :: txs) →
    holds (admission.recordRemoval tx.senderId tx.txClass tx.txHash) txs

variable {holds : AdmissionControl → List MempoolTx → Prop}

theorem Ledger.shrinks (ledger : Ledger holds) (move : Shrinks mp next) (shelved : Shelved mp)
    (before : holds mp.admission mp.stored) : holds next.admission next.stored := by
  cases move with
  | drop idx rq front tx back found split =>
    have mine : tx.senderId = rq.senderId :=
      shelved.owned rq (List.mem_of_getElem? found) tx (by simp [split])
    rw [← mine]
    exact ledger.removes (ledger.perm before (perm_stored_drop found split))
  | dismantle idx idle =>
    have admission : (mp.removeReadyQueue idx).admission = mp.admission := by
      unfold Mempool.removeReadyQueue
      split <;> rfl
    rw [admission]
    exact ledger.perm before (perm_stored_removeReadyQueue idle)
  | arrange sort same => exact ledger.perm before (perm_stored_arrange mp sort same)
  | rotate | stamp => exact before

theorem admission_enqueue : (mp.enqueue tx).admission = mp.admission := by
  simp only [Mempool.enqueue, Mempool.appendTo, Mempool.getOrCreateQueue,
    Mempool.ensureIndexCapacity, Mempool.pushRoundRobin, Mempool.setQueue]
  split <;> split <;> split <;> rfl

theorem Shelved.adds_stored (shelved : Shelved mp) (env : Env) (pv : PrevalidatedTx)
    (txHash : Option TxHash) (fromRpc : Bool) :
    let checked := mp.admission.checkAdmission env pv txHash fromRpc
    let next := (mp.addPrevalidatedWithSource env pv txHash fromRpc).1
    (checked.2 = .admitted ∧ next.admission = checked.1.recordAdmission env.now pv txHash ∧
      next.stored.Perm (.ofPrevalidated pv env.now txHash fromRpc :: mp.stored)) ∨
    (next.admission = checked.1 ∧ next.stored = mp.stored) := by
  intro checked next
  rcases addPrevalidatedWithSource_cases mp env pv txHash fromRpc with ⟨admitted, same⟩ | ⟨_, same⟩
  · left
    have indexed : Indexed { mp with
        admission := checked.1.recordAdmission env.now pv txHash } :=
      shelved.indexed.congr rfl rfl rfl rfl
    refine ⟨admitted, ?_, ?_⟩
    · simp only [next, same, admission_enqueue]
      rfl
    · simp only [next, same]
      exact (enqueue_stored indexed shelved.owned).2
  · right
    simp only [next, same]
    exact ⟨rfl, rfl⟩

theorem admission_restoreDrainedTx :
    (mp.restoreDrainedTx tx).admission = mp.admission.recordRestoration tx.senderId tx.txClass := by
  have same : ((mp.ensureIndexCapacity tx.senderId).putBack tx).admission = mp.admission := by
    simp only [Mempool.putBack, Mempool.ensureIndexCapacity, Mempool.pushRoundRobin, Mempool.setQueue]
    split
    · split
      · split <;> rfl
      · split <;> rfl
    · split <;> rfl
  simp only [Mempool.restoreDrainedTx, same]

end Records

end Savitri.MempoolCore
