import Savitri.MempoolCore

/-!
The moves that the operations of the mempool are made of. Purges, removals, evictions
and drains only take transactions out of queues, take idle queues out of the vector and
rearrange the rest; an invariant of the five moves is an invariant of all of them.
-/
namespace Savitri.MempoolCore
open ReplayPrevention MempoolTypes MempoolAdmission SwapRemove
open Relation (ReflTransGen)

inductive Shrinks : Mempool → Mempool → Prop where
  | drop (mp : Mempool) (idx : Nat) (rq : ReadyQueue) (before : List MempoolTx) (tx : MempoolTx)
      (after : List MempoolTx) (found : mp.readyVec[idx]? = some rq)
      (split : rq.queue = before ++ tx :: after) :
      Shrinks mp ((mp.forget rq.senderId tx).setQueue idx (before ++ after))
  | dismantle (mp : Mempool) (idx : Nat) (idle : mp.queueAt idx = []) :
      Shrinks mp (mp.removeReadyQueue idx)
  | arrange (mp : Mempool) (sort : List MempoolTx → List MempoolTx)
      (same : ∀ queue, (sort queue).Perm queue) :
      Shrinks mp { mp with
        readyVec := mp.readyVec.map fun rq => { rq with queue := sort rq.queue } }
  | rotate (mp : Mempool) (rrVecByClass : TxClass → List Nat) (rrPosByClass : TxClass → Nat)
      (fewer : ∀ txClass, rrVecByClass txClass ⊆ mp.rrVecByClass txClass) :
      Shrinks mp { mp with rrVecByClass, rrPosByClass }
  | stamp (mp : Mempool) (now : Instant) : Shrinks mp { mp with lastPurge := now }

abbrev Moves : Mempool → Mempool → Prop := ReflTransGen Shrinks

variable {idx : Nat} {rq : ReadyQueue}

section
variable {mp : Mempool}
variable {queue : List MempoolTx}

theorem queueAt_of_getElem? (found : mp.readyVec[idx]? = some rq) : mp.queueAt idx = rq.queue := by
  simp [Mempool.queueAt, found]

theorem queueAt_setQueue_self (inside : idx < mp.readyVec.length) :
    (mp.setQueue idx queue).queueAt idx = queue := by
  simp [Mempool.queueAt, Mempool.setQueue, inside]

theorem queueAt_setQueue_ne {other : Nat} (differs : idx ≠ other) :
    (mp.setQueue idx queue).queueAt other = mp.queueAt other := by
  simp [Mempool.queueAt, Mempool.setQueue, differs]

@[simp] theorem setQueue_setQueue {first second : List MempoolTx} :
    (mp.setQueue idx first).setQueue idx second = mp.setQueue idx second := by
  simp [Mempool.setQueue, List.modify_modify_eq, Function.comp_def]

theorem setQueue_queueAt (found : mp.readyVec[idx]? = some rq) : mp.setQueue idx rq.queue = mp := by
  have same : mp.readyVec.modify idx (fun other => { other with queue := rq.queue }) =
      mp.readyVec := by
    apply List.ext_getElem?
    intro position
    rw [List.getElem?_modify]
    by_cases here : idx = position
    · subst here
      simp [found]
    · simp [here]
  simp [Mempool.setQueue, same]

theorem foldl_forget_setQueue (mp : Mempool) {sender : SenderId} {txs : List MempoolTx} :
    txs.foldl (fun mp tx => mp.forget sender tx) (mp.setQueue idx queue) =
      (txs.foldl (fun mp tx => mp.forget sender tx) mp).setQueue idx queue := by
  induction txs generalizing mp with
  | nil => rfl
  | cons tx rest ih => exact ih (mp.forget sender tx)

end

section
variable {mp : Mempool}

theorem exists_split {Item : Type} {items : List Item} {item : Item}
    (found : items[idx]? = some item) :
    ∃ front back, items = front ++ item :: back ∧ front.length = idx ∧
      ∀ change, items.modify idx change = front ++ change item :: back := by
  obtain ⟨inside, rfl⟩ := List.getElem?_eq_some_iff.mp found
  refine ⟨items.take idx, items.drop (idx + 1), by simp, by simp; omega, ?_⟩
  intro change
  rw [List.modify_eq_take_cons_drop inside]

theorem perm_stored_setQueue (found : mp.readyVec[idx]? = some rq) (queue : List MempoolTx) :
    (rq.queue ++ (mp.setQueue idx queue).stored).Perm (queue ++ mp.stored) := by
  obtain ⟨front, back, split, _, modified⟩ := exists_split found
  have after : (mp.setQueue idx queue).stored =
      front.flatMap (·.queue) ++ (queue ++ back.flatMap (·.queue)) := by
    simp [Mempool.stored, Mempool.setQueue, modified]
  have before : mp.stored = front.flatMap (·.queue) ++ (rq.queue ++ back.flatMap (·.queue)) := by
    simp [Mempool.stored, split]
  rw [after, before, List.perm_iff_count]
  intro tx
  simp only [List.count_append]
  omega

theorem perm_stored_drop {before after : List MempoolTx} {tx : MempoolTx}
    (found : mp.readyVec[idx]? = some rq) (split : rq.queue = before ++ tx :: after) :
    (tx :: (mp.setQueue idx (before ++ after)).stored).Perm mp.stored := by
  have exchanged := perm_stored_setQueue found (before ++ after)
  rw [split, List.perm_iff_count] at exchanged
  rw [List.perm_iff_count]
  intro other
  have counted := exchanged other
  simp only [List.count_append, List.count_cons] at counted ⊢
  omega

theorem perm_stored_removeReadyQueue (idle : mp.queueAt idx = []) :
    (mp.removeReadyQueue idx).stored.Perm mp.stored := by
  cases found : mp.readyVec[idx]? with
  | none => simp [Mempool.removeReadyQueue, found]
  | some removed =>
    have empty : removed.queue = [] := by rw [← queueAt_of_getElem? found, idle]
    have perm := (perm_swapRemove found).flatMap_right (·.queue)
    simpa [Mempool.removeReadyQueue, found, Mempool.stored, empty] using perm

theorem perm_stored_arrange (mp : Mempool) (sort : List MempoolTx → List MempoolTx)
    (same : ∀ queue, (sort queue).Perm queue) :
    (Mempool.stored { mp with
      readyVec := mp.readyVec.map fun rq => { rq with queue := sort rq.queue } }).Perm
        mp.stored := by
  simp only [Mempool.stored, List.flatMap_map]
  exact List.Perm.flatMap_left _ fun rq _ => same rq.queue

end

section
theorem moves_foldl_forget (drop : MempoolTx → Bool) (idx : Nat) (sender : SenderId)
    (rest kept : List MempoolTx) (mp : Mempool)
    (found : mp.readyVec[idx]? = some { senderId := sender, queue := kept ++ rest }) :
    Moves mp (((rest.filter drop).foldl (fun mp tx => mp.forget sender tx) mp).setQueue idx
      (kept ++ rest.filter fun tx => !drop tx)) := by
  induction rest generalizing kept mp with
  | nil =>
    have same := setQueue_queueAt found
    simp only [List.append_nil] at same
    simp only [List.filter_nil, List.foldl_nil, List.append_nil, same]
    exact ReflTransGen.refl
  | cons tx rest ih =>
    cases dropped : drop tx with
    | true =>
      have move := Shrinks.drop mp idx _ kept tx rest found rfl
      have inside : ((mp.forget sender tx).setQueue idx (kept ++ rest)).readyVec[idx]? =
          some { senderId := sender, queue := kept ++ rest } := by
        simp [Mempool.setQueue, Mempool.forget, found]
      have later := ih kept _ inside
      rw [foldl_forget_setQueue, setQueue_setQueue] at later
      simpa [dropped] using ReflTransGen.head move later
    | false =>
      have later := ih (kept ++ [tx]) mp (by simpa using found)
      simpa [dropped] using later

variable (mp : Mempool)

theorem moves_sweepQueue (drop : MempoolTx → Bool)
    (found : mp.readyVec[idx]? = some rq) : Moves mp (mp.sweepQueue idx rq drop) :=
  moves_foldl_forget drop idx rq.senderId rq.queue [] mp found

theorem moves_sweep {drops : SenderId → Option (MempoolTx → Bool)} {removesIdle : Bool}
    {turns : Nat} (idx : Nat) (mp : Mempool) : Moves mp
      (Mempool.sweep drops removesIdle turns idx mp) := by
  induction turns generalizing idx mp with
  | zero => exact ReflTransGen.refl
  | succ turns ih =>
    unfold Mempool.sweep
    cases found : mp.readyVec[idx]? with
    | none => exact ReflTransGen.refl
    | some rq =>
      simp only
      cases drops rq.senderId with
      | none => exact ih (idx + 1) mp
      | some drop =>
        have swept := moves_sweepQueue mp drop found
        simp only
        split
        · next emptied =>
            have idle := List.isEmpty_iff.mp emptied.1
            exact (swept.tail (Shrinks.dismantle _ idx idle)).trans (ih idx _)
        · exact swept.trans (ih (idx + 1) _)

theorem moves_purgeExpiredInternal {env : Env} : Moves mp (mp.purgeExpiredInternal env) :=
  ReflTransGen.head (Shrinks.stamp mp env.now) (moves_sweep _ _)

theorem moves_purgeIfNeeded (env : Env) : Moves mp (mp.purgeExpiredInternalIfNeeded env) := by
  unfold Mempool.purgeExpiredInternalIfNeeded
  split
  · exact moves_purgeExpiredInternal mp
  · exact ReflTransGen.refl

variable {mp}

theorem moves_removeByHandles (handles : List TxHandle) : Moves mp (mp.removeByHandles handles) := by
  unfold Mempool.removeByHandles
  split
  · exact ReflTransGen.refl
  · exact moves_sweep _ _

theorem moves_evictStale (nonceUpdates : List (SenderId × UInt64)) :
    Moves mp (mp.evictStale nonceUpdates) := by
  unfold Mempool.evictStale
  split
  · exact ReflTransGen.refl
  · exact moves_sweep _ _

end

section
variable (max : Nat) (state : Mempool × List MempoolTx) (mp : Mempool) (txClass : TxClass)

/-- What a drain is made of: a listed queue loses its first transaction to the batch, an
idle queue leaves the list of a class, and the cursors turn. -/
inductive DrainStep : Mempool × List MempoolTx → Mempool × List MempoolTx → Prop where
  | pop (mp : Mempool) (out : List MempoolTx) (txClass : TxClass) (idx : Nat) (sender : SenderId)
      (tx : MempoolTx) (rest : List MempoolTx) (listed : idx ∈ mp.rrVecByClass txClass)
      (found : mp.readyVec[idx]? = some { senderId := sender, queue := tx :: rest }) :
      DrainStep (mp, out) ((mp.forget sender tx).setQueue idx rest, out ++ [tx])
  | retire (mp : Mempool) (out : List MempoolTx) (txClass : TxClass) (idx : Nat)
      (idle : mp.queueAt idx = []) (rrPosByClass : TxClass → Nat) :
      DrainStep (mp, out) ({ mp with
        rrVecByClass := Function.update mp.rrVecByClass txClass
          ((mp.rrVecByClass txClass).filter (· ≠ idx))
        rrPosByClass }, out)
  | turn (mp : Mempool) (out : List MempoolTx) (rrPosByClass : TxClass → Nat) :
      DrainStep (mp, out) ({ mp with rrPosByClass }, out)

abbrev Drains : Mempool × List MempoolTx → Mempool × List MempoolTx → Prop := ReflTransGen DrainStep

theorem drains_popBurst (burst : Nat) {mp : Mempool} (out : List MempoolTx)
    (listed : idx ∈ mp.rrVecByClass txClass) : Drains (mp, out) (popBurst max idx burst mp out) := by
  induction burst generalizing mp out with
  | zero => exact ReflTransGen.refl
  | succ burst ih =>
    unfold popBurst
    split
    · exact ReflTransGen.refl
    · split
      · next sender tx rest found =>
          exact ReflTransGen.head (DrainStep.pop mp out txClass idx sender tx rest listed found)
            (ih _ listed)
      · exact ReflTransGen.refl

theorem drains_retireQueue (out : List MempoolTx) (idx : Nat) :
    Drains (mp, out) (mp.retireQueue txClass idx, out) := by
  unfold Mempool.retireQueue
  split
  · next idle =>
      exact ReflTransGen.single (DrainStep.retire mp out txClass idx (List.isEmpty_iff.mp idle) _)
  · exact ReflTransGen.refl

theorem drains_drainClass : Drains state (drainClass max state txClass) := by
  unfold drainClass
  simp only
  split
  · exact ReflTransGen.refl
  · split
    · exact ReflTransGen.refl
    · next idx found =>
        have listed := List.mem_of_getElem? found
        have turned := DrainStep.turn state.1 state.2
        split
        · exact ReflTransGen.single (turned _)
        · exact ReflTransGen.head (turned _) (ReflTransGen.trans
            (drains_popBurst max txClass burstPerSender _ (by exact listed))
            (drains_retireQueue ..))

theorem drains_turns {classes : List TxClass} (state : Mempool × List MempoolTx) :
    Drains state (classes.foldl (drainClass max) state) := by
  induction classes generalizing state with
  | nil => exact ReflTransGen.refl
  | cons txClass rest ih => exact (drains_drainClass max state txClass).trans (ih _)

theorem drains_drainLoop (rounds : Nat) (state : Mempool × List MempoolTx) :
    Drains state (drainLoop max rounds state) := by
  induction rounds generalizing state with
  | zero => exact ReflTransGen.refl
  | succ rounds ih =>
    unfold drainLoop
    split
    · exact ReflTransGen.refl
    · have round : Drains state (drainRound max state) := drains_turns max state
      simp only
      split
      · exact round
      · exact round.trans (ih _)

theorem Drains.moves {state next : Mempool × List MempoolTx} (drains : Drains state next) :
    Moves state.1 next.1 := by
  refine ReflTransGen.lift Prod.fst (fun _ _ step => ?_) _ _ drains
  cases step with
  | pop mp out txClass idx sender tx rest listed found =>
    exact Shrinks.drop mp idx _ [] tx rest found rfl
  | retire mp out txClass idx idle rrPosByClass =>
    refine Shrinks.rotate mp _ _ fun other position listed => ?_
    rw [Function.update_apply] at listed
    grind
  | turn mp out rrPosByClass => exact Shrinks.rotate mp _ _ fun _ _ listed => listed

variable {mp}

theorem moves_sortQueues : Moves mp mp.sortQueues :=
  ReflTransGen.single (Shrinks.arrange mp _ fun queue => List.perm_insertionSort _ queue)

theorem moves_drainFairBatch (env : Env) (max : Nat) : Moves mp (mp.drainFairBatch env max).1 := by
  unfold Mempool.drainFairBatch
  simp only
  have purged := moves_purgeIfNeeded mp env
  split
  · exact purged
  · exact (purged.trans moves_sortQueues).trans
      (drains_drainLoop max _ ((mp.purgeExpiredInternalIfNeeded env).sortQueues, [])).moves

end

theorem addPrevalidatedWithSource_cases (mp : Mempool) (env : Env) (pv : PrevalidatedTx)
    (txHash : Option TxHash) (fromRpc : Bool) :
    ((mp.admission.checkAdmission env pv txHash fromRpc).2 = .admitted ∧
      (mp.addPrevalidatedWithSource env pv txHash fromRpc).1 = Mempool.enqueue { mp with
          admission := (mp.admission.checkAdmission env pv txHash fromRpc).1.recordAdmission
            env.now pv txHash } (.ofPrevalidated pv env.now txHash fromRpc)) ∨
    ((mp.admission.checkAdmission env pv txHash fromRpc).2 ≠ .admitted ∧
      (mp.addPrevalidatedWithSource env pv txHash fromRpc).1 =
        { mp with admission := (mp.admission.checkAdmission env pv txHash fromRpc).1 }) := by
  unfold Mempool.addPrevalidatedWithSource
  cases checked : mp.admission.checkAdmission env pv txHash fromRpc with
  | mk admission result =>
    cases result with
    | admitted => exact Or.inl ⟨rfl, rfl⟩
    | queued | rejected => exact Or.inr ⟨by simp, rfl⟩

/-- What holds after the moves of an operation, and is kept by checks that admit
nothing, by admissions, restores and rounds of promotion, is kept by every operation. -/
structure Kept (invariant : Mempool → Prop) : Prop where
  shrinks : ∀ {mp next}, Shrinks mp next → invariant mp → invariant next
  adds : ∀ mp env pv txHash fromRpc, invariant mp →
    invariant (mp.addPrevalidatedWithSource env pv txHash fromRpc).1
  restores : ∀ mp tx, invariant mp → invariant (mp.restoreDrainedTx tx)
  promotes : ∀ (mp : Mempool) now nonceUpdates, invariant mp →
    invariant { mp with admission := (mp.admission.promoteQueued now nonceUpdates).1 }

namespace Kept
variable {invariant : Mempool → Prop} (kept : Kept invariant)
include kept

theorem moves {mp next : Mempool} (made : Moves mp next) (before : invariant mp) : invariant next := by
  induction made with
  | refl => exact before
  | tail _ move ih => exact kept.shrinks move ih

variable (mp : Mempool)

theorem addPrevalidatedBatch (env : Env) (pvs : List PrevalidatedTx) (fromRpc : Bool)
    (before : invariant mp) : invariant (mp.addPrevalidatedBatch env pvs fromRpc).1 := by
  unfold Mempool.addPrevalidatedBatch
  have purged : invariant (mp.purgeExpiredInternalIfNeeded env, ([] : List AdmissionOutcome)).1 :=
    kept.moves (moves_purgeIfNeeded mp env) before
  generalize (mp.purgeExpiredInternalIfNeeded env, ([] : List AdmissionOutcome)) = state at purged
  induction pvs generalizing state with
  | nil => exact purged
  | cons pv rest ih => exact ih _ (kept.adds state.1 env pv none fromRpc purged)

theorem restoreDrainedTxs (txs : List MempoolTx) (before : invariant mp) :
    invariant (mp.restoreDrainedTxs txs) := by
  unfold Mempool.restoreDrainedTxs
  induction txs generalizing mp with
  | nil => exact before
  | cons tx rest ih => exact ih _ (kept.restores mp tx before)

theorem onBlockCommitted (env : Env) (committedHandles : List TxHandle)
    (nonceUpdates : List (SenderId × UInt64)) (before : invariant mp) :
    invariant (mp.onBlockCommitted env committedHandles nonceUpdates) := by
  unfold Mempool.onBlockCommitted
  have swept := kept.moves (moves_evictStale nonceUpdates)
    (kept.moves (moves_removeByHandles committedHandles) before)
  have promoted := kept.promotes _ env.now nonceUpdates swept
  simp only
  generalize (AdmissionControl.promoteQueued _ env.now nonceUpdates).2 = list
  generalize ({ (mp.removeByHandles committedHandles).evictStale nonceUpdates with
    admission := _ } : Mempool) = state at promoted ⊢
  induction list generalizing state with
  | nil => exact promoted
  | cons item rest ih => exact ih _ (kept.adds state env item.1 item.2 false promoted)

theorem operate (operation : Operation) (before : invariant mp) :
    invariant (operate mp operation).1 := by
  cases operation with
  | addPrevalidated env pv txHash fromRpc => exact kept.adds mp env pv txHash fromRpc before
  | addPrevalidatedBatch env pvs fromRpc => exact kept.addPrevalidatedBatch mp env pvs fromRpc before
  | drainFairBatch env max => exact kept.moves (moves_drainFairBatch env max) before
  | restoreDrainedTxs txs => exact kept.restoreDrainedTxs mp txs before
  | purgeExpired env => exact kept.moves (moves_purgeExpiredInternal mp) before
  | purgeExpiredIfNeeded env => exact kept.moves (moves_purgeIfNeeded mp env) before
  | removeByHandles handles => exact kept.moves (moves_removeByHandles handles) before
  | onBlockCommitted env committedHandles nonceUpdates =>
    exact kept.onBlockCommitted mp env committedHandles nonceUpdates before

end Kept

end Savitri.MempoolCore
