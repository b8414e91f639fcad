import Savitri.MempoolDrain
import Savitri.MempoolQueues

/-!
The batches of a drain as their senders see them. What a queue still holds follows what
it has given to the batch, so the two together are the queue as it was sorted.
-/
namespace Savitri.MempoolCore
open ReplayPrevention MempoolTypes MempoolAdmission Transition
open Relation (ReflTransGen)
variable {mp : Mempool}

/-- What a sender has in the batch, followed by what is in its queue. -/
def lineOf (sender : SenderId) (idx : Nat) (state : Mempool × List MempoolTx) : List MempoolTx :=
  state.2.filter (·.senderId = sender) ++ state.1.queueAt idx

def Holds (mp : Mempool) (idx : Nat) (sender : SenderId) : Prop :=
  mp.readyVec[idx]?.map ReadyQueue.senderId = some sender

theorem Indexed.holds_unique (indexed : Indexed mp) (one : Holds mp first sender)
    (two : Holds mp second sender) : first = second := by
  have here := (indexed.index sender first).mpr one
  rw [(indexed.index sender second).mpr two] at here
  exact (Option.some.inj here).symm

theorem DrainStep.line (step : DrainStep state next) (shelved : Shelved state.1)
    (holds : Holds state.1 idx sender) :
    Holds next.1 idx sender ∧ lineOf sender idx next = lineOf sender idx state := by
  cases step with
  | pop mp out txClass other owner tx rest listed found =>
    have mine : tx.senderId = owner :=
      shelved.owned _ (List.mem_of_getElem? found) tx List.mem_cons_self
    have owned : Holds mp other owner := by simp [Holds, found]
    simp only [lineOf, Holds, Mempool.setQueue, Mempool.forget, Mempool.queueAt] at holds ⊢
    by_cases same : other = idx
    · subst same
      have owns : owner = sender := by simpa [found] using holds
      simp [found, mine, owns]
    · have differ : owner ≠ sender := by
        rintro rfl
        exact same (shelved.indexed.holds_unique owned holds)
      simp [same, mine, differ, holds]
  | retire | turn => exact ⟨holds, rfl⟩

theorem Drains.line (drains : Drains state next) (shelved : Shelved state.1)
    (holds : Holds state.1 idx sender) :
    Holds next.1 idx sender ∧ lineOf sender idx next = lineOf sender idx state := by
  induction drains with
  | refl => exact ⟨holds, rfl⟩
  | tail before step ih =>
    have here := shelved_kept.moves (Drains.moves before) shelved
    obtain ⟨stays, same⟩ := step.line here ih.1
    exact ⟨stays, same.trans ih.2⟩

theorem Shelved.holds (shelved : Shelved mp) (member : tx ∈ mp.stored) :
    ∃ idx, Holds mp idx tx.senderId := by
  obtain ⟨rq, inVec, inQueue⟩ := List.mem_flatMap.mp member
  obtain ⟨idx, found⟩ := List.getElem?_of_mem inVec
  exact ⟨idx, by simp [Holds, found, shelved.owned rq inVec tx inQueue]⟩

theorem Shelved.mem_queueAt (shelved : Shelved mp) (holds : Holds mp idx tx.senderId)
    (member : tx ∈ mp.stored) : tx ∈ mp.queueAt idx := by
  obtain ⟨rq, inVec, inQueue⟩ := List.mem_flatMap.mp member
  obtain ⟨other, found⟩ := List.getElem?_of_mem inVec
  have owned : Holds mp other tx.senderId := by
    simp [Holds, found, shelved.owned rq inVec tx inQueue]
  rw [shelved.indexed.holds_unique holds owned, queueAt_of_getElem? found]
  exact inQueue

theorem Shelved.of_mem_queueAt (shelved : Shelved mp) (member : tx ∈ mp.queueAt idx) :
    tx ∈ mp.stored ∧ Holds mp idx tx.senderId := by
  cases found : mp.readyVec[idx]? with
  | none => simp [Mempool.queueAt, found] at member
  | some rq =>
    rw [queueAt_of_getElem? found] at member
    have inVec := List.mem_of_getElem? found
    exact ⟨List.mem_flatMap.mpr ⟨rq, inVec, member⟩,
      by simp [Holds, found, shelved.owned rq inVec tx member]⟩

theorem sortQueues_sorted {idx : Nat} :
    (mp.sortQueues.queueAt idx).Pairwise fun first second => first.nonce ≤ second.nonce := by
  simp only [Mempool.queueAt, Mempool.sortQueues, List.getElem?_map]
  cases mp.readyVec[idx]? with
  | none => simp
  | some rq => exact List.pairwise_insertionSort _ _

theorem unpurged_stored {env : Env} (fresh : ∀ tx ∈ mp.stored, mp.expired env.now tx = false) :
    (mp.purgeExpiredInternalIfNeeded env).stored.Perm mp.stored := by
  unfold Mempool.purgeExpiredInternalIfNeeded
  split
  · have kept := perm_stored_purge mp env
    rwa [List.filter_eq_self.mpr fun tx member => by simp [fresh tx member]] at kept
  · exact List.Perm.refl _

/-- The state is any that the operations lead to. -/
theorem drainFairBatch_keeps_nonce_order (ttl : Nat) (start : Instant)
    (admission : AdmissionControl) (operations : List Operation) (mp : Mempool)
    (reached : run operate (Mempool.fresh ttl start admission) operations = mp) (env : Env)
    (max : Nat) (fresh : ∀ tx ∈ mp.stored, mp.expired env.now tx = false) :
    (∀ sender, ((mp.drainFairBatch env max).2.filter (·.senderId = sender)).Pairwise
      fun first second => first.nonce ≤ second.nonce) ∧
    (∀ tx ∈ (mp.drainFairBatch env max).2, ∀ left ∈ (mp.drainFairBatch env max).1.stored,
      left.senderId = tx.senderId → tx.nonce ≤ left.nonce) ∧
    ((mp.drainFairBatch env max).2 ++ (mp.drainFairBatch env max).1.stored).Perm mp.stored := by
  have shelved : Shelved mp := by
    rw [← reached]
    exact run_invariant operate Shelved (fun mp operation => shelved_kept.operate mp operation) _
      operations shelved_fresh
  have purged := unpurged_stored fresh
  have kept := shelved_kept.moves (moves_purgeIfNeeded mp env) shelved
  unfold Mempool.drainFairBatch
  simp only
  generalize mp.purgeExpiredInternalIfNeeded env = state at purged kept ⊢
  split
  · simpa using purged
  · have arranged := shelved_kept.moves moves_sortQueues kept
    have drains := drains_drainLoop max (state.stored.length + 1) (state.sortQueues, [])
    have after := shelved_kept.moves drains.moves arranged
    have perm := drains.perm.trans (perm_stored_arrange state _ fun queue =>
      List.perm_insertionSort _ queue)
    generalize drainLoop max (state.stored.length + 1) (state.sortQueues, []) = drained at *
    -- what a sender had in its sorted queue is what it has in the batch and then in its queue
    have line : ∀ tx ∈ drained.2, ∃ idx, Holds drained.1 idx tx.senderId ∧
        (lineOf tx.senderId idx drained).Pairwise fun one two => one.nonce ≤ two.nonce := by
      intro tx member
      have before : tx ∈ state.sortQueues.stored :=
        drains.perm.mem_iff.mp (List.mem_append_left _ member)
      obtain ⟨idx, holds⟩ := arranged.holds before
      obtain ⟨stays, same⟩ := drains.line arranged holds
      exact ⟨idx, stays, same ▸ sortQueues_sorted⟩
    refine ⟨?_, ?_, perm.trans purged⟩
    · intro sender
      by_cases any : ∃ tx ∈ drained.2, tx.senderId = sender
      · obtain ⟨tx, member, rfl⟩ := any
        obtain ⟨idx, _, sorted⟩ := line tx member
        exact (List.pairwise_append.mp sorted).1
      · rw [List.filter_eq_nil_iff.mpr fun tx member same => any ⟨tx, member, by simpa using same⟩]
        exact List.Pairwise.nil
    · intro tx member left inStored same
      obtain ⟨idx, holds, sorted⟩ := line tx member
      exact (List.pairwise_append.mp sorted).2.2 tx (by simp [member]) left
        (after.mem_queueAt (same ▸ holds) inStored)

def transferAt (sender : SenderId) (nonce : UInt64) (txHandle : TxHandle) : Operation :=
  .addPrevalidated { now := 0 }
    { senderId := sender, senderAddress := [], nonce, maxFee := 1000, amount := 0, txHandle,
      txClass := .financial } none false

/-- Sender 1 sends its second transaction first. -/
def twoOfOne : List Operation := [transferAt 1 1 11, transferAt 2 0 20, transferAt 1 0 10]

theorem twoOfOne_in_order :
    let mp : Mempool := run operate (Mempool.fresh (seconds 120) 0 {}) twoOfOne
    let drained := mp.drainFairBatch { now := 1 } 2
    (drained.2.filter (·.senderId = 1)).map (·.nonce) = [0, 1] ∧
      (drained.2.filter (·.senderId = 1)).Pairwise (fun first second => first.nonce ≤ second.nonce) ∧
      (drained.2 ++ drained.1.stored).Perm mp.stored := by
  intro mp drained
  obtain ⟨sorted, _, perm⟩ := drainFairBatch_keeps_nonce_order (seconds 120) 0 {} twoOfOne _ rfl
    { now := 1 } 2 (by decide +kernel)
  exact ⟨by decide +kernel, sorted 1, perm⟩

def Listed (mp : Mempool) (idx : Nat) : Prop := ∃ txClass, idx ∈ mp.rrVecByClass txClass

/-- Every queue with work has an entry in some list. -/
def Covered (mp : Mempool) : Prop := ∀ idx, mp.queueAt idx ≠ [] → Listed mp idx

structure Ranged (mp : Mempool) : Prop where
  shelved : Shelved mp
  inside : ∀ txClass, ∀ idx ∈ mp.rrVecByClass txClass, idx < mp.readyVec.length

theorem Ranged.congr (ranged : Ranged mp) (shelved : Shelved next)
    (grows : mp.readyVec.length ≤ next.readyVec.length)
    (fewer : ∀ txClass, next.rrVecByClass txClass ⊆ mp.rrVecByClass txClass) : Ranged next :=
  ⟨shelved, fun txClass idx listed => (ranged.inside txClass idx (fewer txClass listed)).trans_le grows⟩

theorem Ranged.shrinks (move : Shrinks mp next) (ranged : Ranged mp) : Ranged next := by
  have shelved := ranged.shelved.shrinks move
  cases move with
  | drop idx rq before tx after found split =>
    exact ranged.congr shelved (by simp [Mempool.setQueue, Mempool.forget]) fun _ _ listed => listed
  | dismantle idx idle =>
    refine ⟨shelved, fun txClass other listed => ?_⟩
    unfold Mempool.removeReadyQueue at listed ⊢
    cases found : mp.readyVec[idx]? with
    | none =>
      rw [found] at listed
      exact ranged.inside txClass other listed
    | some removed =>
      rw [found] at listed
      exact of_decide_eq_true (List.mem_filter.mp listed).2
  | arrange sort same => exact ranged.congr shelved (by simp) fun _ _ listed => listed
  | rotate rrVecByClass rrPosByClass fewer => exact ranged.congr shelved (Nat.le_refl _) fewer
  | stamp now => exact ranged.congr shelved (Nat.le_refl _) fun _ _ listed => listed

theorem ensureIndexCapacity_frame (mp : Mempool) (sender : SenderId) :
    (mp.ensureIndexCapacity sender).readyVec = mp.readyVec ∧
      (mp.ensureIndexCapacity sender).rrVecByClass = mp.rrVecByClass ∧
      ∀ env, (mp.ensureIndexCapacity sender).purgeDue env = mp.purgeDue env := by
  unfold Mempool.ensureIndexCapacity
  split <;> exact ⟨rfl, rfl, fun _ => rfl⟩

theorem Ranged.enqueue (ranged : Ranged mp) (tx : MempoolTx) : Ranged (mp.enqueue tx) := by
  obtain ⟨roomy, inside⟩ := ranged.shelved.indexed.ensureIndexCapacity tx.senderId
  obtain ⟨_, queue, found⟩ := roomy.getOrCreateQueue inside
  have within := (List.getElem?_eq_some_iff.mp found).1
  obtain ⟨vec, lists, _⟩ := ensureIndexCapacity_frame mp tx.senderId
  have opened : mp.readyVec.length ≤
      ((mp.ensureIndexCapacity tx.senderId).getOrCreateQueue tx.senderId).1.readyVec.length ∧
      ((mp.ensureIndexCapacity tx.senderId).getOrCreateQueue tx.senderId).1.rrVecByClass =
        mp.rrVecByClass := by
    unfold Mempool.getOrCreateQueue
    split <;> simp [vec, lists]
  refine ⟨ranged.shelved.enqueue tx, fun txClass idx listed => ?_⟩
  unfold Mempool.enqueue Mempool.appendTo at listed ⊢
  simp only at listed ⊢
  generalize (mp.ensureIndexCapacity tx.senderId).getOrCreateQueue tx.senderId = state at *
  have bound := ranged.inside txClass idx
  split at listed
  · next empty =>
      simp only [Served.mem_pushRoundRobin, Mempool.setQueue, opened.2] at listed
      simp only [empty, ↓reduceIte, Mempool.pushRoundRobin, Mempool.setQueue, List.length_modify]
      grind
  · next busy =>
      simp only [Mempool.setQueue, opened.2] at listed
      simp only [busy, Bool.false_eq_true, ↓reduceIte, Mempool.setQueue, List.length_modify]
      exact (bound listed).trans_le opened.1

/-- A sender that holds a queue gets its transaction in front of it, and the lists stay. -/
theorem restore_held (shelved : Shelved mp) (holds : Holds mp idx tx.senderId) :
    (mp.restoreDrainedTx tx).readyVec = (mp.setQueue idx (tx :: mp.queueAt idx)).readyVec ∧
      (mp.restoreDrainedTx tx).rrVecByClass = mp.rrVecByClass ∧
      ∀ env, (mp.restoreDrainedTx tx).purgeDue env = mp.purgeDue env := by
  obtain ⟨vec, lists, due⟩ := ensureIndexCapacity_frame mp tx.senderId
  have inside : idx < mp.readyVec.length := by
    obtain ⟨rq, found, _⟩ := Option.map_eq_some_iff.mp holds
    exact (List.getElem?_eq_some_iff.mp found).1
  have roomy := (shelved.indexed.ensureIndexCapacity tx.senderId).1
  have position := (roomy.index tx.senderId idx).mpr (by rw [vec]; exact holds)
  unfold Mempool.restoreDrainedTx Mempool.putBack
  simp only [position, vec, inside, ↓reduceIte]
  exact ⟨by simp [Mempool.setQueue, Mempool.queueAt, vec], lists, due⟩

theorem ranged_kept : Kept Ranged where
  shrinks move ranged := ranged.shrinks move
  adds mp env pv txHash fromRpc ranged := by
    rcases addPrevalidatedWithSource_cases mp env pv txHash fromRpc with ⟨_, same⟩ | ⟨_, same⟩
    · rw [same]
      apply Ranged.enqueue
      exact ranged.congr (ranged.shelved.congr rfl rfl rfl rfl) (Nat.le_refl _) fun _ _ h => h
    · rw [same]
      exact ranged.congr (ranged.shelved.congr rfl rfl rfl rfl) (Nat.le_refl _) fun _ _ h => h
  restores mp tx ranged := by
    refine ⟨ranged.shelved.restores tx, fun txClass idx listed => ?_⟩
    obtain ⟨vec, lists, _⟩ := ensureIndexCapacity_frame mp tx.senderId
    have bound := ranged.inside txClass idx
    unfold Mempool.restoreDrainedTx Mempool.putBack at listed ⊢
    simp only at listed ⊢
    cases position : (mp.ensureIndexCapacity tx.senderId).readyIndex[tx.senderId]?.join with
    | some held =>
      by_cases inside : held < mp.readyVec.length
      · simp only [position, vec, inside, ↓reduceIte] at listed ⊢
        simpa [Mempool.setQueue, vec] using bound (lists ▸ listed)
      · simp only [position, vec, inside, ↓reduceIte] at listed ⊢
        exact bound (lists ▸ listed)
    | none =>
      simp only [position, Served.mem_pushRoundRobin, lists, vec] at listed
      simp only [Mempool.pushRoundRobin, vec, List.length_append, List.length_singleton]
      grind
  promotes _ _ _ ranged :=
    ranged.congr (ranged.shelved.congr rfl rfl rfl rfl) (Nat.le_refl _) fun _ _ h => h

theorem ranged_run {ttl : Nat} {start : Instant} {admission : AdmissionControl}
    {operations : List Operation} :
    Ranged (run operate (Mempool.fresh ttl start admission) operations) :=
  run_invariant operate Ranged (fun mp operation => ranged_kept.operate mp operation) _
    operations ⟨shelved_fresh, by simp [Mempool.fresh]⟩

section
/-- What calls of `drain_fair_batch` at one instant give out. -/
def Drainable (env : Env) (mp : Mempool) (tx : MempoolTx) : Prop :=
  ∃ limits, ∃ batch ∈ outputs (fun mp max => mp.drainFairBatch env max) mp limits, tx ∈ batch

theorem Drainable.of_batch (max : Nat) (given : tx ∈ (mp.drainFairBatch env max).2) :
    Drainable env mp tx :=
  ⟨[max], _, List.mem_cons_self, given⟩

structure Calm (env : Env) (mp : Mempool) : Prop where
  ranged : Ranged mp
  due : mp.purgeDue env = false

theorem Drains.calm (drains : Drains state next) (calm : Calm env state.1) : Calm env next.1 := by
  refine ⟨ranged_kept.moves drains.moves calm.ranged, ?_⟩
  induction drains with
  | refl => exact calm.due
  | tail _ step ih => cases step <;> exact ih

theorem Drains.unlisted (drains : Drains state next) (absent : ¬ Listed state.1 idx) :
    ¬ Listed next.1 idx ∧ next.1.queueAt idx = state.1.queueAt idx := by
  induction drains with
  | refl => exact ⟨absent, rfl⟩
  | tail _ step ih =>
    rw [← ih.2]
    cases step with
    | pop mp out txClass other sender tx rest listed found =>
      have differs : other ≠ idx := by
        rintro rfl
        exact ih.1 ⟨txClass, listed⟩
      exact ⟨ih.1, queueAt_setQueue_ne differs⟩
    | retire mp out txClass other idle rrPosByClass =>
      refine ⟨fun ⟨served, listed⟩ => ih.1 ⟨served, ?_⟩, rfl⟩
      simp only [Function.update_apply] at listed
      grind
    | turn mp out rrPosByClass => exact ⟨ih.1, rfl⟩

theorem Drains.covered (drains : Drains state next) (covered : Covered state.1) : Covered next.1 := by
  induction drains with
  | refl => exact covered
  | tail _ step ih =>
    cases step with
    | pop mp out txClass other sender tx rest listed found =>
      intro idx work
      by_cases same : other = idx
      · exact ⟨txClass, same ▸ listed⟩
      · exact ih idx (by rwa [queueAt_setQueue_ne same] at work)
    | retire mp out txClass other idle rrPosByClass =>
      intro idx work
      obtain ⟨served, listed⟩ := ih idx work
      have differs : idx ≠ other := fun same => work (same ▸ idle)
      refine ⟨served, ?_⟩
      simp only [Function.update_apply]
      grind
    | turn mp out rrPosByClass => exact ih

variable {max : Nat}

theorem calm_call (calm : Calm env mp) (some : max ≠ 0) :
    mp.drainFairBatch env max = drainLoop max (mp.stored.length + 1) (mp.sortQueues, []) := by
  simp [Mempool.drainFairBatch, Mempool.purgeExpiredInternalIfNeeded, calm.due, some]

theorem Calm.sortQueues (calm : Calm env mp) : Calm env mp.sortQueues :=
  ⟨ranged_kept.moves moves_sortQueues calm.ranged, calm.due⟩

theorem holds_sortQueues : Holds mp.sortQueues idx sender ↔ Holds mp idx sender := by
  simp [Holds, Mempool.sortQueues, Function.comp_def]

/-- A queue that no list names gives nothing to any batch. -/
theorem stuck_call (calm : Calm env mp) (holds : Holds mp idx sender) (absent : ¬ Listed mp idx) :
    (∀ tx ∈ (mp.drainFairBatch env max).2, tx.senderId ≠ sender) ∧
      Calm env (mp.drainFairBatch env max).1 ∧ Holds (mp.drainFairBatch env max).1 idx sender ∧
      ¬ Listed (mp.drainFairBatch env max).1 idx := by
  by_cases none : max = 0
  · simp [Mempool.drainFairBatch, Mempool.purgeExpiredInternalIfNeeded, none, calm.due, calm, holds,
      absent]
  · rw [calm_call calm none]
    have drains := drains_drainLoop max (mp.stored.length + 1) (mp.sortQueues, [])
    obtain ⟨stays, line⟩ := drains.line calm.sortQueues.ranged.shelved (holds_sortQueues.mpr holds)
    have outside : ¬ Listed mp.sortQueues idx := absent
    obtain ⟨still, queue⟩ := drains.unlisted outside
    refine ⟨?_, drains.calm calm.sortQueues, stays, still⟩
    rw [lineOf, queue] at line
    simpa using List.append_left_eq_self.mp line

theorem not_drainable (calm : Calm env mp) (holds : Holds mp idx sender) (absent : ¬ Listed mp idx)
    (mine : tx.senderId = sender) : ¬ Drainable env mp tx := by
  rintro ⟨limits, batch, given, member⟩
  induction limits generalizing mp with
  | nil => cases given
  | cons max rest ih =>
    obtain ⟨others, after, stays, still⟩ := stuck_call calm holds absent
    rcases List.mem_cons.mp given with rfl | later
    · exact others tx member mine
    · exact ih after stays still later

def listings (mp : Mempool) : Nat :=
  (TxClass.all.map fun txClass => (mp.rrVecByClass txClass).length).sum

def workLeft (mp : Mempool) : Nat := mp.stored.length + listings mp

theorem length_update_filter (lists : TxClass → List Nat) (txClass other : TxClass) (idx : Nat) :
    (Function.update lists txClass ((lists txClass).filter (· ≠ idx)) other).length ≤
      (lists other).length := by
  rw [Function.update_apply]
  split
  · next same => exact same ▸ List.length_filter_le ..
  · exact Nat.le_refl _

theorem Drains.listings_le (drains : Drains state next) : listings next.1 ≤ listings state.1 := by
  induction drains with
  | refl => exact Nat.le_refl _
  | tail _ step ih =>
    refine Nat.le_trans ?_ ih
    cases step with
    | retire mp out txClass idx idle rrPosByClass =>
      exact List.sum_le_sum fun other _ => length_update_filter ..
    | _ => exact Nat.le_refl _

theorem retireQueue_works (idle : mp.queueAt idx = []) (listed : idx ∈ mp.rrVecByClass txClass) :
    workLeft (mp.retireQueue txClass idx) < workLeft mp := by
  unfold Mempool.retireQueue
  rw [if_pos (List.isEmpty_iff.mpr idle)]
  refine Nat.add_lt_add_left (List.sum_lt_sum _ _ (fun other _ => length_update_filter ..)
    ⟨txClass, txClass.mem_all, ?_⟩) _
  rw [Function.update_self, List.length_filter_lt_length_iff_exists]
  exact ⟨idx, listed, by simp⟩

theorem Drains.workLeft_le (drains : Drains state next) : workLeft next.1 ≤ workLeft state.1 := by
  have moved := drains.perm.length_eq
  have grows := drains.grows
  have lists := drains.listings_le
  simp only [List.length_append] at moved
  unfold workLeft
  omega

/-- The turn of a class that has entries takes a transaction or drops an entry. -/
theorem drainClass_works {state : Mempool × List MempoolTx} (ranged : Ranged state.1)
    (room : state.2.length < max) (some : state.1.rrVecByClass txClass ≠ []) :
    workLeft (drainClass max state txClass).1 < workLeft state.1 := by
  have drains := drains_drainClass max state txClass
  rcases drainClass_cases max state txClass (ranged.inside txClass) with
    ⟨_, full | none⟩ | ⟨idx, pos, listed, _, popped⟩
  · omega
  · exact absurd none some
  · by_cases work : state.1.queueAt idx = []
    · have idle : popBurst max idx burstPerSender { state.1 with rrPosByClass := pos } state.2 =
          ({ state.1 with rrPosByClass := pos }, state.2) := by
        rw [burstPerSender, popBurst, if_neg (Nat.not_le.mpr room)]
        split
        · next sender tx rest found => simp [Mempool.queueAt, found] at work
        · rfl
      rw [popped, idle]
      exact retireQueue_works work listed
    · have pops : state.2.length < (drainClass max state txClass).2.length := by
        rw [popped]
        exact popBurst_pops txClass (by decide) room (by exact listed) work
      have moved := drains.perm.length_eq
      have lists := drains.listings_le
      simp only [List.length_append] at moved
      unfold workLeft
      omega

theorem turns_work (max : Nat) (classes : List TxClass) (state : Mempool × List MempoolTx)
    (ranged : Ranged state.1) (room : state.2.length < max)
    (some : ∃ txClass ∈ classes, state.1.rrVecByClass txClass ≠ []) :
    workLeft (classes.foldl (drainClass max) state).1 < workLeft state.1 := by
  induction classes with
  | nil => simp at some
  | cons txClass rest ih =>
    rw [List.foldl_cons]
    by_cases none : state.1.rrVecByClass txClass = []
    · have idle : drainClass max state txClass = state := by
        rcases drainClass_cases max state txClass (ranged.inside txClass) with
          ⟨same, _⟩ | ⟨idx, _, listed, _⟩
        · exact same
        · simp [none] at listed
      rw [idle]
      exact ih (by simpa [none] using some)
    · exact (drains_turns max _).workLeft_le.trans_lt (drainClass_works ranged room none)

theorem call_works (calm : Calm env mp) (covered : Covered mp) (work : tx ∈ mp.stored) :
    workLeft (mp.drainFairBatch env 1).1 < workLeft mp := by
  rw [calm_call calm Nat.one_ne_zero]
  have same : workLeft mp.sortQueues = workLeft mp := by
    have perm := perm_stored_arrange mp _ fun queue => List.perm_insertionSort
      (fun first second : MempoolTx => first.nonce ≤ second.nonce) queue
    exact congrArg (· + listings mp) perm.length_eq
  obtain ⟨idx, holds⟩ := calm.ranged.shelved.holds work
  have busy := List.ne_nil_of_mem (calm.ranged.shelved.mem_queueAt holds work)
  obtain ⟨txClass, listed⟩ := covered idx busy
  have round := turns_work 1 TxClass.all (mp.sortQueues, []) calm.sortQueues.ranged (by simp)
    ⟨txClass, txClass.mem_all, List.ne_nil_of_mem listed⟩
  rw [← same]
  refine Nat.lt_of_le_of_lt ?_ round
  rw [drainLoop]
  simp only
  split
  · simp at *
  · split
    · exact Nat.le_refl _
    · exact (drains_drainLoop 1 _ _).workLeft_le

theorem drainable_of_covered (calm : Calm env mp) (covered : Covered mp) (work : tx ∈ mp.stored) :
    Drainable env mp tx := by
  induction bound : workLeft mp using Nat.strong_induction_on generalizing mp with
  | _ amount ih =>
    have less := call_works calm covered work
    have drains := drains_drainLoop 1 (mp.stored.length + 1) (mp.sortQueues, [])
    rw [← calm_call calm Nat.one_ne_zero] at drains
    by_cases given : tx ∈ (mp.drainFairBatch env 1).2
    · exact .of_batch 1 given
    · have left : tx ∈ (mp.drainFairBatch env 1).1.stored := by
        have moved := drains.perm.mem_iff.mpr (List.mem_append_right _
          ((perm_stored_arrange mp _ fun queue => List.perm_insertionSort _ queue).mem_iff.mpr work))
        exact (List.mem_append.mp moved).resolve_left given
      obtain ⟨limits, batch, later, member⟩ := ih _ (bound ▸ less) (drains.calm calm.sortQueues)
        (drains.covered fun idx busy => covered idx (mt (sortQueues_idle idx).mpr busy)) left rfl
      exact ⟨1 :: limits, batch, List.mem_cons_of_mem _ later, member⟩

end

theorem holds_setQueue (mp : Mempool) (idx other : Nat) (queue : List MempoolTx)
    (sender : SenderId) : Holds (mp.setQueue idx queue) other sender ↔ Holds mp other sender := by
  simp only [Holds, Mempool.setQueue, List.getElem?_modify]
  cases mp.readyVec[other]? with
  | none => rfl
  | some rq => by_cases same : idx = other <;> simp [same]

/-- The lists and the positions stay, and a queue has work afterwards only if it had or
its sender got something back. -/
theorem restoreDrainedTxs_held {txs : List MempoolTx} (calm : Calm env mp)
    (held : ∀ tx ∈ txs, ∃ idx, Holds mp idx tx.senderId) :
    Calm env (mp.restoreDrainedTxs txs) ∧
      (mp.restoreDrainedTxs txs).rrVecByClass = mp.rrVecByClass ∧
      (∀ idx sender, Holds (mp.restoreDrainedTxs txs) idx sender ↔ Holds mp idx sender) ∧
      (∀ tx, tx ∈ txs ∨ tx ∈ mp.stored → tx ∈ (mp.restoreDrainedTxs txs).stored) ∧
      ∀ idx, (mp.restoreDrainedTxs txs).queueAt idx ≠ [] →
        mp.queueAt idx ≠ [] ∨ ∃ tx ∈ txs, Holds mp idx tx.senderId := by
  induction txs generalizing mp with
  | nil => exact ⟨calm, rfl, fun _ _ => Iff.rfl, by simp [Mempool.restoreDrainedTxs],
      fun _ work => Or.inl work⟩
  | cons tx rest ih =>
    rw [List.forall_mem_cons] at held
    obtain ⟨place, holds⟩ := held.1
    have shelved := calm.ranged.shelved
    obtain ⟨vec, lists, due⟩ := restore_held shelved holds
    have positions : ∀ idx sender,
        Holds (mp.restoreDrainedTx tx) idx sender ↔ Holds mp idx sender := by
      intro idx sender
      rw [← holds_setQueue mp place idx (tx :: mp.queueAt place), Holds, vec]
      rfl
    have added := (restoreDrainedTx_stored shelved.indexed shelved.owned tx).2
    have next : Calm env (mp.restoreDrainedTx tx) :=
      ⟨ranged_kept.restores mp tx calm.ranged, (due env).trans calm.due⟩
    obtain ⟨after, lists', positions', stored, works⟩ := ih next fun other member => by
      simpa only [positions] using held.2 other member
    refine ⟨after, lists'.trans lists, fun idx sender =>
      (positions' idx sender).trans (positions idx sender), ?_, ?_⟩
    · intro other member
      apply stored
      rw [added.mem_iff]
      grind
    · intro idx work
      rcases works idx work with before | ⟨other, member, holds'⟩
      · by_cases same : place = idx
        · exact Or.inr ⟨tx, List.mem_cons_self, same ▸ holds⟩
        · rw [Mempool.queueAt, vec] at before
          exact Or.inl (queueAt_setQueue_ne same ▸ before)
      · exact Or.inr ⟨other, List.mem_cons_of_mem _ member, (positions _ _).mp holds'⟩

theorem restored_of_calm (calm : Calm env mp)
    (drainable : ∀ tx ∈ mp.stored, Drainable env mp tx) (max : Nat) :
    let drained := mp.drainFairBatch env max
    (∀ tx ∈ drained.2, Drainable env (drained.1.restoreDrainedTxs drained.2) tx) ↔
      ∀ tx ∈ drained.2, ∃ idx, Holds drained.1 idx tx.senderId ∧ Listed drained.1 idx := by
  intro drained
  by_cases zero : max = 0
  · simp [drained, Mempool.drainFairBatch, zero]
  · have covered : Covered mp.sortQueues := by
      intro idx busy
      by_contra absent
      obtain ⟨tx, member⟩ := List.exists_mem_of_ne_nil _ (mt (sortQueues_idle idx).mpr busy)
      obtain ⟨held, holds⟩ := calm.ranged.shelved.of_mem_queueAt member
      exact not_drainable calm holds absent rfl (drainable tx held)
    have drains := drains_drainLoop max (mp.stored.length + 1) (mp.sortQueues, [])
    rw [← calm_call calm zero] at drains
    have after : Calm env drained.1 := drains.calm calm.sortQueues
    have held : ∀ tx ∈ drained.2, ∃ idx, Holds drained.1 idx tx.senderId := by
      intro tx member
      obtain ⟨idx, holds⟩ := calm.sortQueues.ranged.shelved.holds
        (drains.perm.mem_iff.mp (List.mem_append_left _ member))
      exact ⟨idx, (drains.line calm.sortQueues.ranged.shelved holds).1⟩
    obtain ⟨restored, lists, positions, stored, works⟩ := restoreDrainedTxs_held after held
    have listed : ∀ idx, Listed (drained.1.restoreDrainedTxs drained.2) idx ↔
        Listed drained.1 idx := by
      intro idx
      rw [Listed, lists]
      rfl
    constructor
    · intro again tx member
      obtain ⟨idx, holds⟩ := held tx member
      refine ⟨idx, holds, ?_⟩
      by_contra absent
      exact not_drainable restored ((positions idx _).mpr holds) (mt (listed idx).mp absent) rfl
        (again tx member)
    · intro still tx member
      refine drainable_of_covered restored ?_ (stored tx (Or.inl member))
      intro idx busy
      rw [listed]
      rcases works idx busy with before | ⟨other, inBatch, holds⟩
      · exact drains.covered covered idx before
      · obtain ⟨place, holds', named⟩ := still other inBatch
        rwa [after.ranged.shelved.indexed.holds_unique holds holds']

theorem interval_kept : Kept fun mp => mp.purgeInterval = seconds 1 where
  shrinks move same := by
    cases move with
    | dismantle idx idle =>
      unfold Mempool.removeReadyQueue
      split <;> exact same
    | _ => exact same
  adds mp env pv txHash fromRpc same := by
    have opened : ∀ (mp : Mempool) tx, (mp.enqueue tx).purgeInterval = mp.purgeInterval := by
      intro mp tx
      unfold Mempool.enqueue Mempool.appendTo Mempool.getOrCreateQueue Mempool.ensureIndexCapacity
      dsimp only
      split_ifs <;> split <;> rfl
    rcases addPrevalidatedWithSource_cases mp env pv txHash fromRpc with ⟨_, next⟩ | ⟨_, next⟩
    · rw [next, opened]
      exact same
    · rw [next]
      exact same
  restores mp tx same := by
    unfold Mempool.restoreDrainedTx Mempool.putBack Mempool.ensureIndexCapacity
    split_ifs <;> split <;> (try split) <;> exact same
  promotes _ _ _ same := same

section
variable {drops : SenderId → Option (MempoolTx → Bool)} {removesIdle : Bool}

theorem forgets_purgeDue (sender : SenderId) (txs : List MempoolTx) (mp : Mempool) :
    (txs.foldl (fun mp tx => mp.forget sender tx) mp).purgeDue env = mp.purgeDue env := by
  induction txs generalizing mp with
  | nil => rfl
  | cons tx rest ih => exact ih (mp.forget sender tx)

theorem sweep_purgeDue (turns idx : Nat) (mp : Mempool) :
    (Mempool.sweep drops removesIdle turns idx mp).purgeDue env = mp.purgeDue env := by
  induction turns generalizing idx mp with
  | zero => rfl
  | succ turns ih =>
    have removed : ∀ mp : Mempool, (mp.removeReadyQueue idx).purgeDue env = mp.purgeDue env := by
      intro mp
      unfold Mempool.removeReadyQueue
      split <;> rfl
    rw [Mempool.sweep]
    split
    · rfl
    · split
      · exact ih _ _
      · dsimp only
        split_ifs
        · exact (ih _ _).trans ((removed _).trans (forgets_purgeDue _ _ mp))
        · exact (ih _ _).trans (forgets_purgeDue _ _ mp)

end

/-- A purge is not due again at the instant of a purge. -/
theorem calm_purged (ranged : Ranged mp) (interval : mp.purgeInterval = seconds 1) :
    Calm env (mp.purgeExpiredInternalIfNeeded env) := by
  refine ⟨ranged_kept.moves (moves_purgeIfNeeded mp env) ranged, ?_⟩
  unfold Mempool.purgeExpiredInternalIfNeeded
  split
  · rw [Mempool.purgeExpiredInternal, sweep_purgeDue]
    simp [Mempool.purgeDue, interval, seconds]
  · next undue => simpa using undue

theorem purged_stored (member : tx ∈ (mp.purgeExpiredInternalIfNeeded env).stored) :
    tx ∈ mp.stored := by
  unfold Mempool.purgeExpiredInternalIfNeeded at member
  split at member
  · exact List.mem_of_mem_filter ((perm_stored_purge mp env).mem_iff.mp member)
  · exact member

theorem drainFairBatch_purged (calm : Calm env (mp.purgeExpiredInternalIfNeeded env)) (max : Nat) :
    (mp.purgeExpiredInternalIfNeeded env).drainFairBatch env max = mp.drainFairBatch env max := by
  have once : (mp.purgeExpiredInternalIfNeeded env).purgeExpiredInternalIfNeeded env =
      mp.purgeExpiredInternalIfNeeded env := by
    rw [Mempool.purgeExpiredInternalIfNeeded, if_neg (by simp [calm.due])]
  rw [Mempool.drainFairBatch, Mempool.drainFairBatch, once]

theorem Drainable.purged (calm : Calm env (mp.purgeExpiredInternalIfNeeded env))
    (drainable : Drainable env mp tx) :
    Drainable env (mp.purgeExpiredInternalIfNeeded env) tx := by
  obtain ⟨limits, batch, given, member⟩ := drainable
  refine ⟨limits, batch, ?_, member⟩
  cases limits with
  | nil => exact given
  | cons max rest =>
    rw [outputs] at given ⊢
    rwa [drainFairBatch_purged calm]

/-- A drained transaction can be drained again after it is restored exactly if the lists
still name the queue of its sender when it is restored. -/
theorem restored_drainable_iff (ttl : Nat) (start : Instant) (admission : AdmissionControl)
    (operations : List Operation) (mp : Mempool)
    (reached : run operate (Mempool.fresh ttl start admission) operations = mp) (env : Env)
    (drainable : ∀ tx ∈ mp.stored, Drainable env mp tx) (max : Nat) :
    let drained := mp.drainFairBatch env max
    (∀ tx ∈ drained.2, Drainable env (drained.1.restoreDrainedTxs drained.2) tx) ↔
      ∀ tx ∈ drained.2, ∃ idx, Holds drained.1 idx tx.senderId ∧ Listed drained.1 idx := by
  have interval : mp.purgeInterval = seconds 1 := by
    rw [← reached]
    exact run_invariant operate _ (fun mp operation => interval_kept.operate mp operation) _
      operations rfl
  -- the first call at an instant purges, and from then on no purge is due
  have calm : Calm env (mp.purgeExpiredInternalIfNeeded env) :=
    calm_purged (reached ▸ ranged_run) interval
  have purged := restored_of_calm calm
    (fun tx member => (drainable tx (purged_stored member)).purged calm) max
  rwa [drainFairBatch_purged calm] at purged

/-- Sender 1 has a second transaction in its queue, which stays in the lists. -/
theorem twoOfOne_restored :
    let mp : Mempool := run operate (Mempool.fresh (seconds 120) 0 {}) twoOfOne
    let drained := mp.drainFairBatch { now := seconds 1 } 1
    drained.2.map (·.txHandle) = [10] ∧
      ∀ tx ∈ drained.2, Drainable { now := seconds 1 } (drained.1.restoreDrainedTxs drained.2) tx := by
  refine ⟨by decide +kernel, ?_⟩
  apply (restored_drainable_iff (seconds 120) 0 {} twoOfOne _ rfl { now := seconds 1 }
    (fun tx member => .of_batch 3 (by revert tx; decide +kernel)) 1).mpr
  intro tx member
  refine ⟨0, ?_, .financial, by decide +kernel⟩
  unfold Holds
  revert tx
  decide +kernel

/-- A transfer that was alone in its queue is drained, put back and never drained again. -/
theorem restored_transfer_stuck :
    let mp : Mempool := run operate (Mempool.fresh (seconds 120) 0 {}) [transferBy 1 .financial]
    let drained := mp.drainFairBatch { now := 0 } 1
    (∀ tx ∈ mp.stored, Drainable { now := 0 } mp tx) ∧ drained.2 = mp.stored ∧
      drained.2.length = 1 ∧
      ∀ tx ∈ drained.2, ¬ Drainable { now := 0 } (drained.1.restoreDrainedTxs drained.2) tx := by
  intro mp drained
  refine ⟨fun tx member => .of_batch 1 (by revert tx; decide +kernel),
    by decide +kernel, by decide +kernel, fun tx member => ?_⟩
  have ranged : Ranged mp := ranged_run
  have calm : Calm { now := 0 } (drained.1.restoreDrainedTxs drained.2) :=
    ⟨ranged_kept.restoreDrainedTxs _ _ (ranged_kept.moves (moves_drainFairBatch _ _) ranged),
      by decide +kernel⟩
  have holds : Holds (drained.1.restoreDrainedTxs drained.2) 0 1 := by
    unfold Holds
    decide +kernel
  refine not_drainable calm holds ?_ (by revert tx; decide +kernel)
  rintro ⟨txClass, listed⟩
  cases txClass <;> revert listed <;> decide +kernel

end Savitri.MempoolCore
