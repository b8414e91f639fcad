import Savitri.MempoolIndex

/-!
When a drain empties the mempool. The round-robin lists serve a state when every queue
with work has an entry, no idle queue has one, and no position is listed under two
classes. Drains and admissions keep that. A sweep that swap-removes a queue keeps it
only where the queue that moves in is listed under the classes of the one that leaves,
since the entries of the removed position are not taken out.
-/
namespace Savitri.MempoolCore
open ReplayPrevention MempoolTypes MempoolAdmission SwapRemove Transition

structure Served (mp : Mempool) : Prop where
  alone : ∀ {first second : TxClass} {idx : Nat}, idx ∈ mp.rrVecByClass first →
    idx ∈ mp.rrVecByClass second → first = second
  serves : ∀ idx, (∃ txClass, idx ∈ mp.rrVecByClass txClass) ↔ mp.queueAt idx ≠ []

namespace Served
variable {mp next : Mempool}

theorem congr (served : Served mp) (rrVec : next.rrVecByClass = mp.rrVecByClass)
    (idle : ∀ idx, next.queueAt idx = [] ↔ mp.queueAt idx = []) : Served next := by
  constructor
  · rw [rrVec]
    exact served.alone
  · intro idx
    rw [rrVec]
    exact (served.serves idx).trans (not_congr (idle idx)).symm

variable {idx : Nat}

theorem inside (served : Served mp) {txClass : TxClass}
    (listed : idx ∈ mp.rrVecByClass txClass) : idx < mp.readyVec.length := by
  have work := (served.serves idx).mp ⟨txClass, listed⟩
  by_contra beyond
  exact work (by simp [Mempool.queueAt, List.getElem?_eq_none (Nat.le_of_not_lt beyond)])

theorem fresh (ttl : Nat) (now : Instant) (admission : AdmissionControl) :
    Served (Mempool.fresh ttl now admission) := by
  constructor <;> simp [Mempool.fresh, Mempool.queueAt]

section
theorem mem_pushRoundRobin {pushed txClass : TxClass} {other : Nat} :
    other ∈ (mp.pushRoundRobin pushed idx).rrVecByClass txClass ↔
      other ∈ mp.rrVecByClass txClass ∨ txClass = pushed ∧ other = idx := by
  by_cases same : txClass = pushed
  · subst same
    simp [Mempool.pushRoundRobin]
  · simp [Mempool.pushRoundRobin, same]

variable (served : Served mp)
include served

theorem getOrCreateQueue (sender : SenderId) : Served (mp.getOrCreateQueue sender).1 := by
  unfold Mempool.getOrCreateQueue
  split
  · exact served
  · refine served.congr rfl ?_
    intro idx
    simp only [Mempool.queueAt, List.getElem?_append]
    grind

theorem pushRoundRobin (txClass : TxClass) (idle : mp.queueAt idx = [])
    (rrVec : next.rrVecByClass = mp.rrVecByClass)
    (grown : ∀ other, next.queueAt other ≠ [] ↔ mp.queueAt other ≠ [] ∨ other = idx) :
    Served (next.pushRoundRobin txClass idx) := by
  have absent : ∀ txClass, idx ∉ mp.rrVecByClass txClass :=
    fun txClass listed => (served.serves idx).mp ⟨txClass, listed⟩ idle
  constructor
  · intro first second other inFirst inSecond
    rw [mem_pushRoundRobin, rrVec] at inFirst inSecond
    rcases inFirst with inFirst | ⟨rfl, rfl⟩
    · rcases inSecond with inSecond | ⟨rfl, rfl⟩
      · exact served.alone inFirst inSecond
      · exact absurd inFirst (absent first)
    · rcases inSecond with inSecond | ⟨rfl, _⟩
      · exact absurd inSecond (absent second)
      · rfl
  · intro other
    have work : (next.pushRoundRobin txClass idx).queueAt other ≠ [] ↔ _ := grown other
    rw [work, ← served.serves other]
    simp only [mem_pushRoundRobin, rrVec, exists_or, exists_eq_left]

theorem appendTo (tx : MempoolTx) (within : idx < mp.readyVec.length) :
    Served (mp.appendTo idx tx) := by
  have grown : ∀ other, (mp.setQueue idx (mp.queueAt idx ++ [tx])).queueAt other ≠ [] ↔
      mp.queueAt other ≠ [] ∨ other = idx := by
    intro other
    by_cases same : idx = other
    · subst same
      simp [queueAt_setQueue_self within]
    · simp [queueAt_setQueue_ne same, Ne.symm same]
  unfold Mempool.appendTo
  simp only
  split
  · next empty => exact served.pushRoundRobin tx.txClass (List.isEmpty_iff.mp empty) rfl grown
  · next busy =>
      rw [List.isEmpty_iff] at busy
      refine served.congr rfl ?_
      intro other
      have work := grown other
      by_cases same : other = idx
      · subst same
        exact not_iff_not.mp (iff_of_true (work.mpr (Or.inr rfl)) busy)
      · exact not_iff_not.mp (work.trans (or_iff_left same))

theorem enqueue (indexed : Indexed mp) (tx : MempoolTx) : Served (mp.enqueue tx) := by
  obtain ⟨roomy, inside⟩ := indexed.ensureIndexCapacity tx.senderId
  obtain ⟨_, queue, found⟩ := roomy.getOrCreateQueue inside
  have room : Served (mp.ensureIndexCapacity tx.senderId) := by
    unfold Mempool.ensureIndexCapacity
    split
    · exact served.congr rfl fun _ => Iff.rfl
    · exact served
  exact (room.getOrCreateQueue tx.senderId).appendTo tx (List.getElem?_eq_some_iff.mp found).1

theorem addPrevalidatedWithSource (indexed : Indexed mp) (env : Env) (pv : PrevalidatedTx)
    (txHash : Option TxHash) (fromRpc : Bool) :
    Served (mp.addPrevalidatedWithSource env pv txHash fromRpc).1 := by
  rcases addPrevalidatedWithSource_cases mp env pv txHash fromRpc with ⟨_, same⟩ | ⟨_, same⟩
  · rw [same]
    apply Served.enqueue
    · exact served.congr rfl fun _ => Iff.rfl
    · exact indexed.congr rfl rfl rfl rfl
  · rw [same]
    exact served.congr rfl fun _ => Iff.rfl

end

end Served

variable {drop : MempoolTx → Bool} {removesIdle : Bool}

section
/-- The queue that moves into the place of a removed one is listed under every class
that the removed position is listed under. -/
def SwapsAlike (mp : Mempool) (idx : Nat) : Prop :=
  idx + 1 = mp.readyVec.length ∨
    ∀ txClass, idx ∈ mp.rrVecByClass txClass → mp.readyVec.length - 1 ∈ mp.rrVecByClass txClass

instance decidableSwapsAlike (mp : Mempool) (idx : Nat) : Decidable (SwapsAlike mp idx) :=
  decidable_of_iff (idx + 1 = mp.readyVec.length ∨ ∀ txClass ∈ TxClass.all,
    idx ∈ mp.rrVecByClass txClass → mp.readyVec.length - 1 ∈ mp.rrVecByClass txClass)
    (by simp [SwapsAlike, TxClass.mem_all])

def sweepsAlike (drops : SenderId → Option (MempoolTx → Bool)) (removesIdle : Bool) :
    Nat → Nat → Mempool → Bool
  | 0, _, _ => true
  | turns + 1, idx, mp =>
    match mp.readyVec[idx]? with
    | none => true
    | some rq =>
      match drops rq.senderId with
      | none => sweepsAlike drops removesIdle turns (idx + 1) mp
      | some drop =>
        let swept := mp.sweepQueue idx rq drop
        if (swept.queueAt idx).isEmpty ∧ (removesIdle ∨ rq.queue ≠ []) then
          decide (SwapsAlike swept idx) &&
            sweepsAlike drops removesIdle turns idx (swept.removeReadyQueue idx)
        else sweepsAlike drops removesIdle turns (idx + 1) swept

variable {mp : Mempool}

theorem foldl_forget_queues (mp : Mempool) {sender : SenderId} {txs : List MempoolTx} :
    (txs.foldl (fun mp tx => mp.forget sender tx) mp).readyVec = mp.readyVec ∧
      (txs.foldl (fun mp tx => mp.forget sender tx) mp).rrVecByClass = mp.rrVecByClass := by
  induction txs generalizing mp with
  | nil => exact ⟨rfl, rfl⟩
  | cons tx rest ih => exact ih (mp.forget sender tx)

variable {rq : ReadyQueue} {other : Nat}

theorem readyVec_sweepQueue :
    (mp.sweepQueue idx rq drop).readyVec =
      (mp.setQueue idx (rq.queue.filter fun tx => !drop tx)).readyVec := by
  simp [Mempool.sweepQueue, Mempool.setQueue, (foldl_forget_queues mp).1]

theorem rrVecByClass_sweepQueue (mp : Mempool) (idx : Nat) (rq : ReadyQueue)
    (drop : MempoolTx → Bool) : (mp.sweepQueue idx rq drop).rrVecByClass = mp.rrVecByClass := by
  simp [Mempool.sweepQueue, Mempool.setQueue, (foldl_forget_queues mp).2]

theorem queueAt_sweepQueue :
    (mp.sweepQueue idx rq drop).queueAt other =
      (mp.setQueue idx (rq.queue.filter fun tx => !drop tx)).queueAt other := by
  simp only [Mempool.queueAt, readyVec_sweepQueue]

theorem queueAt_removeReadyQueue (inside : idx < mp.readyVec.length) :
    (mp.removeReadyQueue idx).queueAt other =
      if other < mp.readyVec.length - 1 then
        if other = idx then mp.queueAt (mp.readyVec.length - 1) else mp.queueAt other
      else [] := by
  simp only [Mempool.removeReadyQueue, List.getElem?_eq_getElem inside, Mempool.queueAt,
    getElem?_swapRemove _ _ _ inside]
  split
  · split <;> rfl
  · rfl

theorem mem_removeReadyQueue (inside : idx < mp.readyVec.length) {txClass : TxClass} :
    other ∈ (mp.removeReadyQueue idx).rrVecByClass txClass ↔
      other < mp.readyVec.length - 1 ∧ (other ∈ mp.rrVecByClass txClass ∨
        other = idx ∧ mp.readyVec.length - 1 ∈ mp.rrVecByClass txClass) := by
  simp only [Mempool.removeReadyQueue, List.getElem?_eq_getElem inside, List.mem_filter,
    List.mem_map, length_swapRemove, decide_eq_true_eq]
  grind

namespace Served

theorem removeReadyQueue
    (alone : ∀ {first second : TxClass} {other : Nat}, other ∈ mp.rrVecByClass first →
      other ∈ mp.rrVecByClass second → first = second)
    (serves : ∀ other, other ≠ idx →
      ((∃ txClass, other ∈ mp.rrVecByClass txClass) ↔ mp.queueAt other ≠ []))
    (inside : idx < mp.readyVec.length) (alike : SwapsAlike mp idx) :
    Served (mp.removeReadyQueue idx) := by
  -- an entry for the removed position is one of the last position, or falls off the end
  have moved : ∀ txClass other, other ∈ (mp.removeReadyQueue idx).rrVecByClass txClass ↔
      other < mp.readyVec.length - 1 ∧
        (if other = idx then mp.readyVec.length - 1 else other) ∈ mp.rrVecByClass txClass := by
    intro txClass other
    rw [mem_removeReadyQueue inside]
    rcases alike with last | alike
    · grind
    · have covered := alike txClass
      grind
  constructor
  · intro first second other inFirst inSecond
    exact alone ((moved first other).mp inFirst).2 ((moved second other).mp inSecond).2
  · intro other
    simp only [moved, queueAt_removeReadyQueue inside]
    by_cases below : other < mp.readyVec.length - 1
    · by_cases same : other = idx
      · subst same
        have work := serves (mp.readyVec.length - 1) (by omega)
        simpa [below] using work
      · simpa [below, same] using serves other same
    · simp [below]

theorem sweep {drops : SenderId → Option (MempoolTx → Bool)} {turns : Nat}
    (served : Served mp) (alike : sweepsAlike drops removesIdle turns idx mp) :
    Served (Mempool.sweep drops removesIdle turns idx mp) := by
  induction turns generalizing idx mp with
  | zero => exact served
  | succ turns ih =>
    unfold Mempool.sweep
    unfold sweepsAlike at alike
    cases found : mp.readyVec[idx]? with
    | none => exact served
    | some rq =>
      simp only [found] at alike
      simp only
      cases dropped : drops rq.senderId with
      | none =>
        simp only [dropped] at alike
        exact ih served alike
      | some drop =>
        have inside : idx < mp.readyVec.length := (List.getElem?_eq_some_iff.mp found).1
        have elsewhere : ∀ other, other ≠ idx →
            (mp.sweepQueue idx rq drop).queueAt other = mp.queueAt other := by
          intro other differs
          rw [queueAt_sweepQueue, queueAt_setQueue_ne (Ne.symm differs)]
        have here : (mp.sweepQueue idx rq drop).queueAt idx =
            rq.queue.filter fun tx => !drop tx := by
          rw [queueAt_sweepQueue, queueAt_setQueue_self inside]
        have rrVec := rrVecByClass_sweepQueue mp idx rq drop
        simp only [dropped] at alike
        simp only
        split at alike
        · next emptied =>
            rw [Bool.and_eq_true, decide_eq_true_eq] at alike
            rw [if_pos emptied]
            apply ih _ alike.2
            apply Served.removeReadyQueue
            · rw [rrVec]
              exact served.alone
            · intro other differs
              rw [rrVec, elsewhere other differs]
              exact served.serves other
            · simpa [readyVec_sweepQueue, Mempool.setQueue] using inside
            · exact alike.1
        · next stays =>
            rw [if_neg stays]
            apply ih _ alike
            apply served.congr rrVec
            intro other
            by_cases same : other = idx
            · subst same
              have known := queueAt_of_getElem? found
              grind
            · rw [elsewhere other same]

end Served

end

section Purging
/-- What a sweep of all queues leaves, with the cursor at a position: the queues before
it are done, and those from it on are still to be filtered. -/
def keptFrom (drop : MempoolTx → Bool) (idx : Nat) (queues : List ReadyQueue) : List MempoolTx :=
  (queues.take idx).flatMap (·.queue) ++
    (queues.drop idx).flatMap fun rq => rq.queue.filter fun tx => !drop tx

variable {mp : Mempool} {rq : ReadyQueue}

theorem keptFrom_zero : keptFrom drop 0 mp.readyVec = mp.stored.filter fun tx => !drop tx := by
  simp [keptFrom, Mempool.stored, List.filter_flatMap]

theorem keptFrom_end (beyond : mp.readyVec.length ≤ idx) :
    keptFrom drop idx mp.readyVec = mp.stored := by
  simp [keptFrom, Mempool.stored, List.take_of_length_le beyond, List.drop_of_length_le beyond]

theorem keptFrom_next (found : mp.readyVec[idx]? = some rq) :
    keptFrom drop (idx + 1) (mp.sweepQueue idx rq drop).readyVec =
      keptFrom drop idx mp.readyVec := by
  obtain ⟨front, back, split, rfl, modified⟩ := exists_split found
  rw [readyVec_sweepQueue, Mempool.setQueue, modified, split]
  simp [keptFrom, List.take_length_add_append, List.drop_length_add_append]

theorem keptFrom_removed (found : mp.readyVec[idx]? = some rq)
    (idle : (mp.sweepQueue idx rq drop).queueAt idx = []) :
    (keptFrom drop idx ((mp.sweepQueue idx rq drop).removeReadyQueue idx).readyVec).Perm
      (keptFrom drop idx mp.readyVec) := by
  have here : (mp.sweepQueue idx rq drop).readyVec[idx]? =
      some { rq with queue := rq.queue.filter fun tx => !drop tx } := by
    simp [readyVec_sweepQueue, Mempool.setQueue, found]
  have removed : ((mp.sweepQueue idx rq drop).removeReadyQueue idx).readyVec =
      swapRemove (mp.sweepQueue idx rq drop).readyVec idx := by
    simp [Mempool.removeReadyQueue, here]
  have none : rq.queue.filter (fun tx => !drop tx) = [] := by
    rw [← idle, queueAt_of_getElem? here]
  rw [← keptFrom_next found, removed, keptFrom, keptFrom,
    take_swapRemove (List.getElem?_eq_some_iff.mp here).1, List.take_add_one, here]
  have rest := (perm_drop_swapRemove here).flatMap_right
    fun rq => rq.queue.filter fun tx => !drop tx
  simp only [Option.toList_some, List.flatMap_append, List.flatMap_cons, List.flatMap_nil, none,
    List.append_nil]
  exact rest.append_left _

theorem perm_stored_sweep {turns : Nat} (idx : Nat) (mp : Mempool)
    (enough : mp.readyVec.length ≤ idx + turns) :
    (Mempool.sweep (fun _ => some drop) removesIdle turns idx mp).stored.Perm
      (keptFrom drop idx mp.readyVec) := by
  induction turns generalizing idx mp with
  | zero =>
    have beyond : mp.readyVec.length ≤ idx := enough
    rw [keptFrom_end beyond]
    exact List.Perm.refl _
  | succ turns ih =>
    unfold Mempool.sweep
    cases found : mp.readyVec[idx]? with
    | none => simp [keptFrom_end (List.getElem?_eq_none_iff.mp found)]
    | some rq =>
      have inside := (List.getElem?_eq_some_iff.mp found).1
      have length : (mp.sweepQueue idx rq drop).readyVec.length = mp.readyVec.length := by
        simp [readyVec_sweepQueue, Mempool.setQueue]
      simp only
      split
      · next emptied =>
          have later := ih idx ((mp.sweepQueue idx rq drop).removeReadyQueue idx) (by
            simp only [Mempool.removeReadyQueue, length,
              List.getElem?_eq_getElem (length.symm ▸ inside), length_swapRemove]
            omega)
          exact later.trans (keptFrom_removed found (List.isEmpty_iff.mp emptied.1))
      · rw [← keptFrom_next found]
        exact ih (idx + 1) _ (by omega)

theorem perm_stored_purge (mp : Mempool) (env : Env) :
    (mp.purgeExpiredInternal env).stored.Perm
      (mp.stored.filter fun tx => !mp.expired env.now tx) := by
  rw [← keptFrom_zero]
  exact perm_stored_sweep 0 { mp with lastPurge := env.now } (by simp)

end Purging

section
/-- A turn of a drain: the entries still serve the queues, and what has left the queues
is in the batch. -/
structure Draws (state next : Mempool × List MempoolTx) : Prop where
  served : Served next.1
  perm : (next.2 ++ next.1.stored).Perm (state.2 ++ state.1.stored)
  grows : state.2.length ≤ next.2.length

theorem Draws.refl {state : Mempool × List MempoolTx} (served : Served state.1) : Draws state state :=
  ⟨served, List.Perm.refl _, Nat.le_refl _⟩

theorem Draws.trans {first second third : Mempool × List MempoolTx} (one : Draws first second)
    (two : Draws second third) : Draws first third :=
  ⟨two.served, two.perm.trans one.perm, one.grows.trans two.grows⟩

variable (max : Nat) (state : Mempool × List MempoolTx) (txClass : TxClass)
variable {burst : Nat} {next : Mempool × List MempoolTx} {mp : Mempool} {env : Env}

theorem popBurst_queues (mp : Mempool) (out : List MempoolTx) :
    (popBurst max idx burst mp out).1.rrVecByClass = mp.rrVecByClass ∧
      ∀ other, other ≠ idx →
        (popBurst max idx burst mp out).1.queueAt other = mp.queueAt other := by
  induction burst generalizing mp out with
  | zero => exact ⟨rfl, fun _ _ => rfl⟩
  | succ burst ih =>
    unfold popBurst
    split
    · exact ⟨rfl, fun _ _ => rfl⟩
    · split
      · next sender tx rest found =>
          obtain ⟨rrVec, elsewhere⟩ := ih ((mp.forget sender tx).setQueue idx rest) (out ++ [tx])
          refine ⟨rrVec, ?_⟩
          intro other differs
          rw [elsewhere other differs, queueAt_setQueue_ne (Ne.symm differs)]
          rfl
      · exact ⟨rfl, fun _ _ => rfl⟩

theorem DrainStep.perm {state : Mempool × List MempoolTx} (step : DrainStep state next) :
    (next.2 ++ next.1.stored).Perm (state.2 ++ state.1.stored) := by
  cases step with
  | pop mp out txClass idx sender tx rest listed found =>
    have popped := perm_stored_drop found (List.nil_append (tx :: rest)).symm
    rw [List.append_assoc]
    exact popped.append_left out
  | retire | turn => exact List.Perm.refl _

theorem Drains.perm {state : Mempool × List MempoolTx} (drains : Drains state next) :
    (next.2 ++ next.1.stored).Perm (state.2 ++ state.1.stored) := by
  induction drains with
  | refl => exact List.Perm.refl _
  | tail _ step ih => exact step.perm.trans ih

theorem Drains.grows {state : Mempool × List MempoolTx} (drains : Drains state next) :
    state.2.length ≤ next.2.length := by
  induction drains with
  | refl => exact Nat.le_refl _
  | tail _ step ih => cases step <;> grind

theorem popBurst_pops {max : Nat} {out : List MempoolTx} (turn : 0 < burst)
    (room : out.length < max) (listed : idx ∈ mp.rrVecByClass txClass)
    (work : mp.queueAt idx ≠ []) : out.length < (popBurst max idx burst mp out).2.length := by
  cases burst with
  | zero => cases turn
  | succ burst =>
    unfold popBurst
    rw [if_neg (Nat.not_le.mpr room)]
    split
    · next sender tx rest found =>
        have still : idx ∈ ((mp.forget sender tx).setQueue idx rest).rrVecByClass txClass := listed
        have later := (drains_popBurst max txClass burst (out ++ [tx]) still).grows
        simp only [List.length_append, List.length_singleton] at later
        omega
    · next missing =>
        exfalso
        cases found : mp.readyVec[idx]? with
        | none => exact work (by simp [Mempool.queueAt, found])
        | some rq =>
          rw [queueAt_of_getElem? found] at work
          cases shape : rq.queue with
          | nil => exact work shape
          | cons tx rest => exact missing rq.senderId tx rest (by rw [found, ← shape])

theorem Served.retireQueue {next : Mempool} {txClass : TxClass} (served : Served mp)
    (listed : idx ∈ mp.rrVecByClass txClass) (rrVec : next.rrVecByClass = mp.rrVecByClass)
    (elsewhere : ∀ other, other ≠ idx → next.queueAt other = mp.queueAt other) :
    Served (next.retireQueue txClass idx) := by
  unfold Mempool.retireQueue
  split
  · next empty =>
      have idle := List.isEmpty_iff.mp empty
      have entries : ∀ other position,
          position ∈ Function.update next.rrVecByClass txClass
            ((next.rrVecByClass txClass).filter (· ≠ idx)) other ↔
          position ≠ idx ∧ position ∈ mp.rrVecByClass other := by
        intro other position
        have alone := @served.alone txClass other idx listed
        rw [rrVec, Function.update_apply]
        grind
      constructor
      · intro first second other inFirst inSecond
        exact served.alone ((entries _ _).mp inFirst).2 ((entries _ _).mp inSecond).2
      · intro other
        simp only [entries, exists_and_left, served.serves]
        by_cases same : other = idx
        · subst same
          exact iff_of_false (fun both => both.1 rfl) (fun work => work idle)
        · change _ ↔ next.queueAt other ≠ []
          rw [elsewhere other same]
          exact and_iff_right same
  · next work =>
      apply served.congr rrVec
      intro other
      by_cases same : other = idx
      · subst same
        exact iff_of_false (fun idle => work (List.isEmpty_iff.mpr idle))
          ((served.serves other).mp ⟨txClass, listed⟩)
      · rw [elsewhere other same]

theorem drainClass_cases
    (inside : ∀ idx ∈ state.1.rrVecByClass txClass, idx < state.1.readyVec.length) :
    (drainClass max state txClass = state ∧
      (max ≤ state.2.length ∨ state.1.rrVecByClass txClass = [])) ∨
    ∃ idx rrPosByClass, idx ∈ state.1.rrVecByClass txClass ∧ state.2.length < max ∧
      let popped := popBurst max idx burstPerSender { state.1 with rrPosByClass } state.2
      drainClass max state txClass = (popped.1.retireQueue txClass idx, popped.2) := by
  unfold drainClass
  simp only
  split
  · next full => exact Or.inl ⟨rfl, Or.inl full⟩
  · next room =>
      split
      · next none =>
          refine Or.inl ⟨rfl, Or.inr ?_⟩
          rw [List.getElem?_eq_none_iff] at none
          apply List.eq_nil_of_length_eq_zero
          grind
      · next idx found =>
          have listed := List.mem_of_getElem? found
          rw [if_neg (Nat.not_le.mpr (inside idx listed))]
          exact Or.inr ⟨idx, _, listed, Nat.lt_of_not_le room, rfl⟩

theorem draws_drainClass (served : Served state.1) : Draws state (drainClass max state txClass) := by
  rcases drainClass_cases max state txClass (fun _ listed => served.inside listed) with
    ⟨same, _⟩ | ⟨idx, pos, listed, _, popped⟩
  · rw [same]
    exact Draws.refl served
  · obtain ⟨rrVec, elsewhere⟩ := popBurst_queues max { state.1 with rrPosByClass := pos } state.2
    refine ⟨?_, (drains_drainClass max state txClass).perm, (drains_drainClass max state txClass).grows⟩
    rw [popped]
    exact served.retireQueue listed rrVec elsewhere

theorem drainClass_stuck {max : Nat} {state : Mempool × List MempoolTx} {txClass : TxClass}
    (served : Served state.1) (room : state.2.length < max)
    (stuck : (drainClass max state txClass).2.length ≤ state.2.length) :
    drainClass max state txClass = state ∧ state.1.rrVecByClass txClass = [] := by
  rcases drainClass_cases max state txClass (fun _ listed => served.inside listed) with
    ⟨same, why⟩ | ⟨idx, pos, listed, _, popped⟩
  · exact ⟨same, why.resolve_left (Nat.not_le.mpr room)⟩
  · have work : Mempool.queueAt { state.1 with rrPosByClass := pos } idx ≠ [] :=
      (served.serves idx).mp ⟨txClass, listed⟩
    have pops : state.2.length < (popBurst max idx burstPerSender _ state.2).2.length :=
      popBurst_pops txClass (by decide) room (by exact listed) work
    rw [popped] at stuck
    exact absurd stuck (Nat.not_le.mpr pops)

theorem draws_turns (classes : List TxClass) (state : Mempool × List MempoolTx)
    (served : Served state.1) : Draws state (classes.foldl (drainClass max) state) := by
  induction classes generalizing state with
  | nil => exact Draws.refl served
  | cons txClass rest ih =>
    have turn := draws_drainClass max state txClass served
    exact turn.trans (ih _ turn.served)

theorem turns_stuck {max : Nat} (classes : List TxClass) {state : Mempool × List MempoolTx}
    (served : Served state.1) (room : state.2.length < max)
    (stuck : (classes.foldl (drainClass max) state).2.length ≤ state.2.length) :
    classes.foldl (drainClass max) state = state ∧
      ∀ txClass ∈ classes, state.1.rrVecByClass txClass = [] := by
  induction classes with
  | nil => simp
  | cons txClass rest ih =>
    have turn := draws_drainClass max state txClass served
    have later := (draws_turns max rest _ turn.served).grows
    rw [List.foldl_cons] at stuck ⊢
    obtain ⟨same, empty⟩ := drainClass_stuck served room (later.trans stuck)
    rw [same] at stuck ⊢
    obtain ⟨still, others⟩ := ih stuck
    exact ⟨still, List.forall_mem_cons.mpr ⟨empty, others⟩⟩

theorem Served.stored_nil (served : Served mp) (none : ∀ txClass, mp.rrVecByClass txClass = []) :
    mp.stored = [] := by
  apply List.flatMap_eq_nil_iff.mpr
  intro rq member
  obtain ⟨idx, found⟩ := List.getElem?_of_mem member
  rw [← queueAt_of_getElem? found]
  by_contra work
  obtain ⟨txClass, listed⟩ := (served.serves idx).mpr work
  rw [none txClass] at listed
  cases listed

theorem drainLoop_ends (rounds : Nat) (state : Mempool × List MempoolTx) (served : Served state.1)
    (enough : state.1.stored.length < rounds) :
    Draws state (drainLoop max rounds state) ∧
      (max ≤ (drainLoop max rounds state).2.length ∨
        (drainLoop max rounds state).1.stored = []) := by
  -- each round that goes on has moved a stored transaction into the batch
  induction rounds generalizing state with
  | zero => cases enough
  | succ rounds ih =>
    have round : Draws state (drainRound max state) := draws_turns max TxClass.all state served
    by_cases full : max ≤ state.2.length
    · rw [drainLoop, if_pos full]
      exact ⟨Draws.refl served, Or.inl full⟩
    · by_cases stuck : (drainRound max state).2.length = state.2.length
      · obtain ⟨same, none⟩ : drainRound max state = state ∧ _ :=
          turns_stuck TxClass.all served (Nat.lt_of_not_le full) stuck.le
        have nothing := served.stored_nil fun txClass =>
          none txClass (TxClass.mem_all txClass)
        simp only [drainLoop, if_neg full, same, ↓reduceIte]
        exact ⟨Draws.refl served, Or.inr nothing⟩
      · have moved := round.perm.length_eq
        have more := round.grows
        simp only [List.length_append] at moved
        obtain ⟨drawn, ends⟩ := ih _ round.served (by omega)
        simp only [drainLoop, if_neg full, if_neg stuck]
        exact ⟨round.trans drawn, ends⟩

theorem sortQueues_idle (idx : Nat) : mp.sortQueues.queueAt idx = [] ↔ mp.queueAt idx = [] := by
  simp only [Mempool.queueAt, Mempool.sortQueues, List.getElem?_map]
  cases mp.readyVec[idx]? with
  | none => rfl
  | some rq =>
    simp only [Option.map_some, Option.getD_some]
    rw [← List.length_eq_zero_iff, List.length_insertionSort, List.length_eq_zero_iff]

theorem Served.sortQueues (served : Served mp) : Served mp.sortQueues :=
  served.congr rfl sortQueues_idle

variable (served : Served (mp.purgeExpiredInternalIfNeeded env))
include served

theorem drainFairBatch_ends {max : Nat} :
    Draws (mp.purgeExpiredInternalIfNeeded env, []) (mp.drainFairBatch env max) ∧
      (max ≤ (mp.drainFairBatch env max).2.length ∨ (mp.drainFairBatch env max).1.stored = []) := by
  unfold Mempool.drainFairBatch
  simp only
  generalize mp.purgeExpiredInternalIfNeeded env = purged at served ⊢
  split
  · next zero => exact ⟨Draws.refl served, Or.inl zero.le⟩
  · have sorted : purged.sortQueues.stored.Perm purged.stored :=
      perm_stored_arrange purged _ fun queue => List.perm_insertionSort _ queue
    have arranged : Draws (purged, []) (purged.sortQueues, []) :=
      ⟨served.sortQueues, sorted, Nat.le_refl _⟩
    obtain ⟨drawn, ends⟩ := drainLoop_ends max (purged.stored.length + 1)
      (purged.sortQueues, []) served.sortQueues (by rw [sorted.length_eq]; omega)
    exact ⟨arranged.trans drawn, ends⟩

theorem drainFairBatch_perm {max : Nat}
    (room : (mp.purgeExpiredInternalIfNeeded env).stored.length ≤ max) :
    (mp.drainFairBatch env max).2.Perm (mp.purgeExpiredInternalIfNeeded env).stored := by
  obtain ⟨drawn, ends⟩ := drainFairBatch_ends served
  have all : ((mp.drainFairBatch env max).2 ++ (mp.drainFairBatch env max).1.stored).Perm
      (mp.purgeExpiredInternalIfNeeded env).stored := drawn.perm
  have length := all.length_eq
  rw [List.length_append] at length
  have nothing : (mp.drainFairBatch env max).1.stored = [] := by
    rcases ends with full | empty
    · exact List.length_eq_zero_iff.mp (by omega)
    · exact empty
  rw [nothing, List.append_nil] at all
  exact all

end

variable (mp : Mempool)

abbrev PurgesAlike (env : Env) : Prop :=
  sweepsAlike (fun _ => some (mp.expired env.now)) true mp.readyVec.length 0
    { mp with lastPurge := env.now }

abbrev PurgesAlikeIfNeeded (env : Env) : Prop := mp.purgeDue env → PurgesAlike mp env

abbrev RemovesAlike (handles : List TxHandle) : Prop :=
  handles.isEmpty ∨ sweepsAlike (fun _ => some fun tx => decide (tx.txHandle ∈ handles)) true
    mp.readyVec.length 0 mp

abbrev EvictsAlike (nonceUpdates : List (SenderId × UInt64)) : Prop :=
  nonceUpdates.isEmpty ∨ sweepsAlike (fun sender => (nonceUpdates.lookup sender).map
    fun confirmedNonce tx => decide (tx.nonce < confirmedNonce)) false mp.readyVec.length 0 mp

def OperatesAlike : Operation → Prop
  | .addPrevalidated .. => True
  | .addPrevalidatedBatch env _ _ => PurgesAlikeIfNeeded mp env
  | .drainFairBatch env _ => PurgesAlikeIfNeeded mp env
  | .restoreDrainedTxs _ => False
  | .purgeExpired env => PurgesAlike mp env
  | .purgeExpiredIfNeeded env => PurgesAlikeIfNeeded mp env
  | .removeByHandles handles => RemovesAlike mp handles
  | .onBlockCommitted _ committedHandles nonceUpdates =>
    RemovesAlike mp committedHandles ∧
      EvictsAlike (mp.removeByHandles committedHandles) nonceUpdates

instance decidableOperatesAlike (mp : Mempool) :
    ∀ operation, Decidable (OperatesAlike mp operation)
  | .addPrevalidated .. => isTrue trivial
  | .addPrevalidatedBatch .. => inferInstanceAs (Decidable (PurgesAlikeIfNeeded ..))
  | .drainFairBatch .. => inferInstanceAs (Decidable (PurgesAlikeIfNeeded ..))
  | .restoreDrainedTxs _ => isFalse id
  | .purgeExpired _ => inferInstanceAs (Decidable (PurgesAlike ..))
  | .purgeExpiredIfNeeded _ => inferInstanceAs (Decidable (PurgesAlikeIfNeeded ..))
  | .removeByHandles _ => inferInstanceAs (Decidable (RemovesAlike ..))
  | .onBlockCommitted .. => inferInstanceAs (Decidable (RemovesAlike .. ∧ EvictsAlike ..))

namespace Served
variable {mp}
variable {env : Env} {nonceUpdates : List (SenderId × UInt64)}
variable (served : Served mp)
include served

theorem purgeExpiredInternal (alike : PurgesAlike mp env) : Served (mp.purgeExpiredInternal env) :=
  Served.sweep (served.congr rfl fun _ => Iff.rfl) alike

theorem purgeIfNeeded (alike : PurgesAlikeIfNeeded mp env) :
    Served (mp.purgeExpiredInternalIfNeeded env) := by
  unfold Mempool.purgeExpiredInternalIfNeeded
  split
  · next due => exact served.purgeExpiredInternal (alike due)
  · exact served

theorem removeByHandles {handles : List TxHandle} (alike : RemovesAlike mp handles) :
    Served (mp.removeByHandles handles) := by
  unfold Mempool.removeByHandles
  split
  · exact served
  · next some => exact served.sweep (alike.resolve_left some)

theorem evictStale (alike : EvictsAlike mp nonceUpdates) : Served (mp.evictStale nonceUpdates) := by
  unfold Mempool.evictStale
  split
  · exact served
  · next some => exact served.sweep (alike.resolve_left some)

theorem addPrevalidatedBatch (indexed : Indexed mp) (alike : PurgesAlikeIfNeeded mp env)
    (pvs : List PrevalidatedTx) (fromRpc : Bool) :
    Served (mp.addPrevalidatedBatch env pvs fromRpc).1 := by
  have purged := indexed_kept.moves (moves_purgeIfNeeded mp env) indexed
  unfold Mempool.addPrevalidatedBatch
  exact (List.foldlRecOn pvs _ (motive := fun state : Mempool × List AdmissionOutcome =>
      Indexed state.1 ∧ Served state.1) ⟨purged, served.purgeIfNeeded alike⟩ fun state both pv _ =>
      ⟨indexed_kept.adds state.1 env pv none fromRpc both.1,
        both.2.addPrevalidatedWithSource both.1 env pv none fromRpc⟩).2

theorem onBlockCommitted {committedHandles : List TxHandle} (indexed : Indexed mp)
    (removes : RemovesAlike mp committedHandles)
    (evicts : EvictsAlike (mp.removeByHandles committedHandles) nonceUpdates) :
    Served (mp.onBlockCommitted env committedHandles nonceUpdates) := by
  have swept := (served.removeByHandles removes).evictStale evicts
  have sound := indexed_kept.moves (moves_evictStale nonceUpdates)
    (indexed_kept.moves (moves_removeByHandles committedHandles) indexed)
  unfold Mempool.onBlockCommitted
  exact (List.foldlRecOn _ _ (motive := fun state => Indexed state ∧ Served state)
    ⟨indexed_kept.promotes _ env.now nonceUpdates sound, swept.congr rfl fun _ => Iff.rfl⟩
    fun state both item _ =>
      ⟨indexed_kept.adds state env item.1 item.2 false both.1,
        both.2.addPrevalidatedWithSource both.1 env item.1 item.2 false⟩).2

theorem operate {operation : Operation} (indexed : Indexed mp) (alike : OperatesAlike mp operation) :
    Served (operate mp operation).1 := by
  cases operation with
  | addPrevalidated env pv txHash fromRpc =>
    exact served.addPrevalidatedWithSource indexed env pv txHash fromRpc
  | addPrevalidatedBatch env pvs fromRpc =>
    exact served.addPrevalidatedBatch indexed alike pvs fromRpc
  | drainFairBatch env max =>
    exact (drainFairBatch_ends (served.purgeIfNeeded alike)).1.served
  | restoreDrainedTxs txs => exact alike.elim
  | purgeExpired env => exact served.purgeExpiredInternal alike
  | purgeExpiredIfNeeded env => exact served.purgeIfNeeded alike
  | removeByHandles handles => exact served.removeByHandles alike
  | onBlockCommitted env committedHandles nonceUpdates =>
    exact served.onBlockCommitted indexed alike.1 alike.2

end Served

theorem served_run {ttl : Nat} {start : Instant} {admission : AdmissionControl}
    {operations : List Operation}
    (alike : Along operate OperatesAlike (Mempool.fresh ttl start admission) operations) :
    Served (run operate (Mempool.fresh ttl start admission) operations) :=
  (run_invariant_along operate OperatesAlike (fun mp => Indexed mp ∧ Served mp)
    (fun mp operation both alike =>
      ⟨indexed_kept.operate mp operation both.1, both.2.operate both.1 alike⟩)
    _ operations ⟨indexed_fresh, Served.fresh ttl start admission⟩ alike).2

/-- After a run without restores whose sweeps swap alike, a drain with room for the
unexpired transactions returns all of them, if it purges first or has room for the
expired ones as well. -/
theorem drain_returns_unexpired (ttl : Nat) (start : Instant) (admission : AdmissionControl)
    (operations : List Operation) (env : Env) (max : Nat)
    (alike : Along operate OperatesAlike (Mempool.fresh ttl start admission)
      (operations ++ [.drainFairBatch env max])) :
    let mp : Mempool := run operate (Mempool.fresh ttl start admission) operations
    let unexpired := mp.stored.filter fun tx => !mp.expired env.now tx
    mp.purgeDue env ∨ mp.stored.length ≤ max → unexpired.length ≤ max →
      unexpired.Subperm (mp.drainFairBatch env max).2 := by
  intro mp unexpired roomy room
  obtain ⟨before, last⟩ := (along_append operate OperatesAlike _).mp alike
  have served : Served (mp.purgeExpiredInternalIfNeeded env) :=
    (served_run before).purgeIfNeeded last.1
  by_cases due : mp.purgeDue env
  · have purged : (mp.purgeExpiredInternalIfNeeded env).stored.Perm unexpired := by
      rw [Mempool.purgeExpiredInternalIfNeeded, if_pos due]
      exact perm_stored_purge mp env
    have drained : (mp.drainFairBatch env max).2.Perm _ :=
      drainFairBatch_perm served (purged.length_eq ▸ room)
    exact (drained.trans purged).symm.subperm
  · have kept : mp.purgeExpiredInternalIfNeeded env = mp := by
      rw [Mempool.purgeExpiredInternalIfNeeded, if_neg due]
    have drained : (mp.drainFairBatch env max).2.Perm _ :=
      drainFairBatch_perm served (kept.symm ▸ roomy.resolve_left due)
    rw [kept] at drained
    exact List.filter_sublist.subperm.trans drained.symm.subperm

def transferBy (sender : SenderId) (txClass : TxClass) : Operation :=
  .addPrevalidated { now := 0 }
    { senderId := sender, senderAddress := [], nonce := 0, maxFee := 1000, amount := 0,
      txHandle := sender, txClass } none false

def oneClass : List Operation :=
  [transferBy 1 .financial, transferBy 2 .financial, transferBy 3 .financial, .removeByHandles [1]]

theorem oneClass_drained :
    let mp : Mempool := run operate (Mempool.fresh (seconds 120) 0 {}) oneClass
    let unexpired := mp.stored.filter fun tx => !mp.expired 1 tx
    (mp.purgeDue { now := 1 } ∨ mp.stored.length ≤ 2) ∧ unexpired.length ≤ 2 ∧
      unexpired.Subperm (mp.drainFairBatch { now := 1 } 2).2 :=
  ⟨by decide +kernel, by decide +kernel,
    drain_returns_unexpired (seconds 120) 0 {} oneClass { now := 1 } 2 (by decide +kernel)
      (by decide +kernel) (by decide +kernel)⟩

/-- The queue of sender 3 moves into the place of the removed queue of sender 2, which
stays listed under the class of that one. Once it is drained, the stale entry takes the
turn of its class and the round pops nothing, so the drain gives up on sender 4. -/
theorem staleEntry_starves :
    let mp : Mempool := run operate (Mempool.fresh (seconds 120) 0 {})
      [transferBy 1 .financial, transferBy 2 .financial, transferBy 3 .ioTData,
        .removeByHandles [2], .drainFairBatch { now := 0 } 2, transferBy 4 .financial]
    (mp.stored.filter fun tx => !mp.expired 0 tx).map (·.txHandle) = [4] ∧
      (mp.drainFairBatch { now := 0 } 10).2 = [] := by
  decide +kernel

end Savitri.MempoolCore
