import Savitri.MempoolMoves

/-!
The index and the counters of the mempool agree with its queues in every reachable
state: each move writes the position, the count and the total that go with the queue it
changes.
-/
namespace Savitri.MempoolCore
open MempoolTypes MempoolAdmission SwapRemove Transition

structure Indexed (mp : Mempool) : Prop where
  sized : mp.readyIndex.length = mp.counts.length
  index : ∀ sender idx, mp.readyIndex[sender]?.join = some idx ↔
    mp.readyVec[idx]?.map ReadyQueue.senderId = some sender
  counted : ∀ rq ∈ mp.readyVec, mp.counts[rq.senderId]? = some rq.queue.length
  idle : ∀ sender, (∀ rq ∈ mp.readyVec, rq.senderId ≠ sender) → mp.counts[sender]?.getD 0 = 0
  total : mp.total = (mp.readyVec.map (·.queue.length)).sum

variable {idx : Nat}

section
variable {Item : Type} (items : List Item)

theorem getElem?_resize (length position : Nat) (fill : Item) (grows : items.length ≤ length) :
    (resize items length fill)[position]? =
      if position < items.length then items[position]?
      else if position < length then some fill else none := by
  rw [resize, List.take_of_length_le grows, List.getElem?_append, List.getElem?_replicate]
  by_cases inside : position < items.length
  · simp [inside]
  · by_cases below : position < length
    · have fits : position - items.length < length - items.length := by omega
      simp [inside, below, fits]
    · have beyond : ¬ position - items.length < length - items.length := by omega
      simp [inside, below, beyond]

theorem length_resize {length : Nat} {fill : Item} : (resize items length fill).length = length := by
  simp [resize]
  omega

theorem modify_eq_set {items : List Item} {item : Item}
    (found : items[idx]? = some item) {change : Item → Item} :
    items.modify idx change = items.set idx (change item) := by
  apply List.ext_getElem?
  intro position
  rw [List.getElem?_modify, List.getElem?_set]
  obtain ⟨inside, rfl⟩ := List.getElem?_eq_some_iff.mp found
  by_cases same : idx = position
  · subst same
    simp [inside]
  · simp [same]

end

namespace Indexed
variable {mp : Mempool}
variable {rq : ReadyQueue} {first second : Nat} {two : ReadyQueue}
variable (indexed : Indexed mp)
include indexed

theorem position (found : mp.readyVec[idx]? = some rq) : mp.readyIndex[rq.senderId]?.join = some idx :=
  (indexed.index rq.senderId idx).mpr (by simp [found])

theorem unique {one : ReadyQueue} (atFirst : mp.readyVec[first]? = some one)
    (atSecond : mp.readyVec[second]? = some two) (same : one.senderId = two.senderId) :
    first = second := by
  have here := indexed.position atFirst
  rw [same, indexed.position atSecond] at here
  exact (Option.some.inj here).symm

theorem sender_ne {one : ReadyQueue} (atFirst : mp.readyVec[first]? = some one)
    (atSecond : mp.readyVec[second]? = some two) (differs : first ≠ second) :
    one.senderId ≠ two.senderId :=
  fun same => differs (indexed.unique atFirst atSecond same)

variable {sender : SenderId}

theorem no_queue (absent : mp.readyIndex[sender]?.join = none) :
    ∀ rq ∈ mp.readyVec, rq.senderId ≠ sender := by
  intro rq member same
  obtain ⟨idx, found⟩ := List.getElem?_of_mem member
  have present := indexed.position found
  rw [same, absent] at present
  cases present

variable {next : Mempool}

theorem write (found : mp.readyVec[idx]? = some rq) (queue : List MempoolTx)
    (readyVec : next.readyVec = (mp.setQueue idx queue).readyVec)
    (readyIndex : next.readyIndex = mp.readyIndex)
    (counts : next.counts = mp.counts.set rq.senderId queue.length)
    (total : next.total + rq.queue.length = mp.total + queue.length) : Indexed next := by
  obtain ⟨front, back, split, atIdx, modified⟩ := exists_split found
  have written : next.readyVec = front ++ { rq with queue } :: back := readyVec.trans (modified _)
  have known := indexed.counted rq (List.mem_of_getElem? found)
  -- No other queue is this sender's, so the other counts stay.
  have apart : ∀ other ∈ front ++ back, other.senderId ≠ rq.senderId := by
    intro other member same
    rcases List.mem_append.mp member with inFront | inBack
    · obtain ⟨position, atPosition⟩ := List.getElem?_of_mem inFront
      have inside : position < front.length := (List.getElem?_eq_some_iff.mp atPosition).1
      have here : mp.readyVec[position]? = some other := by
        rw [split, List.getElem?_append_left inside, atPosition]
      exact absurd (indexed.unique here found same) (by omega)
    · obtain ⟨position, atPosition⟩ := List.getElem?_of_mem inBack
      have here : mp.readyVec[front.length + 1 + position]? = some other := by
        rw [split, List.getElem?_append_right (by omega)]
        simpa [show front.length + 1 + position - front.length = position + 1 by omega]
          using atPosition
      exact absurd (indexed.unique here found same) (by omega)
  have others : ∀ other ∈ front ++ back, next.counts[other.senderId]? = some other.queue.length := by
    intro other member
    rw [counts, List.getElem?_set_ne (Ne.symm (apart other member))]
    apply indexed.counted
    rw [split]
    rcases List.mem_append.mp member with inFront | inBack
    · simp [inFront]
    · simp [inBack]
  constructor
  · rw [readyIndex, counts, List.length_set]
    exact indexed.sized
  · intro sender other
    rw [readyIndex, indexed.index, readyVec, Mempool.setQueue, List.getElem?_modify]
    by_cases same : idx = other
    · subst same
      simp [found]
    · simp [same]
  · intro other member
    rw [written, List.mem_append, List.mem_cons] at member
    rcases member with inFront | rfl | inBack
    · exact others other (List.mem_append_left _ inFront)
    · obtain ⟨inside, _⟩ := List.getElem?_eq_some_iff.mp known
      simp [counts, inside]
    · exact others other (List.mem_append_right _ inBack)
  · intro sender none
    rw [written] at none
    have differs : rq.senderId ≠ sender := none { rq with queue } (by simp)
    rw [counts, List.getElem?_set_ne differs]
    apply indexed.idle
    intro other member
    rw [split, List.mem_append, List.mem_cons] at member
    rcases member with inFront | rfl | inBack
    · exact none other (by simp [inFront])
    · exact differs
    · exact none other (by simp [inBack])
  · have sum := indexed.total
    rw [written]
    rw [split] at sum
    simp only [List.map_append, List.map_cons, List.sum_append, List.sum_cons] at sum ⊢
    omega

theorem congr {other : Mempool} (readyVec : other.readyVec = mp.readyVec)
    (readyIndex : other.readyIndex = mp.readyIndex) (counts : other.counts = mp.counts)
    (total : other.total = mp.total) : Indexed other := by
  constructor
  · rw [readyIndex, counts]
    exact indexed.sized
  · rw [readyIndex, readyVec]
    exact indexed.index
  · rw [readyVec, counts]
    exact indexed.counted
  · rw [readyVec, counts]
    exact indexed.idle
  · rw [total, readyVec]
    exact indexed.total

omit indexed

section Moves
variable (indexed : Indexed mp)
include indexed

theorem drop {rq : ReadyQueue} {before after : List MempoolTx} {tx : MempoolTx}
    (found : mp.readyVec[idx]? = some rq) (split : rq.queue = before ++ tx :: after) :
    Indexed ((mp.forget rq.senderId tx).setQueue idx (before ++ after)) := by
  have known := indexed.counted rq (List.mem_of_getElem? found)
  have length : rq.queue.length = (before ++ after).length + 1 := by
    rw [split]
    simp
    omega
  have bounded : rq.queue.length ≤ mp.total := by
    rw [indexed.total]
    exact List.le_sum_of_mem (List.mem_map_of_mem (List.mem_of_getElem? found))
  apply indexed.write found (before ++ after)
  · rfl
  · rfl
  · change mp.counts.modify rq.senderId (· - 1) = _
    rw [modify_eq_set known, length]
    rfl
  · change mp.total - 1 + rq.queue.length = _
    omega

theorem index_removeReadyQueue {removed : ReadyQueue} (found : mp.readyVec[idx]? = some removed)
    (sender : SenderId) (position : Nat) :
    (mp.removeReadyQueue idx).readyIndex[sender]?.join = some position ↔
      (mp.removeReadyQueue idx).readyVec[position]?.map ReadyQueue.senderId = some sender := by
  obtain ⟨inside, _⟩ := List.getElem?_eq_some_iff.mp found
  have before := indexed.index sender position
  have owned : removed.senderId < mp.readyIndex.length := by
    have present := indexed.position found
    by_contra beyond
    rw [List.getElem?_eq_none (Nat.le_of_not_lt beyond)] at present
    cases present
  have apart : ∀ other rq, mp.readyVec[other]? = some rq → idx ≠ other →
      removed.senderId ≠ rq.senderId :=
    fun other rq atRq differs => indexed.sender_ne found atRq differs
  simp only [Mempool.removeReadyQueue, found, getElem?_swapRemove _ _ _ inside]
  by_cases last : idx = mp.readyVec.length - 1
  · rw [if_neg (not_not_intro last), List.getElem?_set]
    by_cases same : removed.senderId = sender
    · grind
    · rw [if_neg same, before]
      grind
  · obtain ⟨swapped, atLast⟩ : ∃ swapped, mp.readyVec[mp.readyVec.length - 1]? = some swapped :=
      ⟨_, List.getElem?_eq_getElem (by omega)⟩
    have moved := indexed.position atLast
    rw [if_pos last, if_pos (by omega), if_pos trivial, atLast]
    simp only [List.getElem?_set, List.length_set]
    by_cases same : swapped.senderId = sender
    · have one : ∀ rq, mp.readyVec[position]? = some rq → rq.senderId = sender →
          position = mp.readyVec.length - 1 :=
        fun rq atRq named => indexed.unique atRq atLast (named.trans same.symm)
      grind
    · grind

theorem dismantle (idle : mp.queueAt idx = []) : Indexed (mp.removeReadyQueue idx) := by
  cases found : mp.readyVec[idx]? with
  | none => simpa [Mempool.removeReadyQueue, found] using indexed
  | some removed =>
    have empty : removed.queue = [] := by rw [← queueAt_of_getElem? found, idle]
    have perm := perm_swapRemove found
    have known := indexed.counted removed (List.mem_of_getElem? found)
    have listed : ∀ rq, rq ∈ swapRemove mp.readyVec idx → rq ∈ mp.readyVec :=
      fun rq member => perm.subset (List.mem_cons_of_mem _ member)
    have vec : (mp.removeReadyQueue idx).readyVec = swapRemove mp.readyVec idx := by
      simp [Mempool.removeReadyQueue, found]
    have counts : (mp.removeReadyQueue idx).counts = mp.counts := by
      simp [Mempool.removeReadyQueue, found]
    have total : (mp.removeReadyQueue idx).total = mp.total := by
      simp [Mempool.removeReadyQueue, found]
    constructor
    · rw [counts, ← indexed.sized]
      simp only [Mempool.removeReadyQueue, found]
      split
      · split <;> simp
      · simp
    · exact indexed.index_removeReadyQueue found
    · rw [vec, counts]
      exact fun rq member => indexed.counted rq (listed rq member)
    · rw [vec, counts]
      intro sender none
      by_cases same : removed.senderId = sender
      · simp [← same, known, empty]
      · apply indexed.idle
        intro rq member
        rcases List.mem_cons.mp (perm.symm.subset member) with rfl | stays
        · exact same
        · exact none rq stays
    · have sum := (perm.map (·.queue.length)).sum_eq
      simp only [List.map_cons, List.sum_cons, empty, List.length_nil, Nat.zero_add] at sum
      rw [vec, total]
      exact indexed.total.trans sum.symm

theorem arrange {sort : List MempoolTx → List MempoolTx} (same : ∀ queue, (sort queue).Perm queue) :
    Indexed { mp with
      readyVec := mp.readyVec.map fun rq => { rq with queue := sort rq.queue } } := by
  constructor
  · exact indexed.sized
  · intro sender idx
    rw [indexed.index]
    simp [Function.comp_def]
  · intro rq member
    obtain ⟨old, oldMember, rfl⟩ := List.mem_map.mp member
    rw [indexed.counted old oldMember, (same old.queue).length_eq]
  · intro sender none
    apply indexed.idle
    intro rq member
    exact none { rq with queue := sort rq.queue } (List.mem_map.mpr ⟨rq, member, rfl⟩)
  · simp only [List.map_map, Function.comp_def, (same _).length_eq]
    exact indexed.total

omit indexed

theorem shrinks (move : Shrinks mp next) (indexed : Indexed mp) : Indexed next := by
  cases move with
  | drop idx rq before tx after found split => exact indexed.drop found split
  | dismantle idx idle => exact indexed.dismantle idle
  | arrange sort same => exact indexed.arrange same
  | rotate | stamp => exact indexed.congr rfl rfl rfl rfl

end Moves

variable (indexed : Indexed mp)
include indexed

theorem ensureIndexCapacity (sender : SenderId) :
    Indexed (mp.ensureIndexCapacity sender) ∧
      sender < (mp.ensureIndexCapacity sender).readyIndex.length := by
  unfold Mempool.ensureIndexCapacity
  have sized := indexed.sized
  split
  · have wide : mp.readyIndex.length ≤ max (max
        (max mp.readyIndex.length mp.counts.length * 2) (sender + 1)) 2 := by omega
    have wideCounts : mp.counts.length ≤ max (max
        (max mp.readyIndex.length mp.counts.length * 2) (sender + 1)) 2 := by omega
    refine ⟨⟨?_, ?_, ?_, ?_, indexed.total⟩, ?_⟩
    · simp only [length_resize]
    · intro other idx
      rw [← indexed.index, getElem?_resize _ _ _ _ wide]
      grind
    · intro rq member
      have known := indexed.counted rq member
      rw [getElem?_resize _ _ _ _ wideCounts]
      grind
    · intro other none
      have known := indexed.idle other none
      rw [getElem?_resize _ _ _ _ wideCounts]
      grind
    · rw [length_resize]
      exact Nat.lt_of_lt_of_le (Nat.lt_succ_self sender) (le_max_of_le_left (le_max_right _ _))
  · next fits => exact ⟨indexed, Nat.lt_of_not_le fun beyond => fits (Or.inl beyond)⟩

theorem openQueue (inside : sender < mp.readyIndex.length)
    (absent : mp.readyIndex[sender]?.join = none) (queue : List MempoolTx)
    (readyVec : next.readyVec = mp.readyVec ++ [{ senderId := sender, queue }])
    (readyIndex : next.readyIndex = mp.readyIndex.set sender (some mp.readyVec.length))
    (counts : next.counts = mp.counts.set sender queue.length)
    (total : next.total = mp.total + queue.length) : Indexed next := by
  have others := indexed.no_queue absent
  have sized := indexed.sized
  constructor
  · rw [readyIndex, counts, List.length_set, List.length_set, sized]
  · intro other idx
    have before := indexed.index other idx
    have here : ∀ rq, mp.readyVec[idx]? = some rq → rq.senderId ≠ sender :=
      fun rq found => others rq (List.mem_of_getElem? found)
    rw [readyIndex, readyVec, List.getElem?_set, List.getElem?_append]
    grind
  · intro rq member
    rw [readyVec, List.mem_append, List.mem_singleton] at member
    rw [counts]
    rcases member with old | rfl
    · rw [List.getElem?_set_ne (Ne.symm (others rq old))]
      exact indexed.counted rq old
    · simp [← sized, inside]
  · intro other none
    rw [readyVec] at none
    have differs : sender ≠ other := none { senderId := sender, queue } (by simp)
    rw [counts, List.getElem?_set_ne differs]
    exact indexed.idle other fun rq member => none rq (List.mem_append_left _ member)
  · rw [total, readyVec, indexed.total]
    simp

theorem getOrCreateQueue (inside : sender < mp.readyIndex.length) :
    Indexed (mp.getOrCreateQueue sender).1 ∧
      ∃ queue, (mp.getOrCreateQueue sender).1.readyVec[(mp.getOrCreateQueue sender).2]? =
        some { senderId := sender, queue } := by
  unfold Mempool.getOrCreateQueue
  cases position : mp.readyIndex[sender]?.join with
  | some idx =>
    have named := (indexed.index sender idx).mp position
    obtain ⟨rq, found, same⟩ := Option.map_eq_some_iff.mp named
    exact ⟨indexed, rq.queue, by rw [found, ← same]⟩
  | none =>
    constructor
    · apply indexed.openQueue inside position []
      · rfl
      · rfl
      · have known := indexed.idle sender (indexed.no_queue position)
        have sized := indexed.sized
        apply List.ext_getElem?
        intro other
        rw [List.getElem?_set]
        grind
      · rfl
    · exact ⟨[], by simp⟩

theorem appendTo {queue : List MempoolTx} (tx : MempoolTx)
    (found : mp.readyVec[idx]? = some { senderId := tx.senderId, queue }) :
    Indexed (mp.appendTo idx tx) := by
  have known := indexed.counted _ (List.mem_of_getElem? found)
  have pushed : Indexed { mp.setQueue idx (queue ++ [tx]) with
      total := mp.total + 1
      counts := mp.counts.modify tx.senderId (· + 1) } := by
    apply indexed.write found (queue ++ [tx])
    · rfl
    · rfl
    · simp only
      rw [modify_eq_set known]
      simp
    · simp
      omega
  simp only [Mempool.appendTo, queueAt_of_getElem? found]
  split
  · exact pushed.congr rfl rfl rfl rfl
  · exact pushed

theorem enqueue (tx : MempoolTx) : Indexed (mp.enqueue tx) := by
  obtain ⟨roomy, inside⟩ := indexed.ensureIndexCapacity tx.senderId
  obtain ⟨opened, queue, found⟩ := roomy.getOrCreateQueue inside
  exact opened.appendTo tx found

theorem putBack (tx : MempoolTx) (inside : tx.senderId < mp.readyIndex.length) :
    Indexed (mp.putBack tx) := by
  unfold Mempool.putBack
  cases position : mp.readyIndex[tx.senderId]?.join with
  | some idx =>
    have named := (indexed.index tx.senderId idx).mp position
    obtain ⟨rq, found, same⟩ := Option.map_eq_some_iff.mp named
    have known := indexed.counted rq (List.mem_of_getElem? found)
    have within : idx < mp.readyVec.length := (List.getElem?_eq_some_iff.mp found).1
    simp only [within, ↓reduceIte, queueAt_of_getElem? found]
    apply indexed.write found (tx :: rq.queue)
    · rfl
    · rfl
    · simp only [← same]
      rw [modify_eq_set known]
      simp
    · simp
      omega
  | none =>
    apply indexed.openQueue inside position [tx]
    · rfl
    · rfl
    · rfl
    · rfl

theorem restoreDrainedTx (tx : MempoolTx) : Indexed (mp.restoreDrainedTx tx) := by
  obtain ⟨roomy, inside⟩ := indexed.ensureIndexCapacity tx.senderId
  exact (roomy.putBack tx inside).congr rfl rfl rfl rfl

end Indexed

theorem indexed_kept : Kept Indexed where
  shrinks move indexed := indexed.shrinks move
  adds mp env pv txHash fromRpc indexed := by
    rcases addPrevalidatedWithSource_cases mp env pv txHash fromRpc with ⟨_, same⟩ | ⟨_, same⟩
    · rw [same]
      apply Indexed.enqueue
      exact indexed.congr rfl rfl rfl rfl
    · rw [same]
      exact indexed.congr rfl rfl rfl rfl
  restores mp tx indexed := indexed.restoreDrainedTx tx
  promotes mp now nonceUpdates indexed := indexed.congr rfl rfl rfl rfl

variable {ttl : Nat} {now : Instant} {admission : AdmissionControl}

theorem indexed_fresh : Indexed (Mempool.fresh ttl now admission) := by
  constructor <;> simp [Mempool.fresh]

theorem indexed_run {operations : List Operation} :
    Indexed (run operate (Mempool.fresh ttl now admission) operations) :=
  run_invariant operate Indexed (fun mp operation before => indexed_kept.operate mp operation before)
    _ operations indexed_fresh

/-- In every reachable state the total is the number of stored transactions, a sender's
count is the length of its queue, the index names exactly the positions of the senders'
queues, and no sender has two. -/
theorem counters_agree (ttl : Nat) (now : Instant) (admission : AdmissionControl)
    (operations : List Operation) :
    let mp : Mempool := run operate (Mempool.fresh ttl now admission) operations
    mp.total = (mp.readyVec.map (·.queue.length)).sum ∧
      (∀ rq ∈ mp.readyVec, mp.counts[rq.senderId]? = some rq.queue.length) ∧
      (∀ sender, (∀ rq ∈ mp.readyVec, rq.senderId ≠ sender) → mp.counts[sender]?.getD 0 = 0) ∧
      (∀ (sender : SenderId) (idx : Nat), mp.readyIndex[sender]? = some (some idx) ↔
        ∃ rq : ReadyQueue, mp.readyVec[idx]? = some rq ∧ rq.senderId = sender) ∧
      (mp.readyVec.map (·.senderId)).Nodup := by
  intro mp
  have indexed : Indexed mp := indexed_run
  refine ⟨indexed.total, indexed.counted, indexed.idle, ?_, ?_⟩
  · intro sender idx
    have named := indexed.index sender idx
    rw [Option.map_eq_some_iff] at named
    rw [← named, Option.join_eq_some_iff]
  · rw [List.nodup_iff_getElem?_ne_getElem?]
    intro first second before inside same
    rw [List.length_map] at inside
    have atFirst := List.getElem?_eq_getElem (show first < mp.readyVec.length by omega)
    have atSecond := List.getElem?_eq_getElem inside
    simp only [List.getElem?_map, atFirst, atSecond, Option.map_some, Option.some.injEq] at same
    exact absurd (indexed.unique atFirst atSecond same) (by omega)

end Savitri.MempoolCore
