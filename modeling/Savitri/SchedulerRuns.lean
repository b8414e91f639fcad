import Savitri.SchedulerAdmission

/-!
What a drain, a wake-up and a collection do to the blocks held, and from it what
a whole run keeps: where a block that is still open can be found. A drain that
rejects a block drops it from the queue and leaves its status as it was, so
nothing holds the block any more.
-/
namespace Savitri.SchedulerRuns
open Std Transition BlockExecution ConflictKeys Scheduler CommitScheduler SchedulerAdmission
variable {other hash : BlockHash} {scheduler base : CommitScheduler} {draining : Draining}
  {block : ExecutedBlockMeta} {keepHeight : Nat}

section
structure SameSets (before after : CommitScheduler) : Prop where
  sets : after.conflictSets = before.conflictSets
  ofBlock : after.blockConflictSets = before.blockConflictSets
  nextId : after.nextConflictId = before.nextConflictId

theorem SameSets.refl (scheduler : CommitScheduler) : SameSets scheduler scheduler :=
  ⟨rfl, rfl, rfl⟩

theorem SameSets.trans {first second third : CommitScheduler} (early : SameSets first second)
    (late : SameSets second third) : SameSets first third :=
  ⟨late.sets.trans early.sets, late.ofBlock.trans early.ofBlock, late.nextId.trans early.nextId⟩

variable {before after : CommitScheduler}

theorem keyed_of_bodies (settled : Settled before)
    (bodies : ∀ hash, bodyAt after hash = bodyAt before hash) (hash : BlockHash)
    (block : ExecutedBlockMeta) (found : after.blockMeta[hash]? = some block) :
    block.blockHash = hash := by
  have same := bodies hash
  rw [bodyAt, bodyAt, found] at same
  rcases Option.map_eq_some_iff.mp same.symm with ⟨earlier, held, equal⟩
  exact (congrArg ExecutedBlockMeta.blockHash equal).symm.trans (settled.keyed hash earlier held)

theorem SameSets.settled (same : SameSets before after)
    (bodies : ∀ hash, bodyAt after hash = bodyAt before hash) (settled : Settled before) :
    Settled after := by
  constructor
  · rw [same.sets]
    exact settled.resolved
  · rw [same.sets, same.nextId]
    exact settled.bounded
  · intro hash id member
    rw [setsOf, same.ofBlock] at member
    rw [same.nextId]
    exact settled.indexed hash id member
  · exact keyed_of_bodies settled bodies

theorem Settled.hasUnresolved (settled : Settled scheduler) (hash : BlockHash) :
    scheduler.hasUnresolved hash = false := by
  rw [CommitScheduler.hasUnresolved, List.any_eq_false]
  intro id _
  cases found : scheduler.conflictSets[id]? with
  | none => simp
  | some set => simp [settled.resolved id set found]

variable (scheduler)

def Live (hash : BlockHash) : Prop :=
  ∃ block, scheduler.blockMeta[hash]? = some block ∧ block.status.closed = false

def Waiting (hash : BlockHash) : Prop :=
  ∃ (account : Address) (hashes : List BlockHash),
    scheduler.deferredByNonce[account]? = some hashes ∧ hash ∈ hashes

end

section Drain
structure Drained (base : CommitScheduler) (draining : Draining) : Prop where
  queue : draining.scheduler.readyQueue = base.readyQueue
  waiting : draining.scheduler.deferredByNonce = base.deferredByNonce
  sets : SameSets base draining.scheduler
  ledger : ∀ hash, draining.scheduler.blockMeta[hash]? = base.blockMeta[hash]? ∨
    ∃ block, base.blockMeta[hash]? = some block ∧ block.status.closed = false ∧
      draining.scheduler.blockMeta[hash]? = some { block with status := .committed } ∧
      hash ∈ draining.scheduler.committedBlocks
  earlier : ∀ hash ∈ base.committedBlocks, hash ∈ draining.scheduler.committedBlocks
  committed : ∀ entry ∈ draining.committed, Live base entry.1
  toDefer : ∀ hash ∈ draining.toDefer.map Prod.fst, Live base hash

variable (storage : Accounts) (scheduler : CommitScheduler) (entries : List (BlockHash × Address))
  (base : CommitScheduler) (draining : Draining) (hash : BlockHash) (queue : List BlockHash)
  (other : BlockHash)

theorem drained_start : Drained base { scheduler := base } where
  queue := rfl
  waiting := rfl
  sets := SameSets.refl base
  ledger _ := Or.inl rfl
  earlier _ member := member
  committed _ member := absurd member List.not_mem_nil
  toDefer _ member := absurd member List.not_mem_nil

theorem Drained.open_before {base : CommitScheduler} {draining : Draining}
    (drained : Drained base draining) {hash : BlockHash}
    (found : draining.scheduler.blockMeta[hash]? = some block)
    (isOpen : block.status.closed = false) : base.blockMeta[hash]? = some block := by
  rcases drained.ledger hash with same | ⟨earlier, _, _, closed, _⟩
  · rw [← same]
    exact found
  · rw [closed] at found
    rw [← Option.some.inj found] at isOpen
    cases isOpen

theorem Drained.bodies {base : CommitScheduler} {draining : Draining}
    (drained : Drained base draining) (hash : BlockHash) :
    bodyAt draining.scheduler hash = bodyAt base hash := by
  rw [bodyAt, bodyAt]
  rcases drained.ledger hash with same | ⟨block, held, _, done, _⟩
  · rw [same]
  · rw [done, held]
    rfl

theorem commitOne_drained (drained : Drained base draining)
    (found : draining.scheduler.blockMeta[hash]? = some block)
    (isOpen : block.status.closed = false) : Drained base (commitOne draining hash block) := by
  have before := drained.open_before found isOpen
  simp only [commitOne]
  constructor
  · exact drained.queue
  · exact drained.waiting
  · exact ⟨drained.sets.sets, drained.sets.ofBlock, drained.sets.nextId⟩
  · intro other
    rw [ExtTreeMap.getElem?_insert]
    by_cases here : hash = other
    · subst other
      rw [if_pos (by simp)]
      exact Or.inr ⟨block, before, isOpen, rfl, List.mem_insert_self⟩
    · rw [if_neg (by simpa using here)]
      rcases drained.ledger other with same | ⟨held, stored, live, done, member⟩
      · exact Or.inl same
      · exact Or.inr ⟨held, stored, live, done, List.mem_insert_of_mem member⟩
  · intro other member
    exact List.mem_insert_of_mem (drained.earlier other member)
  · intro entry member
    rcases List.mem_append.mp member with earlier | last
    · exact drained.committed entry earlier
    · rw [List.mem_singleton] at last
      subst last
      exact ⟨block, before, isOpen⟩
  · exact drained.toDefer

theorem drainOne_drained (drained : Drained base draining) :
    Drained base (drainOne storage draining hash) := by
  rcases drainOne_cases with ⟨idle, _⟩ | ⟨block, found, isOpen, _, ⟨_, idle⟩ |
    ⟨account, _, deferred⟩ | ⟨_, commits⟩⟩
  · rw [idle]
    exact drained
  · rw [idle]
    exact drained
  · rw [deferred]
    constructor
    · exact drained.queue
    · exact drained.waiting
    · exact drained.sets
    · exact drained.ledger
    · exact drained.earlier
    · exact drained.committed
    · intro other member
      rw [List.map_append, List.mem_append] at member
      rcases member with earlier | last
      · exact drained.toDefer other earlier
      · rw [List.map_singleton, List.mem_singleton] at last
        rw [last]
        exact ⟨block, drained.open_before found isOpen, isOpen⟩
  · rw [commits]
    exact commitOne_drained base draining hash drained found isOpen

theorem drainLoop_drained : Drained base (queue.foldl (drainOne storage) { scheduler := base }) := by
  apply List.foldlRecOn (motive := fun draining => Drained base draining)
  · exact drained_start base
  · intro draining drained hash _
    exact drainOne_drained storage base draining hash drained

def Handled (draining : Draining) (hash : BlockHash) : Prop :=
  hash ∈ draining.scheduler.committedBlocks ∨ hash ∈ draining.toDefer.map Prod.fst

theorem drainOne_handled (handled : Handled draining other) :
    Handled (drainOne storage draining hash) other := by
  rcases drainOne_cases with ⟨idle, _⟩ | ⟨block, _, _, _, ⟨_, idle⟩ |
    ⟨account, _, deferred⟩ | ⟨_, commits⟩⟩
  · rw [idle]
    exact handled
  · rw [idle]
    exact handled
  · rw [deferred]
    rcases handled with done | later
    · exact Or.inl done
    · rw [Handled, List.map_append]
      exact Or.inr (List.mem_append_left _ later)
  · rw [commits]
    rcases handled with done | later
    · exact Or.inl (List.mem_insert_of_mem done)
    · exact Or.inr later

theorem drainLoop_handled {draining : Draining} {other : BlockHash}
    (handled : Handled draining other) : Handled (queue.foldl (drainOne storage) draining) other := by
  apply List.foldlRecOn (motive := fun state => Handled state other)
  · exact handled
  · intro state before hash _
    exact drainOne_handled storage state hash other before

theorem drainOne_frame (differ : hash ≠ other) :
    (drainOne storage draining hash).scheduler.blockMeta[other]? =
        draining.scheduler.blockMeta[other]? ∧
      (Handled (drainOne storage draining hash) other ↔ Handled draining other) := by
  rcases drainOne_cases with ⟨idle, _⟩ | ⟨block, _, _, _, ⟨_, idle⟩ |
    ⟨account, _, deferred⟩ | ⟨_, commits⟩⟩
  · rw [idle]
    exact ⟨rfl, Iff.rfl⟩
  · rw [idle]
    exact ⟨rfl, Iff.rfl⟩
  · rw [deferred]
    simp [Handled, differ.symm]
  · rw [commits]
    simp [Handled, commitOne, ExtTreeMap.getElem?_insert, differ, differ.symm]

theorem drainLoop_frame (draining : Draining) {other : BlockHash} (outside : other ∉ queue) :
    (queue.foldl (drainOne storage) draining).scheduler.blockMeta[other]? =
        draining.scheduler.blockMeta[other]? ∧
      (Handled (queue.foldl (drainOne storage) draining) other ↔ Handled draining other) := by
  induction queue generalizing draining with
  | nil => exact ⟨rfl, Iff.rfl⟩
  | cons hash rest ih =>
    rw [List.mem_cons, not_or] at outside
    rcases drainOne_frame storage draining hash other (Ne.symm outside.1) with ⟨meta', handled⟩
    rcases ih (drainOne storage draining hash) outside.2 with ⟨later, after⟩
    exact ⟨later.trans meta', after.trans handled⟩

theorem waiting_deferOne {entry : BlockHash × Address} {hash : BlockHash} :
    Waiting (deferOne scheduler entry) hash ↔ Waiting scheduler hash ∨ hash = entry.1 := by
  simp only [Waiting, deferOne, setStatus, ExtTreeMap.getElem?_insert]
  constructor
  · rintro ⟨account, hashes, stored, member⟩
    by_cases here : entry.2 = account
    · subst here
      rw [if_pos (by simp), Option.some.injEq] at stored
      rw [← stored, List.mem_append, List.mem_singleton] at member
      rcases member with earlier | same
      · cases held : scheduler.deferredByNonce[entry.2]? with
        | none => simp [held] at earlier
        | some list => exact Or.inl ⟨entry.2, list, held, by simpa [held] using earlier⟩
      · exact Or.inr same
    · rw [if_neg (by simpa using here)] at stored
      exact Or.inl ⟨account, hashes, stored, member⟩
  · rintro (⟨account, hashes, stored, member⟩ | same)
    · by_cases here : entry.2 = account
      · subst here
        exact ⟨entry.2, hashes ++ [entry.1], by simp [stored], List.mem_append_left _ member⟩
      · exact ⟨account, hashes, by simpa [here] using stored, member⟩
    · exact ⟨entry.2, (scheduler.deferredByNonce[entry.2]?).getD [] ++ [entry.1], by simp,
        List.mem_append_right _ (List.mem_singleton.mpr same)⟩

theorem waiting_deferAll (scheduler : CommitScheduler) {hash : BlockHash} :
    Waiting (entries.foldl deferOne scheduler) hash ↔
      Waiting scheduler hash ∨ hash ∈ entries.map Prod.fst := by
  induction entries generalizing scheduler with
  | nil => simp
  | cons entry rest ih =>
    rw [List.foldl_cons, ih, waiting_deferOne, List.map_cons, List.mem_cons, or_assoc]

theorem deferAll_frame {scheduler : CommitScheduler} :
    SameSets scheduler (entries.foldl deferOne scheduler) ∧
      (entries.foldl deferOne scheduler).readyQueue = scheduler.readyQueue := by
  apply List.foldlRecOn (motive := fun state =>
    SameSets scheduler state ∧ state.readyQueue = scheduler.readyQueue)
  · exact ⟨SameSets.refl scheduler, rfl⟩
  · intro state before entry _
    exact ⟨before.1.trans ⟨rfl, rfl, rfl⟩, before.2⟩

theorem getElem?_deferAll (scheduler : CommitScheduler) (hash : BlockHash) :
    (entries.foldl deferOne scheduler).blockMeta[hash]? =
      if hash ∈ entries.map Prod.fst then
        (scheduler.blockMeta[hash]?).map fun block => { block with status := .deferred }
      else scheduler.blockMeta[hash]? := by
  induction entries generalizing scheduler with
  | nil => simp
  | cons entry rest ih =>
    have first : (deferOne scheduler entry).blockMeta[hash]? =
        if entry.1 = hash then
          (scheduler.blockMeta[hash]?).map fun block => { block with status := .deferred }
        else scheduler.blockMeta[hash]? := getElem?_setStatus scheduler entry.1 hash .deferred
    rw [List.foldl_cons, ih, first, List.map_cons]
    by_cases here : entry.1 = hash
    · subst here
      by_cases again : entry.1 ∈ rest.map Prod.fst
      · rw [if_pos again, if_pos rfl, if_pos List.mem_cons_self, Option.map_map]
        rfl
      · rw [if_neg again, if_pos rfl, if_pos List.mem_cons_self]
    · have elsewhere : hash ∈ entry.1 :: rest.map Prod.fst ↔ hash ∈ rest.map Prod.fst := by
        rw [List.mem_cons, or_iff_right (Ne.symm here)]
      simp only [if_neg here, elsewhere]

def drainLoop (storage : Accounts) (scheduler : CommitScheduler) : Draining :=
  scheduler.readyQueue.foldl (drainOne storage) { scheduler := { scheduler with readyQueue := [] } }

theorem drainReady_eq :
    scheduler.drainReady storage =
      ((drainLoop storage scheduler).toDefer.foldl deferOne (drainLoop storage scheduler).scheduler,
        (drainLoop storage scheduler).committed) := rfl

theorem drainLoop_spec : Drained { scheduler with readyQueue := [] } (drainLoop storage scheduler) :=
  drainLoop_drained storage { scheduler with readyQueue := [] } scheduler.readyQueue

theorem drainReady_sameSets : SameSets scheduler (scheduler.drainReady storage).1 := by
  have loop := (drainLoop_spec storage scheduler).sets
  rw [drainReady_eq]
  exact SameSets.trans ⟨loop.sets, loop.ofBlock, loop.nextId⟩ (deferAll_frame _).1

theorem drainReady_bodies : bodyAt (scheduler.drainReady storage).1 hash = bodyAt scheduler hash := by
  rw [drainReady_eq, (deferAll_kept _ _).bodies]
  exact (drainLoop_spec storage scheduler).bodies hash

theorem drainReady_settled (settled : Settled scheduler) : Settled (scheduler.drainReady storage).1 :=
  (drainReady_sameSets storage scheduler).settled (drainReady_bodies storage scheduler) settled

theorem drainReady_closed (closed : ¬ Live scheduler hash) :
    (scheduler.drainReady storage).1.blockMeta[hash]? = scheduler.blockMeta[hash]? ∧
      ∀ entry ∈ (scheduler.drainReady storage).2, entry.1 ≠ hash := by
  have loop := drainLoop_spec storage scheduler
  rw [drainReady_eq]
  constructor
  · rw [getElem?_deferAll, if_neg fun member => closed (loop.toDefer hash member)]
    rcases loop.ledger hash with same | ⟨block, held, isOpen, _⟩
    · exact same
    · exact absurd ⟨block, held, isOpen⟩ closed
  · intro entry member same
    exact closed (same ▸ loop.committed entry member)

end Drain

section Upkeep
variable {base : CommitScheduler} (order : IterationOrder) (storage : Accounts) (hash : BlockHash)
  (block : ExecutedBlockMeta)

theorem waiting_wakeOne :
    Waiting (wakeOne scheduler hash) other ↔ Waiting scheduler other ∧ other ≠ hash := by
  simp only [Waiting, wakeOne, setStatus, pushReady, ExtTreeMap.getElem?_map, Option.map_eq_some_iff]
  constructor
  · rintro ⟨account, _, ⟨hashes, stored, rfl⟩, member⟩
    rw [List.mem_filter, bne_iff_ne] at member
    exact ⟨⟨account, hashes, stored, member.1⟩, member.2⟩
  · rintro ⟨⟨account, hashes, stored, member⟩, differ⟩
    exact ⟨account, _, ⟨hashes, stored, rfl⟩, List.mem_filter.mpr ⟨member, by simpa using differ⟩⟩

structure Woken (base : CommitScheduler) (hashes : List BlockHash) (state : CommitScheduler) :
    Prop where
  queue : state.readyQueue = base.readyQueue ++ hashes
  sets : SameSets base state
  waiting : ∀ hash, Waiting state hash ↔ Waiting base hash ∧ hash ∉ hashes
  ledger : ∀ hash, hash ∉ hashes → state.blockMeta[hash]? = base.blockMeta[hash]?
  accepted : ∀ hash ∈ hashes, ∀ block, state.blockMeta[hash]? = some block →
    block.status = .accepted

theorem wakeOne_woken {hashes : List BlockHash} {state : CommitScheduler} {hash : BlockHash}
    (woken : Woken base hashes state) : Woken base (hashes ++ [hash]) (wakeOne state hash) := by
  constructor
  · simp [wakeOne, setStatus, pushReady, woken.queue]
  · exact ⟨woken.sets.sets, woken.sets.ofBlock, woken.sets.nextId⟩
  · intro other
    rw [waiting_wakeOne, woken.waiting, List.mem_append, List.mem_singleton, not_or, and_assoc]
  · intro other outside
    rw [List.mem_append, List.mem_singleton, not_or] at outside
    have here : (wakeOne state hash).blockMeta[other]? = _ :=
      getElem?_setStatus state hash other .accepted
    rw [here, if_neg (Ne.symm outside.2)]
    exact woken.ledger other outside.1
  · intro other member block found
    have here : (wakeOne state hash).blockMeta[other]? = _ :=
      getElem?_setStatus state hash other .accepted
    rw [here] at found
    by_cases same : hash = other
    · rw [if_pos same, Option.map_eq_some_iff] at found
      rcases found with ⟨earlier, _, rfl⟩
      rfl
    · rw [if_neg same] at found
      rw [List.mem_append, List.mem_singleton, or_iff_left (Ne.symm same)] at member
      exact woken.accepted other member block found

theorem wakeAll_woken (done todo : List BlockHash) (state : CommitScheduler)
    (woken : Woken base done state) : Woken base (done ++ todo) (todo.foldl wakeOne state) := by
  induction todo generalizing done state with
  | nil =>
    rw [List.append_nil]
    exact woken
  | cons hash rest ih =>
    have next := ih (done ++ [hash]) (wakeOne state hash) (wakeOne_woken woken)
    rw [List.append_assoc, List.singleton_append] at next
    exact next

theorem woken_start : Woken base [] base where
  queue := (List.append_nil _).symm
  sets := SameSets.refl base
  waiting _ := by simp
  ledger _ _ := rfl
  accepted _ member := absurd member List.not_mem_nil

/-- Dropping the empty lists at the end loses no waiting block. -/
theorem wakeDeferred_woken (scheduler : CommitScheduler) :
    Woken scheduler (scheduler.wokenBlocks order storage)
      (scheduler.wakeDeferred order storage) := by
  have loop := wakeAll_woken [] (scheduler.wokenBlocks order storage) scheduler
    woken_start
  rw [List.nil_append] at loop
  constructor
  · exact loop.queue
  · exact ⟨loop.sets.sets, loop.sets.ofBlock, loop.sets.nextId⟩
  · intro hash
    rw [← loop.waiting]
    simp only [Waiting, wakeDeferred, ExtTreeMap.getElem?_filter', Option.filter_eq_some_iff]
    constructor
    · rintro ⟨account, hashes, ⟨stored, _⟩, member⟩
      exact ⟨account, hashes, stored, member⟩
    · rintro ⟨account, hashes, stored, member⟩
      refine ⟨account, hashes, ⟨stored, ?_⟩, member⟩
      cases hashes with
      | nil => cases member
      | cons _ _ => rfl
  · exact loop.ledger
  · exact loop.accepted

variable {order} {storage}

theorem mem_wokenBlocks {hash : BlockHash} :
    hash ∈ scheduler.wokenBlocks order storage ↔
      ∃ (account : Address) (hashes : List BlockHash),
        scheduler.deferredByNonce[account]? = some hashes ∧ hash ∈ hashes ∧
          scheduler.matchesCursor storage account hash = true := by
  simp only [wokenBlocks, List.mem_flatMap, (order.accounts.perm _).mem_iff, Prod.exists,
    ExtTreeMap.mem_toList_iff_getElem?_eq_some, List.mem_filter]

theorem wakeDeferred_settled (settled : Settled scheduler) :
    Settled (scheduler.wakeDeferred order storage) :=
  (wakeDeferred_woken order storage scheduler).sets.settled
    (wakeDeferred_kept order storage scheduler).bodies settled

variable {hash} {block}

theorem gc_found (found : (scheduler.gc keepHeight).blockMeta[hash]? = some block) :
    scheduler.blockMeta[hash]? = some block ∧ collectable keepHeight block = false := by
  rw [getElem?_gc, Option.filter_eq_some_iff] at found
  exact ⟨found.1, by simpa using found.2⟩

theorem gc_sets (id : Nat) (set : ConflictSet)
    (found : (scheduler.gc keepHeight).conflictSets[id]? = some set) :
    scheduler.conflictSets[id]? = some set := by
  simp only [gc, ExtTreeMap.getElem?_filter', Option.filter_eq_some_iff] at found
  exact found.1

theorem gc_committed (found : (scheduler.gc keepHeight).blockMeta[hash]? = some block) :
    hash ∈ (scheduler.gc keepHeight).committedBlocks ↔ hash ∈ scheduler.committedBlocks := by
  rcases gc_found found with ⟨held, kept⟩
  simp [gc, held, kept]

theorem gc_settled (settled : Settled scheduler) : Settled (scheduler.gc keepHeight) := by
  constructor
  · intro id set found
    exact settled.resolved id set (gc_sets id set found)
  · intro id set found
    exact settled.bounded id set (gc_sets id set found)
  · intro hash id member
    have filtered : ∀ (sets : Option (List Nat)) (keep : List Nat → Bool),
        id ∈ (sets.filter keep).getD [] → id ∈ sets.getD [] := by
      intro sets keep inside
      cases kept : sets.filter keep with
      | none => simp [kept] at inside
      | some ids =>
        rw [(Option.filter_eq_some_iff.mp kept).1]
        rw [kept] at inside
        exact inside
    simp only [setsOf, gc, ExtTreeMap.getElem?_filter'] at member
    exact settled.indexed hash id (filtered _ _ member)
  · intro hash block found
    exact settled.keyed hash block (gc_found found).1

theorem step_settled (call : Call) (settled : Settled scheduler) : Settled (step scheduler call).1 := by
  cases call with
  | admitBlock order block =>
    cases known : scheduler.isKnown block.blockHash with
    | true =>
      simp only [step, admitBlock_known known]
      exact settled
    | false => exact (admitBlock_admitted order scheduler block settled known).settled
  | drain storage => exact drainReady_settled storage scheduler settled
  | wake order storage => exact wakeDeferred_settled settled
  | gc keepHeight => exact gc_settled settled

end Upkeep

section Stranded
variable (scheduler)

def Findable (hash : BlockHash) : Prop :=
  hash ∈ scheduler.readyQueue ∨ Waiting scheduler hash ∨
    ∃ (id : Nat) (set : ConflictSet), scheduler.conflictSets[id]? = some set ∧
      set.resolved = false ∧ hash ∈ set.members

def NoneStranded : Prop :=
  ∀ (hash : BlockHash) (block : ExecutedBlockMeta), scheduler.blockMeta[hash]? = some block →
    hash ∉ scheduler.committedBlocks → block.status ≠ .resolvedLoser → Findable scheduler hash

/-- A popped block that the drain rejects while nothing else holds it. -/
structure Strands (storage : Accounts) (draining : Draining) (hash : BlockHash) : Prop where
  rejected : ∃ block, draining.scheduler.blockMeta[hash]? = some block ∧
    block.status.closed = false ∧
    checkTxs storage draining.scheduler.accountCursors block.signedTxs = .reject
  unhandled : ¬ Handled draining hash
  unheld : ¬ Waiting draining.scheduler hash

/-- No block is stranded at its last turn in the queue. -/
def DrainsClean (storage : Accounts) (scheduler : CommitScheduler) : Prop :=
  ∀ front hash back, scheduler.readyQueue = front ++ hash :: back → hash ∉ back →
    ¬ Strands storage (front.foldl (drainOne storage)
      { scheduler := { scheduler with readyQueue := [] } }) hash

def Clean : Call → Prop
  | .drain storage => DrainsClean storage scheduler
  | _ => True

structure Booked (scheduler : CommitScheduler) : Prop where
  settled : Settled scheduler
  committed : ∀ (hash : BlockHash) (block : ExecutedBlockMeta),
    scheduler.blockMeta[hash]? = some block → block.status = .committed →
    hash ∈ scheduler.committedBlocks
  rejected : ∀ (hash : BlockHash) (block : ExecutedBlockMeta),
    scheduler.blockMeta[hash]? = some block → block.status ≠ .rejected

theorem empty_booked : Booked {} := by
  constructor
  · exact empty_settled
  · simp
  · simp

variable {scheduler}

theorem Booked.isOpen (booked : Booked scheduler) (hash : BlockHash) (block : ExecutedBlockMeta)
    (found : scheduler.blockMeta[hash]? = some block)
    (uncommitted : hash ∉ scheduler.committedBlocks) (kept : block.status ≠ .resolvedLoser) :
    block.status.closed = false := by
  cases status : block.status with
  | committed => exact absurd (booked.committed hash block found status) uncommitted
  | rejected => exact absurd status (booked.rejected hash block found)
  | resolvedLoser => exact absurd status kept
  | pending | accepted | conflicting | resolvedWinner | deferred => rfl

theorem findable_iff (settled : Settled scheduler) (hash : BlockHash) :
    Findable scheduler hash ↔ hash ∈ scheduler.readyQueue ∨ Waiting scheduler hash := by
  constructor
  · rintro (queued | waiting | ⟨id, set, found, unresolved, _⟩)
    · exact Or.inl queued
    · exact Or.inr waiting
    · rw [settled.resolved id set found] at unresolved
      cases unresolved
  · rintro (queued | waiting)
    · exact Or.inl queued
    · exact Or.inr (Or.inl waiting)

theorem admitted_entry {next : CommitScheduler} (admitted : Admitted base block next)
    (absent : base.blockMeta[block.blockHash]? = none) (hash : BlockHash)
    (held : ExecutedBlockMeta) (found : next.blockMeta[hash]? = some held) :
    base.blockMeta[hash]? = some held ∨ held.status = .resolvedLoser ∨
      (held.status.closed = false ∧ hash ∈ next.readyQueue) := by
  by_cases own : hash = block.blockHash
  · subst own
    rcases admitted.self with ⟨status, stored, outcome, _⟩
    rw [stored, Option.some.injEq] at found
    subst found
    exact Or.inr outcome
  · by_cases rivals : ∃ other, Rival base block other ∧ other.blockHash = hash
    · rcases rivals with ⟨other, rival, rfl⟩
      rcases precedes_total other block (rival_differs base block absent other rival) with
        wins | loses
      · rcases admitted.winners other rival wins with ⟨stored, queued⟩
        rw [stored, Option.some.injEq] at found
        subst found
        exact Or.inr (Or.inr ⟨rfl, queued⟩)
      · rw [admitted.losers other rival loses, Option.some.injEq] at found
        subst found
        exact Or.inr (Or.inl rfl)
    · rw [admitted.others hash own fun other rival same => rivals ⟨other, rival, same⟩] at found
      exact Or.inl found

variable (storage : Accounts) {order : IterationOrder}

theorem admitBlock_booked (booked : Booked scheduler)
    (unknown : scheduler.isKnown block.blockHash = false) :
    Booked (scheduler.admitBlock order block).1 := by
  have admitted := admitBlock_admitted order scheduler block booked.settled unknown
  have entry := admitted_entry admitted (absent_of_unknown scheduler block unknown)
  constructor
  · exact admitted.settled
  · intro hash held found status
    rw [admitted.committed]
    rcases entry hash held found with same | loser | ⟨isOpen, _⟩
    · exact booked.committed hash held same status
    · cases status.symm.trans loser
    · cases status ▸ isOpen
  · intro hash held found status
    rcases entry hash held found with same | loser | ⟨isOpen, _⟩
    · exact booked.rejected hash held same status
    · cases status.symm.trans loser
    · cases status ▸ isOpen

theorem admitBlock_noneStranded (settled : Settled scheduler)
    (unknown : scheduler.isKnown block.blockHash = false) (found : NoneStranded scheduler) :
    NoneStranded (scheduler.admitBlock order block).1 := by
  have admitted := admitBlock_admitted order scheduler block settled unknown
  intro hash held stored uncommitted kept
  rw [admitted.committed] at uncommitted
  rcases admitted_entry admitted (absent_of_unknown scheduler block unknown) hash held stored with
    same | loser | ⟨_, queued⟩
  · rw [findable_iff admitted.settled, Waiting, admitted.deferred]
    rcases (findable_iff settled hash).mp (found hash held same uncommitted kept) with
      queued | waiting
    · exact Or.inl (admitted.queue hash queued)
    · exact Or.inr waiting
  · exact absurd loser kept
  · exact Or.inl queued

theorem drainReady_booked (booked : Booked scheduler) : Booked (scheduler.drainReady storage).1 := by
  have loop := drainLoop_spec storage scheduler
  have entry : ∀ (hash : BlockHash) (held : ExecutedBlockMeta),
      (scheduler.drainReady storage).1.blockMeta[hash]? = some held →
      held.status = .deferred ∨ scheduler.blockMeta[hash]? = some held ∨
        (held.status = .committed ∧
          hash ∈ (drainLoop storage scheduler).scheduler.committedBlocks) := by
    intro hash held found
    rw [drainReady_eq, getElem?_deferAll] at found
    split at found
    · rcases Option.map_eq_some_iff.mp found with ⟨earlier, _, rfl⟩
      exact Or.inl rfl
    · rcases loop.ledger hash with same | ⟨block, _, _, done, member⟩
      · rw [same] at found
        exact Or.inr (Or.inl found)
      · rw [done, Option.some.injEq] at found
        subst found
        exact Or.inr (Or.inr ⟨rfl, member⟩)
  constructor
  · exact drainReady_settled storage scheduler booked.settled
  · intro hash held found status
    rw [drainReady_eq, (deferAll_kept _ _).committed]
    rcases entry hash held found with deferred | same | ⟨_, member⟩
    · rw [status] at deferred
      cases deferred
    · exact loop.earlier hash (booked.committed hash held same status)
    · exact member
  · intro hash held found status
    rcases entry hash held found with deferred | same | ⟨committed, _⟩
    · rw [status] at deferred
      cases deferred
    · exact booked.rejected hash held same status
    · rw [status] at committed
      cases committed

theorem drainReady_waiting :
    Waiting (scheduler.drainReady storage).1 hash ↔ Waiting scheduler hash ∨
      hash ∈ (drainLoop storage scheduler).toDefer.map Prod.fst := by
  rw [drainReady_eq, waiting_deferAll, Waiting, (drainLoop_spec storage scheduler).waiting]
  rfl

theorem Strands.idle {storage : Accounts} (strands : Strands storage draining hash) :
    drainOne storage draining hash = draining := by
  rcases strands.rejected with ⟨block, found, isOpen, rejected⟩
  simp [drainOne, found, isOpen, rejected]

theorem strands_not_noneStranded (settled : Settled scheduler) {front : List BlockHash}
    {back : List BlockHash} (split : scheduler.readyQueue = front ++ hash :: back)
    (last : hash ∉ back) (strands : Strands storage (front.foldl (drainOne storage)
      { scheduler := { scheduler with readyQueue := [] } }) hash) :
    ¬ NoneStranded (scheduler.drainReady storage).1 := by
  intro found
  rcases strands.rejected with ⟨block, held, isOpen, _⟩
  have rest : drainLoop storage scheduler = back.foldl (drainOne storage)
      (front.foldl (drainOne storage) { scheduler := { scheduler with readyQueue := [] } }) := by
    rw [drainLoop, split, List.foldl_append, List.foldl_cons, strands.idle]
  rcases drainLoop_frame storage back _ last with ⟨stored, handled⟩
  rw [← rest] at stored handled
  have unhandled : ¬ Handled (drainLoop storage scheduler) hash := mt handled.mp strands.unhandled
  have outside := fun member => unhandled (Or.inr member)
  have entry : (scheduler.drainReady storage).1.blockMeta[hash]? = some block := by
    rw [drainReady_eq, getElem?_deferAll, if_neg outside, stored, held]
  have uncommitted : hash ∉ (scheduler.drainReady storage).1.committedBlocks := by
    rw [drainReady_eq, (deferAll_kept _ _).committed]
    exact fun member => unhandled (Or.inl member)
  have kept : block.status ≠ .resolvedLoser := by
    intro loser
    rw [loser] at isOpen
    cases isOpen
  rcases (findable_iff (drainReady_settled storage scheduler settled) hash).mp
    (found hash block entry uncommitted kept) with queued | waiting
  · rw [drainReady_eq, (deferAll_frame _).2, (drainLoop_spec storage scheduler).queue] at queued
    cases queued
  · rcases (drainReady_waiting storage).mp waiting with before | deferred
    · apply strands.unheld
      rw [Waiting, (drainLoop_drained storage { scheduler with readyQueue := [] } front).waiting]
      exact before
    · exact outside deferred

theorem exists_last_occurrence (queue : List BlockHash) (hash : BlockHash)
    (member : hash ∈ queue) : ∃ front back, queue = front ++ hash :: back ∧ hash ∉ back := by
  rcases List.eq_append_cons_of_mem (List.mem_reverse.mpr member) with ⟨back, front, split, fresh⟩
  refine ⟨front.reverse, back.reverse, ?_, by simpa using fresh⟩
  have reversed := congrArg List.reverse split
  simpa using reversed

theorem turn_cases (settled : Settled draining.scheduler)
    (found : draining.scheduler.blockMeta[hash]? = some block)
    (isOpen : block.status.closed = false) :
    Handled (drainOne storage draining hash) hash ∨ Waiting draining.scheduler hash ∨
      Strands storage draining hash := by
  rcases drainOne_cases with ⟨_, skipped⟩ | ⟨held, stored, _, _,
    ⟨rejected, idle⟩ | ⟨account, _, deferred⟩ | ⟨_, commits⟩⟩
  · rcases skipped block found with closed | unresolved
    · rw [isOpen] at closed
      cases closed
    · rw [Settled.hasUnresolved settled hash] at unresolved
      cases unresolved
  · rw [found, Option.some.injEq] at stored
    subst stored
    rw [idle]
    by_cases handled : Handled draining hash
    · exact Or.inl handled
    · by_cases waiting : Waiting draining.scheduler hash
      · exact Or.inr (Or.inl waiting)
      · exact Or.inr (Or.inr ⟨⟨block, found, isOpen, rejected⟩, handled, waiting⟩)
  · rw [deferred]
    exact Or.inl (Or.inr (by simp))
  · rw [commits]
    exact Or.inl (Or.inl List.mem_insert_self)

theorem drainReady_noneStranded (booked : Booked scheduler) (found : NoneStranded scheduler)
    (clean : DrainsClean storage scheduler) : NoneStranded (scheduler.drainReady storage).1 := by
  have settled := booked.settled
  have loop := drainLoop_spec storage scheduler
  intro hash block stored uncommitted kept
  rw [findable_iff (drainReady_settled storage scheduler settled), drainReady_waiting]
  rw [drainReady_eq, (deferAll_kept _ _).committed] at uncommitted
  by_cases deferred : hash ∈ (drainLoop storage scheduler).toDefer.map Prod.fst
  · exact Or.inr (Or.inr deferred)
  have unhandled : ¬ Handled (drainLoop storage scheduler) hash :=
    not_or.mpr ⟨uncommitted, deferred⟩
  rw [drainReady_eq, getElem?_deferAll, if_neg deferred] at stored
  rcases loop.ledger hash with same | ⟨_, _, _, _, member⟩
  · rw [same] at stored
    have before : hash ∉ scheduler.committedBlocks := fun member =>
      uncommitted (loop.earlier hash member)
    rcases (findable_iff settled hash).mp (found hash block stored before kept) with
      queued | waiting
    · -- The block has a last turn, and what happens there stays.
      rcases exists_last_occurrence scheduler.readyQueue hash queued with
        ⟨front, back, split, last⟩
      have turn := drainLoop_drained storage { scheduler with readyQueue := [] } front
      have rest : drainLoop storage scheduler = back.foldl (drainOne storage)
          (drainOne storage (front.foldl (drainOne storage)
            { scheduler := { scheduler with readyQueue := [] } }) hash) := by
        rw [drainLoop, split, List.foldl_append, List.foldl_cons]
      have after := fun handled => unhandled (rest ▸ drainLoop_handled storage back handled)
      rcases turn.ledger hash with unchanged | ⟨_, _, _, _, member⟩
      · rcases turn_cases storage (turn.sets.settled turn.bodies
          ⟨settled.resolved, settled.bounded, settled.indexed, settled.keyed⟩)
          (unchanged.trans stored) (booked.isOpen hash block stored before kept) with
          handled | waiting | strands
        · exact absurd handled after
        · rw [Waiting, turn.waiting] at waiting
          exact Or.inr (Or.inl waiting)
        · exact absurd strands (clean front hash back split last)
      · exact absurd (drainOne_handled storage _ hash hash (Or.inl member)) after
    · exact Or.inr (Or.inl waiting)
  · exact absurd member uncommitted

theorem wakeDeferred_booked {storage : Accounts} (booked : Booked scheduler) :
    Booked (scheduler.wakeDeferred order storage) := by
  have woken := wakeDeferred_woken order storage scheduler
  have asleep : ∀ (hash : BlockHash) (block : ExecutedBlockMeta),
      (scheduler.wakeDeferred order storage).blockMeta[hash]? = some block →
        block.status ≠ .accepted → scheduler.blockMeta[hash]? = some block := by
    intro hash block found settled
    rw [← woken.ledger hash fun awake => settled (woken.accepted hash awake block found)]
    exact found
  constructor
  · exact wakeDeferred_settled booked.settled
  · intro hash block found status
    rw [(wakeDeferred_kept order storage scheduler).committed]
    exact booked.committed hash block (asleep hash block found (by simp [status])) status
  · intro hash block found status
    exact booked.rejected hash block (asleep hash block found (by simp [status])) status

theorem wakeDeferred_noneStranded {storage : Accounts} (settled : Settled scheduler)
    (found : NoneStranded scheduler) : NoneStranded (scheduler.wakeDeferred order storage) := by
  have woken := wakeDeferred_woken order storage scheduler
  intro hash block stored uncommitted kept
  rw [(wakeDeferred_kept order storage scheduler).committed] at uncommitted
  rw [findable_iff (wakeDeferred_settled settled), woken.queue, List.mem_append, woken.waiting]
  by_cases awake : hash ∈ scheduler.wokenBlocks order storage
  · exact Or.inl (Or.inr awake)
  · rw [woken.ledger hash awake] at stored
    rcases (findable_iff settled hash).mp (found hash block stored uncommitted kept) with
      queued | waiting
    · exact Or.inl (Or.inl queued)
    · exact Or.inr ⟨waiting, awake⟩

theorem gc_booked (booked : Booked scheduler) : Booked (scheduler.gc keepHeight) := by
  constructor
  · exact gc_settled booked.settled
  · intro hash block found status
    rw [gc_committed found]
    exact booked.committed hash block (gc_found found).1 status
  · intro hash block found
    exact booked.rejected hash block (gc_found found).1

theorem gc_noneStranded (settled : Settled scheduler) (found : NoneStranded scheduler) :
    NoneStranded (scheduler.gc keepHeight) := by
  intro hash block stored uncommitted kept
  rw [gc_committed stored] at uncommitted
  rw [findable_iff (gc_settled settled)]
  exact (findable_iff settled hash).mp
    (found hash block (gc_found stored).1 uncommitted kept)

theorem step_booked (call : Call) (booked : Booked scheduler) : Booked (step scheduler call).1 := by
  cases call with
  | admitBlock order block =>
    cases known : scheduler.isKnown block.blockHash with
    | true =>
      simp only [step, admitBlock_known known]
      exact booked
    | false => exact admitBlock_booked booked known
  | drain storage => exact drainReady_booked storage booked
  | wake order storage => exact wakeDeferred_booked booked
  | gc keepHeight => exact gc_booked booked

theorem step_noneStranded_iff {call : Call} (booked : Booked scheduler)
    (found : NoneStranded scheduler) : NoneStranded (step scheduler call).1 ↔ Clean scheduler call := by
  have settled := booked.settled
  cases call with
  | admitBlock order block =>
    refine iff_of_true ?_ trivial
    cases known : scheduler.isKnown block.blockHash with
    | true =>
      simp only [step, admitBlock_known known]
      exact found
    | false => exact admitBlock_noneStranded settled known found
  | drain storage =>
    constructor
    · intro after front hash back split last strands
      exact strands_not_noneStranded storage settled split last strands after
    · exact drainReady_noneStranded storage booked found
  | wake order storage =>
    exact iff_of_true (wakeDeferred_noneStranded settled found) trivial
  | gc keepHeight =>
    exact iff_of_true (gc_noneStranded settled found) trivial

/-- No block is stranded anywhere in a run exactly when every drain of the run
is clean where it starts. -/
theorem no_block_stranded_iff (calls : List Call) :
    (∀ front back, calls = front ++ back → NoneStranded (run step {} front)) ↔
      Along step Clean {} calls := by
  have booked := fun front => run_invariant step Booked (fun _ => step_booked) _ front empty_booked
  constructor
  · intro every
    rw [along_iff_split]
    intro front call back split
    rw [← step_noneStranded_iff (booked front) (every front (call :: back) split), ← run_concat]
    exact every (front ++ [call]) back (by rw [split, List.append_assoc]; rfl)
  · intro clean front back split
    rw [split, along_append] at clean
    have kept := run_invariant_along step Clean
      (fun scheduler => Booked scheduler ∧ NoneStranded scheduler)
      (fun scheduler call before ok => ⟨step_booked call before.1,
        (step_noneStranded_iff before.1 before.2).mpr ok⟩)
      {} front ⟨empty_booked, by simp [NoneStranded]⟩ clean.1
    exact kept.2

def staleCalls : List Call :=
  [.admitBlock .plain (sampleMeta 1 1 [("aa", 0)]),
    .drain ((∅ : Accounts).insert (normalizeAddressBytes "aa") { nonce := 1 })]

/-- The drain rejects it, and it stays accepted with nothing left that holds it. -/
theorem stale_block_stranded :
    ∃ (hash : BlockHash) (block : ExecutedBlockMeta),
      (run step {} staleCalls).blockMeta[hash]? = some block ∧ block.status = .accepted ∧
      hash ∉ (run step {} staleCalls).committedBlocks ∧
      ¬ Findable (run step {} staleCalls) hash := by
  let hash : BlockHash := Vector.replicate 64 1
  have accepted : ((run step {} staleCalls).blockMeta[hash]?).map ExecutedBlockMeta.status =
      some .accepted := by decide +kernel
  rcases Option.map_eq_some_iff.mp accepted with ⟨block, found, status⟩
  refine ⟨hash, block, found, status, by decide +kernel, ?_⟩
  rw [findable_iff (run_invariant step Settled (fun _ => step_settled) _ staleCalls empty_settled)]
  have unqueued : (run step {} staleCalls).readyQueue = [] := by decide +kernel
  have undeferred : (run step {} staleCalls).deferredByNonce.isEmpty = true := by decide +kernel
  rintro (queued | ⟨account, hashes, stored, _⟩)
  · rw [unqueued] at queued
    cases queued
  · rw [ExtTreeMap.isEmpty_iff.mp undeferred] at stored
    simp at stored

/-- What every run leaves: no conflict set is open, and a stored block stands under its own
hash, is never marked rejected, and is marked committed only if it is recorded as such. -/
theorem books_kept (calls : List Call) :
    (∀ (id : Nat) (set : ConflictSet), (run step {} calls).conflictSets[id]? = some set →
      set.resolved = true) ∧
    ∀ (hash : BlockHash) (block : ExecutedBlockMeta),
      (run step {} calls).blockMeta[hash]? = some block →
        block.blockHash = hash ∧ block.status ≠ .rejected ∧
          (block.status = .committed → hash ∈ (run step {} calls).committedBlocks) := by
  have booked := run_invariant step Booked (fun _ => step_booked) _ calls empty_booked
  exact ⟨booked.settled.resolved, fun hash block stored => ⟨booked.settled.keyed hash block stored,
    booked.rejected hash block stored, booked.committed hash block stored⟩⟩

end Stranded

end Savitri.SchedulerRuns
