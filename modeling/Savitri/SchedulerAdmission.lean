import Savitri.Scheduler

/-!
What one admission does. Between calls every conflict set is resolved, so the
sets an admission opens are new and hold two members each: a live rival of the
new block, and the new block. All of them are resolved before the call returns,
in whatever order; the rivals come out as the comparison says, but the status
of the new block is that of the last set resolved.
-/
namespace Savitri.SchedulerAdmission
open Std ConflictKeys Scheduler CommitScheduler

section
def rank (block : ExecutedBlockMeta) : BlockMeta :=
  { blockHash := block.blockHash, topoRank := block.topoRank, pouScore := block.pouScore,
    height := block.height }

variable (first second : ExecutedBlockMeta)

def Precedes : Prop := compareMeta (rank first) (rank second) = .lt

def Conflicts : Prop := ∃ key ∈ first.conflictKeys, key ∈ second.conflictKeys

variable {first} {second}

theorem conflicts_symm (conflict : Conflicts first second) : Conflicts second first := by
  rcases conflict with ⟨key, inFirst, inSecond⟩
  exact ⟨key, inSecond, inFirst⟩

theorem precedes_trans {third : ExecutedBlockMeta} (early : Precedes first second)
    (late : Precedes second third) : Precedes first third :=
  TransCmp.lt_trans early late

theorem precedes_asymm (precedes : Precedes first second) : ¬ Precedes second first := by
  intro reverse
  have swapped := OrientedCmp.gt_of_lt precedes
  rw [Precedes] at reverse
  rw [reverse] at swapped
  cases swapped

variable (first) (second)

theorem precedes_total (differ : first.blockHash ≠ second.blockHash) :
    Precedes first second ∨ Precedes second first := by
  cases order : compareMeta (rank first) (rank second) with
  | lt => exact Or.inl order
  | gt => exact Or.inr (OrientedCmp.lt_of_gt order)
  | eq =>
    simp only [compareMeta, compareLex_eq_eq, compareOn] at order
    exact absurd (LawfulEqOrd.eq_of_compare order.2.2.2) differ

theorem chooseWinner_pair (first second : BlockMeta) :
    chooseWinner [first, second] =
      some (if compareMeta first second = .gt then second.blockHash else first.blockHash) := by
  simp only [chooseWinner, List.foldl_cons, List.foldl_nil]
  split <;> rfl

end

structure Settled (scheduler : CommitScheduler) : Prop where
  resolved : ∀ (id : Nat) (set : ConflictSet), scheduler.conflictSets[id]? = some set →
    set.resolved = true
  bounded : ∀ (id : Nat) (set : ConflictSet), scheduler.conflictSets[id]? = some set →
    id < scheduler.nextConflictId
  indexed : ∀ hash, ∀ id ∈ scheduler.setsOf hash, id < scheduler.nextConflictId
  keyed : ∀ (hash : BlockHash) (block : ExecutedBlockMeta),
    scheduler.blockMeta[hash]? = some block → block.blockHash = hash

theorem empty_settled : Settled {} := by
  constructor <;> simp [setsOf]

structure Rival (scheduler : CommitScheduler) (block other : ExecutedBlockMeta) : Prop where
  held : scheduler.blockMeta[other.blockHash]? = some other
  live : other.status.closed = false
  conflict : Conflicts block other

theorem rival_differs (scheduler : CommitScheduler) (block : ExecutedBlockMeta)
    (unknown : scheduler.blockMeta[block.blockHash]? = none) (other : ExecutedBlockMeta)
    (rival : Rival scheduler block other) : other.blockHash ≠ block.blockHash := by
  intro same
  have held := rival.held
  rw [same, unknown] at held
  cases held

theorem mem_conflictPairs (order : IterationOrder) {scheduler : CommitScheduler}
    {block : ExecutedBlockMeta} (settled : Settled scheduler)
    (unknown : scheduler.blockMeta[block.blockHash]? = none) (key : ConflictKey)
    (hash : BlockHash) :
    (key, hash) ∈ conflictPairs block.conflictKeys
        (existingEntries order scheduler block.blockHash) ↔
      ∃ other, Rival scheduler block other ∧ other.blockHash = hash ∧
        key ∈ block.conflictKeys ∧ key ∈ other.conflictKeys := by
  simp only [conflictPairs, existingEntries, List.mem_flatMap, List.mem_map, List.mem_filter,
    (order.blocks.perm _).mem_iff, ExtTreeMap.mem_toList_iff_getElem?_eq_some, Prod.exists,
    Prod.mk.injEq]
  constructor
  · rintro ⟨shared, inKeys, _, _, ⟨⟨_, other, ⟨stored, live⟩, rfl, rfl⟩, listed⟩, rfl, rfl⟩
    have named := settled.keyed _ _ stored
    rw [Bool.and_eq_true, Bool.not_eq_true'] at live
    have inOther : shared ∈ other.conflictKeys := by simpa using listed
    exact ⟨other, ⟨named.symm ▸ stored, live.2, shared, inKeys, inOther⟩, named, inKeys, inOther⟩
  · rintro ⟨other, rival, rfl, inKeys, inOther⟩
    refine ⟨key, inKeys, other.blockHash, other.conflictKeys,
      ⟨⟨other.blockHash, other, ⟨rival.held, ?_⟩, rfl, rfl⟩, by simpa using inOther⟩, rfl, rfl⟩
    simp [rival_differs scheduler block unknown other rival, rival.live]

variable {id : Nat} {pairs : List (ConflictKey × BlockHash)} {new : BlockHash}

section Opening
structure Opened (base : CommitScheduler) (new : BlockHash)
    (pairs : List (ConflictKey × BlockHash)) (state : CommitScheduler × List Nat) : Prop where
  blocks : state.1.blockMeta = base.blockMeta
  queue : state.1.readyQueue = base.readyQueue
  grows : base.nextConflictId ≤ state.1.nextConflictId
  old : ∀ id < base.nextConflictId, state.1.conflictSets[id]? = base.conflictSets[id]?
  fresh : ∀ (id : Nat) (set : ConflictSet), base.nextConflictId ≤ id →
    state.1.conflictSets[id]? = some set →
    id ∈ state.2 ∧ set.resolved = false ∧ ∃ pair ∈ pairs, set.members = [pair.2, new]
  listed : ∀ id ∈ state.2, base.nextConflictId ≤ id ∧ id < state.1.nextConflictId ∧
    ∃ set, state.1.conflictSets[id]? = some set
  bounded : ∀ (id : Nat) (set : ConflictSet), state.1.conflictSets[id]? = some set →
    id < state.1.nextConflictId
  indexed : ∀ hash, ∀ id ∈ state.1.setsOf hash, id < state.1.nextConflictId ∧
    ∀ set, base.nextConflictId ≤ id → state.1.conflictSets[id]? = some set → hash ∈ set.members
  covers : ∀ pair ∈ pairs, ∃ id ∈ state.2, ∃ set,
    state.1.conflictSets[id]? = some set ∧ set.members = [pair.2, new]
  distinct : state.2.Nodup

variable {base : CommitScheduler}
  {state : CommitScheduler × List Nat} {existing : BlockHash} {order : IterationOrder}

theorem opened_nil (settled : Settled base) :
    Opened base new [] (base, []) where
  blocks := rfl
  queue := rfl
  grows := Nat.le_refl _
  old _ _ := rfl
  fresh id set above found := absurd (settled.bounded id set found) (Nat.not_lt.mpr above)
  listed _ member := absurd member List.not_mem_nil
  bounded := settled.bounded
  indexed hash id member :=
    ⟨settled.indexed hash id member, fun _ above _ =>
      absurd (settled.indexed hash id member) (Nat.not_lt.mpr above)⟩
  covers _ member := absurd member List.not_mem_nil
  distinct := List.nodup_nil

theorem mem_setsOf_addToSets {sets : ExtTreeMap BlockHash (List Nat)} {hash other : BlockHash}
    {near : Nat} :
    near ∈ ((addToSets sets hash id)[other]?).getD [] ↔
      near ∈ (sets[other]?).getD [] ∨ (hash = other ∧ near = id) := by
  rw [addToSets, ExtTreeMap.getElem?_insert]
  by_cases here : hash = other
  · subst here
    simp [or_comm]
  · simp [here]

theorem Opened.openSet_pair (opened : Opened base new pairs state)
    (settled : Settled base) (differ : existing ≠ new)
    (isOpen : openSet state.1 existing id = true) :
    id ∈ state.2 ∧ ∃ set, state.1.conflictSets[id]? = some set ∧ set.members = [existing, new] := by
  unfold openSet at isOpen
  cases found : state.1.conflictSets[id]? with
  | none =>
    rw [found] at isOpen
    cases isOpen
  | some set =>
    simp only [found, Bool.and_eq_true, Bool.not_eq_true', List.contains_iff_mem] at isOpen
    have above : base.nextConflictId ≤ id := by
      by_contra below
      rw [opened.old id (Nat.not_le.mp below)] at found
      rw [settled.resolved id set found] at isOpen
      cases isOpen.2
    rcases opened.fresh id set above found with ⟨inIds, _, pair, _, members⟩
    have same : existing = pair.2 := by
      have member := isOpen.1
      rw [members, List.mem_cons, List.mem_singleton] at member
      rcases member with same | same
      · exact same
      · exact absurd same differ
    exact ⟨inIds, set, rfl, by rw [members, same]⟩

variable (scheduler : CommitScheduler)

def withSet (key : ConflictKey) (existing new : BlockHash) (index : ConflictKey → List Nat) :
    CommitScheduler :=
  { scheduler with
    nextConflictId := scheduler.nextConflictId + 1
    conflictSets := scheduler.conflictSets.insert scheduler.nextConflictId
      { id := scheduler.nextConflictId, key, members := [existing, new] }
    conflictKeyIndex := index
    blockConflictSets := addToSets (addToSets scheduler.blockConflictSets existing
      scheduler.nextConflictId) new scheduler.nextConflictId }

theorem getElem?_withSet (key : ConflictKey) (existing new : BlockHash)
    (index : ConflictKey → List Nat) (near : Nat) :
    (withSet scheduler key existing new index).conflictSets[near]? =
      if scheduler.nextConflictId = near then
        some { id := scheduler.nextConflictId, key, members := [existing, new] }
      else scheduler.conflictSets[near]? := by
  simp [withSet, ExtTreeMap.getElem?_insert]

theorem findOrCreate_cases (opened : Opened base new pairs state)
    (settled : Settled base) {key : ConflictKey} (differ : existing ≠ new) :
    (∃ id ∈ state.2, findOrCreateConflictSet order state.1 key existing new = (state.1, id) ∧
      ∃ set, state.1.conflictSets[id]? = some set ∧ set.members = [existing, new]) ∨
    ∃ index, findOrCreateConflictSet order state.1 key existing new =
      (withSet state.1 key existing new index, state.1.nextConflictId) := by
  unfold findOrCreateConflictSet
  cases search : (order.keyIds.order (state.1.conflictKeyIndex key)).find?
      (openSet state.1 existing) with
  | none => exact Or.inr ⟨_, rfl⟩
  | some id =>
    rcases opened.openSet_pair settled differ (List.find?_some search) with
      ⟨inIds, set, found, members⟩
    refine Or.inl ⟨id, inIds, ?_, set, found, members⟩
    simp [found, members]

section Pair
variable {base : CommitScheduler}
variable {state : CommitScheduler × List Nat} (opened : Opened base new pairs state)
  (pair : ConflictKey × BlockHash)
include opened

theorem Opened.reused (id : Nat) (inIds : id ∈ state.2) (set : ConflictSet)
    (stored : state.1.conflictSets[id]? = some set) (members : set.members = [pair.2, new]) :
    Opened base new (pairs ++ [pair]) state where
  blocks := opened.blocks
  queue := opened.queue
  grows := opened.grows
  old := opened.old
  fresh near other above stored := by
    rcases opened.fresh near other above stored with ⟨listed, unresolved, earlier, member, same⟩
    exact ⟨listed, unresolved, earlier, List.mem_append_left _ member, same⟩
  listed := opened.listed
  bounded := opened.bounded
  indexed := opened.indexed
  covers other member := by
    rcases List.mem_append.mp member with earlier | last
    · exact opened.covers other earlier
    · rw [List.mem_singleton] at last
      subst last
      exact ⟨id, inIds, set, stored, members⟩
  distinct := opened.distinct

variable (index : ConflictKey → List Nat)

theorem Opened.indexed_withSet (hash : BlockHash) (id : Nat)
    (member : id ∈ (withSet state.1 pair.1 pair.2 new index).setsOf hash) :
    id < state.1.nextConflictId + 1 ∧ ∀ set, base.nextConflictId ≤ id →
      (withSet state.1 pair.1 pair.2 new index).conflictSets[id]? = some set →
      hash ∈ set.members := by
  rw [setsOf, withSet, mem_setsOf_addToSets, mem_setsOf_addToSets] at member
  rcases member with (earlier | ⟨rfl, rfl⟩) | ⟨rfl, rfl⟩
  · rcases opened.indexed hash id earlier with ⟨below, holds⟩
    refine ⟨Nat.lt_succ_of_lt below, fun set above stored => ?_⟩
    rw [getElem?_withSet, if_neg (Nat.ne_of_gt below)] at stored
    exact holds set above stored
  · refine ⟨Nat.lt_succ_self _, fun set _ stored => ?_⟩
    rw [getElem?_withSet, if_pos rfl] at stored
    cases stored
    exact List.mem_cons_self
  · refine ⟨Nat.lt_succ_self _, fun set _ stored => ?_⟩
    rw [getElem?_withSet, if_pos rfl] at stored
    cases stored
    exact List.mem_cons_of_mem _ List.mem_cons_self

theorem Opened.created :
    Opened base new (pairs ++ [pair])
      (withSet state.1 pair.1 pair.2 new index, state.1.nextConflictId :: state.2) := by
  constructor
  · exact opened.blocks
  · exact opened.queue
  · exact Nat.le_succ_of_le opened.grows
  · intro near below
    rw [getElem?_withSet, if_neg (by have := opened.grows; omega)]
    exact opened.old near below
  · intro near other above stored
    rw [getElem?_withSet] at stored
    by_cases here : state.1.nextConflictId = near
    · rw [if_pos here] at stored
      cases stored
      exact ⟨here ▸ List.mem_cons_self, rfl, pair, by simp, rfl⟩
    · rw [if_neg here] at stored
      rcases opened.fresh near other above stored with
        ⟨listed, unresolved, earlier, member, same⟩
      exact ⟨List.mem_cons_of_mem _ listed, unresolved, earlier, List.mem_append_left _ member, same⟩
  · intro near member
    simp only [getElem?_withSet]
    rcases List.mem_cons.mp member with here | earlier
    · subst near
      exact ⟨opened.grows, Nat.lt_succ_self _, by simp⟩
    · rcases opened.listed near earlier with ⟨above, below, stored⟩
      exact ⟨above, Nat.lt_succ_of_lt below, by rw [if_neg (by omega)]; exact stored⟩
  · intro near other stored
    rw [getElem?_withSet] at stored
    by_cases here : state.1.nextConflictId = near
    · subst near
      exact Nat.lt_succ_self _
    · rw [if_neg here] at stored
      exact Nat.lt_succ_of_lt (opened.bounded near other stored)
  · exact opened.indexed_withSet pair index
  · intro other member
    simp only [getElem?_withSet]
    rcases List.mem_append.mp member with earlier | last
    · rcases opened.covers other earlier with ⟨near, inIds, set, stored, members⟩
      have below := (opened.listed near inIds).2.1
      exact ⟨near, List.mem_cons_of_mem _ inIds, set, by rw [if_neg (by omega)]; exact stored,
        members⟩
    · rw [List.mem_singleton] at last
      subst last
      exact ⟨_, List.mem_cons_self, _, if_pos rfl, rfl⟩
  · exact List.nodup_cons.mpr
      ⟨fun member => Nat.lt_irrefl _ (opened.listed _ member).2.1, opened.distinct⟩

end Pair

theorem openPair_opened (order : IterationOrder) (settled : Settled base)
    {pair : ConflictKey × BlockHash} (differ : pair.2 ≠ new)
      (opened : Opened base new pairs state) :
    Opened base new (pairs ++ [pair]) (openPair order new state pair) := by
  rcases findOrCreate_cases opened settled differ with
    ⟨id, inIds, found, set, stored, members⟩ | ⟨index, created⟩
  · rw [openPair, found]
    simp only [List.insert_of_mem inIds]
    exact opened.reused pair id inIds set stored members
  · have unlisted : state.1.nextConflictId ∉ state.2 := fun member =>
      Nat.lt_irrefl _ (opened.listed _ member).2.1
    rw [openPair, created]
    simp only [List.insert_of_not_mem unlisted]
    exact opened.created pair index

theorem openPairs_opened (settled : Settled base)
    (front : List (ConflictKey × BlockHash)) (differ : ∀ pair ∈ pairs, pair.2 ≠ new)
    (state : CommitScheduler × List Nat) (opened : Opened base new front state) :
    Opened base new (front ++ pairs) (pairs.foldl (openPair order new) state) := by
  induction pairs generalizing front state with
  | nil =>
    rw [List.append_nil]
    exact opened
  | cons pair rest ih =>
    rw [List.forall_mem_cons] at differ
    have next := openPair_opened order settled differ.1 opened
    have later := ih (front ++ [pair]) differ.2 _ next
    rw [List.append_assoc] at later
    exact later

end Opening

variable {rest : List Nat} {set : ConflictSet}

section Resolving
variable (other block : ExecutedBlockMeta)

def winnerOf : BlockHash :=
  if compareMeta (rank other) (rank block) = .gt then block.blockHash else other.blockHash

theorem winnerOf_lost {other block : ExecutedBlockMeta} (lost : Precedes other block) :
    winnerOf other block = other.blockHash := by
  rw [Precedes] at lost
  simp [winnerOf, lost]

theorem winnerOf_won (won : Precedes block other) : winnerOf other block = block.blockHash := by
  have order := OrientedCmp.gt_of_lt won
  simp [winnerOf, order]

/-- The sets while the new ones are resolved: those still to do hold a rival and
the new block, all others are resolved. -/
structure Sets (base : CommitScheduler) (block : ExecutedBlockMeta) (todo : List Nat)
    (state : CommitScheduler) : Prop where
  pending : ∀ id ∈ todo, ∃ set other, state.conflictSets[id]? = some set ∧
    set.resolved = false ∧ set.members = [other.blockHash, block.blockHash] ∧
    Rival base block other
  done : ∀ (id : Nat) (set : ConflictSet), state.conflictSets[id]? = some set → id ∉ todo →
    set.resolved = true ∧ (base.conflictSets[id]? = some set ∨
      ∃ other, Rival base block other ∧ set.members = [other.blockHash, block.blockHash] ∧
        set.winner = some (winnerOf other block))
  bounded : ∀ (id : Nat) (set : ConflictSet), state.conflictSets[id]? = some set →
    id < state.nextConflictId
  indexed : ∀ hash, ∀ id ∈ state.setsOf hash, id < state.nextConflictId ∧
    ∀ set, id ∈ todo → state.conflictSets[id]? = some set → hash ∈ set.members

def Awaits (todo : List Nat) (state : CommitScheduler) (hash : BlockHash) : Prop :=
  ∃ id ∈ todo, ∃ set, state.conflictSets[id]? = some set ∧ hash ∈ set.members

variable {base : CommitScheduler}

theorem Sets.allResolved {block : ExecutedBlockMeta} {todo : List Nat} {state : CommitScheduler}
    (sets : Sets base block todo state) (hash : BlockHash) (free : ¬ Awaits todo state hash) :
    state.allResolved hash = true := by
  rw [CommitScheduler.allResolved, List.all_eq_true]
  intro id member
  cases found : state.conflictSets[id]? with
  | none => rfl
  | some set =>
    by_cases open' : id ∈ todo
    · exact absurd ⟨id, open', set, found, (sets.indexed hash id member).2 set open' found⟩ free
    · exact (sets.done id set found open').1

def marked (state : CommitScheduler) (id : Nat) (set : ConflictSet) (winner : BlockHash) :
    CommitScheduler :=
  { state with
    conflictSets := state.conflictSets.insert id
      { set with resolved := true, winner := some winner } }

theorem marked_sets {block : ExecutedBlockMeta} (distinct : id ∉ rest)
    {state : CommitScheduler} (sets : Sets base block (id :: rest) state)
    {other : ExecutedBlockMeta} (found : state.conflictSets[id]? = some set)
    (members : set.members = [other.blockHash, block.blockHash]) (rival : Rival base block other) :
    Sets base block rest (marked state id set (winnerOf other block)) := by
  have lookup : ∀ near : Nat, (marked state id set (winnerOf other block)).conflictSets[near]? =
      if id = near then some { set with resolved := true, winner := some (winnerOf other block) }
      else state.conflictSets[near]? := by
    intro near
    simp [marked, ExtTreeMap.getElem?_insert]
  have apart : ∀ near ∈ rest, id ≠ near := fun near member same => distinct (same ▸ member)
  constructor
  · intro near member
    rw [lookup, if_neg (apart near member)]
    exact sets.pending near (List.mem_cons_of_mem _ member)
  · intro near held stored outside
    rw [lookup] at stored
    by_cases here : id = near
    · rw [if_pos here] at stored
      cases stored
      exact ⟨rfl, Or.inr ⟨other, rival, members, rfl⟩⟩
    · rw [if_neg here] at stored
      exact sets.done near held stored fun member =>
        (List.mem_cons.mp member).elim (fun same => here same.symm) outside
  · intro near held stored
    rw [lookup] at stored
    by_cases here : id = near
    · exact here ▸ sets.bounded id set found
    · rw [if_neg here] at stored
      exact sets.bounded near held stored
  · intro hash near member
    rcases sets.indexed hash near member with ⟨below, holds⟩
    refine ⟨below, fun held inRest stored => ?_⟩
    rw [lookup, if_neg (apart near inRest)] at stored
    exact holds held (List.mem_cons_of_mem _ inRest) stored

variable {state : CommitScheduler}
variable {other} {block}

theorem tryResolve_settles (found : state.conflictSets[id]? = some set)
    (unresolved : set.resolved = false) (members : set.members = [other.blockHash, block.blockHash])
    {otherStatus status : BlockStatus}
    (otherHeld : state.blockMeta[other.blockHash]? = some { other with status := otherStatus })
    (held : state.blockMeta[block.blockHash]? = some { block with status }) :
    state.tryResolveConflictSet id =
      set.members.foldl (settleMember (winnerOf other block))
        (marked state id set (winnerOf other block)) := by
  have candidates : set.members.filterMap state.candidate = [rank other, rank block] := by
    simp [members, candidate, otherHeld, held, rank]
  simp only [tryResolveConflictSet, found, unresolved, Bool.false_eq_true, if_false, candidates,
    chooseWinner_pair]
  rfl

theorem setStatus_comm {first second : BlockHash} (differ : first ≠ second)
    (one two : BlockStatus) (state : CommitScheduler) :
    (state.setStatus first one).setStatus second two =
      (state.setStatus second two).setStatus first one := by
  have same : ((state.setStatus first one).setStatus second two).blockMeta =
      ((state.setStatus second two).setStatus first one).blockMeta := by
    apply ExtTreeMap.ext_getElem?
    intro hash
    simp only [getElem?_setStatus]
    by_cases here : first = hash
    · simp [here ▸ differ.symm, here]
    · simp [here]
  exact congrArg (fun blockMeta => { state with blockMeta }) same

/-- The winner is queued unless another set still holds it, and the loser is marked,
whichever of the two comes first. -/
theorem foldl_settleMember {winner loser : BlockHash} (differ : winner ≠ loser)
    (state : CommitScheduler) :
    let settled := (if state.allResolved winner then
        (state.setStatus winner .resolvedWinner).pushReady winner
      else state).setStatus loser .resolvedLoser
    [winner, loser].foldl (settleMember winner) state = settled ∧
      [loser, winner].foldl (settleMember winner) state = settled := by
  simp only [List.foldl_cons, List.foldl_nil, settleMember, if_true, if_neg differ.symm, true_and]
  -- The sets are the same after the loser is marked.
  change (if state.allResolved winner then _ else _) = _
  split
  · rw [setStatus_comm differ.symm]
    rfl
  · rfl

end Resolving

variable {loser : ExecutedBlockMeta}

section Statuses
structure Statuses (base : CommitScheduler) (block : ExecutedBlockMeta) (todo : List Nat)
    (state : CommitScheduler) : Prop where
  queue : ∀ hash ∈ base.readyQueue, hash ∈ state.readyQueue
  others : ∀ hash, hash ≠ block.blockHash →
    (∀ other, Rival base block other → other.blockHash ≠ hash) →
    state.blockMeta[hash]? = base.blockMeta[hash]?
  winners : ∀ other, Rival base block other → Precedes other block →
    (state.blockMeta[other.blockHash]? = some other ∧ Awaits todo state other.blockHash) ∨
      (state.blockMeta[other.blockHash]? = some { other with status := .resolvedWinner } ∧
        other.blockHash ∈ state.readyQueue)
  losers : ∀ other, Rival base block other → Precedes block other →
    (state.blockMeta[other.blockHash]? = some other ∧ Awaits todo state other.blockHash) ∨
      state.blockMeta[other.blockHash]? = some { other with status := .resolvedLoser }
  self : ∃ status, state.blockMeta[block.blockHash]? = some { block with status } ∧
    (todo = [] → status = .resolvedLoser ∨
      (status = .resolvedWinner ∧ block.blockHash ∈ state.readyQueue)) ∧
    ((∀ other, Rival base block other → Precedes other block) → todo = [] →
      status = .resolvedLoser) ∧
    ((∀ other, Rival base block other → Precedes block other) → status ≠ .resolvedLoser)

theorem rival_unique {base : CommitScheduler} {block first second : ExecutedBlockMeta}
    (one : Rival base block first) (two : Rival base block second)
    (same : first.blockHash = second.blockHash) : first = second := by
  have held := one.held
  rw [same, two.held] at held
  exact (Option.some.inj held).symm

variable (base : CommitScheduler) (block : ExecutedBlockMeta)
  (unknown : base.blockMeta[block.blockHash]? = none)
variable {state : CommitScheduler} {winner hash : BlockHash}

theorem Statuses.rival_held {base : CommitScheduler} {block : ExecutedBlockMeta} {todo : List Nat}
    (statuses : Statuses base block todo state) (other : ExecutedBlockMeta)
    (rival : Rival base block other) (differ : other.blockHash ≠ block.blockHash) :
    ∃ status, state.blockMeta[other.blockHash]? = some { other with status } := by
  rcases precedes_total other block differ with wins | loses
  · rcases statuses.winners other rival wins with ⟨held, _⟩ | ⟨held, _⟩ <;> exact ⟨_, held⟩
  · rcases statuses.losers other rival loses with ⟨held, _⟩ | held <;> exact ⟨_, held⟩

omit base block in
theorem awaits_marked (distinct : id ∉ rest)
    (found : state.conflictSets[id]? = some set) (outside : hash ∉ set.members)
    (awaits : Awaits (id :: rest) state hash) : Awaits rest (marked state id set winner) hash := by
  rcases awaits with ⟨near, member, held, stored, inside⟩
  rcases List.mem_cons.mp member with here | inRest
  · rw [here, found] at stored
    cases stored
    exact absurd inside outside
  · refine ⟨near, inRest, held, ?_, inside⟩
    have apart : id ≠ near := fun same => distinct (same ▸ inRest)
    simpa [marked, ExtTreeMap.getElem?_insert, apart] using stored

omit base block in
theorem getElem?_pushReady (state : CommitScheduler) (pushed hash : BlockHash) :
    (state.pushReady pushed).blockMeta[hash]? = state.blockMeta[hash]? := rfl

/-- What resolving one set does: the loser is marked, and the winner is queued unless
another set still holds it. -/
structure Resolution (state next : CommitScheduler) (id : Nat) (rest : List Nat)
    (set : ConflictSet) (winner loser : ExecutedBlockMeta) : Prop where
  conflictSets : next.conflictSets = (marked state id set winner.blockHash).conflictSets
  setsOf : next.blockConflictSets = state.blockConflictSets
  counter : next.nextConflictId = state.nextConflictId
  queue : ∀ hash ∈ state.readyQueue, hash ∈ next.readyQueue
  won : (next.blockMeta[winner.blockHash]? =
        some { winner with status := .resolvedWinner } ∧ winner.blockHash ∈ next.readyQueue) ∨
      (next.blockMeta[winner.blockHash]? = state.blockMeta[winner.blockHash]? ∧
        Awaits rest next winner.blockHash)
  lost : next.blockMeta[loser.blockHash]? = some { loser with status := .resolvedLoser }
  elsewhere : ∀ hash, hash ≠ winner.blockHash → hash ≠ loser.blockHash →
    next.blockMeta[hash]? = state.blockMeta[hash]?

omit base block in
theorem not_awaits_nil : ¬ Awaits [] state hash := by
  rintro ⟨id, member, _⟩
  cases member

namespace Resolution

theorem of_settled {state : CommitScheduler}
    {winner : ExecutedBlockMeta} (differ : winner.blockHash ≠ loser.blockHash)
    {winnerStatus loserStatus : BlockStatus}
    (winnerHeld : state.blockMeta[winner.blockHash]? = some { winner with status := winnerStatus })
    (loserHeld : state.blockMeta[loser.blockHash]? = some { loser with status := loserStatus })
    (after : Sets base block rest (marked state id set winner.blockHash)) :
    Resolution state ((if (marked state id set winner.blockHash).allResolved winner.blockHash then
        ((marked state id set winner.blockHash).setStatus winner.blockHash
          .resolvedWinner).pushReady winner.blockHash
      else marked state id set winner.blockHash).setStatus loser.blockHash .resolvedLoser)
      id rest set winner loser := by
  by_cases all : (marked state id set winner.blockHash).allResolved winner.blockHash = true
  · rw [if_pos all]
    refine ⟨rfl, rfl, rfl, fun hash member => List.mem_append_left _ member, Or.inl ?_, ?_, ?_⟩
    · rw [getElem?_setStatus, if_neg differ.symm, getElem?_pushReady, getElem?_setStatus, if_pos rfl]
      exact ⟨by simp [marked, winnerHeld], List.mem_append_right _ List.mem_cons_self⟩
    · rw [getElem?_setStatus, if_pos rfl, getElem?_pushReady, getElem?_setStatus, if_neg differ]
      simp [marked, loserHeld]
    · intro hash notWinner notLoser
      rw [getElem?_setStatus, if_neg notLoser.symm, getElem?_pushReady, getElem?_setStatus,
        if_neg notWinner.symm]
      rfl
  · have awaits : Awaits rest (marked state id set winner.blockHash) winner.blockHash := by
      by_contra free
      exact all (after.allResolved winner.blockHash free)
    rw [if_neg all]
    refine ⟨rfl, rfl, rfl, fun hash member => member, Or.inr ?_, ?_, ?_⟩
    · rw [getElem?_setStatus, if_neg differ.symm]
      exact ⟨rfl, awaits⟩
    · rw [getElem?_setStatus, if_pos rfl]
      simp [marked, loserHeld]
    · intro hash notWinner notLoser
      rw [getElem?_setStatus, if_neg notLoser.symm]
      rfl

variable {base block}
variable {state next : CommitScheduler}
variable {winner : ExecutedBlockMeta}

theorem sets (resolution : Resolution state next id rest set winner loser)
    (after : Sets base block rest (marked state id set winner.blockHash)) :
    Sets base block rest next := by
  have index : ∀ hash, next.setsOf hash = (marked state id set winner.blockHash).setsOf hash := by
    intro hash
    rw [CommitScheduler.setsOf, resolution.setsOf]
    rfl
  constructor
  · rw [resolution.conflictSets]
    exact after.pending
  · rw [resolution.conflictSets]
    exact after.done
  · rw [resolution.conflictSets, resolution.counter]
    exact after.bounded
  · intro hash
    rw [index, resolution.conflictSets, resolution.counter]
    exact after.indexed hash

section
variable (resolution : Resolution state next id rest set winner loser) (distinct : id ∉ rest)
  (found : state.conflictSets[id]? = some set) (near : ExecutedBlockMeta)
  (notWinner : near.blockHash ≠ winner.blockHash) (notLoser : near.blockHash ≠ loser.blockHash)
  (outside : near.blockHash ∉ set.members)
include resolution distinct found notWinner notLoser outside

theorem untouched (before : state.blockMeta[near.blockHash]? = some near ∧
      Awaits (id :: rest) state near.blockHash) :
    next.blockMeta[near.blockHash]? = some near ∧ Awaits rest next near.blockHash := by
  rcases awaits_marked distinct found outside before.2 with ⟨later, member, held, stored, inside⟩
  rw [← resolution.conflictSets] at stored
  exact ⟨(resolution.elsewhere _ notWinner notLoser).trans before.1, later, member, held, stored,
    inside⟩

theorem winner_kept
    (before : (state.blockMeta[near.blockHash]? = some near ∧
        Awaits (id :: rest) state near.blockHash) ∨
      (state.blockMeta[near.blockHash]? = some { near with status := .resolvedWinner } ∧
        near.blockHash ∈ state.readyQueue)) :
    (next.blockMeta[near.blockHash]? = some near ∧ Awaits rest next near.blockHash) ∨
      (next.blockMeta[near.blockHash]? = some { near with status := .resolvedWinner } ∧
        near.blockHash ∈ next.readyQueue) := by
  rcases before with waiting | ⟨held, queued⟩
  · exact Or.inl (untouched resolution distinct found near notWinner notLoser outside waiting)
  · exact Or.inr ⟨(resolution.elsewhere _ notWinner notLoser).trans held, resolution.queue _ queued⟩

theorem loser_kept
    (before : (state.blockMeta[near.blockHash]? = some near ∧
        Awaits (id :: rest) state near.blockHash) ∨
      state.blockMeta[near.blockHash]? = some { near with status := .resolvedLoser }) :
    (next.blockMeta[near.blockHash]? = some near ∧ Awaits rest next near.blockHash) ∨
      next.blockMeta[near.blockHash]? = some { near with status := .resolvedLoser } := by
  rcases before with waiting | held
  · exact Or.inl (untouched resolution distinct found near notWinner notLoser outside waiting)
  · exact Or.inr ((resolution.elsewhere _ notWinner notLoser).trans held)

end

section
variable {other : ExecutedBlockMeta} (distinct : id ∉ rest) (rival : Rival base block other)
  (found : state.conflictSets[id]? = some set)
  (members : set.members = [other.blockHash, block.blockHash])
  (statuses : Statuses base block (id :: rest) state)
include unknown distinct rival found members statuses

theorem statuses_lost (resolution : Resolution state next id rest set other block)
    (lost : Precedes other block) : Statuses base block rest next := by
  constructor
  · intro hash member
    exact resolution.queue hash (statuses.queue hash member)
  · intro hash notSelf noRival
    rw [resolution.elsewhere hash (fun same => noRival other rival same.symm) notSelf]
    exact statuses.others hash notSelf noRival
  · intro near nearRival wins
    by_cases here : near.blockHash = other.blockHash
    · rw [rival_unique nearRival rival here]
      rcases resolution.won with winner | ⟨same, awaits⟩
      · exact Or.inr winner
      · rcases statuses.winners other rival lost with ⟨held, _⟩ | ⟨held, queued⟩
        · exact Or.inl ⟨same.trans held, awaits⟩
        · exact Or.inr ⟨same.trans held, resolution.queue _ queued⟩
    · have notSelf := rival_differs base block unknown near nearRival
      exact winner_kept resolution distinct found near here notSelf
        (by simp [members, here, notSelf])
        (statuses.winners near nearRival wins)
  · intro near nearRival loses
    have here : near.blockHash ≠ other.blockHash := by
      intro same
      rw [rival_unique nearRival rival same] at loses
      exact precedes_asymm lost loses
    have notSelf := rival_differs base block unknown near nearRival
    exact loser_kept resolution distinct found near here notSelf
        (by simp [members, here, notSelf])
      (statuses.losers near nearRival loses)
  · refine ⟨.resolvedLoser, resolution.lost, fun _ => Or.inl rfl, fun _ _ => rfl, fun every => ?_⟩
    exact absurd (every other rival) (precedes_asymm lost)

theorem statuses_won (resolution : Resolution state next id rest set block other)
    (won : Precedes block other) : Statuses base block rest next := by
  constructor
  · intro hash member
    exact resolution.queue hash (statuses.queue hash member)
  · intro hash notSelf noRival
    rw [resolution.elsewhere hash notSelf fun same => noRival other rival same.symm]
    exact statuses.others hash notSelf noRival
  · intro near nearRival wins
    have here : near.blockHash ≠ other.blockHash := by
      intro same
      rw [rival_unique nearRival rival same] at wins
      exact precedes_asymm wins won
    have notSelf := rival_differs base block unknown near nearRival
    exact winner_kept resolution distinct found near notSelf here
        (by simp [members, here, notSelf])
      (statuses.winners near nearRival wins)
  · intro near nearRival loses
    by_cases here : near.blockHash = other.blockHash
    · rw [rival_unique nearRival rival here]
      exact Or.inr resolution.lost
    · have notSelf := rival_differs base block unknown near nearRival
      exact loser_kept resolution distinct found near notSelf here
        (by simp [members, here, notSelf])
        (statuses.losers near nearRival loses)
  · have notAll : ¬ ∀ near, Rival base block near → Precedes near block := fun every =>
      precedes_asymm won (every other rival)
    rcases resolution.won with ⟨held, queued⟩ | ⟨same, awaits⟩
    · exact ⟨.resolvedWinner, held, fun _ => Or.inr ⟨rfl, queued⟩,
        fun every => absurd every notAll, fun _ => by simp⟩
    · have more : rest ≠ [] := by
        rintro rfl
        exact not_awaits_nil awaits
      rcases statuses.self with ⟨status, held, _, _, never⟩
      exact ⟨status, same.trans held, fun none => absurd none more,
        fun every => absurd every notAll, never⟩

end

end Resolution

variable {base}
include unknown in
theorem tryResolve_resolution (id : Nat) (rest : List Nat) (distinct : id ∉ rest)
    (state : CommitScheduler) (sets : Sets base block (id :: rest) state)
    (statuses : Statuses base block (id :: rest) state) (set : ConflictSet)
    (other : ExecutedBlockMeta) (found : state.conflictSets[id]? = some set)
    (unresolved : set.resolved = false)
    (members : set.members = [other.blockHash, block.blockHash])
    (rival : Rival base block other) :
    (Precedes other block ∧ Resolution state (state.tryResolveConflictSet id) id rest set other block) ∨
    (Precedes block other ∧
      Resolution state (state.tryResolveConflictSet id) id rest set block other) := by
  have differ := rival_differs base block unknown other rival
  rcases statuses.rival_held other rival differ with ⟨otherStatus, otherHeld⟩
  rcases statuses.self with ⟨status, held, _⟩
  have after := marked_sets distinct sets found members rival
  rw [tryResolve_settles found unresolved members otherHeld held, members]
  rcases precedes_total other block differ with lost | won
  · rw [winnerOf_lost lost] at after ⊢
    rw [(foldl_settleMember differ _).1]
    exact Or.inl ⟨lost, .of_settled base block differ otherHeld held after⟩
  · rw [winnerOf_won other block won] at after ⊢
    rw [(foldl_settleMember differ.symm _).2]
    exact Or.inr ⟨won, .of_settled base block differ.symm held otherHeld after⟩

include unknown in
theorem tryResolve_step (id : Nat) (rest : List Nat) (distinct : id ∉ rest)
    (state : CommitScheduler) (sets : Sets base block (id :: rest) state)
    (statuses : Statuses base block (id :: rest) state) :
    Sets base block rest (state.tryResolveConflictSet id) ∧
      Statuses base block rest (state.tryResolveConflictSet id) := by
  rcases sets.pending id List.mem_cons_self with
    ⟨set, other, found, unresolved, members, rival⟩
  have after := marked_sets distinct sets found members rival
  rcases tryResolve_resolution block unknown id rest distinct state sets statuses set other
    found unresolved members rival with ⟨lost, resolution⟩ | ⟨won, resolution⟩
  · rw [winnerOf_lost lost] at after
    exact ⟨resolution.sets after,
      Resolution.statuses_lost unknown distinct rival found members statuses resolution lost⟩
  · rw [winnerOf_won other block won] at after
    exact ⟨resolution.sets after,
      Resolution.statuses_won unknown distinct rival found members statuses resolution won⟩

include unknown in
theorem tryResolve_all (todo rest : List Nat) (distinct : (todo ++ rest).Nodup)
    (state : CommitScheduler) (sets : Sets base block (todo ++ rest) state)
    (statuses : Statuses base block (todo ++ rest) state) :
    Sets base block rest (todo.foldl tryResolveConflictSet state) ∧
      Statuses base block rest (todo.foldl tryResolveConflictSet state) := by
  induction todo generalizing state with
  | nil => exact ⟨sets, statuses⟩
  | cons id later ih =>
    rw [List.cons_append, List.nodup_cons] at distinct
    rcases tryResolve_step block unknown id (later ++ rest) distinct.1 state sets statuses
      with ⟨laterSets, laterStatuses⟩
    exact ih distinct.2 _ laterSets laterStatuses

omit base block in
theorem settleMember_sets : (settleMember winner state hash).conflictSets = state.conflictSets := by
  unfold settleMember
  split
  · split <;> rfl
  · rfl

omit base block in
theorem tryResolve_elsewhere (state : CommitScheduler) (id near : Nat) (differ : id ≠ near) :
    (state.tryResolveConflictSet id).conflictSets[near]? = state.conflictSets[near]? := by
  unfold tryResolveConflictSet
  split
  · rfl
  · split
    · rfl
    · simp only
      split
      · rfl
      · split
        · rfl
        · apply List.foldlRecOn (motive := fun after : CommitScheduler =>
            after.conflictSets[near]? = state.conflictSets[near]?)
          · simp [ExtTreeMap.getElem?_insert, differ]
          · intro after kept hash _
            rw [settleMember_sets]
            exact kept

omit base block in
theorem tryResolveAll_elsewhere (todo : List Nat) (state : CommitScheduler) (near : Nat)
    (outside : near ∉ todo) :
    (todo.foldl tryResolveConflictSet state).conflictSets[near]? = state.conflictSets[near]? := by
  apply List.foldlRecOn (motive := fun after : CommitScheduler =>
    after.conflictSets[near]? = state.conflictSets[near]?)
  · rfl
  · intro after kept id member
    rw [tryResolve_elsewhere after id near fun same => outside (same ▸ member)]
    exact kept

include unknown in
theorem tryResolve_last (id : Nat) (state : CommitScheduler) (sets : Sets base block [id] state)
    (statuses : Statuses base block [id] state) (set : ConflictSet) (other : ExecutedBlockMeta)
    (found : state.conflictSets[id]? = some set)
    (members : set.members = [other.blockHash, block.blockHash])
    (rival : Rival base block other) :
    ∃ status, (state.tryResolveConflictSet id).blockMeta[block.blockHash]? =
        some { block with status } ∧
      (Precedes other block → status = .resolvedLoser) ∧
      (Precedes block other → status = .resolvedWinner) := by
  have unresolved : set.resolved = false := by
    rcases sets.pending id List.mem_cons_self with ⟨held, _, stored, unresolved, _⟩
    rw [found, Option.some.injEq] at stored
    rw [stored]
    exact unresolved
  rcases tryResolve_resolution block unknown id [] List.not_mem_nil state sets statuses set
    other found unresolved members rival with ⟨lost, resolution⟩ | ⟨won, resolution⟩
  · exact ⟨.resolvedLoser, resolution.lost, fun _ => rfl, fun won =>
      absurd won (precedes_asymm lost)⟩
  · rcases resolution.won with ⟨held, _⟩ | ⟨_, awaits⟩
    · exact ⟨.resolvedWinner, held, fun lost => absurd lost (precedes_asymm won), fun _ => rfl⟩
    · exact absurd awaits not_awaits_nil

end Statuses

section
/-- Everything the admission of an unknown block does to a settled scheduler. -/
structure Admitted (base : CommitScheduler) (block : ExecutedBlockMeta)
    (next : CommitScheduler) : Prop where
  settled : Settled next
  queue : ∀ hash ∈ base.readyQueue, hash ∈ next.readyQueue
  others : ∀ hash, hash ≠ block.blockHash →
    (∀ other, Rival base block other → other.blockHash ≠ hash) →
    next.blockMeta[hash]? = base.blockMeta[hash]?
  winners : ∀ other, Rival base block other → Precedes other block →
    next.blockMeta[other.blockHash]? = some { other with status := .resolvedWinner } ∧
      other.blockHash ∈ next.readyQueue
  losers : ∀ other, Rival base block other → Precedes block other →
    next.blockMeta[other.blockHash]? = some { other with status := .resolvedLoser }
  self : ∃ status, next.blockMeta[block.blockHash]? = some { block with status } ∧
    (status = .resolvedLoser ∨ (status.closed = false ∧ block.blockHash ∈ next.readyQueue)) ∧
    ((∃ other, Rival base block other) →
      (∀ other, Rival base block other → Precedes other block) → status = .resolvedLoser) ∧
    ((∀ other, Rival base block other → Precedes block other) → status ≠ .resolvedLoser)
  sets : ∀ (id : Nat) (set : ConflictSet), next.conflictSets[id]? = some set →
    base.conflictSets[id]? = some set ∨
      ∃ other, Rival base block other ∧ set.members = [other.blockHash, block.blockHash] ∧
        set.winner = some (winnerOf other block)
  deferred : next.deferredByNonce = base.deferredByNonce
  committed : next.committedBlocks = base.committedBlocks

variable (order : IterationOrder) (base : CommitScheduler) (block : ExecutedBlockMeta)
  (settled : Settled base) (unknown : base.isKnown block.blockHash = false)

def openedFor : CommitScheduler × List Nat :=
  (conflictPairs block.conflictKeys (existingEntries order base block.blockHash)).foldl
    (openPair order block.blockHash) (base, [])

include unknown in
omit settled order in
theorem absent_of_unknown : base.blockMeta[block.blockHash]? = none := by
  rw [isKnown, Bool.or_eq_false_iff, ExtTreeMap.contains_eq_isSome_getElem?,
    Option.isSome_eq_false_iff, Option.isNone_iff_eq_none] at unknown
  exact unknown.1

include settled unknown

theorem openedFor_opened :
    Opened base block.blockHash
      (conflictPairs block.conflictKeys (existingEntries order base block.blockHash))
      (openedFor order base block) := by
  have absent := absent_of_unknown base block unknown
  apply openPairs_opened settled [] _ _ (opened_nil settled)
  rintro ⟨key, hash⟩ member
  rcases (mem_conflictPairs order settled absent key hash).mp member with
    ⟨other, rival, rfl, _⟩
  exact rival_differs base block absent other rival

variable {order} {base}

theorem openedFor_sets (id : Nat) (member : id ∈ (openedFor order base block).2) :
    ∃ set other, (openedFor order base block).1.conflictSets[id]? = some set ∧
      set.resolved = false ∧ set.members = [other.blockHash, block.blockHash] ∧
      Rival base block other := by
  have opened := openedFor_opened order base block settled unknown
  rcases opened.listed id member with ⟨above, _, set, found⟩
  rcases opened.fresh id set above found with ⟨_, unresolved, pair, inPairs, members⟩
  rcases (mem_conflictPairs order settled (absent_of_unknown base block unknown)
    pair.1 pair.2).mp inPairs with ⟨other, rival, same, _⟩
  exact ⟨set, other, found, unresolved, by rw [members, same], rival⟩

theorem openedFor_covers (other : ExecutedBlockMeta) (rival : Rival base block other) :
    ∃ id ∈ (openedFor order base block).2, ∃ set,
      (openedFor order base block).1.conflictSets[id]? = some set ∧
      other.blockHash ∈ set.members := by
  have opened := openedFor_opened order base block settled unknown
  rcases rival.conflict with ⟨key, inBlock, inOther⟩
  have inPairs := (mem_conflictPairs order settled
    (absent_of_unknown base block unknown) key other.blockHash).mpr
    ⟨other, rival, rfl, inBlock, inOther⟩
  rcases opened.covers _ inPairs with ⟨id, member, set, found, members⟩
  exact ⟨id, member, set, found, by rw [members]; exact List.mem_cons_self⟩

omit unknown in
theorem openedFor_old (opened : Opened base block.blockHash
      (conflictPairs block.conflictKeys (existingEntries order base block.blockHash))
      (openedFor order base block)) (id : Nat) (set : ConflictSet)
    (found : (openedFor order base block).1.conflictSets[id]? = some set)
    (outside : id ∉ (openedFor order base block).2) :
    base.conflictSets[id]? = some set ∧ set.resolved = true := by
  by_cases above : base.nextConflictId ≤ id
  · exact absurd (opened.fresh id set above found).1 outside
  · rw [opened.old id (Nat.not_le.mp above)] at found
    exact ⟨found, settled.resolved id set found⟩

variable (order) (base)

theorem admitBlock_keyed (hash : BlockHash) (held : ExecutedBlockMeta)
    (found : (base.admitBlock order block).1.blockMeta[hash]? = some held) : held.blockHash = hash := by
  rcases admitBlock_unknown order base block unknown with ⟨written, kept, _, _, _, bodies⟩
  have stored : bodyAt (base.admitBlock order block).1 hash = some (body held) := by
    rw [bodyAt, found]
    rfl
  rw [kept.bodies, bodies] at stored
  by_cases here : block.blockHash = hash
  · rw [if_pos here] at stored
    have same := congrArg ExecutedBlockMeta.blockHash (Option.some.inj stored)
    exact same.symm.trans here
  · rw [if_neg here, bodyAt, Option.map_eq_some_iff] at stored
    rcases stored with ⟨earlier, kept, same⟩
    have named := settled.keyed hash earlier kept
    have equal := congrArg ExecutedBlockMeta.blockHash same
    exact equal.symm.trans named

def entered : CommitScheduler :=
  { (openedFor order base block).1 with
    blockConflictSets := (openedFor order base block).1.blockConflictSets.insert
      block.blockHash (openedFor order base block).2
    blockMeta := (openedFor order base block).1.blockMeta.insert block.blockHash
      { block with status := .conflicting } }

variable {order} {base}

theorem entered_sets (todo : List Nat)
    (perm : todo.Perm (openedFor order base block).2) :
    Sets base block todo (entered order base block) := by
  have opened := openedFor_opened order base block settled unknown
  constructor
  · intro id member
    exact openedFor_sets block settled unknown id (perm.mem_iff.mp member)
  · intro id set found outside
    rcases openedFor_old block settled opened id set found
      (fun member => outside (perm.mem_iff.mpr member)) with ⟨kept, resolved⟩
    exact ⟨resolved, Or.inl kept⟩
  · exact opened.bounded
  · intro hash id member
    rw [setsOf, entered, ExtTreeMap.getElem?_insert] at member
    by_cases here : block.blockHash = hash
    · subst hash
      rw [if_pos (by simp), Option.getD_some] at member
      refine ⟨(opened.listed id member).2.1, fun set _ found => ?_⟩
      rcases openedFor_sets block settled unknown id member with
        ⟨stored, other, same, _, members, _⟩
      have equal : (openedFor order base block).1.conflictSets[id]? = some set := found
      rw [equal] at same
      rw [Option.some.inj same, members]
      simp
    · rw [if_neg (by simpa using here)] at member
      rcases opened.indexed hash id member with ⟨below, holds⟩
      exact ⟨below, fun set inTodo found =>
        holds set (opened.listed id (perm.mem_iff.mp inTodo)).1 found⟩

theorem entered_statuses (todo : List Nat)
    (perm : todo.Perm (openedFor order base block).2) (some' : todo ≠ []) :
    Statuses base block todo (entered order base block) := by
  have opened := openedFor_opened order base block settled unknown
  have absent := absent_of_unknown base block unknown
  have lookup : ∀ hash, hash ≠ block.blockHash →
      (entered order base block).blockMeta[hash]? = base.blockMeta[hash]? := by
    intro hash notSelf
    rw [entered, ExtTreeMap.getElem?_insert, if_neg (by simpa using notSelf.symm), opened.blocks]
  have awaits : ∀ other, Rival base block other →
      (entered order base block).blockMeta[other.blockHash]? = some other ∧
        Awaits todo (entered order base block) other.blockHash := by
    intro other rival
    rcases openedFor_covers block settled unknown other rival with
      ⟨id, member, set, found, inside⟩
    exact ⟨(lookup _ (rival_differs base block absent other rival)).trans rival.held,
      id, perm.mem_iff.mpr member, set, found, inside⟩
  constructor
  · intro hash member
    rw [entered, opened.queue]
    exact member
  · intro hash notSelf _
    exact lookup hash notSelf
  · intro other rival _
    exact Or.inl (awaits other rival)
  · intro other rival _
    exact Or.inl (awaits other rival)
  · refine ⟨.conflicting, ?_, fun none => absurd none some', fun _ none => absurd none some',
      fun _ => by simp⟩
    simp [entered]

omit settled in
theorem admitBlock_resolves (rivals : ¬ (openedFor order base block).2.isEmpty = true) :
    (base.admitBlock order block).1 =
      (order.setIds.order (openedFor order base block).2).foldl tryResolveConflictSet
        (entered order base block) := by
  unfold admitBlock
  simp only [unknown, Bool.false_eq_true, if_false]
  exact congrArg Prod.fst (if_neg rivals)

omit settled in
theorem admitBlock_accepts (free : (openedFor order base block).2.isEmpty = true) :
    (base.admitBlock order block).1 =
      { (openedFor order base block).1 with
        blockMeta := (openedFor order base block).1.blockMeta.insert block.blockHash
          { block with status := .accepted }
        readyQueue := (openedFor order base block).1.readyQueue ++ [block.blockHash] } := by
  unfold admitBlock
  simp only [unknown, Bool.false_eq_true, if_false]
  exact congrArg Prod.fst (if_pos free)

variable (order) (base)

theorem accepted_admitted (free : (openedFor order base block).2.isEmpty = true) :
    Admitted base block (base.admitBlock order block).1 := by
  have opened := openedFor_opened order base block settled unknown
  have keyed := admitBlock_keyed order base block settled unknown
  rcases admitBlock_unknown order base block unknown with ⟨_, kept, _, deferred, committed, _⟩
  have none : (openedFor order base block).2 = [] := List.isEmpty_iff.mp free
  have alone : ∀ other, ¬ Rival base block other := by
    intro other rival
    rcases openedFor_covers block settled unknown other rival with ⟨id, member, _⟩
    rw [none] at member
    cases member
  have old := fun id set found => openedFor_old block settled opened id set found
    (by rw [none]; exact List.not_mem_nil)
  rw [admitBlock_accepts block unknown free] at keyed kept ⊢
  refine ⟨⟨fun id set found => (old id set found).2, opened.bounded,
      fun hash id member => (opened.indexed hash id member).1, keyed⟩, ?_, ?_, ?_, ?_, ?_, ?_,
    kept.deferred.trans deferred, kept.committed.trans committed⟩
  · intro hash member
    simp only [opened.queue]
    exact List.mem_append_left _ member
  · intro hash notSelf _
    rw [ExtTreeMap.getElem?_insert, if_neg (by simpa using notSelf.symm), opened.blocks]
  · intro other rival
    exact absurd rival (alone other)
  · intro other rival
    exact absurd rival (alone other)
  · refine ⟨.accepted, by simp, Or.inr ⟨rfl, List.mem_append_right _ List.mem_cons_self⟩, ?_,
      fun _ => by simp⟩
    rintro ⟨other, rival⟩
    exact absurd rival (alone other)
  · intro id set found
    exact Or.inl (old id set found).1

theorem admitBlock_resolved (rivals : ¬ (openedFor order base block).2.isEmpty = true) :
    Sets base block [] (base.admitBlock order block).1 ∧
      Statuses base block [] (base.admitBlock order block).1 := by
  have opened := openedFor_opened order base block settled unknown
  have perm := order.setIds.perm (openedFor order base block).2
  have some' : order.setIds.order (openedFor order base block).2 ≠ [] := by
    intro none
    rw [none] at perm
    rw [List.perm_nil.mp perm.symm] at rivals
    exact rivals rfl
  rw [admitBlock_resolves block unknown rivals]
  apply tryResolve_all block (absent_of_unknown base block unknown)
  · rw [List.append_nil]
    exact perm.nodup_iff.mpr opened.distinct
  · rw [List.append_nil]
    exact entered_sets block settled unknown _ perm
  · rw [List.append_nil]
    exact entered_statuses block settled unknown _ perm some'

theorem admitBlock_admitted : Admitted base block (base.admitBlock order block).1 := by
  by_cases free : (openedFor order base block).2.isEmpty = true
  · exact accepted_admitted order base block settled unknown free
  · have keyed := admitBlock_keyed order base block settled unknown
    rcases admitBlock_unknown order base block unknown with ⟨_, kept, _, deferred, committed, _⟩
    rcases admitBlock_resolved order base block settled unknown free with ⟨sets, statuses⟩
    refine ⟨⟨fun id set found => (sets.done id set found List.not_mem_nil).1, sets.bounded,
        fun hash id member => (sets.indexed hash id member).1, keyed⟩, statuses.queue,
      statuses.others, ?_, ?_, ?_, fun id set found =>
        (sets.done id set found List.not_mem_nil).2,
      kept.deferred.trans deferred, kept.committed.trans committed⟩
    · intro other rival wins
      rcases statuses.winners other rival wins with ⟨_, awaits⟩ | won
      · exact absurd awaits not_awaits_nil
      · exact won
    · intro other rival loses
      rcases statuses.losers other rival loses with ⟨_, awaits⟩ | lost
      · exact absurd awaits not_awaits_nil
      · exact lost
    · rcases statuses.self with ⟨status, held, last, all, never⟩
      refine ⟨status, held, ?_, fun _ every => all every rfl, never⟩
      rcases last rfl with loser | ⟨winner, queued⟩
      · exact Or.inl loser
      · exact Or.inr ⟨by rw [winner]; rfl, queued⟩

omit order in
/-- Whichever rival is chosen, some walk over the set ids leaves the new block with
the outcome against that rival. -/
theorem admitBlock_decided (other : ExecutedBlockMeta) (rival : Rival base block other) :
    ∃ order status, (base.admitBlock order block).1.blockMeta[block.blockHash]? =
        some { block with status } ∧
      (Precedes other block → status = .resolvedLoser) ∧
      (Precedes block other → status = .resolvedWinner) := by
  have absent := absent_of_unknown base block unknown
  rcases openedFor_covers block settled unknown other rival with
    ⟨id, member, set, found, inside⟩
  have members : set.members = [other.blockHash, block.blockHash] := by
    rcases openedFor_sets block settled unknown id member with
      ⟨held, near, stored, _, members, _⟩
    rw [found, Option.some.injEq] at stored
    subst stored
    rw [members, List.mem_cons, List.mem_singleton] at inside
    rcases inside with same | same
    · rw [members, same]
    · exact absurd same (rival_differs base block absent other rival)
  let order : IterationOrder := { IterationOrder.plain with setIds := .last id }
  have opened := openedFor_opened order base block settled unknown
  have walk : order.setIds.order (openedFor order base block).2 =
      (openedFor order base block).2.erase id ++ [id] := if_pos member
  have perm := order.setIds.perm (openedFor order base block).2
  have distinct := perm.nodup_iff.mpr opened.distinct
  have rivals : ¬ (openedFor order base block).2.isEmpty = true := by
    intro none
    have inside : id ∈ (openedFor order base block).2 := member
    rw [List.isEmpty_iff.mp none] at inside
    cases inside
  rw [walk] at perm distinct
  rcases tryResolve_all block absent _ [id] distinct _
    (entered_sets block settled unknown _ perm)
    (entered_statuses block settled unknown _ perm (by simp)) with ⟨sets, statuses⟩
  have outside : id ∉ (openedFor order base block).2.erase id := fun again =>
    (List.nodup_append.mp distinct).2.2 id again id List.mem_cons_self rfl
  refine ⟨order, ?_⟩
  rw [admitBlock_resolves block unknown rivals, walk, List.foldl_append]
  exact tryResolve_last block absent id _ sets statuses set other
    ((tryResolveAll_elsewhere _ _ id outside).trans found) members rival

end

end Savitri.SchedulerAdmission
