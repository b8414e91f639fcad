import Savitri.DagPruning

/-!
The order in which the block DAG hands out its blocks: by height, then by the
proposer's score from high to low, then by hash. The order depends on nothing but the
multiset of deliveries, and a block that is delivered twice is handed out twice.
-/
namespace Savitri.BlockDag
open Std Transition PairOrder MapTotal
variable {state : DagState}

def compareScores : BlockHash × DagBlock → BlockHash × DagBlock → Ordering :=
  compareOn fun pair => pair.2.proposerPouScore

instance transScores : TransCmp compareScores := inferInstanceAs (TransCmp (compareOn _))

/-- `b.proposer_pou_score.cmp(&a.proposer_pou_score).then_with(|| h_a.cmp(h_b))` -/
def compareAtHeight : BlockHash × DagBlock → BlockHash × DagBlock → Ordering :=
  compareLex (fun first second => compareScores second first) (compareOn Prod.fst)

instance transAtHeight : TransCmp compareAtHeight :=
  have : TransCmp fun first second => compareScores second first := TransCmp.opposite
  inferInstanceAs (TransCmp (compareLex _ _))

variable (state)

def heightBlocks (hashes : List BlockHash) : List (BlockHash × DagBlock) :=
  (hashes.filterMap fun hash => (state.blocks hash).map fun block => (hash, block)).insertionSort
    fun first second => (compareAtHeight first second).isLE

def getOrdering : List BlockHash :=
  state.blocksByHeight.toList.flatMap fun entry => (heightBlocks state entry.2).map Prod.fst

def orderedPairs : List (BlockHash × DagBlock) :=
  state.blocksByHeight.toList.flatMap fun entry => heightBlocks state entry.2

variable {state}

theorem getOrdering_eq : getOrdering state = (orderedPairs state).map Prod.fst := by
  simp only [getOrdering, orderedPairs, List.map_flatMap]

section Sorted
variable {live : List DagBlock}

def Before (first second : BlockHash × DagBlock) : Prop :=
  first.2.height < second.2.height ∨
    first.2.height = second.2.height ∧ (compareAtHeight first second).isLE = true

variable {hashes : List BlockHash}

theorem mem_heightBlocks (mirrors : Mirrors state live) {pair : BlockHash × DagBlock} :
    pair ∈ heightBlocks state hashes ↔ pair.1 ∈ hashes ∧ pair.2 ∈ live ∧ pair.2.hash = pair.1 := by
  rw [heightBlocks, List.mem_insertionSort, List.mem_filterMap]
  constructor
  · rintro ⟨hash, listed, found⟩
    rcases Option.map_eq_some_iff.mp found with ⟨block, stored, rfl⟩
    exact ⟨listed, (mirrors.blocks hash block).mp stored⟩
  · rintro ⟨listed, stored⟩
    refine ⟨pair.1, listed, ?_⟩
    rw [(mirrors.blocks pair.1 pair.2).mpr stored]
    rfl

theorem heightBlocks_height (mirrors : Mirrors state live) {height : UInt64}
    (found : state.blocksByHeight[height]? = some hashes) (pair : BlockHash × DagBlock)
    (member : pair ∈ heightBlocks state hashes) : pair.2.height = height := by
  rcases (mem_heightBlocks mirrors).mp member with ⟨listed, isLive, hashed⟩
  have byHeight := mirrors.byHeight height
  rw [found, Option.getD_some] at byHeight
  rw [byHeight] at listed
  rcases List.mem_map.mp listed with ⟨other, inHeight, same⟩
  rcases List.mem_filter.mp inHeight with ⟨inLive, sameHeight⟩
  rw [mirrors.determined pair.2 isLive other inLive (hashed.trans same.symm)]
  exact of_decide_eq_true sameHeight

theorem orderedPairs_sorted (mirrors : Mirrors state live) : (orderedPairs state).Pairwise Before := by
  rw [orderedPairs, List.pairwise_flatMap]
  constructor
  · rintro ⟨height, hashes⟩ inTable
    have found := ExtTreeMap.mem_toList_iff_getElem?_eq_some.mp inTable
    have heights := heightBlocks_height mirrors found
    have sorted := pairwise_insertionSort_key compareAtHeight id
      (hashes.filterMap fun hash => (state.blocks hash).map fun block => (hash, block))
    refine sorted.imp_of_mem fun {first second} inFirst inSecond inOrder => Or.inr ⟨?_, inOrder⟩
    rw [heights first inFirst, heights second inSecond]
  · refine (ExtTreeMap.ordered_keys_toList (t := state.blocksByHeight)).imp_of_mem ?_
    rintro ⟨lower, hashes⟩ ⟨higher, others⟩ inTable inTableToo less first inFirst second inSecond
    left
    rw [heightBlocks_height mirrors
        (ExtTreeMap.mem_toList_iff_getElem?_eq_some.mp inTable) first inFirst,
      heightBlocks_height mirrors
        (ExtTreeMap.mem_toList_iff_getElem?_eq_some.mp inTableToo) second inSecond]
    exact compare_eq_lt.mp less

theorem hash_eq_of_before {first second : BlockHash × DagBlock} (forward : Before first second)
    (backward : Before second first) : first.1 = second.1 := by
  have sameHeight : first.2.height = second.2.height := by
    rcases forward with less | same
    · rcases backward with more | same
      · exact absurd more (UInt64.lt_asymm less)
      · exact same.1.symm
    · exact same.1
  have one : (compareAtHeight first second).isLE = true := by
    rcases forward with less | same
    · rw [sameHeight] at less
      exact absurd less (UInt64.lt_irrefl _)
    · exact same.2
  have two : (compareAtHeight second first).isLE = true := by
    rcases backward with less | same
    · rw [sameHeight] at less
      exact absurd less (UInt64.lt_irrefl _)
    · exact same.2
  have equal := OrientedCmp.isLE_antisymm one two
  rw [compareAtHeight, compareLex_eq_eq] at equal
  exact LawfulEqOrd.eq_of_compare equal.2

end Sorted

section Deliveries
variable (blocks : List DagBlock)

def accepted : List DagBlock := blocks.filter fun block => decide (block.height ≠ heightLimit)

def afterAdding : DagState := run step {} (blocks.map .addBlock)

variable {blocks}

theorem liveAfter_added : liveAfter (blocks.map .addBlock) = accepted blocks := by
  induction blocks using List.reverseRecOn with
  | nil => rfl
  | append_singleton blocks block ih =>
    rw [List.map_append, List.map_singleton, liveAfter_concat, ih]
    by_cases limit : block.height = heightLimit <;> simp [liveStep, accepted, limit]

theorem addedBlocks_map : addedBlocks (blocks.map .addBlock) = blocks := by
  simp [addedBlocks, List.filterMap_map]

theorem afterAdding_mirrors (determined : Determined blocks) :
    Mirrors (afterAdding blocks) (accepted blocks) := by
  have mirrors := run_mirrors (by rwa [addedBlocks_map])
  rwa [liveAfter_added] at mirrors

theorem listed_perm :
    ((afterAdding blocks).blocksByHeight.toList.flatMap Prod.snd).Perm
      ((accepted blocks).map DagBlock.hash) := by
  induction blocks using List.reverseRecOn with
  | nil => exact List.Perm.refl _
  | append_singleton blocks block ih =>
    have added : afterAdding (blocks ++ [block]) = (addBlock (afterAdding blocks) block).1 := by
      rw [afterAdding, List.map_append, List.map_singleton, run_concat]
      rfl
    rw [added, addBlock]
    by_cases limit : block.height = heightLimit
    · simpa [accepted, limit] using ih
    · rw [if_neg limit]
      simp only [insertBlock]
      rw [checkProposer_eq]
      refine perm_flatMap_push.trans ?_
      refine (ih.cons block.hash).trans ?_
      simp only [accepted, List.filter_append, List.map_append]
      simpa [limit] using List.perm_append_singleton block.hash _ |>.symm

theorem orderedPairs_perm (determined : Determined blocks) :
    (orderedPairs (afterAdding blocks)).Perm
      ((accepted blocks).map fun block => (block.hash, block)) := by
  have mirrors := afterAdding_mirrors determined
  have unsorted : (orderedPairs (afterAdding blocks)).Perm
      (((afterAdding blocks).blocksByHeight.toList.flatMap Prod.snd).filterMap fun hash =>
        ((afterAdding blocks).blocks hash).map fun block => (hash, block)) := by
    rw [List.filterMap_flatMap]
    exact List.Perm.flatMap_left _ fun entry _ => List.perm_insertionSort _ _
  refine unsorted.trans ((listed_perm.filterMap _).trans ?_)
  rw [List.filterMap_map]
  have stored : ∀ block ∈ accepted blocks,
      (((fun hash => ((afterAdding blocks).blocks hash).map fun block => (hash, block)) ∘
        DagBlock.hash) block) = some (block.hash, block) := by
    intro block taken
    have found := (mirrors.blocks block.hash block).mpr ⟨taken, rfl⟩
    simp [found]
  rw [List.filterMap_congr stored, List.filterMap_eq_map']

theorem getOrdering_perm (determined : Determined blocks) :
    (getOrdering (afterAdding blocks)).Perm ((accepted blocks).map DagBlock.hash) := by
  rw [getOrdering_eq]
  simpa [Function.comp_def] using (orderedPairs_perm determined).map Prod.fst

theorem Determined.mono {few many : List DagBlock} (determined : Determined many)
    (within : few ⊆ many) : Determined few := fun one first two second =>
  determined one (within first) two (within second)

variable {first second : List DagBlock}

theorem Determined.perm_of_hashes {all : List DagBlock} (determined : Determined all)
    (firstIn : first ⊆ all) (secondIn : second ⊆ all)
    (hashes : (first.map DagBlock.hash).Perm (second.map DagBlock.hash)) : first.Perm second := by
  have named : ∀ blocks, blocks ⊆ all → (blocks.map DagBlock.hash).filterMap
      (fun hash => all.find? fun block => decide (block.hash = hash)) = blocks := by
    intro blocks within
    rw [List.filterMap_map]
    have found : ∀ block ∈ blocks, ((fun hash => all.find? fun block =>
        decide (block.hash = hash)) ∘ DagBlock.hash) block = some block := by
      intro block member
      have present : (all.find? fun other => decide (other.hash = block.hash)).isSome = true := by
        rw [List.find?_isSome]
        exact ⟨block, within member, by simp⟩
      rcases Option.isSome_iff_exists.mp present with ⟨other, isFound⟩
      have sameHash : other.hash = block.hash := by simpa using List.find?_some isFound
      rw [determined other (List.mem_of_find?_eq_some isFound) block (within member)
        sameHash] at isFound
      exact isFound
    rw [List.filterMap_congr found, List.filterMap_some]
  have perm := hashes.filterMap fun hash => all.find? fun block => decide (block.hash = hash)
  rwa [named first firstIn, named second secondIn] at perm

/-- Two series of deliveries are handed out in the same order exactly if each block was
taken equally often in both. -/
theorem getOrdering_eq_iff (determined : Determined (first ++ second)) :
    getOrdering (afterAdding first) = getOrdering (afterAdding second) ↔
      (accepted first).Perm (accepted second) := by
  have inFirst : Determined first := determined.left
  have inSecond : Determined second := determined.mono (List.subset_append_right _ _)
  constructor
  · intro same
    have hashes : ((accepted first).map DagBlock.hash).Perm ((accepted second).map DagBlock.hash) :=
      (getOrdering_perm inFirst).symm.trans (same ▸ getOrdering_perm inSecond)
    exact determined.perm_of_hashes
      (fun block taken => List.mem_append_left _ (List.mem_of_mem_filter taken))
      (fun block taken => List.mem_append_right _ (List.mem_of_mem_filter taken)) hashes
  · intro perm
    have pairs : (orderedPairs (afterAdding first)).Perm (orderedPairs (afterAdding second)) :=
      (orderedPairs_perm inFirst).trans ((perm.map _).trans (orderedPairs_perm inSecond).symm)
    rw [getOrdering_eq, getOrdering_eq]
    congr 1
    apply pairs.eq_of_pairwise ?_ (orderedPairs_sorted (afterAdding_mirrors inFirst))
      (orderedPairs_sorted (afterAdding_mirrors inSecond))
    intro one two inOne inTwo forward backward
    rw [(orderedPairs_perm inFirst).mem_iff, List.mem_map] at inOne
    rw [(orderedPairs_perm inSecond).mem_iff, List.mem_map] at inTwo
    rcases inOne with ⟨block, taken, rfl⟩
    rcases inTwo with ⟨other, otherTaken, rfl⟩
    have sameHash : block.hash = other.hash := hash_eq_of_before forward backward
    rw [determined block (List.mem_append_left _ (List.mem_of_mem_filter taken)) other
      (List.mem_append_right _ (List.mem_of_mem_filter otherTaken)) sameHash]

def ListsOnce (state : DagState) : Prop :=
  ∀ hash, (state.blocks hash).isSome = true → (getOrdering state).count hash = 1

theorem listsOnce_iff (determined : Determined blocks) :
    ListsOnce (afterAdding blocks) ↔ (accepted blocks).Nodup := by
  have mirrors := afterAdding_mirrors determined
  have hashed : ((accepted blocks).map DagBlock.hash).Nodup ↔ (accepted blocks).Nodup :=
    ⟨List.Nodup.of_map _, fun distinct =>
      (List.nodup_map_iff_inj_on distinct).mpr mirrors.determined⟩
  rw [← hashed]
  have counted : ∀ hash, (getOrdering (afterAdding blocks)).count hash =
      ((accepted blocks).map DagBlock.hash).count hash :=
    fun hash => (getOrdering_perm determined).count_eq hash
  constructor
  · intro once
    rw [List.nodup_iff_count_le_one]
    intro hash
    by_cases member : hash ∈ (accepted blocks).map DagBlock.hash
    · rcases List.mem_map.mp member with ⟨block, taken, rfl⟩
      have stored := (mirrors.blocks block.hash block).mpr ⟨taken, rfl⟩
      rw [← counted, once block.hash (by rw [stored]; rfl)]
    · rw [List.count_eq_zero_of_not_mem member]
      exact Nat.zero_le 1
  · intro distinct hash stored
    rcases Option.isSome_iff_exists.mp stored with ⟨block, found⟩
    rcases (mirrors.blocks hash block).mp found with ⟨taken, rfl⟩
    rw [counted]
    exact List.count_eq_one_of_mem distinct (List.mem_map_of_mem taken)

/-- For two series of deliveries of the same blocks, both orders are one list that has
every stored block once exactly if neither series delivers a block twice. -/
theorem ordering_agrees_iff (first second : List DagBlock)
    (determined : Determined (first ++ second)) (same : ∀ block, block ∈ first ↔ block ∈ second) :
    (getOrdering (afterAdding first) = getOrdering (afterAdding second) ∧
        ListsOnce (afterAdding first) ∧ ListsOnce (afterAdding second)) ↔
      (accepted first).Nodup ∧ (accepted second).Nodup := by
  rw [listsOnce_iff determined.left, listsOnce_iff (determined.mono (List.subset_append_right _ _)),
    getOrdering_eq_iff determined]
  constructor
  · exact fun all => all.2
  · intro distinct
    refine ⟨?_, distinct⟩
    rw [List.perm_ext_iff_of_nodup distinct.1 distinct.2]
    intro block
    simp only [accepted, List.mem_filter, same]

end Deliveries

def sampleDeliveries : List DagBlock := [sampleBlock 1 3, sampleBlock 2 3, sampleBlock 3 2]

theorem sampleDeliveries_ordered :
    getOrdering (afterAdding sampleDeliveries) =
      getOrdering (afterAdding sampleDeliveries.reverse) :=
  ((ordering_agrees_iff sampleDeliveries sampleDeliveries.reverse (by decide +kernel)
    (fun _ => List.mem_reverse.symm)).mpr ⟨by decide +kernel, by decide +kernel⟩).1

/-- One block, delivered once and delivered twice. -/
theorem delivered_twice_listed_twice :
    getOrdering (afterAdding [sampleBlock 1 3]) = [Vector.replicate 64 1] ∧
      getOrdering (afterAdding [sampleBlock 1 3, sampleBlock 1 3]) =
        [Vector.replicate 64 1, Vector.replicate 64 1] := by
  refine ⟨?_, ?_⟩ <;> decide +kernel

end Savitri.BlockDag
