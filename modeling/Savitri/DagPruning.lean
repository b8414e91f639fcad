import Savitri.DagIndexes

/-!
Pruning the block DAG. The loop over the removed hashes is described once, by what it
removes and what it leaves, and each index of the blocks that stay is read off that
description. Over whole runs the tips and the greatest height are right; the answer to
an added block is right but for a block that was the first of its proposer.
-/
namespace Savitri.BlockDag
open Std Transition LatticeTypes
variable {block : DagBlock} {state : DagState} {live : List DagBlock}

section Removing
/-- What the loop of `prune_below` leaves: the listed hashes are gone, and so is every
proposer's entry that one of their blocks had; of the rest only transactions go. -/
structure Removed (state after : DagState) (hashes : List BlockHash) : Prop where
  blocks : ∀ hash, after.blocks hash = if hash ∈ hashes then none else state.blocks hash
  cleared : ∀ hash ∈ hashes, ∀ block, state.blocks hash = some block →
    after.proposerAtHeight (block.height, block.proposer) = none
  kept : ∀ key, (∀ hash ∈ hashes, ∀ block, state.blocks hash = some block →
      (block.height, block.proposer) ≠ key) →
    after.proposerAtHeight key = state.proposerAtHeight key
  tips : after.tips = state.tips
  byHeight : after.blocksByHeight = state.blocksByHeight

theorem Removed.nothing (state : DagState) : Removed state state [] := by
  constructor <;> simp

variable {after : DagState}

theorem Removed.entry {hashes : List BlockHash} (removed : Removed state after hashes)
    (key : UInt64 × PublicKey) :
    after.proposerAtHeight key = none ∨
      after.proposerAtHeight key = state.proposerAtHeight key := by
  by_cases listed : ∃ hash ∈ hashes, ∃ block, state.blocks hash = some block ∧
      (block.height, block.proposer) = key
  · rcases listed with ⟨hash, member, block, stored, rfl⟩
    exact Or.inl (removed.cleared hash member block stored)
  · refine Or.inr (removed.kept key fun hash member block stored same => ?_)
    exact listed ⟨hash, member, block, stored, same⟩

theorem Removed.trans {middle : DagState} {first second : List BlockHash}
    (one : Removed state middle first) (two : Removed middle after second) :
    Removed state after (first ++ second) := by
  constructor
  · intro hash
    rw [two.blocks, one.blocks]
    by_cases inFirst : hash ∈ first <;> by_cases inSecond : hash ∈ second <;>
      simp [inFirst, inSecond]
  · intro hash member block stored
    by_cases inFirst : hash ∈ first
    · have cleared := one.cleared hash inFirst block stored
      rcases two.entry (block.height, block.proposer) with none | same
      · exact none
      · rw [same, cleared]
    · have inSecond : hash ∈ second := (List.mem_append.mp member).resolve_left inFirst
      apply two.cleared hash inSecond
      rw [one.blocks, if_neg inFirst, stored]
  · intro key untouched
    rw [two.kept key, one.kept key fun hash member =>
      untouched hash (List.mem_append_left _ member)]
    intro hash member block stored
    apply untouched hash (List.mem_append_right _ member)
    rw [one.blocks] at stored
    split at stored
    · cases stored
    · exact stored
  · rw [two.tips, one.tips]
  · rw [two.byHeight, one.byHeight]

theorem pruneHash_removed {pruned : DagState × Nat} {entry : UInt64 × BlockHash}
    (height : ∀ block, pruned.1.blocks entry.2 = some block → block.height = entry.1) :
    Removed pruned.1 (pruneHash pruned entry).1 [entry.2] := by
  unfold pruneHash
  split
  next block stored =>
    have sameHeight := height block stored
    constructor
    · intro hash
      by_cases own : hash = entry.2 <;> simp [own]
    · intro hash member other found
      rw [List.mem_singleton.mp member, stored, Option.some.injEq] at found
      rw [← found, sameHeight]
      exact Function.update_self ..
    · intro key untouched
      apply Function.update_of_ne
      rw [← sameHeight]
      exact (untouched entry.2 (List.mem_singleton_self _) block stored).symm
    · rfl
    · rfl
  next absent =>
    constructor
    · intro hash
      by_cases own : hash = entry.2
      · simp [own, absent]
      · simp [own]
    · intro hash member other found
      rw [List.mem_singleton.mp member, absent] at found
      cases found
    · exact fun _ _ => rfl
    · rfl
    · rfl

/-- The loop, by induction over the listed hashes: each removal leaves the heights of
the blocks that are still stored as they were. -/
theorem foldl_pruneHash_removed (entries : List (UInt64 × BlockHash)) (pruned : DagState × Nat)
    (heights : ∀ entry ∈ entries, ∀ block, pruned.1.blocks entry.2 = some block →
      block.height = entry.1) :
    Removed pruned.1 (entries.foldl pruneHash pruned).1 (entries.map Prod.snd) := by
  induction entries generalizing pruned with
  | nil => exact Removed.nothing pruned.1
  | cons entry rest ih =>
    have first := pruneHash_removed (heights entry List.mem_cons_self)
    refine first.trans (ih (pruneHash pruned entry) ?_)
    intro later member block stored
    rw [first.blocks] at stored
    split at stored
    · cases stored
    · exact heights later (List.mem_cons_of_mem _ member) block stored

end Removing

section PruningIndexes
variable {minHeight height : UInt64} {proposer : PublicKey}

theorem mem_removals (mirrors : Mirrors state live) {hash : BlockHash} :
    (height, hash) ∈ removals state minHeight ↔
      height < minHeight ∧ ∃ block ∈ live, block.hash = hash ∧ block.height = height := by
  have listed : ∀ hashes, state.blocksByHeight[height]? = some hashes →
      hashes = hashesAt live height := by
    intro hashes found
    rw [← mirrors.byHeight, found]
    rfl
  simp only [removals, List.mem_flatMap, List.mem_filter, List.mem_map, Prod.mk.injEq,
    decide_eq_true_eq]
  constructor
  · rintro ⟨⟨key, hashes⟩, ⟨inTable, below⟩, other, member, rfl, rfl⟩
    have found := ExtTreeMap.mem_toList_iff_getElem?_eq_some.mp inTable
    rw [listed hashes found] at member
    rcases List.mem_map.mp member with ⟨block, inLive, rfl⟩
    rcases List.mem_filter.mp inLive with ⟨isLive, sameHeight⟩
    exact ⟨below, block, isLive, rfl, of_decide_eq_true sameHeight⟩
  · rintro ⟨below, block, isLive, rfl, sameHeight⟩
    have inList : block.hash ∈ hashesAt live height :=
      List.mem_map_of_mem (List.mem_filter.mpr ⟨isLive, decide_eq_true sameHeight⟩)
    cases found : state.blocksByHeight[height]? with
    | none =>
      rw [← mirrors.byHeight, found] at inList
      cases inList
    | some hashes =>
      refine ⟨(height, hashes), ⟨ExtTreeMap.mem_toList_iff_getElem?_eq_some.mpr found, below⟩,
        block.hash, ?_, rfl, rfl⟩
      rw [listed hashes found]
      exact inList

theorem removed_hash_iff (mirrors : Mirrors state live) (isLive : block ∈ live) :
    block.hash ∈ (removals state minHeight).map Prod.snd ↔ block.height < minHeight := by
  rw [List.mem_map]
  constructor
  · rintro ⟨⟨height, hash⟩, listed, same⟩
    rcases (mem_removals mirrors).mp listed with
      ⟨below, other, inLive, hashed, rfl⟩
    rw [← mirrors.determined other inLive block isLive (hashed.trans same)]
    exact below
  · intro below
    exact ⟨(block.height, block.hash), (mem_removals mirrors).mpr ⟨below, block, isLive, rfl, rfl⟩, rfl⟩

variable (table : ExtTreeMap UInt64 (List BlockHash))

def keptHeights (minHeight : UInt64) : ExtTreeMap UInt64 (List BlockHash) :=
  table.filter fun height _ => decide (minHeight ≤ height)

theorem getElem?_keptHeights (minHeight height : UInt64) :
    (keptHeights table minHeight)[height]? =
      if minHeight ≤ height then table[height]? else none := by
  rw [keptHeights, ExtTreeMap.getElem?_filter]
  simp only [ExtTreeMap.getKey_eq, Option.pfilter_eq_filter]
  split <;> cases table[height]? <;> simp [*]

def keptBlocks (live : List DagBlock) (minHeight : UInt64) : List DagBlock :=
  live.filter fun block => decide (minHeight ≤ block.height)

theorem mem_keptBlocks :
    block ∈ keptBlocks live minHeight ↔ block ∈ live ∧ minHeight ≤ block.height := by
  simp [keptBlocks]

theorem hashesAt_keptBlocks :
    hashesAt (keptBlocks live minHeight) height =
      if minHeight ≤ height then hashesAt live height else [] := by
  unfold hashesAt keptBlocks
  rw [List.filter_filter]
  split
  next high =>
    congr 1
    apply List.filter_congr
    intro block _
    by_cases same : block.height = height <;> simp [same, high]
  next low =>
    rw [List.map_eq_nil_iff, List.filter_eq_nil_iff]
    intro block _ both
    simp only [Bool.and_eq_true, decide_eq_true_eq] at both
    exact low (both.1 ▸ both.2)

variable (mirrors : Mirrors state live)
include mirrors

theorem mem_of_height (isLive : block ∈ live) : block.height ∈ state.blocksByHeight := by
  have listed : block.hash ∈ hashesAt live block.height :=
    List.mem_map_of_mem (List.mem_filter.mpr ⟨isLive, by simp⟩)
  rw [← mirrors.byHeight] at listed
  rw [ExtTreeMap.mem_iff_isSome_getElem?]
  cases found : state.blocksByHeight[block.height]? with
  | none =>
    rw [found] at listed
    cases listed
  | some hashes => rfl

theorem mem_keptHeights :
    height ∈ keptHeights state.blocksByHeight minHeight ↔
      ∃ block ∈ keptBlocks live minHeight, block.height = height := by
  have inTable : height ∈ keptHeights state.blocksByHeight minHeight ↔
      minHeight ≤ height ∧ height ∈ state.blocksByHeight := by
    simp only [ExtTreeMap.mem_iff_isSome_getElem?, getElem?_keptHeights]
    split <;> simp [*]
  rw [inTable]
  constructor
  · rintro ⟨high, present⟩
    rcases mirrors.occupied height present with ⟨block, isLive, rfl⟩
    exact ⟨block, mem_keptBlocks.mpr ⟨isLive, high⟩, rfl⟩
  · rintro ⟨block, kept, rfl⟩
    exact ⟨(mem_keptBlocks.mp kept).2, mem_of_height mirrors (mem_keptBlocks.mp kept).1⟩

theorem highest_keptBlocks :
    Highest ((keptHeights state.blocksByHeight minHeight).maxKey?.getD 0)
      (keptBlocks live minHeight) := by
  cases top : (keptHeights state.blocksByHeight minHeight).maxKey? with
  | none =>
    have none : keptBlocks live minHeight = [] := by
      rw [List.eq_nil_iff_forall_not_mem]
      intro block kept
      have present := (mem_keptHeights mirrors).mpr ⟨block, kept, rfl⟩
      rw [ExtTreeMap.maxKey?_eq_none_iff.mp top] at present
      simp at present
    rw [none]
    simp [Highest]
  | some greatest =>
    rcases ExtTreeMap.maxKey?_eq_some_iff_mem_and_forall.mp top with ⟨present, above⟩
    rcases (mem_keptHeights mirrors).mp present with ⟨block, kept, same⟩
    refine ⟨fun other member => ?_, fun _ => ⟨block, kept, same⟩, fun empty => ?_⟩
    · have bound := above other.height ((mem_keptHeights mirrors).mpr ⟨other, member, rfl⟩)
      exact isLE_compare.mp bound
    · rw [empty] at kept
      cases kept

omit mirrors in
theorem firstOf_keptBlocks :
    firstOf (keptBlocks live minHeight) height proposer =
      if minHeight ≤ height then firstOf live height proposer else none := by
  unfold firstOf keptBlocks
  rw [List.find?_filter]
  split
  next high =>
    congr 1
    funext block
    by_cases same : block.height = height <;> simp [same, high]
  next low =>
    rw [List.find?_eq_none]
    intro block _ both
    simp only [decide_eq_true_eq] at both
    exact low (both.2.1 ▸ both.1)

omit mirrors in
/-- A tip that is pruned was the highest block of its group, so the group is gone. -/
theorem keptBlocks_tips {group : String} {tipped : Option BlockHash}
    (before : TipOf live group tipped) (determined : Determined live)
    {blocks : BlockHash → Option DagBlock} (stored : ∀ hash block, blocks hash = some block ↔
      block ∈ keptBlocks live minHeight ∧ block.hash = hash) :
    TipOf (keptBlocks live minHeight) group (tipped.filter fun tip => (blocks tip).isSome) := by
  cases tipped with
  | none => exact fun block kept => before block (mem_keptBlocks.mp kept).1
  | some tip =>
    rcases before with ⟨block, isLive, rfl, grouped, top⟩
    by_cases high : minHeight ≤ block.height
    · have kept := (stored block.hash block).mpr ⟨mem_keptBlocks.mpr ⟨isLive, high⟩, rfl⟩
      simp only [Option.filter_some, kept, Option.isSome_some, if_true]
      exact ⟨block, mem_keptBlocks.mpr ⟨isLive, high⟩, rfl, grouped, fun other member =>
        top other (mem_keptBlocks.mp member).1⟩
    · have gone : blocks block.hash = none := by
        cases found : blocks block.hash with
        | none => rfl
        | some other =>
          rcases (stored block.hash other).mp found with ⟨kept, hashed⟩
          rcases mem_keptBlocks.mp kept with ⟨inLive, above⟩
          rw [determined other inLive block isLive hashed] at above
          exact absurd above high
      simp only [Option.filter_some, gone, Option.isSome_none, Bool.false_eq_true, if_false]
      intro other kept sameGroup
      rcases mem_keptBlocks.mp kept with ⟨inLive, above⟩
      exact high (le_trans above (top other inLive sameGroup))

def loopState (state : DagState) (minHeight : UInt64) : DagState :=
  ((removals state minHeight).foldl pruneHash
    ({ state with blocksByHeight := keptHeights state.blocksByHeight minHeight }, 0)).1

theorem loopState_removed (minHeight : UInt64) :
    Removed { state with blocksByHeight := keptHeights state.blocksByHeight minHeight }
      (loopState state minHeight) ((removals state minHeight).map Prod.snd) := by
  apply foldl_pruneHash_removed (removals state minHeight)
    ({ state with blocksByHeight := keptHeights state.blocksByHeight minHeight }, 0)
  rintro ⟨height, hash⟩ listed block stored
  rcases (mem_removals mirrors).mp listed with
    ⟨_, other, isLive, hashed, rfl⟩
  rcases (mirrors.blocks hash block).mp stored with ⟨inLive, same⟩
  rw [mirrors.determined block inLive other isLive (same.trans hashed.symm)]

theorem loopState_blocks (hash : BlockHash) (block : DagBlock) :
    (loopState state minHeight).blocks hash = some block ↔
      block ∈ keptBlocks live minHeight ∧ block.hash = hash := by
  rw [(loopState_removed mirrors minHeight).blocks, mem_keptBlocks]
  constructor
  · intro found
    split at found
    · cases found
    next spared =>
      rcases (mirrors.blocks hash block).mp found with ⟨isLive, rfl⟩
      rw [removed_hash_iff mirrors isLive] at spared
      exact ⟨⟨isLive, not_lt.mp spared⟩, rfl⟩
  · rintro ⟨⟨isLive, high⟩, rfl⟩
    have spared : block.hash ∉ (removals state minHeight).map Prod.snd := fun listed =>
      not_lt.mpr high ((removed_hash_iff mirrors isLive).mp listed)
    rw [if_neg spared]
    exact (mirrors.blocks block.hash block).mpr ⟨isLive, rfl⟩

theorem loopState_entry_kept (high : minHeight ≤ height) :
    (loopState state minHeight).proposerAtHeight (height, proposer) =
      state.proposerAtHeight (height, proposer) := by
  apply (loopState_removed mirrors minHeight).kept
  intro hash listed block found same
  rcases (mirrors.blocks hash block).mp found with ⟨isLive, rfl⟩
  rw [removed_hash_iff mirrors isLive] at listed
  cases same
  exact absurd listed (not_lt.mpr high)

theorem loopState_entry_cleared (low : ¬ minHeight ≤ height) (known : proposer ≠ zeroProposer) :
    (loopState state minHeight).proposerAtHeight (height, proposer) = none := by
  have removed := loopState_removed mirrors minHeight
  have entry := mirrors.proposers height proposer known
  cases found : firstOf live height proposer with
  | none =>
    rw [found] at entry
    rcases removed.entry (height, proposer) with none | same
    · exact none
    · exact same.trans entry
  | some block =>
    rcases firstOf_some found with ⟨isLive, sameHeight, sameProposer⟩
    have below : block.height < minHeight := by
      rw [sameHeight]
      exact not_le.mp low
    have cleared := removed.cleared block.hash
      ((removed_hash_iff mirrors isLive).mpr below) block
      ((mirrors.blocks block.hash block).mpr ⟨isLive, rfl⟩)
    rw [sameHeight, sameProposer] at cleared
    exact cleared

theorem loopState_proposers (height : UInt64) (proposer : PublicKey)
    (known : proposer ≠ zeroProposer) :
    (loopState state minHeight).proposerAtHeight (height, proposer) =
      (firstOf (keptBlocks live minHeight) height proposer).map DagBlock.hash := by
  rw [firstOf_keptBlocks]
  split
  next high =>
    rw [loopState_entry_kept mirrors high, mirrors.proposers height proposer known]
  next low => exact loopState_entry_cleared mirrors low known

theorem pruneBelow_mirrors :
    Mirrors (pruneBelow state minHeight).1 (liveStep live (.pruneBelow minHeight)) := by
  have removed := loopState_removed mirrors minHeight
  have heights : (pruneBelow state minHeight).1.blocksByHeight =
      keptHeights state.blocksByHeight minHeight := removed.byHeight
  have tips : ∀ group, (pruneBelow state minHeight).1.tips group =
      (state.tips group).filter fun tip => ((loopState state minHeight).blocks tip).isSome := by
    intro group
    rw [← congrFun removed.tips group]
    rfl
  constructor
  · intro one first two second
    exact mirrors.determined one (mem_keptBlocks.mp first).1 two (mem_keptBlocks.mp second).1
  · exact fun block kept => mirrors.accepted block (mem_keptBlocks.mp kept).1
  · exact loopState_blocks mirrors
  · intro height
    rw [heights, getElem?_keptHeights]
    refine Eq.trans ?_ hashesAt_keptBlocks.symm
    split
    · exact mirrors.byHeight height
    · rfl
  · intro height present
    rw [heights] at present
    exact (mem_keptHeights mirrors).mp present
  · exact loopState_proposers mirrors
  · exact highest_keptBlocks mirrors
  · intro group
    rw [tips]
    exact keptBlocks_tips (mirrors.tips group) mirrors.determined (loopState_blocks mirrors)

end PruningIndexes

variable (mirrors : Mirrors state live)
include mirrors

theorem step_mirrors {call : Call} (known : ∀ block, call = .addBlock block → ∀ other ∈ live,
      other.hash = block.hash → other = block) :
    Mirrors (step state call).1 (liveStep live call) := by
  cases call with
  | addBlock block => exact addBlock_mirrors mirrors (known block rfl)
  | pruneBelow minHeight => exact pruneBelow_mirrors mirrors

omit mirrors in
theorem run_mirrors {calls : List Call} (determined : Determined (addedBlocks calls)) :
    Mirrors (run step {} calls) (liveAfter calls) := by
  induction calls using List.reverseRecOn with
  | nil => exact mirrors_empty
  | append_singleton calls call ih =>
    rw [addedBlocks_append] at determined
    rw [run_concat, liveAfter_concat]
    apply step_mirrors (ih determined.left)
    rintro block rfl other isLive
    exact determined other (List.mem_append_left _ (liveAfter_subset isLive)) block
      (List.mem_append_right _ (by simp [addedBlocks]))

def Conflict (live : List DagBlock) (block : DagBlock) : Prop :=
  block.proposer ≠ zeroProposer ∧ ∃ other ∈ live,
    other.height = block.height ∧ other.proposer = block.proposer ∧ other ≠ block

/-- A proof is returned for a conflict unless the block is the first of the two to have
been added, which the index names. -/
theorem addBlock_proof_iff (known : ∀ other ∈ live, other.hash = block.hash → other = block) :
    (addBlock state block).2.isSome = true ↔
      Conflict live block ∧ firstOf live block.height block.proposer ≠ some block := by
  unfold addBlock checkProposer
  split
  next limit =>
    refine ⟨by simp, ?_⟩
    rintro ⟨⟨_, other, isLive, sameHeight, _⟩, _⟩
    exact absurd (sameHeight.trans limit) (mirrors.accepted other isLive)
  next =>
    simp only
    split
    next zero => exact ⟨by simp, fun both => absurd zero both.1.1⟩
    next nonzero =>
      rw [mirrors.proposers block.height block.proposer nonzero]
      cases found : firstOf live block.height block.proposer with
      | none =>
        refine ⟨by simp, ?_⟩
        rintro ⟨⟨_, other, isLive, sameHeight, sameProposer, _⟩, _⟩
        have missed := List.find?_eq_none.mp found other isLive
        exact absurd (decide_eq_true ⟨sameHeight, sameProposer⟩) missed
      | some first =>
        rcases firstOf_some found with ⟨isLive, sameHeight, sameProposer⟩
        simp only [Option.map_some]
        split
        next same =>
          refine ⟨by simp, fun both => absurd ?_ both.2⟩
          rw [known first isLive same]
        next differs =>
          refine ⟨fun _ => ⟨⟨nonzero, first, isLive, sameHeight, sameProposer, ?_⟩, ?_⟩, fun _ => rfl⟩
          · rintro rfl
            exact differs rfl
          · intro same
            exact differs (congrArg DagBlock.hash (Option.some.inj same))

def TipsHighest (state : DagState) : Prop :=
  (∀ group tip, state.tips group = some tip → ∃ block, state.blocks tip = some block ∧
    block.groupId = group ∧ ∀ hash other, state.blocks hash = some other →
      other.groupId = group → other.height ≤ block.height) ∧
  ∀ hash block, state.blocks hash = some block → (state.tips block.groupId).isSome = true

def MaxHeightStored (state : DagState) : Prop :=
  (∀ hash block, state.blocks hash = some block → block.height ≤ state.maxHeight) ∧
  ((∃ hash, (state.blocks hash).isSome = true) →
    ∃ hash block, state.blocks hash = some block ∧ block.height = state.maxHeight) ∧
  ((∀ hash, state.blocks hash = none) → state.maxHeight = 0)

theorem Mirrors.tipsHighest : TipsHighest state := by
  constructor
  · intro group tip tipped
    have before := mirrors.tips group
    rw [tipped] at before
    rcases before with ⟨block, isLive, hashed, grouped, top⟩
    refine ⟨block, (mirrors.blocks tip block).mpr ⟨isLive, hashed⟩, grouped, ?_⟩
    intro hash other stored
    exact top other ((mirrors.blocks hash other).mp stored).1
  · intro hash block stored
    have before := mirrors.tips block.groupId
    cases tipped : state.tips block.groupId with
    | none =>
      rw [tipped] at before
      exact absurd rfl (before block ((mirrors.blocks hash block).mp stored).1)
    | some tip => rfl

theorem Mirrors.maxHeightStored : MaxHeightStored state := by
  refine ⟨fun hash block stored => ?_, ?_, fun none => mirrors.highest.2.2 ?_⟩
  · exact mirrors.highest.1 block ((mirrors.blocks hash block).mp stored).1
  · rintro ⟨hash, some⟩
    rcases Option.isSome_iff_exists.mp some with ⟨stored, found⟩
    have member := ((mirrors.blocks hash stored).mp found).1
    rcases mirrors.highest.2.1 (List.ne_nil_of_mem member) with ⟨block, isLive, same⟩
    exact ⟨block.hash, block, (mirrors.blocks block.hash block).mpr ⟨isLive, rfl⟩, same⟩
  · rw [List.eq_nil_iff_forall_not_mem]
    intro block isLive
    have stored := (mirrors.blocks block.hash block).mpr ⟨isLive, rfl⟩
    rw [none block.hash] at stored
    cases stored

omit mirrors

/-- In every run the tips and the greatest height are those of the stored blocks, and
every added block is answered with a proof exactly when it conflicts with a live block,
except where it is itself the first live block of its proposer at its height. -/
theorem indexes_follow_blocks (calls : List Call) (determined : Determined (addedBlocks calls)) :
    TipsHighest (run step {} calls) ∧ MaxHeightStored (run step {} calls) ∧
      ∀ front block back, calls = front ++ .addBlock block :: back →
        (((addBlock (run step {} front) block).2.isSome = true ↔ Conflict (liveAfter front) block) ↔
          ¬ (Conflict (liveAfter front) block ∧
            firstOf (liveAfter front) block.height block.proposer = some block)) := by
  have mirrors := run_mirrors determined
  refine ⟨mirrors.tipsHighest, mirrors.maxHeightStored, ?_⟩
  rintro front block back rfl
  rw [addedBlocks_append] at determined
  have answered := addBlock_proof_iff (run_mirrors determined.left) (by
    intro other isLive
    exact determined other (List.mem_append_left _ (liveAfter_subset isLive)) block
      (List.mem_append_right _ (by simp [addedBlocks])))
  rw [answered]
  tauto

def sampleBlock (hash : UInt8) (height : UInt64) : DagBlock :=
  { hash := Vector.replicate 64 hash, height, groupId := "group_1_0_1", parentHashes := [],
    txHashes := [], proposerPouScore := 10, timestamp := 0, proposer := sampleKey 9 }

def sampleCalls : List Call :=
  [.addBlock (sampleBlock 1 3), .addBlock (sampleBlock 2 3), .pruneBelow 4,
    .addBlock (sampleBlock 3 5)]

/-- A conflict, and a pruning that takes both blocks away before a third one comes. -/
theorem sampleCalls_indexed :
    TipsHighest (run step {} sampleCalls) ∧ MaxHeightStored (run step {} sampleCalls) ∧
      (outputs step {} sampleCalls).map Option.isSome = [false, true, false, false] := by
  have indexed := indexes_follow_blocks sampleCalls (by decide +kernel)
  exact ⟨indexed.1, indexed.2.1, by decide +kernel⟩

/-- The first of two conflicting blocks, delivered again: no proof, though the other one
is stored. -/
theorem first_block_again :
    (outputs step {} [.addBlock (sampleBlock 1 3), .addBlock (sampleBlock 2 3),
        .addBlock (sampleBlock 1 3)]).map Option.isSome = [false, true, false] ∧
      Conflict (liveAfter [.addBlock (sampleBlock 1 3), .addBlock (sampleBlock 2 3)])
        (sampleBlock 1 3) := by
  refine ⟨by decide +kernel, by decide +kernel, sampleBlock 2 3, ?_⟩
  decide +kernel

end Savitri.BlockDag
