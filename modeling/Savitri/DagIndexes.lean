import Savitri.BlockDag

/-!
What the indexes of the block DAG say of the blocks in it. `Mirrors` relates the state
to the list of live blocks, index by index, and an added block keeps it.
-/
namespace Savitri.BlockDag
open Std LatticeTypes

section Indexes
variable (live : List DagBlock) (height : UInt64)

def hashesAt : List BlockHash :=
  (live.filter fun block => decide (block.height = height)).map DagBlock.hash

def firstOf (proposer : PublicKey) : Option DagBlock :=
  live.find? fun block => decide (block.height = height ∧ block.proposer = proposer)

def Highest (blocks : List DagBlock) : Prop :=
  (∀ block ∈ blocks, block.height ≤ height) ∧
    (blocks ≠ [] → ∃ block ∈ blocks, block.height = height) ∧ (blocks = [] → height = 0)

def TipOf (group : String) : Option BlockHash → Prop
  | none => ∀ block ∈ live, block.groupId ≠ group
  | some tip => ∃ block ∈ live, block.hash = tip ∧ block.groupId = group ∧
      ∀ other ∈ live, other.groupId = group → other.height ≤ block.height

/-- Each index of the state says what the list of live blocks says. -/
structure Mirrors (state : DagState) (live : List DagBlock) : Prop where
  determined : Determined live
  accepted : ∀ block ∈ live, block.height ≠ heightLimit
  blocks : ∀ hash block, state.blocks hash = some block ↔ block ∈ live ∧ block.hash = hash
  byHeight : ∀ height, state.blocksByHeight[height]?.getD [] = hashesAt live height
  occupied : ∀ height ∈ state.blocksByHeight, ∃ block ∈ live, block.height = height
  proposers : ∀ height proposer, proposer ≠ zeroProposer →
    state.proposerAtHeight (height, proposer) = (firstOf live height proposer).map DagBlock.hash
  highest : Highest state.maxHeight live
  tips : ∀ group, TipOf live group (state.tips group)

variable {state : DagState} {live}

theorem mirrors_empty : Mirrors {} [] := by
  constructor <;> simp [Determined, hashesAt, firstOf, Highest, TipOf]

variable {height} {block : DagBlock} {proposer : PublicKey}

theorem highest_append (highest : Highest height live) :
    Highest (if block.height > height then block.height else height) (live ++ [block]) := by
  refine ⟨fun other member => ?_, fun _ => ?_, by simp⟩
  · rcases List.mem_append.mp member with earlier | new
    · have bound := highest.1 other earlier
      split
      next above => exact le_trans bound (le_of_lt above)
      next => exact bound
    · rw [List.mem_singleton.mp new]
      split
      next => exact le_refl _
      next below => exact not_lt.mp below
  · split
    next => exact ⟨block, by simp, rfl⟩
    next below =>
      by_cases empty : live = []
      · refine ⟨block, by simp, ?_⟩
        have zero := highest.2.2 empty
        rw [zero] at below ⊢
        exact le_antisymm (not_lt.mp below) (UInt64.zero_le)
      · rcases highest.2.1 empty with ⟨other, member, same⟩
        exact ⟨other, List.mem_append_left _ member, same⟩

theorem firstOf_some (found : firstOf live height proposer = some block) :
    block ∈ live ∧ block.height = height ∧ block.proposer = proposer := by
  refine ⟨List.mem_of_find?_eq_some found, ?_⟩
  simpa using List.find?_some found

theorem firstOf_append :
    firstOf (live ++ [block]) height proposer =
      (firstOf live height proposer).or
        (if block.height = height ∧ block.proposer = proposer then some block else none) := by
  simp only [firstOf, List.find?_append, List.find?_singleton, decide_eq_true_eq]

variable (mirrors : Mirrors state live)
include mirrors

/-- The proposer's entry after the check: what the list says once the block is added. -/
theorem checkProposer_proposers (block : DagBlock) (height : UInt64) (proposer : PublicKey)
    (known : proposer ≠ zeroProposer) :
    (checkProposer state block).1.proposerAtHeight (height, proposer) =
      (firstOf (live ++ [block]) height proposer).map DagBlock.hash := by
  have before := mirrors.proposers height proposer known
  have here := mirrors.proposers block.height block.proposer
  rw [firstOf_append]
  unfold checkProposer
  by_cases same : block.height = height ∧ block.proposer = proposer
  · rcases same with ⟨rfl, rfl⟩
    rw [if_neg known, if_pos ⟨rfl, rfl⟩]
    cases found : firstOf live block.height block.proposer with
    | none => simp [before, found]
    | some first =>
      simp only [before, found, Option.map_some, Option.some_or]
      split <;> simp [before, found]
  · have elsewhere : (height, proposer) ≠ (block.height, block.proposer) := by
      intro equal
      rw [Prod.mk.injEq] at equal
      exact same ⟨equal.1.symm, equal.2.symm⟩
    rw [if_neg same, Option.or_none, ← before]
    split
    · rfl
    · simp only
      split
      · split <;> rfl
      · exact Function.update_of_ne elsewhere _ _

omit mirrors in
theorem checkProposer_eq :
    (checkProposer state block).1 =
      { state with proposerAtHeight := (checkProposer state block).1.proposerAtHeight } := by
  unfold checkProposer
  split
  · rfl
  · simp only
    split
    · split <;> rfl
    · rfl

theorem tip_stays {group : String}
    (lower : ∀ tip, state.tips group = some tip → ∀ current, state.blocks tip = some current →
      block.groupId = group → block.height ≤ current.height)
    (absent : state.tips group = none → block.groupId ≠ group) :
    TipOf (live ++ [block]) group (state.tips group) := by
  have before := mirrors.tips group
  cases tipped : state.tips group with
  | none =>
    rw [tipped] at before
    intro other member
    rcases List.mem_append.mp member with earlier | new
    · exact before other earlier
    · rw [List.mem_singleton.mp new]
      exact absent tipped
  | some tip =>
    rw [tipped] at before
    rcases before with ⟨current, inLive, hashed, grouped, top⟩
    refine ⟨current, List.mem_append_left _ inLive, hashed, grouped, ?_⟩
    intro other member sameGroup
    rcases List.mem_append.mp member with earlier | new
    · exact top other earlier sameGroup
    · rw [List.mem_singleton.mp new] at sameGroup ⊢
      exact lower tip tipped current ((mirrors.blocks tip current).mpr ⟨inLive, hashed⟩) sameGroup

theorem tip_moves (update : shouldUpdate state block = true) :
    TipOf (live ++ [block]) block.groupId (some block.hash) := by
  have before := mirrors.tips block.groupId
  refine ⟨block, by simp, rfl, rfl, ?_⟩
  intro other member sameGroup
  rcases List.mem_append.mp member with earlier | new
  · cases tipped : state.tips block.groupId with
    | none =>
      rw [tipped] at before
      exact absurd sameGroup (before other earlier)
    | some tip =>
      rw [tipped] at before
      rcases before with ⟨current, inLive, hashed, _, top⟩
      have stored := (mirrors.blocks tip current).mpr ⟨inLive, hashed⟩
      simp only [shouldUpdate, tipped, stored, decide_eq_true_eq] at update
      exact le_trans (top other earlier sameGroup) update
  · rw [List.mem_singleton.mp new]
    exact le_refl _

theorem insertBlock_tips (block : DagBlock) (group : String) :
    TipOf (live ++ [block]) group ((insertBlock state block).tips group) := by
  simp only [insertBlock]
  split
  next update =>
    by_cases own : group = block.groupId
    · subst own
      rw [Function.update_self]
      exact tip_moves mirrors update
    · rw [Function.update_of_ne own]
      exact tip_stays mirrors (fun _ _ _ _ same => absurd same.symm own)
        (fun _ same => own same.symm)
  next keep =>
    apply tip_stays mirrors
    · intro tip tipped current stored same
      subst same
      simp only [shouldUpdate, tipped, stored, decide_eq_true_eq] at keep
      exact le_of_lt (not_le.mp keep)
    · intro none same
      subst same
      simp [shouldUpdate, none] at keep

omit mirrors in
theorem determined_append (determined : Determined live)
    (known : ∀ other ∈ live, other.hash = block.hash → other = block) :
    Determined (live ++ [block]) := by
  intro one first two second same
  rw [List.mem_append, List.mem_singleton] at first second
  rcases first with earlier | rfl
  · rcases second with other | rfl
    · exact determined one earlier two other same
    · exact known one earlier same
  · rcases second with other | rfl
    · exact (known two other same.symm).symm
    · rfl

omit mirrors in
theorem hashesAt_append :
    hashesAt (live ++ [block]) height =
      hashesAt live height ++ if block.height = height then [block.hash] else [] := by
  by_cases same : block.height = height <;> simp [hashesAt, same]

theorem insertBlock_blocks (block : DagBlock)
    (known : ∀ other ∈ live, other.hash = block.hash → other = block) (hash : BlockHash)
    (other : DagBlock) :
    (insertBlock state block).blocks hash = some other ↔
      other ∈ live ++ [block] ∧ other.hash = hash := by
  simp only [insertBlock, List.mem_append, List.mem_singleton]
  by_cases own : hash = block.hash
  · subst own
    rw [Function.update_self, Option.some.injEq]
    constructor
    · rintro rfl
      exact ⟨Or.inr rfl, rfl⟩
    · rintro ⟨earlier | rfl, same⟩
      · exact (known other earlier same).symm
      · rfl
  · rw [Function.update_of_ne own, mirrors.blocks]
    constructor
    · exact fun stored => ⟨Or.inl stored.1, stored.2⟩
    · rintro ⟨earlier | rfl, same⟩
      · exact ⟨earlier, same⟩
      · exact absurd same.symm own

theorem insertBlock_mirrors (low : block.height ≠ heightLimit)
    (known : ∀ other ∈ live, other.hash = block.hash → other = block) :
    Mirrors (insertBlock (checkProposer state block).1 block) (live ++ [block]) := by
  have proposers := checkProposer_proposers mirrors block
  rw [checkProposer_eq]
  generalize (checkProposer state block).1.proposerAtHeight = entries at proposers ⊢
  constructor
  · exact determined_append mirrors.determined known
  · intro other member
    rcases List.mem_append.mp member with earlier | new
    · exact mirrors.accepted other earlier
    · rw [List.mem_singleton.mp new]
      exact low
  · exact insertBlock_blocks mirrors block known
  · intro height
    simp only [insertBlock]
    rw [ExtTreeMap.getElem?_insert, hashesAt_append]
    by_cases own : block.height = height
    · subst own
      simp [mirrors.byHeight]
    · simp [own, mirrors.byHeight]
  · intro height present
    simp only [insertBlock] at present
    rw [ExtTreeMap.mem_insert, LawfulEqOrd.compare_eq_iff_eq] at present
    rcases present with own | earlier
    · exact ⟨block, by simp, own⟩
    · rcases mirrors.occupied height earlier with ⟨other, member, same⟩
      exact ⟨other, List.mem_append_left _ member, same⟩
  · exact proposers
  · exact highest_append mirrors.highest
  · exact insertBlock_tips mirrors block

theorem addBlock_mirrors (known : ∀ other ∈ live, other.hash = block.hash → other = block) :
    Mirrors (addBlock state block).1 (liveStep live (.addBlock block)) := by
  simp only [addBlock, liveStep]
  split
  · exact mirrors
  next low => exact insertBlock_mirrors mirrors low known

end Indexes

end Savitri.BlockDag
