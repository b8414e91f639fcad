import Savitri.MapTotal
import Savitri.Proposals

/-!
The block DAG of a light node, from savitri-lightnode/src/p2p/dag.rs: blocks by hash,
a tip for each group, hashes by height, the greatest height and, against equivocation,
the first block of each proposer at each height. Every call holds the one lock, so a run
is a sequence of calls. Tables that are never walked are functions; the table of heights
is walked in order.
-/
namespace Savitri.BlockDag
open Std LatticeTypes Votes

abbrev BlockHash := Vector UInt8 64
abbrev TxHash := Vector UInt8 32

structure DagBlock where
  hash : BlockHash
  height : UInt64
  groupId : String
  parentHashes : List BlockHash
  txHashes : List TxHash
  proposerPouScore : UInt32
  timestamp : UInt64
  proposer : PublicKey
  deriving DecidableEq

structure EquivocationProof where
  proposer : PublicKey
  height : UInt64
  blockHashA : BlockHash
  blockHashB : BlockHash
  deriving DecidableEq

structure DagState where
  blocks : BlockHash → Option DagBlock := fun _ => none
  tips : String → Option BlockHash := fun _ => none
  seenTxHashes : TxHash → Bool := fun _ => false
  blocksByHeight : ExtTreeMap UInt64 (List BlockHash) := ∅
  maxHeight : UInt64 := 0
  maxHeightPerGroup : String → Option UInt64 := fun _ => none
  proposerAtHeight : UInt64 × PublicKey → Option BlockHash := fun _ => none

def heightLimit : UInt64 := 0xFFFFFFFFFFFFFFFF
def zeroProposer : PublicKey := Vector.replicate 32 0

variable (state : DagState) (block : DagBlock)

/-- The index entry of a proposer is written once; a second block does not replace it. -/
def checkProposer : DagState × Option EquivocationProof :=
  if block.proposer = zeroProposer then (state, none)
  else
    let key := (block.height, block.proposer)
    match state.proposerAtHeight key with
    | some existing =>
      if existing = block.hash then (state, none)
      else (state, some
        { proposer := block.proposer, height := block.height, blockHashA := existing,
          blockHashB := block.hash })
    | none =>
      ({ state with
          proposerAtHeight := Function.update state.proposerAtHeight key (some block.hash) }, none)

def shouldUpdate : Bool :=
  match state.tips block.groupId with
  | some tip =>
    match state.blocks tip with
    | some current => decide (current.height ≤ block.height)
    | none => true
  | none => true

/-- What `add_block` writes after the check of the proposer. A hash that is delivered
again is listed again under its height. -/
def insertBlock : DagState :=
  let groupMax := (state.maxHeightPerGroup block.groupId).getD 0
  { state with
    seenTxHashes := fun tx => block.txHashes.contains tx || state.seenTxHashes tx
    blocksByHeight := state.blocksByHeight.insert block.height
      (state.blocksByHeight[block.height]?.getD [] ++ [block.hash])
    maxHeight := if block.height > state.maxHeight then block.height else state.maxHeight
    maxHeightPerGroup := Function.update state.maxHeightPerGroup block.groupId
      (some (if block.height > groupMax then block.height else groupMax))
    tips := if shouldUpdate state block then
        Function.update state.tips block.groupId (some block.hash)
      else state.tips
    blocks := Function.update state.blocks block.hash (some block) }

def addBlock : DagState × Option EquivocationProof :=
  if block.height = heightLimit then (state, none)
  else
    let checked := checkProposer state block
    (insertBlock checked.1 block, checked.2)

/-- The body of the inner loop of `prune_below`, with the count of removed blocks. -/
def pruneHash (pruned : DagState × Nat) (entry : UInt64 × BlockHash) : DagState × Nat :=
  match pruned.1.blocks entry.2 with
  | some block =>
    ({ pruned.1 with
        blocks := Function.update pruned.1.blocks entry.2 none
        seenTxHashes := fun tx => !block.txHashes.contains tx && pruned.1.seenTxHashes tx
        proposerAtHeight :=
          Function.update pruned.1.proposerAtHeight (entry.1, block.proposer) none },
      pruned.2 + 1)
  | none => pruned

def removals (minHeight : UInt64) : List (UInt64 × BlockHash) :=
  (state.blocksByHeight.toList.filter fun entry => entry.1 < minHeight).flatMap fun entry =>
    entry.2.map fun hash => (entry.1, hash)

def pruneBelow (minHeight : UInt64) : DagState × Nat :=
  let kept := state.blocksByHeight.filter fun height _ => decide (minHeight ≤ height)
  let pruned := (removals state minHeight).foldl pruneHash
    ({ state with blocksByHeight := kept }, 0)
  ({ pruned.1 with
      tips := fun group => (pruned.1.tips group).filter fun tip => (pruned.1.blocks tip).isSome
      maxHeight := kept.maxKey?.getD 0 },
    pruned.2)

inductive Call where
  | addBlock (block : DagBlock)
  | pruneBelow (minHeight : UInt64)

def step : Call → DagState × Option EquivocationProof
  | .addBlock block => addBlock state block
  | .pruneBelow minHeight => ((pruneBelow state minHeight).1, none)

section History
/-- The blocks that were added and not pruned since, in the order of their delivery; a
block that is delivered again is listed again. -/
def liveStep (live : List DagBlock) : Call → List DagBlock
  | .addBlock block => if block.height = heightLimit then live else live ++ [block]
  | .pruneBelow minHeight => live.filter fun block => decide (minHeight ≤ block.height)

def liveAfter (calls : List Call) : List DagBlock := calls.foldl liveStep []

variable {calls : List Call}

theorem liveAfter_concat {call : Call} :
    liveAfter (calls ++ [call]) = liveStep (liveAfter calls) call := by
  simp [liveAfter]

def Spares (block : DagBlock) (call : Call) : Prop :=
  ∀ minHeight, call = .pruneBelow minHeight → minHeight ≤ block.height

variable {block}

theorem mem_liveStep {live : List DagBlock} {call : Call} :
    block ∈ liveStep live call ↔
      block ∈ live ∧ Spares block call ∨ block.height ≠ heightLimit ∧ call = .addBlock block := by
  cases call with
  | addBlock added =>
    have spares : Spares block (.addBlock added) := fun _ same => by cases same
    simp only [liveStep]
    split
    next limit =>
      refine ⟨fun member => Or.inl ⟨member, spares⟩, ?_⟩
      rintro (⟨member, _⟩ | ⟨low, same⟩)
      · exact member
      · cases same
        exact absurd limit low
    next low =>
      rw [List.mem_append, List.mem_singleton]
      constructor
      · rintro (member | rfl)
        · exact Or.inl ⟨member, spares⟩
        · exact Or.inr ⟨low, rfl⟩
      · rintro (⟨member, _⟩ | ⟨_, same⟩)
        · exact Or.inl member
        · cases same
          exact Or.inr rfl
  | pruneBelow minHeight => simp [liveStep, Spares]

theorem mem_liveAfter :
    block ∈ liveAfter calls ↔ block.height ≠ heightLimit ∧
      ∃ front back, calls = front ++ .addBlock block :: back ∧
        ∀ minHeight, .pruneBelow minHeight ∈ back → minHeight ≤ block.height := by
  induction calls using List.reverseRecOn with
  | nil => simp [liveAfter]
  | append_singleton calls call ih =>
    rw [liveAfter_concat, mem_liveStep, ih]
    constructor
    · rintro (⟨⟨low, front, back, rfl, kept⟩, spared⟩ | ⟨low, rfl⟩)
      · refine ⟨low, front, back ++ [call], by simp, ?_⟩
        intro minHeight listed
        rcases List.mem_append.mp listed with inBack | last
        · exact kept minHeight inBack
        · exact spared minHeight (List.mem_singleton.mp last).symm
      · exact ⟨low, calls, [], rfl, by simp⟩
    · rintro ⟨low, front, back, split, kept⟩
      cases back using List.reverseRecOn with
      | nil =>
        rcases List.append_inj' split rfl with ⟨_, last⟩
        exact Or.inr ⟨low, List.singleton_inj.mp last⟩
      | append_singleton back last =>
        rw [← List.cons_append, ← List.append_assoc] at split
        rcases List.append_inj' split rfl with ⟨sameCalls, sameLast⟩
        cases List.singleton_inj.mp sameLast
        refine Or.inl ⟨⟨low, front, back, sameCalls, ?_⟩, ?_⟩
        · exact fun minHeight listed => kept minHeight (List.mem_append_left _ listed)
        · exact fun minHeight same => kept minHeight (by simp [same])

def addedBlocks (calls : List Call) : List DagBlock :=
  calls.filterMap fun
    | .addBlock block => some block
    | .pruneBelow _ => none

def Determined (blocks : List DagBlock) : Prop :=
  ∀ one ∈ blocks, ∀ two ∈ blocks, one.hash = two.hash → one = two

instance decidableDetermined (blocks : List DagBlock) : Decidable (Determined blocks) :=
  inferInstanceAs (Decidable (∀ one ∈ blocks, ∀ two ∈ blocks, one.hash = two.hash → one = two))

theorem Determined.left {front back : List DagBlock} (determined : Determined (front ++ back)) :
    Determined front := fun one first two second =>
  determined one (List.mem_append_left _ first) two (List.mem_append_left _ second)

theorem addedBlocks_append {front back : List Call} :
    addedBlocks (front ++ back) = addedBlocks front ++ addedBlocks back :=
  List.filterMap_append

theorem liveAfter_subset : liveAfter calls ⊆ addedBlocks calls := by
  intro block member
  rcases mem_liveAfter.mp member with ⟨_, front, back, rfl, _⟩
  simp [addedBlocks]

end History

end Savitri.BlockDag
