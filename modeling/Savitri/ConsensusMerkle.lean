import Mathlib
import Savitri.MerkleLevels

/-!
The transaction root of crypto/merkle.rs. A level of odd length is filled up with a copy of
its last node, which the stored levels do not have: a proof skips such a level. Leaves
are hashes as they come, and neither the number of leaves nor the height of the tree
goes into the root.
-/
namespace Savitri.ConsensusMerkle
open Merkle

abbrev Hash := Vector UInt8 32

inductive MerkleError where
  | emptyInput
  | invalidProof
  | indexOutOfBounds (index len : Nat)

structure MerkleProof where
  leafHash : Hash
  path : List (Step Hash)
  root : Hash

structure MerkleTree where
  leaves : List Hash
  nodes : List (List Hash)
  root : Hash

def zeroHash : Hash := Vector.replicate 32 0

section
variable (sha256 : List UInt8 → Hash)

def hashInternal (left right : Hash) : Hash := sha256 (0x01 :: (left.toList ++ right.toList))

def MerkleProof.verify (proof : MerkleProof) : Bool :=
  climb (hashInternal sha256) proof.leafHash proof.path == proof.root

/-- The levels as they are stored, without the copies that fill them up. -/
def buildLevels (level : List Hash) : List (List Hash) :=
  if level.length ≤ 1 then [level]
  else level :: buildLevels (pairUp (hashInternal sha256) id level)
termination_by level.length
decreasing_by
  rw [length_pairUp]
  omega

def MerkleTree.fromLeafHashes (leaves : List Hash) : Except MerkleError MerkleTree :=
  if leaves.isEmpty then .error .emptyInput
  else
    let nodes := buildLevels sha256 leaves
    .ok { leaves, nodes, root := (nodes.getLastD []).headD zeroHash }

/-- A level where the sibling is not stored adds nothing to the path. -/
def proofPath : List (List Hash) → Nat → List (Step Hash)
  | [], _ => []
  | level :: rest, index =>
    match level[siblingIndex index]? with
    | some hash => (siblingSide index, hash) :: proofPath rest (index / 2)
    | none => proofPath rest (index / 2)

def MerkleTree.proof (tree : MerkleTree) (index : Nat) : Except MerkleError MerkleProof :=
  match tree.leaves[index]? with
  | none => .error (.indexOutOfBounds index tree.leaves.length)
  | some leafHash =>
    .ok { leafHash, path := proofPath tree.nodes.dropLast index, root := tree.root }

def computeTxRoot (txHashes : List Hash) : Hash :=
  match txHashes with
  | [] => zeroHash
  | [txHash] => txHash
  | txHashes =>
    match MerkleTree.fromLeafHashes sha256 txHashes with
    | .ok tree => tree.root
    | .error _ => zeroHash

def verifyTxInclusion (txHash txRoot : Hash) (proof : MerkleProof) : Bool :=
  proof.leafHash == txHash && proof.root == txRoot && proof.verify sha256

end

section
variable {sha256 : List UInt8 → Hash}
variable {level : List Hash} {leaves : List Hash}

theorem buildLevels_ne_nil : buildLevels sha256 level ≠ [] := by
  rw [buildLevels]
  split <;> simp

theorem getLastD_buildLevels :
    (buildLevels sha256 level).getLastD [] = collapse (hashInternal sha256) id level := by
  induction level using collapse.induct (hashInternal sha256) id with
  | case1 level short =>
    rw [buildLevels, if_pos short, collapse_of_le short]
    rfl
  | case2 level long ih =>
    rw [buildLevels, if_neg long, collapse_of_lt (Nat.not_le.mp long), ← ih]
    rw [List.getLastD_eq_getLast?, List.getLastD_eq_getLast?,
      List.getLast?_cons_of_ne_nil buildLevels_ne_nil]

theorem fromLeafHashes_ok (present : leaves ≠ []) :
    MerkleTree.fromLeafHashes sha256 leaves = .ok
      { leaves
        nodes := buildLevels sha256 leaves
        root := (collapse (hashInternal sha256) id leaves).headD zeroHash } := by
  rw [MerkleTree.fromLeafHashes, if_neg (by simpa using present)]
  simp only [getLastD_buildLevels]

theorem computeTxRoot_eq {txHashes : List Hash} :
    computeTxRoot sha256 txHashes =
      (collapse (hashInternal sha256) id txHashes).headD zeroHash := by
  unfold computeTxRoot
  split
  · rw [collapse_of_le (by simp)]
    rfl
  · rw [collapse_of_le (by simp)]
    rfl
  · next none _ =>
      rw [fromLeafHashes_ok none]

/-- Every node above the index has its sibling stored. -/
def paired (length index : Nat) : Bool :=
  if length ≤ 1 then true
  else decide (siblingIndex index < length) && paired ((length + 1) / 2) (index / 2)
termination_by length

theorem climb_proofPath (index : Nat) (hash : Hash) (found : level[index]? = some hash)
    (stored : paired level.length index = true) :
    climb (hashInternal sha256) hash (proofPath (buildLevels sha256 level).dropLast index) =
      (collapse (hashInternal sha256) id level).headD zeroHash := by
  induction level using collapse.induct (hashInternal sha256) id generalizing index hash with
  | case1 level short =>
    have inside := (List.getElem?_eq_some_iff.mp found).1
    obtain ⟨leaf, rfl⟩ : ∃ leaf, level = [leaf] := List.length_eq_one_iff.mp (by omega)
    have first : index = 0 := by simpa using inside
    subst first
    cases found
    rw [buildLevels, if_pos short, collapse_of_le short]
    rfl
  | case2 level long ih =>
    rw [paired, if_neg long, Bool.and_eq_true, decide_eq_true_eq] at stored
    obtain ⟨inside, above⟩ := stored
    have up : (pairUp (hashInternal sha256) id level)[index / 2]? = some (climb _ hash [_]) :=
      getElem?_parent found
    rw [List.getElem?_eq_getElem inside] at up
    rw [buildLevels, if_neg long, List.dropLast_cons_of_ne_nil buildLevels_ne_nil, proofPath,
      List.getElem?_eq_getElem inside, collapse_of_lt (Nat.not_le.mp long),
      ← ih _ _ up (by rwa [length_pairUp])]
    rfl

/-- The path is shorter than the tree is high exactly where a sibling is not stored. -/
theorem length_proofPath (index : Nat) :
    (proofPath (buildLevels sha256 level).dropLast index).length ≤ rounds level.length ∧
      ((proofPath (buildLevels sha256 level).dropLast index).length = rounds level.length →
        paired level.length index = true) := by
  induction level using collapse.induct (hashInternal sha256) id generalizing index with
  | case1 level short =>
    rw [buildLevels, if_pos short, paired, if_pos short]
    exact ⟨Nat.zero_le _, fun _ => rfl⟩
  | case2 level long ih =>
    obtain ⟨within, full⟩ := ih (index / 2)
    rw [length_pairUp] at within full
    rw [buildLevels, if_neg long, List.dropLast_cons_of_ne_nil buildLevels_ne_nil, proofPath,
      rounds, if_neg long, paired, if_neg long]
    by_cases inside : siblingIndex index < level.length
    · rw [List.getElem?_eq_getElem inside]
      simpa [inside] using ⟨within, full⟩
    · rw [List.getElem?_eq_none (Nat.not_lt.mp inside)]
      constructor
      · exact within.trans (Nat.le_succ _)
      · intro same
        exact absurd (same ▸ within) (Nat.not_succ_le_self _)

theorem exists_tree (sha256 : List UInt8 → Hash) (present : leaves ≠ []) :
    ∃ tree : HashTree Hash, collapse HashTree.fork id (leaves.map HashTree.leaf) = [tree] ∧
      collapse (hashInternal sha256) id leaves = [tree.root (hashInternal sha256)] ∧
      tree.Perfect (rounds leaves.length) ∧ (∀ leaf ∈ tree.leaves, leaf ∈ leaves) ∧
      tree.pairs (hashInternal sha256) ⊆ combined (hashInternal sha256) id leaves := by
  obtain ⟨tree, only, root, pairs⟩ : ∃ tree : HashTree Hash,
      collapse HashTree.fork id (leaves.map HashTree.leaf) = [tree] ∧
      collapse (hashInternal sha256) id leaves = [tree.root (hashInternal sha256)] ∧ _ :=
    exists_tree_collapse (fun _ => rfl) (fun _ => List.Subset.refl _) present
  have member : tree ∈ collapse HashTree.fork id (leaves.map HashTree.leaf) := by
    rw [only]
    exact List.mem_singleton_self tree
  refine ⟨tree, only, root, ?_, ?_, pairs⟩
  · have high := perfect_collapse (fun _ _ => id) (leaves.map HashTree.leaf) 0
      (by simp [HashTree.Perfect]) tree member
    rwa [Nat.zero_add, List.length_map] at high
  · refine forall_collapse (fun tree : HashTree Hash => ∀ leaf ∈ tree.leaves, leaf ∈ leaves) ?_
      (fun _ => id) _ ?_ tree member
    · intro left right inLeft inRight leaf found
      rw [HashTree.leaves, List.mem_append] at found
      exact found.elim (inLeft leaf) (inRight leaf)
    · intro old isLeaf leaf found
      obtain ⟨hash, isHash, rfl⟩ := List.mem_map.mp isLeaf
      rwa [List.mem_singleton.mp found]

theorem climb_to_root (present : leaves ≠ []) {start : Hash} {path : List (Step Hash)}
    (within : path.length ≤ rounds leaves.length)
    (reached : climb (hashInternal sha256) start path =
      (collapse (hashInternal sha256) id leaves).headD zeroHash) :
    (path.length = rounds leaves.length ∧ start ∈ leaves) ∨
      (path.length < rounds leaves.length ∧ ∃ pair ∈ combined (hashInternal sha256) id leaves,
          hashInternal sha256 pair.1 pair.2 = start) ∨
      Collision (hashInternal sha256) (climbed (hashInternal sha256) start path)
        (combined (hashInternal sha256) id leaves) := by
  obtain ⟨tree, _, root, perfect, inside, pairs⟩ := exists_tree sha256 present
  rw [root, List.headD_cons] at reached
  rcases climb_opens_perfect reached perfect within with ⟨full, isLeaf⟩ | ⟨short, inner⟩ | collides
  · exact Or.inl ⟨full, inside start isLeaf⟩
  · obtain ⟨pair, member, same⟩ := inner
    exact Or.inr (Or.inl ⟨short, pair, pairs member, same⟩)
  · exact Or.inr (Or.inr (collides.mono (List.Subset.refl _) pairs))

end

/-- The proof of a leaf belongs to the leaf and the root. It verifies if every node on
its way has its sibling stored, and only then unless the leaf is itself the hash of an
inner pair or two pairs have the same hash. -/
theorem proof_verifies_when_paired (sha256 : List UInt8 → Hash) (leaves : List Hash) (index : Nat)
    (leaf : Hash) (found : leaves[index]? = some leaf) :
    ∃ tree proof, MerkleTree.fromLeafHashes sha256 leaves = .ok tree ∧
      tree.proof index = .ok proof ∧ proof.leafHash = leaf ∧ proof.root = tree.root ∧
      (paired leaves.length index = true → proof.verify sha256 = true) ∧
      (proof.verify sha256 = true → paired leaves.length index = true ∨
        (∃ pair ∈ combined (hashInternal sha256) id leaves, hashInternal sha256 pair.1 pair.2 = leaf) ∨
        Collision (hashInternal sha256) (climbed (hashInternal sha256) leaf proof.path)
          (combined (hashInternal sha256) id leaves)) := by
  have present : leaves ≠ [] := by
    rintro rfl
    cases found
  refine ⟨_, _, fromLeafHashes_ok present, by rw [MerkleTree.proof, found], rfl, rfl, ?_, ?_⟩
  · intro stored
    rw [MerkleProof.verify, beq_iff_eq]
    exact climb_proofPath index leaf found stored
  · intro accepted
    rw [MerkleProof.verify, beq_iff_eq] at accepted
    obtain ⟨within, full⟩ := length_proofPath index
    rcases climb_to_root present within accepted with ⟨same, _⟩ | ⟨_, inner⟩ | collides
    · exact Or.inl (full same)
    · exact Or.inr (Or.inl inner)
    · exact Or.inr (Or.inr collides)

def sampleSha256 (bytes : List UInt8) : Hash :=
  Vector.ofFn fun index =>
    if index.val = 0 then bytes.getD 1 0
    else if index.val = 1 then bytes.getD 33 0
    else bytes.getD 64 0 + 1

def sampleHash (byte : UInt8) : Hash := Vector.replicate 32 byte

theorem second_of_three_verifies :
    ∃ tree proof, MerkleTree.fromLeafHashes sampleSha256 (List.map sampleHash [2, 3, 4]) = .ok tree ∧
      tree.proof 1 = .ok proof ∧ proof.verify sampleSha256 = true := by
  obtain ⟨tree, proof, built, made, _, _, verifies, _⟩ :=
    proof_verifies_when_paired sampleSha256 (List.map sampleHash [2, 3, 4]) 1 (sampleHash 3) rfl
  exact ⟨tree, proof, built, made, verifies (by decide +kernel)⟩

/-- The copy that fills up the first level is not stored, and the step over it is missing. -/
theorem last_of_three_fails :
    ∃ tree proof, MerkleTree.fromLeafHashes sampleSha256 (List.map sampleHash [2, 3, 4]) = .ok tree ∧
      tree.proof 2 = .ok proof ∧ proof.verify sampleSha256 = false :=
  ⟨_, _, rfl, rfl, by decide +kernel⟩

/-- The tree that the levels come to, with the copies in it. An empty list has the zero hash
for a root. -/
def paddedTree (txHashes : List Hash) : HashTree Hash :=
  (collapse HashTree.fork id (txHashes.map HashTree.leaf)).headD (.leaf zeroHash)

section
variable {sha256 : List UInt8 → Hash} {txHashes others : List Hash}

variable (sha256) in
def hashedPairs (txHashes : List Hash) : List (Hash × Hash) :=
  (paddedTree txHashes).pairs (hashInternal sha256)

theorem computeTxRoot_eq_root :
    computeTxRoot sha256 txHashes = (paddedTree txHashes).root (hashInternal sha256) := by
  rw [computeTxRoot_eq, paddedTree]
  by_cases none : txHashes = []
  · subst none
    rw [List.map_nil, collapse_of_le (by simp), collapse_of_le (by simp)]
    rfl
  · obtain ⟨tree, only, root, _⟩ := exists_tree sha256 none
    rw [only, root]
    rfl

theorem eq_of_matches (sameLength : txHashes.length = others.length)
    (alike : (paddedTree txHashes).Matches (hashInternal sha256) (paddedTree others)) :
    txHashes = others := by
  by_cases none : txHashes = []
  · subst none
    exact (List.length_eq_zero_iff.mp sameLength.symm).symm
  · have none' : others ≠ [] := by
      rintro rfl
      exact none (List.length_eq_zero_iff.mp sameLength)
    obtain ⟨tree, only, _, perfect, _⟩ := exists_tree sha256 none
    obtain ⟨tree', only', _, perfect', _⟩ := exists_tree sha256 none'
    rw [paddedTree, paddedTree, only, only'] at alike
    obtain rfl := alike.eq_of_perfect perfect (sameLength ▸ perfect')
    have sameLeaves := collapse_injective (fun _ _ _ _ same => HashTree.fork.inj same) _ _
      (by simpa using sameLength) (only.trans only'.symm)
    exact List.map_injective_iff.mpr (fun _ _ same => HashTree.leaf.inj same) sameLeaves

theorem verifyTxInclusion_iff {txHash : Hash} {proof : MerkleProof} :
    verifyTxInclusion sha256 txHash (computeTxRoot sha256 txHashes) proof = true ↔
      proof.leafHash = txHash ∧ proof.root = computeTxRoot sha256 txHashes ∧
        climb (hashInternal sha256) txHash proof.path =
          (paddedTree txHashes).root (hashInternal sha256) := by
  rw [verifyTxInclusion, Bool.and_eq_true, Bool.and_eq_true, beq_iff_eq, beq_iff_eq,
    MerkleProof.verify, beq_iff_eq, and_assoc, ← computeTxRoot_eq_root]
  constructor
  · rintro ⟨rfl, rooted, reached⟩
    exact ⟨rfl, rooted, reached.trans rooted⟩
  · rintro ⟨rfl, rooted, reached⟩
    exact ⟨rfl, rooted, reached.trans rooted.symm⟩

end

/-- The root tells two lists apart exactly if the padded trees do not match, which those of
different lists of one length never do. A hash outside the list is accepted for no proof
exactly if the padded tree does not open at it. Both hold unless two pairs collide. -/
theorem txRoot_binds_iff (sha256 : List UInt8 → Hash) (txHashes : List Hash) :
    (∀ others : List Hash,
      ¬ Collision (hashInternal sha256) (hashedPairs sha256 txHashes) (hashedPairs sha256 others) →
        ((computeTxRoot sha256 txHashes = computeTxRoot sha256 others → txHashes = others) ↔
          txHashes = others ∨
            ¬ (paddedTree txHashes).Matches (hashInternal sha256) (paddedTree others)) ∧
        (txHashes.length = others.length → txHashes = others ∨
          ¬ (paddedTree txHashes).Matches (hashInternal sha256) (paddedTree others))) ∧
    ∀ txHash : Hash,
      ¬ Collision (hashInternal sha256) (hashedPairs sha256 txHashes)
        (hashedPairs sha256 txHashes) →
        ((∀ proof : MerkleProof,
          verifyTxInclusion sha256 txHash (computeTxRoot sha256 txHashes) proof = true →
            txHash ∈ txHashes ∨ Collision (hashInternal sha256)
              (climbed (hashInternal sha256) txHash proof.path) (hashedPairs sha256 txHashes)) ↔
          txHash ∈ txHashes ∨ ¬ (paddedTree txHashes).OpensAt (hashInternal sha256) txHash) := by
  constructor
  · intro others clean
    rw [computeTxRoot_eq_root, computeTxRoot_eq_root]
    refine ⟨⟨fun binds => ?_, ?_⟩, fun sameLength => ?_⟩
    · -- matching trees have one root without any collision
      by_cases alike : (paddedTree txHashes).Matches (hashInternal sha256) (paddedTree others)
      · exact Or.inl (binds alike.root_eq)
      · exact Or.inr alike
    · rintro (same | differ) sameRoot
      · exact same
      · rcases matches_of_root_eq sameRoot with alike | collides
        · exact absurd alike differ
        · exact absurd collides clean
    · by_cases alike : (paddedTree txHashes).Matches (hashInternal sha256) (paddedTree others)
      · exact Or.inl (eq_of_matches sameLength alike)
      · exact Or.inr alike
  · intro txHash clean
    constructor
    · -- where the tree opens there is a path, and its proof is accepted
      intro sound
      by_cases opens : (paddedTree txHashes).OpensAt (hashInternal sha256) txHash
      · obtain ⟨path, reached, apart⟩ := exists_way_of_opensAt clean opens
        have accepted := sound ⟨txHash, path, computeTxRoot sha256 txHashes⟩
          (verifyTxInclusion_iff.mpr ⟨rfl, rfl, reached⟩)
        exact Or.inl (accepted.resolve_right apart)
      · exact Or.inr opens
    · rintro (member | closed) proof accepted
      · exact Or.inl member
      · obtain ⟨_, _, reached⟩ := verifyTxInclusion_iff.mp accepted
        exact Or.inr ((opensAt_of_climb reached).resolve_left closed)

/-- No list of three hashes but this one has its root, and the inner node above the first
two is accepted. -/
theorem sampleTriple_bound :
    (∀ others : List Hash, others.length = 3 →
      ¬ Collision (hashInternal sampleSha256)
        (hashedPairs sampleSha256 (List.map sampleHash [2, 3, 4])) (hashedPairs sampleSha256 others) →
      computeTxRoot sampleSha256 (List.map sampleHash [2, 3, 4]) =
        computeTxRoot sampleSha256 others → List.map sampleHash [2, 3, 4] = others) ∧
    ¬ ∀ proof : MerkleProof,
      verifyTxInclusion sampleSha256 (hashInternal sampleSha256 (sampleHash 2) (sampleHash 3))
        (computeTxRoot sampleSha256 (List.map sampleHash [2, 3, 4])) proof = true →
      hashInternal sampleSha256 (sampleHash 2) (sampleHash 3) ∈ List.map sampleHash [2, 3, 4] ∨
        Collision (hashInternal sampleSha256) (climbed (hashInternal sampleSha256)
          (hashInternal sampleSha256 (sampleHash 2) (sampleHash 3)) proof.path)
          (hashedPairs sampleSha256 (List.map sampleHash [2, 3, 4])) := by
  obtain ⟨binds, opens⟩ := txRoot_binds_iff sampleSha256 (List.map sampleHash [2, 3, 4])
  constructor
  · intro others three clean
    exact (binds others clean).1.mpr ((binds others clean).2 three.symm)
  · rw [opens _ (by unfold Collision; decide +kernel)]
    rintro (member | closed)
    · exact absurd member (by decide +kernel)
    · exact closed (Or.inl ⟨(sampleHash 2, sampleHash 3), by decide +kernel, rfl⟩)

/-- The last transaction can stand twice without changing the root, and an inner node is
accepted as a transaction, with no two of the hashed pairs colliding. -/
theorem copied_last_keeps_txRoot :
    List.map sampleHash [2, 3, 4] ≠ List.map sampleHash [2, 3, 4, 4] ∧
    computeTxRoot sampleSha256 (List.map sampleHash [2, 3, 4]) =
      computeTxRoot sampleSha256 (List.map sampleHash [2, 3, 4, 4]) ∧
    ¬ Collision (hashInternal sampleSha256)
      (hashedPairs sampleSha256 (List.map sampleHash [2, 3, 4]))
      (hashedPairs sampleSha256 (List.map sampleHash [2, 3, 4, 4])) ∧
    hashInternal sampleSha256 (sampleHash 2) (sampleHash 3) ∉ List.map sampleHash [2, 3, 4] ∧
    verifyTxInclusion sampleSha256 (hashInternal sampleSha256 (sampleHash 2) (sampleHash 3))
      (computeTxRoot sampleSha256 (List.map sampleHash [2, 3, 4]))
      { leafHash := hashInternal sampleSha256 (sampleHash 2) (sampleHash 3)
        path := [(.right, hashInternal sampleSha256 (sampleHash 4) (sampleHash 4))]
        root := computeTxRoot sampleSha256 (List.map sampleHash [2, 3, 4]) } = true := by
  refine ⟨by decide +kernel, by decide +kernel, ?_, by decide +kernel, by decide +kernel⟩
  unfold Collision
  decide +kernel

end Savitri.ConsensusMerkle
