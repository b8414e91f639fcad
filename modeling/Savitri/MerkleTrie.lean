import Mathlib
import Savitri.MerkleLevels

/-!
The state root of storage/merkle_trie.rs and its inclusion proofs. A level of odd length is
filled up with the empty hash. The path of a proof is read off the index bit by bit, so
a proof may name any index and any number of siblings.
-/
namespace Savitri.MerkleTrie
open Merkle
open Std (ExtTreeMap)

abbrev TrieHash := Vector UInt8 32
abbrev Bytes := List UInt8
abbrev Entries := ExtTreeMap Bytes Bytes

def emptyHash : TrieHash := Vector.replicate 32 0

structure MerkleProof where
  key : Bytes
  value : Bytes
  leafIndex : Nat
  siblings : List TrieHash
  root : TrieHash

def leafInput (key value : Bytes) : Bytes := "LEAF".toUTF8.toList ++ key ++ value

def nodeInput (left right : TrieHash) : Bytes := "NODE".toUTF8.toList ++ left.toList ++ right.toList

section
variable (sha256 : Bytes → TrieHash)

def hashLeaf (key value : Bytes) : TrieHash := sha256 (leafInput key value)

def hashNode (left right : TrieHash) : TrieHash := sha256 (nodeInput left right)

def nextLevel (level : List TrieHash) : List TrieHash :=
  pairUp (hashNode sha256) (fun _ => emptyHash) level

def merkleRootFromLeaves (leaves : List TrieHash) : TrieHash :=
  match leaves with
  | [] => emptyHash
  | [leaf] => leaf
  | leaves => (collapse (hashNode sha256) (fun _ => emptyHash) leaves).headD emptyHash

variable (entries : Entries)

def leafHashes : List TrieHash := entries.toList.map fun entry => hashLeaf sha256 entry.1 entry.2

def computeMerkleRoot : TrieHash :=
  if entries.isEmpty then emptyHash else merkleRootFromLeaves sha256 (leafHashes sha256 entries)

def collectProofSiblings (level : List TrieHash) (index : Nat) : List TrieHash :=
  if level.length ≤ 1 then []
  else
    level.getD (siblingIndex index) emptyHash ::
      collectProofSiblings (nextLevel sha256 level) (index / 2)
termination_by level.length
decreasing_by
  rw [nextLevel, length_pairUp]
  omega

def generateProof (key : Bytes) : Option MerkleProof := do
  let leafIndex ← entries.keys.findIdx? (· == key)
  let leaves := leafHashes sha256 entries
  let value ← entries[key]?
  return {
    key
    value
    leafIndex
    siblings := collectProofSiblings sha256 leaves leafIndex
    root := merkleRootFromLeaves sha256 leaves }

def verifyStep (state : TrieHash × Nat) (sibling : TrieHash) : TrieHash × Nat :=
  let (hash, index) := state
  (if index % 2 = 0 then hashNode sha256 hash sibling else hashNode sha256 sibling hash, index / 2)

def verifyProof (proof : MerkleProof) : Bool :=
  (proof.siblings.foldl (verifyStep sha256) (hashLeaf sha256 proof.key proof.value,
    proof.leafIndex)).1 == proof.root

end

section
variable {sha256 : Bytes → TrieHash}

def pathOf : Nat → List TrieHash → List (Step TrieHash)
  | _, [] => []
  | index, sibling :: rest =>
    (siblingSide index, sibling) :: pathOf (index / 2) rest

theorem foldl_verifyStep {siblings : List TrieHash} (hash : TrieHash) (index : Nat) :
    (siblings.foldl (verifyStep sha256) (hash, index)).1 =
      climb (hashNode sha256) hash (pathOf index siblings) := by
  induction siblings generalizing hash index with
  | nil => rfl
  | cons sibling rest ih =>
    rw [List.foldl_cons, verifyStep, ih, pathOf, climb, climb, List.foldl_cons]
    by_cases even : index % 2 = 0
    · simp [even, siblingSide, joined]
    · simp [even, siblingSide, joined]

theorem merkleRootFromLeaves_eq {leaves : List TrieHash} :
    merkleRootFromLeaves sha256 leaves =
      (collapse (hashNode sha256) (fun _ => emptyHash) leaves).headD emptyHash := by
  unfold merkleRootFromLeaves
  split
  · rw [collapse_of_le (by simp)]
    rfl
  · rw [collapse_of_le (by simp)]
    rfl
  · rfl

theorem climb_collected {level : List TrieHash} {index : Nat} (hash : TrieHash)
    (found : level[index]? = some hash) :
    climb (hashNode sha256) hash (pathOf index (collectProofSiblings sha256 level index)) =
      merkleRootFromLeaves sha256 level := by
  rw [merkleRootFromLeaves_eq]
  induction level, index using collectProofSiblings.induct sha256 generalizing hash with
  | case1 level index short =>
    have inside := (List.getElem?_eq_some_iff.mp found).1
    obtain ⟨leaf, rfl⟩ : ∃ leaf, level = [leaf] := List.length_eq_one_iff.mp (by omega)
    have first : index = 0 := by simpa using inside
    subst first
    cases found
    rw [collectProofSiblings, if_pos short, collapse_of_le short]
    rfl
  | case2 level index long ih =>
    rw [collectProofSiblings, if_neg long, collapse_of_lt (Nat.not_le.mp long)]
    have up := ih _ (getElem?_parent found)
    rw [nextLevel] at up
    rw [← up, pathOf, List.getD_eq_getElem?_getD]
    rfl

end

section
variable {left right : TrieHash} {key : Bytes}

theorem nodeInput_injective {left' right' : TrieHash}
    (same : nodeInput left right = nodeInput left' right') : (left, right) = (left', right') := by
  unfold nodeInput at same
  rw [List.append_assoc, List.append_assoc] at same
  obtain ⟨lefts, rights⟩ := List.append_inj (List.append_cancel_left same) (by simp)
  rw [Vector.toList_inj.mp lefts, Vector.toList_inj.mp rights]

theorem leafInput_ne_nodeInput {value : Bytes} : leafInput key value ≠ nodeInput left right := by
  intro same
  unfold leafInput nodeInput at same
  rw [List.append_assoc, List.append_assoc] at same
  exact absurd (List.append_inj same (by decide +kernel)).1 (by decide +kernel)

theorem leafInput_injective {value key' value' : Bytes} (sized : key.length = key'.length)
    (same : leafInput key value = leafInput key' value') : key = key' ∧ value = value' := by
  unfold leafInput at same
  rw [List.append_assoc, List.append_assoc] at same
  exact List.append_inj (List.append_cancel_left same) sized

end

section
variable (sha256 : Bytes → TrieHash)

def rootInputs (entries : Entries) : List Bytes :=
  entries.toList.map (fun entry => leafInput entry.1 entry.2) ++
    (combined (hashNode sha256) (fun _ => emptyHash) (leafHashes sha256 entries)).map
      fun pair => nodeInput pair.1 pair.2

def proofInputs (proof : MerkleProof) : List Bytes :=
  leafInput proof.key proof.value ::
    (climbed (hashNode sha256) (hashLeaf sha256 proof.key proof.value)
      (pathOf proof.leafIndex proof.siblings)).map fun pair => nodeInput pair.1 pair.2

variable (inputs : List Bytes)

def Collides : Prop := ∃ one ∈ inputs, ∃ other ∈ inputs, one ≠ other ∧ sha256 one = sha256 other

def HashesToEmpty : Prop := ∃ input ∈ inputs, sha256 input = emptyHash

variable {sha256}

theorem exists_tree (sha256 : Bytes → TrieHash) (entries : Entries) :
    ∃ tree : HashTree TrieHash, tree.root (hashNode sha256) = computeMerkleRoot sha256 entries ∧
      (∀ leaf ∈ tree.leaves, leaf ∈ leafHashes sha256 entries ∨ leaf = emptyHash) ∧
      tree.pairs (hashNode sha256) ⊆
        combined (hashNode sha256) (fun _ => emptyHash) (leafHashes sha256 entries) := by
  by_cases empty : entries.isEmpty = true
  · refine ⟨.leaf emptyHash, ?_, ?_, ?_⟩
    · rw [computeMerkleRoot, if_pos empty]
      rfl
    · intro leaf member
      exact Or.inr (List.mem_singleton.mp member)
    · exact List.nil_subset _
  · have present : leafHashes sha256 entries ≠ [] := by
      intro none
      apply empty
      rw [leafHashes, List.map_eq_nil_iff, ExtTreeMap.toList_eq_nil_iff] at none
      rw [none]
      rfl
    obtain ⟨tree, only, root, pairs⟩ : ∃ tree : HashTree TrieHash,
        collapse HashTree.fork (fun _ => .leaf emptyHash)
          ((leafHashes sha256 entries).map HashTree.leaf) = [tree] ∧
        collapse (hashNode sha256) (fun _ => emptyHash) (leafHashes sha256 entries) =
          [tree.root (hashNode sha256)] ∧ _ :=
      exists_tree_collapse (fun _ => rfl) (fun _ => List.nil_subset _) present
    refine ⟨tree, ?_, ?_, pairs⟩
    · rw [computeMerkleRoot, if_neg empty, merkleRootFromLeaves_eq, root]
      rfl
    · refine forall_collapse (fun tree : HashTree TrieHash => ∀ leaf ∈ tree.leaves,
        leaf ∈ leafHashes sha256 entries ∨ leaf = emptyHash) ?_ ?_ _ ?_ tree
        (by rw [only]; exact List.mem_singleton_self tree)
      · intro left right inLeft inRight leaf found
        rw [HashTree.leaves, List.mem_append] at found
        exact found.elim (inLeft leaf) (inRight leaf)
      · intro _ _ leaf found
        exact Or.inr (List.mem_singleton.mp found)
      · intro old isLeaf leaf found
        obtain ⟨hash, isHash, rfl⟩ := List.mem_map.mp isLeaf
        rw [List.mem_singleton.mp found]
        exact Or.inl isHash

end

section Results
variable {sha256 : Bytes → TrieHash}
variable {entries : Entries}

theorem mem_leafHashes {hash : TrieHash} (member : hash ∈ leafHashes sha256 entries) :
    ∃ key value, entries[key]? = some value ∧ hash = hashLeaf sha256 key value := by
  obtain ⟨⟨key, value⟩, found, rfl⟩ := List.mem_map.mp member
  exact ⟨key, value, ExtTreeMap.mem_toList_iff_getElem?_eq_some.mp found, rfl⟩

theorem leafInput_mem_rootInputs {key value : Bytes} (found : entries[key]? = some value) :
    leafInput key value ∈ rootInputs sha256 entries :=
  List.mem_append_left _ (List.mem_map.mpr
    ⟨(key, value), ExtTreeMap.mem_toList_iff_getElem?_eq_some.mpr found, rfl⟩)

theorem accepted_of_verify (keys : ∀ key ∈ entries, key.length = 32) (proof : MerkleProof)
    (sized : proof.key.length = 32) (rooted : proof.root = computeMerkleRoot sha256 entries)
    (accepted : verifyProof sha256 proof = true) :
    entries[proof.key]? = some proof.value ∨
      Collides sha256 (rootInputs sha256 entries ++ proofInputs sha256 proof) ∨
      HashesToEmpty sha256 (rootInputs sha256 entries ++ proofInputs sha256 proof) := by
  obtain ⟨tree, root, leaves, pairs⟩ := exists_tree sha256 entries
  unfold verifyProof at accepted
  rw [beq_iff_eq, foldl_verifyStep, rooted, ← root] at accepted
  have leafHashed : leafInput proof.key proof.value ∈
      rootInputs sha256 entries ++ proofInputs sha256 proof :=
    List.mem_append_right _ List.mem_cons_self
  have pairHashed : ∀ pair ∈ climbed (hashNode sha256) (hashLeaf sha256 proof.key proof.value)
      (pathOf proof.leafIndex proof.siblings), nodeInput pair.1 pair.2 ∈
        rootInputs sha256 entries ++ proofInputs sha256 proof := fun pair member =>
    List.mem_append_right _ (List.mem_cons_of_mem _ (List.mem_map.mpr ⟨pair, member, rfl⟩))
  have treeHashed : ∀ pair ∈ tree.pairs (hashNode sha256), nodeInput pair.1 pair.2 ∈
      rootInputs sha256 entries ++ proofInputs sha256 proof := fun pair member =>
    List.mem_append_left _ (List.mem_append_right _ (List.mem_map.mpr ⟨pair, pairs member, rfl⟩))
  rcases climb_opens _ _ tree accepted with ⟨sub, found, same⟩ | ⟨_, _, leaf, found,
    ⟨pair, onWay, same⟩, _⟩ | ⟨pair, onWay, other, inTree, different, same⟩
  · cases sub with
    | leaf leaf =>
      rcases leaves leaf (mem_leaves_of_subtree found) with isLeaf | rfl
      · obtain ⟨key, value, entry, rfl⟩ := mem_leafHashes isLeaf
        by_cases alike : leafInput proof.key proof.value = leafInput key value
        · have key32 : key.length = 32 := keys key (ExtTreeMap.mem_iff_isSome_getElem?.mpr (by
            rw [entry]
            rfl))
          obtain ⟨sameKey, sameValue⟩ := leafInput_injective (sized.trans key32.symm) alike
          rw [sameKey, sameValue]
          exact Or.inl entry
        · exact Or.inr (Or.inl ⟨_, leafHashed, _,
            List.mem_append_left _ (leafInput_mem_rootInputs entry), alike, same⟩)
      · exact Or.inr (Or.inr ⟨_, leafHashed, same⟩)
    | fork left right =>
      have inTree : (left.root (hashNode sha256), right.root (hashNode sha256)) ∈
          tree.pairs (hashNode sha256) := pairs_of_subtree found List.mem_cons_self
      exact Or.inr (Or.inl ⟨_, leafHashed, _, treeHashed _ inTree, leafInput_ne_nodeInput, same⟩)
  · rcases leaves leaf (mem_leaves_of_subtree found) with isLeaf | rfl
    · obtain ⟨key, value, entry, rfl⟩ := mem_leafHashes isLeaf
      exact Or.inr (Or.inl ⟨_, List.mem_append_left _ (leafInput_mem_rootInputs entry), _,
        pairHashed pair onWay, leafInput_ne_nodeInput, same.symm⟩)
    · exact Or.inr (Or.inr ⟨_, pairHashed pair onWay, same⟩)
  · refine Or.inr (Or.inl ⟨_, pairHashed pair onWay, _, treeHashed other inTree, ?_, same⟩)
    intro alike
    exact different (nodeInput_injective alike)

theorem exists_proof (key : Bytes) (member : key ∈ entries) :
    ∃ proof, generateProof sha256 entries key = some proof ∧ proof.key = key ∧
      entries[key]? = some proof.value ∧ proof.root = computeMerkleRoot sha256 entries ∧
      verifyProof sha256 proof = true := by
  obtain ⟨value, found⟩ : ∃ value, entries[key]? = some value :=
    Option.isSome_iff_exists.mp (ExtTreeMap.mem_iff_isSome_getElem?.mp member)
  have listed : ∃ index, entries.keys.findIdx? (· == key) = some index := by
    apply Option.isSome_iff_exists.mp
    rw [List.findIdx?_isSome, List.any_eq_true]
    exact ⟨key, ExtTreeMap.mem_keys.mpr member, beq_self_eq_true key⟩
  obtain ⟨index, position⟩ := listed
  have isKey : entries.keys[index]? = some key := by
    obtain ⟨inside, same, _⟩ := List.findIdx?_eq_some_iff_getElem.mp position
    rw [List.getElem?_eq_getElem inside, eq_of_beq same]
  have isLeaf : (leafHashes sha256 entries)[index]? = some (hashLeaf sha256 key value) := by
    rw [← ExtTreeMap.map_fst_toList_eq_keys, List.getElem?_map, Option.map_eq_some_iff] at isKey
    obtain ⟨⟨_, other⟩, entry, rfl⟩ := isKey
    have same := ExtTreeMap.mem_toList_iff_getElem?_eq_some.mp (List.mem_of_getElem? entry)
    rw [found, Option.some.injEq] at same
    subst same
    rw [leafHashes, List.getElem?_map, entry]
    rfl
  have notEmpty : ¬ entries.isEmpty = true := by
    intro empty
    rw [ExtTreeMap.isEmpty_iff] at empty
    rw [empty] at member
    exact ExtTreeMap.not_mem_empty member
  refine ⟨_, by rw [generateProof, position, found]; rfl, rfl, found, ?_, ?_⟩
  · rw [computeMerkleRoot, if_neg notEmpty]
  · unfold verifyProof
    rw [beq_iff_eq, foldl_verifyStep]
    exact climb_collected _ isLeaf

/-- The root of a map with keys of 32 bytes has an accepted proof for every key, and every
accepted proof for such a key, whatever its index and siblings, shows an entry of the
map, unless two of the hashed strings collide or one of them hashes to the empty hash. -/
theorem proofs_show_entries (sha256 : Bytes → TrieHash) (entries : Entries)
    (keys : ∀ key ∈ entries, key.length = 32) :
    (∀ key ∈ entries, ∃ proof, generateProof sha256 entries key = some proof ∧
      proof.key = key ∧ entries[key]? = some proof.value ∧
      proof.root = computeMerkleRoot sha256 entries ∧ verifyProof sha256 proof = true) ∧
    ∀ proof : MerkleProof, proof.key.length = 32 →
      proof.root = computeMerkleRoot sha256 entries → verifyProof sha256 proof = true →
        entries[proof.key]? = some proof.value ∨
          Collides sha256 (rootInputs sha256 entries ++ proofInputs sha256 proof) ∨
          HashesToEmpty sha256 (rootInputs sha256 entries ++ proofInputs sha256 proof) :=
  ⟨exists_proof, accepted_of_verify keys⟩

def sampleEntries : Entries :=
  (((∅ : Entries).insert (List.replicate 32 1) [5]).insert (List.replicate 32 2) [6]).insert
    (List.replicate 32 3) [7]

def sampleSha256 (bytes : Bytes) : TrieHash := Vector.ofFn fun index => bytes.getD (index + 4) 1

theorem sampleEntries_shown :
    (∀ key ∈ sampleEntries, ∃ proof, generateProof sampleSha256 sampleEntries key = some proof ∧
      proof.key = key ∧ sampleEntries[key]? = some proof.value ∧
      proof.root = computeMerkleRoot sampleSha256 sampleEntries ∧
      verifyProof sampleSha256 proof = true) ∧
    ∀ proof : MerkleProof, proof.key.length = 32 →
      proof.root = computeMerkleRoot sampleSha256 sampleEntries →
      verifyProof sampleSha256 proof = true →
        sampleEntries[proof.key]? = some proof.value ∨
          Collides sampleSha256
            (rootInputs sampleSha256 sampleEntries ++ proofInputs sampleSha256 proof) ∨
          HashesToEmpty sampleSha256
            (rootInputs sampleSha256 sampleEntries ++ proofInputs sampleSha256 proof) :=
  proofs_show_entries sampleSha256 sampleEntries (by
    intro key member
    simp only [sampleEntries, ExtTreeMap.mem_insert, Std.LawfulEqCmp.compare_eq_iff_eq,
      ExtTreeMap.not_mem_empty, or_false] at member
    rcases member with rfl | rfl | rfl <;> rfl)

end Results

end Savitri.MerkleTrie
