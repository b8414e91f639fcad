import Mathlib.Data.List.Induction
import Mathlib.Tactic.Common

/-!
Hash trees built level by level. Neighbours are combined, and a last one without a
neighbour is combined with a filling of its own. The levels are also read as trees that
keep what they hash, so a path can be followed down from the root: whoever climbs to the
root started in the tree, or two different pairs have one hash, or the path went on
below a leaf.
-/
namespace Savitri.Merkle
variable {height : Nat} {Image Node : Type}
variable {level : List Node}

section
variable {Out : Type}

def pairUp (combine : Node → Node → Out) (fill : Node → Node) : List Node → List Out
  | [] => []
  | [last] => [combine last (fill last)]
  | first :: second :: rest => combine first second :: pairUp combine fill rest

variable (combine : Node → Node → Out) (fill : Node → Node)

@[simp]
theorem length_pairUp : (pairUp combine fill level).length = (level.length + 1) / 2 := by
  induction level using pairUp.induct with
  | case1 | case2 => simp [pairUp]
  | case3 first second rest ih =>
    rw [pairUp, List.length_cons, ih, List.length_cons, List.length_cons]
    omega

theorem getElem?_pairUp (level : List Node) (index : Nat) (first : Node)
    (found : level[2 * index]? = some first) :
    (pairUp combine fill level)[index]? =
      some (combine first (level[2 * index + 1]?.getD (fill first))) := by
  induction level using pairUp.induct generalizing index with
  | case1 => cases found
  | case2 last =>
    cases index with
    | zero =>
      cases found
      rfl
    | succ index => simp [Nat.mul_succ] at found
  | case3 head second rest ih =>
    cases index with
    | zero =>
      cases found
      rfl
    | succ index =>
      simp only [Nat.mul_succ, List.getElem?_cons_succ] at found
      simpa [pairUp, Nat.mul_succ] using ih index found

theorem pairUp_map {Target : Type} (image : Node → Image) (target : Out → Target)
    (combine' : Image → Image → Target) (fill' : Image → Image)
    (combines : ∀ left right, target (combine left right) = combine' (image left) (image right))
    (fills : ∀ node, image (fill node) = fill' (image node)) (level : List Node) :
    (pairUp combine fill level).map target = pairUp combine' fill' (level.map image) := by
  induction level using pairUp.induct with
  | case1 => rfl
  | case2 last => simp [pairUp, combines, fills]
  | case3 first second rest ih => simp [pairUp, combines, ih]

theorem forall_pairUp {ok : Node → Prop} {good : Out → Prop}
    (combines : ∀ left right, ok left → ok right → good (combine left right))
    (fills : ∀ node, ok node → ok (fill node)) (all : ∀ node ∈ level, ok node) :
    ∀ out ∈ pairUp combine fill level, good out := by
  induction level using pairUp.induct with
  | case1 => simp [pairUp]
  | case2 last =>
    simp only [List.forall_mem_singleton] at all
    simpa [pairUp] using combines last _ all (fills last all)
  | case3 first second rest ih =>
    simp only [List.forall_mem_cons] at all
    simp only [pairUp, List.forall_mem_cons]
    exact ⟨combines first second all.1 all.2.1, ih all.2.2⟩

theorem pairUp_injective (injective : ∀ left right left' right',
      combine left right = combine left' right' → left = left' ∧ right = right')
    (level other : List Node) (sameLength : level.length = other.length)
    (same : pairUp combine fill level = pairUp combine fill other) : level = other := by
  induction level using pairUp.induct generalizing other with
  | case1 => exact (List.length_eq_zero_iff.mp sameLength.symm).symm
  | case2 last =>
    obtain ⟨alone, rfl⟩ := List.length_eq_one_iff.mp sameLength.symm
    simp only [pairUp, List.cons.injEq, and_true] at same
    rw [(injective _ _ _ _ same).1]
  | case3 first second rest ih =>
    match other with
    | [] => cases sameLength
    | [alone] => simp at sameLength
    | first' :: second' :: rest' =>
      simp only [pairUp, List.cons.injEq] at same
      obtain ⟨rfl, rfl⟩ := injective _ _ _ _ same.1
      rw [ih rest' (by simpa using sameLength) same.2]

end

section Rounds
variable (combine : Node → Node → Node) (fill : Node → Node)

def collapse (level : List Node) : List Node :=
  if level.length ≤ 1 then level else collapse (pairUp combine fill level)
termination_by level.length
decreasing_by
  rw [length_pairUp]
  omega

def rounds (length : Nat) : Nat := if length ≤ 1 then 0 else rounds ((length + 1) / 2) + 1
termination_by length

def combined (level : List Node) : List (Node × Node) :=
  if level.length ≤ 1 then []
  else pairUp Prod.mk fill level ++ combined (pairUp combine fill level)
termination_by level.length
decreasing_by
  rw [length_pairUp]
  omega

variable {combine fill}

theorem collapse_of_le (short : level.length ≤ 1) : collapse combine fill level = level := by
  rw [collapse, if_pos short]

theorem collapse_of_lt (long : 1 < level.length) :
    collapse combine fill level = collapse combine fill (pairUp combine fill level) := by
  rw [collapse, if_neg (Nat.not_le.mpr long)]

theorem length_collapse (present : level ≠ []) : (collapse combine fill level).length = 1 := by
  induction level using collapse.induct combine fill with
  | case1 level short =>
    rw [collapse_of_le short]
    have := List.length_pos_iff.mpr present
    omega
  | case2 level long ih =>
    rw [collapse_of_lt (Nat.not_le.mp long)]
    apply ih
    intro empty
    have := congrArg List.length empty
    rw [length_pairUp, List.length_nil] at this
    omega

theorem forall_collapse (ok : Node → Prop)
    (combines : ∀ left right, ok left → ok right → ok (combine left right))
    (fills : ∀ node, ok node → ok (fill node)) (level : List Node)
    (all : ∀ node ∈ level, ok node) : ∀ node ∈ collapse combine fill level, ok node := by
  induction level using collapse.induct combine fill with
  | case1 level short =>
    rw [collapse_of_le short]
    exact all
  | case2 level long ih =>
    rw [collapse_of_lt (Nat.not_le.mp long)]
    exact ih (forall_pairUp combine fill combines fills all)

theorem collapse_map (image : Node → Image) (combine' : Image → Image → Image)
    (fill' : Image → Image)
    (combines : ∀ left right, image (combine left right) = combine' (image left) (image right))
    (fills : ∀ node, image (fill node) = fill' (image node)) (level : List Node) :
    (collapse combine fill level).map image = collapse combine' fill' (level.map image) := by
  induction level using collapse.induct combine fill with
  | case1 level short => rw [collapse_of_le short, collapse_of_le (by rwa [List.length_map])]
  | case2 level long ih =>
    have many : 1 < (level.map image).length := by
      rw [List.length_map]
      omega
    rw [collapse_of_lt (Nat.not_le.mp long), ih, collapse_of_lt many,
      pairUp_map combine fill image image combine' fill' combines fills]

theorem collapse_injective (injective : ∀ left right left' right',
      combine left right = combine left' right' → left = left' ∧ right = right')
    (level other : List Node) (sameLength : level.length = other.length)
    (same : collapse combine fill level = collapse combine fill other) : level = other := by
  induction level using collapse.induct combine fill generalizing other with
  | case1 level short => rwa [collapse_of_le short, collapse_of_le (sameLength ▸ short)] at same
  | case2 level long ih =>
    have many : 1 < other.length := by omega
    rw [collapse_of_lt (Nat.not_le.mp long), collapse_of_lt many] at same
    have halves : (pairUp combine fill level).length = (pairUp combine fill other).length := by
      rw [length_pairUp, length_pairUp, sameLength]
    exact pairUp_injective combine fill injective level other sameLength (ih _ halves same)

end Rounds

section Trees
inductive HashTree (Digest : Type) where
  | leaf (digest : Digest)
  | fork (left right : HashTree Digest)

variable {Digest : Type}

def HashTree.leaves : HashTree Digest → List Digest
  | .leaf digest => [digest]
  | .fork left right => left.leaves ++ right.leaves

def HashTree.subtrees : Nat → HashTree Digest → List (HashTree Digest)
  | 0, tree => [tree]
  | _ + 1, .leaf _ => []
  | depth + 1, .fork left right => left.subtrees depth ++ right.subtrees depth

def HashTree.Perfect : Nat → HashTree Digest → Prop
  | 0, .leaf _ => True
  | depth + 1, .fork left right => left.Perfect depth ∧ right.Perfect depth
  | _, _ => False

variable (node : Digest → Digest → Digest)

def HashTree.root : HashTree Digest → Digest
  | .leaf digest => digest
  | .fork left right => node left.root right.root

def HashTree.pairs : HashTree Digest → List (Digest × Digest)
  | .leaf _ => []
  | .fork left right => (left.root node, right.root node) :: (left.pairs ++ right.pairs)

/-- Two different pairs with the same hash. -/
def Collision (first second : List (Digest × Digest)) : Prop :=
  ∃ pair ∈ first, ∃ other ∈ second, pair ≠ other ∧ node pair.1 pair.2 = node other.1 other.2

variable {node}

theorem Collision.mono {first second first' second' : List (Digest × Digest)}
    (collides : Collision node first second) (more : first ⊆ first') (more' : second ⊆ second') :
    Collision node first' second' := by
  obtain ⟨pair, inFirst, other, inSecond, found⟩ := collides
  exact ⟨pair, more inFirst, other, more' inSecond, found⟩

variable {tree sub : HashTree Digest}
variable {depth : Nat}

theorem mem_leaves_of_subtree {digest : Digest}
    (found : HashTree.leaf digest ∈ tree.subtrees depth) : digest ∈ tree.leaves := by
  induction depth generalizing tree with
  | zero =>
    rw [HashTree.subtrees, List.mem_singleton] at found
    rw [← found]
    exact List.mem_singleton_self digest
  | succ depth ih =>
    cases tree with
    | leaf other => simp [HashTree.subtrees] at found
    | fork left right =>
      rw [HashTree.subtrees, List.mem_append] at found
      rw [HashTree.leaves, List.mem_append]
      exact found.imp ih ih

theorem pairs_of_subtree (found : sub ∈ tree.subtrees depth) : sub.pairs node ⊆ tree.pairs node := by
  induction depth generalizing tree with
  | zero =>
    rw [HashTree.subtrees, List.mem_singleton] at found
    rw [found]
    exact List.Subset.refl _
  | succ depth ih =>
    cases tree with
    | leaf other => simp [HashTree.subtrees] at found
    | fork left right =>
      rw [HashTree.subtrees, List.mem_append] at found
      intro pair member
      rw [HashTree.pairs, List.mem_cons, List.mem_append]
      exact Or.inr (found.imp (fun inLeft => ih inLeft member) fun inRight => ih inRight member)

theorem perfect_subtree {height : Nat} (perfect : tree.Perfect height) (within : depth ≤ height)
    (found : sub ∈ tree.subtrees depth) : sub.Perfect (height - depth) := by
  induction depth generalizing tree height with
  | zero =>
    rw [HashTree.subtrees, List.mem_singleton] at found
    rwa [found]
  | succ depth ih =>
    obtain ⟨height, rfl⟩ : ∃ less, height = less + 1 := ⟨height - 1, by omega⟩
    cases tree with
    | leaf other => simp [HashTree.subtrees] at found
    | fork left right =>
      rw [HashTree.subtrees, List.mem_append] at found
      rw [Nat.succ_sub_succ]
      rcases found with inLeft | inRight
      · exact ih perfect.1 (Nat.le_of_succ_le_succ within) inLeft
      · exact ih perfect.2 (Nat.le_of_succ_le_succ within) inRight

variable (node) in
/-- The trees have the same leaves place by place, or where the one has a leaf, this is the
root of what the other has there. -/
def HashTree.Matches : HashTree Digest → HashTree Digest → Prop
  | .fork left right, .fork left' right' => left.Matches left' ∧ right.Matches right'
  | tree, other => tree.root node = other.root node

theorem HashTree.Matches.root_eq {other : HashTree Digest} (alike : tree.Matches node other) :
    tree.root node = other.root node := by
  induction tree generalizing other with
  | leaf digest => simpa [HashTree.Matches] using alike
  | fork left right ihLeft ihRight =>
    cases other with
    | leaf digest => simpa [HashTree.Matches] using alike
    | fork left' right' => rw [HashTree.root, HashTree.root, ihLeft alike.1, ihRight alike.2]

theorem matches_of_root_eq {other : HashTree Digest} (same : tree.root node = other.root node) :
    tree.Matches node other ∨ Collision node (tree.pairs node) (other.pairs node) := by
  induction tree generalizing other with
  | leaf digest => exact Or.inl (by simpa [HashTree.Matches] using same)
  | fork left right ihLeft ihRight =>
    cases other with
    | leaf digest => exact Or.inl (by simpa [HashTree.Matches] using same)
    | fork left' right' =>
      by_cases alike : (left.root node, right.root node) = (left'.root node, right'.root node)
      · rw [Prod.mk.injEq] at alike
        rcases ihLeft alike.1 with inLeft | collides
        · rcases ihRight alike.2 with inRight | collides
          · exact Or.inl ⟨inLeft, inRight⟩
          · exact Or.inr (collides.mono (by simp [HashTree.pairs]) (by simp [HashTree.pairs]))
        · exact Or.inr (collides.mono (by simp [HashTree.pairs]) (by simp [HashTree.pairs]))
      · exact Or.inr ⟨_, List.mem_cons_self, _, List.mem_cons_self, alike, same⟩

theorem HashTree.Matches.eq_of_perfect {other : HashTree Digest} (alike : tree.Matches node other)
    (perfect : tree.Perfect height) (perfect' : other.Perfect height) : tree = other := by
  induction height generalizing tree other with
  | zero =>
    cases tree with
    | fork left right => cases perfect
    | leaf digest =>
      cases other with
      | fork left right => cases perfect'
      | leaf digest' => exact congrArg HashTree.leaf alike
  | succ height ih =>
    cases tree with
    | leaf digest => cases perfect
    | fork left right =>
      cases other with
      | leaf digest => cases perfect'
      | fork left' right' =>
        rw [ih alike.1 perfect.1 perfect'.1, ih alike.2 perfect.2 perfect'.2]

end Trees

section Growing
variable {Digest : Type} {node : Digest → Digest → Digest} {fill : Digest → Digest}
  {fillTree : HashTree Digest → HashTree Digest}

theorem mem_pairUp_mk {fill : Node → Node} {pair : Node × Node}
    (member : pair ∈ pairUp Prod.mk fill level) :
    pair.1 ∈ level ∧ (pair.2 ∈ level ∨ pair.2 = fill pair.1) := by
  induction level using pairUp.induct with
  | case1 => simp [pairUp] at member
  | case2 last =>
    simp only [pairUp, List.mem_singleton] at member
    subst member
    simp
  | case3 first second rest ih =>
    simp only [pairUp, List.mem_cons] at member
    rcases member with rfl | member
    · simp
    · obtain ⟨inRest, other⟩ := ih member
      refine ⟨by simp [inRest], other.imp (fun inRest => ?_) id⟩
      simp [inRest]

variable (fills : ∀ tree, (fillTree tree).root node = fill (tree.root node))
include fills

theorem root_collapse {leaves : List Digest} :
    (collapse HashTree.fork fillTree (leaves.map HashTree.leaf)).map (HashTree.root node) =
      collapse node fill leaves := by
  have atLeaves : (leaves.map HashTree.leaf).map (HashTree.root node) = leaves := by
    rw [List.map_map]
    exact List.map_id leaves
  rw [collapse_map (HashTree.root node) node fill (fun _ _ => rfl) fills, atLeaves]

theorem pairs_collapse (nothingNew : ∀ tree, (fillTree tree).pairs node ⊆ tree.pairs node)
    {trees : List (HashTree Digest)} {tree : HashTree Digest}
    (member : tree ∈ collapse HashTree.fork fillTree trees) {pair : Digest × Digest}
    (hashed : pair ∈ tree.pairs node) :
    pair ∈ combined node fill (trees.map (HashTree.root node)) ∨
      ∃ old ∈ trees, pair ∈ old.pairs node := by
  induction trees using collapse.induct HashTree.fork fillTree with
  | case1 trees short =>
    rw [collapse_of_le short] at member
    exact Or.inr ⟨tree, member, hashed⟩
  | case2 trees long ih =>
    rw [collapse_of_lt (Nat.not_le.mp long)] at member
    have many : ¬ (trees.map (HashTree.root node)).length ≤ 1 := by rwa [List.length_map]
    rw [combined, if_neg many, List.mem_append]
    have upper := pairUp_map HashTree.fork fillTree (HashTree.root node) (HashTree.root node) node fill
      (fun _ _ => rfl) fills trees
    have roots := pairUp_map Prod.mk fillTree (HashTree.root node)
      (fun pair => (pair.1.root node, pair.2.root node)) Prod.mk fill (fun _ _ => rfl) fills trees
    have forks := pairUp_map Prod.mk fillTree id (fun pair => HashTree.fork pair.1 pair.2) HashTree.fork
      fillTree (fun _ _ => rfl) (fun _ => rfl) trees
    rw [List.map_id] at forks
    rcases ih member with later | ⟨old, isOld, inOld⟩
    · rw [upper] at later
      exact Or.inl (Or.inr later)
    · rw [← forks, List.mem_map] at isOld
      obtain ⟨⟨left, right⟩, neighbours, rfl⟩ := isOld
      obtain ⟨isLeft, isRight⟩ := mem_pairUp_mk neighbours
      rw [HashTree.pairs, List.mem_cons, List.mem_append] at inOld
      rcases inOld with rfl | inLeft | inRight
      · rw [← roots]
        exact Or.inl (Or.inl (List.mem_map_of_mem neighbours))
      · exact Or.inr ⟨left, isLeft, inLeft⟩
      · rcases isRight with isRight | filled
        · exact Or.inr ⟨right, isRight, inRight⟩
        · dsimp only at filled inRight
          rw [filled] at inRight
          exact Or.inr ⟨left, isLeft, nothingNew left inRight⟩

omit fills in
theorem perfect_collapse (fillPerfect : ∀ tree depth, tree.Perfect depth →
      (fillTree tree).Perfect depth)
    (trees : List (HashTree Digest)) (depth : Nat) (all : ∀ tree ∈ trees, tree.Perfect depth) :
    ∀ tree ∈ collapse HashTree.fork fillTree trees, tree.Perfect (depth + rounds trees.length) := by
  induction trees using collapse.induct HashTree.fork fillTree generalizing depth with
  | case1 trees short =>
    rw [collapse_of_le short, rounds, if_pos short]
    exact all
  | case2 trees long ih =>
    rw [collapse_of_lt (Nat.not_le.mp long), rounds, if_neg long]
    have above := ih (depth + 1) (forall_pairUp HashTree.fork fillTree (fun _ _ left right => ⟨left, right⟩)
      (fun tree => fillPerfect tree depth) all)
    rw [length_pairUp] at above
    intro tree member
    have := above tree member
    rwa [Nat.add_right_comm, Nat.add_assoc] at this

theorem exists_tree_collapse (nothingNew : ∀ tree, (fillTree tree).pairs node ⊆ tree.pairs node)
    {leaves : List Digest} (present : leaves ≠ []) :
    ∃ tree : HashTree Digest,
      collapse HashTree.fork fillTree (leaves.map HashTree.leaf) = [tree] ∧
      collapse node fill leaves = [tree.root node] ∧ tree.pairs node ⊆ combined node fill leaves := by
  obtain ⟨tree, only⟩ : ∃ tree,
      collapse HashTree.fork fillTree (leaves.map HashTree.leaf) = [tree] :=
    List.length_eq_one_iff.mp (length_collapse (by simpa using present))
  refine ⟨tree, only, ?_, ?_⟩
  · rw [← root_collapse fills, only]
    rfl
  · intro pair hashed
    have atLeaves : (leaves.map HashTree.leaf).map (HashTree.root node) = leaves := by
      rw [List.map_map]
      exact List.map_id leaves
    have member : tree ∈ collapse HashTree.fork fillTree (leaves.map HashTree.leaf) := by
      rw [only]
      exact List.mem_singleton_self tree
    rcases pairs_collapse fills nothingNew member hashed with combined | ⟨old, isLeaf, inOld⟩
    · rwa [atLeaves] at combined
    · obtain ⟨digest, _, rfl⟩ := List.mem_map.mp isLeaf
      cases inOld

end Growing

section Climbing
variable {Digest : Type}

inductive Side where
  | left
  | right
  deriving DecidableEq

abbrev Step (Digest : Type) := Side × Digest

def siblingIndex (index : Nat) : Nat := if index % 2 = 0 then index + 1 else index - 1

def siblingSide (index : Nat) : Side := if index % 2 = 0 then .right else .left

def joined (step : Step Digest) (digest : Digest) : Digest × Digest :=
  match step.1 with
  | .left => (step.2, digest)
  | .right => (digest, step.2)

variable (node : Digest → Digest → Digest)

def climb (start : Digest) (steps : List (Step Digest)) : Digest :=
  steps.foldl (fun digest step => node (joined step digest).1 (joined step digest).2) start

def climbed (start : Digest) : List (Step Digest) → List (Digest × Digest)
  | [] => []
  | step :: rest =>
    joined step start :: climbed (node (joined step start).1 (joined step start).2) rest

variable (start : Digest) (steps : List (Step Digest)) {step : Step Digest}

theorem climb_concat :
    climb node start (steps ++ [step]) =
      node (joined step (climb node start steps)).1 (joined step (climb node start steps)).2 := by
  simp [climb]

theorem climbed_append (more : List (Step Digest)) :
    climbed node start (steps ++ more) =
      climbed node start steps ++ climbed node (climb node start steps) more := by
  induction steps generalizing start with
  | nil => rfl
  | cons head rest ih =>
    rw [List.cons_append, climbed, climbed, ih]
    rfl

theorem climbed_concat :
    climbed node start (steps ++ [step]) =
      climbed node start steps ++ [joined step (climb node start steps)] :=
  climbed_append node start steps [step]

variable {node}

theorem getElem?_parent {fill : Digest → Digest} {level : List Digest} {index : Nat}
    {digest : Digest} (found : level[index]? = some digest) :
    (pairUp node fill level)[index / 2]? = some (climb node digest
      [(siblingSide index, level[siblingIndex index]?.getD (fill digest))]) := by
  unfold siblingSide siblingIndex
  by_cases even : index % 2 = 0
  · have here : 2 * (index / 2) = index := by omega
    rw [if_pos even, if_pos even, getElem?_pairUp _ _ level (index / 2) digest (by rwa [here]), here]
    rfl
  · have here : 2 * (index / 2) + 1 = index := by omega
    have before : 2 * (index / 2) = index - 1 := by omega
    have inside : index < level.length := (List.getElem?_eq_some_iff.mp found).1
    have left : level[index - 1]? = some (level[index - 1]?.getD (fill digest)) := by
      rw [List.getElem?_eq_getElem (by omega), Option.getD_some]
    rw [if_neg even, if_neg even,
      getElem?_pairUp _ _ level (index / 2) _ (by rw [before]; exact left), here, found]
    rfl

/-- Who climbs to the root of a tree started at the root of one of its subtrees, unless the
way led up to a leaf from below or a pair on it collides with one of the tree. -/
theorem climb_opens (tree : HashTree Digest) (reached : climb node start steps = tree.root node) :
    (∃ sub ∈ tree.subtrees steps.length, start = sub.root node) ∨
      (∃ depth < steps.length, ∃ digest, HashTree.leaf digest ∈ tree.subtrees depth ∧
        (∃ pair ∈ climbed node start steps, node pair.1 pair.2 = digest) ∧
        ∃ below, below <+: steps ∧ climb node start below = digest) ∨
      Collision node (climbed node start steps) (tree.pairs node) := by
  -- From the root end, so that the tree is taken apart as the way is.
  induction steps using List.reverseRecOn generalizing tree with
  | nil => exact Or.inl ⟨tree, List.mem_singleton_self tree, reached⟩
  | append_singleton steps step ih =>
    have last : joined step (climb node start steps) ∈ climbed node start (steps ++ [step]) := by
      rw [climbed_concat]
      exact List.mem_append_right _ (List.mem_singleton_self _)
    have earlier : climbed node start steps ⊆ climbed node start (steps ++ [step]) := by
      rw [climbed_concat]
      exact List.subset_append_left _ _
    rw [climb_concat] at reached
    rw [List.length_append, List.length_singleton]
    cases tree with
    | leaf digest =>
      refine Or.inr (Or.inl ⟨0, Nat.succ_pos _, digest, List.mem_singleton_self _,
        ⟨_, last, reached⟩, _, List.prefix_rfl, ?_⟩)
      rw [climb_concat]
      exact reached
    | fork left right =>
      -- The last step joins the roots of the two children, or it gives a collision.
      by_cases alike : joined step (climb node start steps) = (left.root node, right.root node)
      · have inner : ∃ child, (child = left ∨ child = right) ∧
            climb node start steps = child.root node := by
          unfold joined at alike
          split at alike
          · rw [Prod.mk.injEq] at alike
            exact ⟨right, Or.inr rfl, alike.2⟩
          · rw [Prod.mk.injEq] at alike
            exact ⟨left, Or.inl rfl, alike.1⟩
        obtain ⟨child, isChild, reachedChild⟩ := inner
        have inside : ∀ depth sub, sub ∈ child.subtrees depth →
            sub ∈ (HashTree.fork left right).subtrees (depth + 1) := by
          intro depth sub found
          rw [HashTree.subtrees, List.mem_append]
          rcases isChild with rfl | rfl
          · exact Or.inl found
          · exact Or.inr found
        have childPairs : child.pairs node ⊆ (HashTree.fork left right).pairs node := by
          rcases isChild with rfl | rfl <;> simp [HashTree.pairs]
        rcases ih child reachedChild with ⟨sub, found, same⟩ | hits | collides
        · exact Or.inl ⟨sub, inside _ _ found, same⟩
        · obtain ⟨depth, less, digest, found, ⟨pair, onWay, same⟩, below, part, atLeaf⟩ := hits
          exact Or.inr (Or.inl ⟨depth + 1, Nat.succ_lt_succ less, digest, inside _ _ found,
            ⟨pair, earlier onWay, same⟩, below, part.trans (List.prefix_append _ _), atLeaf⟩)
        · exact Or.inr (Or.inr (collides.mono earlier childPairs))
      · exact Or.inr (Or.inr ⟨_, last, _, List.mem_cons_self, alike, reached⟩)

/-- A way up a perfect tree that is not too long starts at a leaf, or at the hash of a pair
if it is too short. -/
theorem climb_opens_perfect {start : Digest} {steps : List (Step Digest)} {tree : HashTree Digest}
    (reached : climb node start steps = tree.root node) (perfect : tree.Perfect height)
    (within : steps.length ≤ height) :
    (steps.length = height ∧ start ∈ tree.leaves) ∨
      (steps.length < height ∧ ∃ pair ∈ tree.pairs node, node pair.1 pair.2 = start) ∨
      Collision node (climbed node start steps) (tree.pairs node) := by
  rcases climb_opens start steps tree reached with ⟨sub, found, rfl⟩ | hits | collides
  · have rest := perfect_subtree perfect within found
    cases sub with
    | leaf digest =>
      refine Or.inl ⟨?_, mem_leaves_of_subtree found⟩
      by_contra short
      obtain ⟨left, more⟩ : ∃ left, height - steps.length = left + 1 :=
        ⟨height - steps.length - 1, by omega⟩
      rw [more] at rest
      cases rest
    | fork left right =>
      refine Or.inr (Or.inl ⟨?_, _, pairs_of_subtree found List.mem_cons_self, rfl⟩)
      by_contra long
      rw [Nat.sub_eq_zero_of_le (Nat.not_lt.mp long)] at rest
      cases rest
  · obtain ⟨depth, above, digest, found, _⟩ := hits
    -- No leaf of a perfect tree is above its height.
    have rest := perfect_subtree perfect (by omega) found
    obtain ⟨left, more⟩ : ∃ left, height - depth = left + 1 := ⟨height - depth - 1, by omega⟩
    rw [more] at rest
    cases rest
  · exact Or.inr (Or.inr collides)

variable (node) in
/-- The digest is the hash of a pair of the tree, or a way leads up from it to one of the
leaves on which nothing collides with the tree. -/
def HashTree.OpensAt (tree : HashTree Digest) (start : Digest) : Prop :=
  (∃ pair ∈ tree.pairs node, node pair.1 pair.2 = start) ∨
    ∃ leaf ∈ tree.leaves, ∃ below, climb node start below = leaf ∧
      ¬ Collision node (climbed node start below) (tree.pairs node)

theorem opensAt_of_climb {start : Digest} {steps : List (Step Digest)} {tree : HashTree Digest}
    (reached : climb node start steps = tree.root node) :
    tree.OpensAt node start ∨ Collision node (climbed node start steps) (tree.pairs node) := by
  by_cases collides : Collision node (climbed node start steps) (tree.pairs node)
  · exact Or.inr collides
  · refine Or.inl ?_
    rcases climb_opens start steps tree reached with ⟨sub, found, rfl⟩ | hits | collides'
    · cases sub with
      | leaf digest =>
        refine Or.inr ⟨digest, mem_leaves_of_subtree found, [], rfl, ?_⟩
        simp [Collision, climbed]
      | fork left right => exact Or.inl ⟨_, pairs_of_subtree found List.mem_cons_self, rfl⟩
    · obtain ⟨_, _, digest, found, _, below, ⟨rest, rfl⟩, atLeaf⟩ := hits
      refine Or.inr ⟨digest, mem_leaves_of_subtree found, below, atLeaf, fun early => collides ?_⟩
      refine early.mono ?_ (List.Subset.refl _)
      rw [climbed_append]
      exact List.subset_append_left _ _
    · exact absurd collides' collides

/-- From a leaf and from the hash of a pair a way of the tree's own pairs leads to the root. -/
theorem exists_way {start : Digest} {tree : HashTree Digest}
    (inside : start ∈ tree.leaves ∨ ∃ pair ∈ tree.pairs node, node pair.1 pair.2 = start) :
    ∃ steps, climb node start steps = tree.root node ∧
      climbed node start steps ⊆ tree.pairs node := by
  induction tree with
  | leaf digest =>
    have same : start = digest := by simpa [HashTree.leaves, HashTree.pairs] using inside
    exact ⟨[], same, List.nil_subset _⟩
  | fork left right ihLeft ihRight =>
    have parts : (start ∈ left.leaves ∨ ∃ pair ∈ left.pairs node, node pair.1 pair.2 = start) ∨
        (start ∈ right.leaves ∨ ∃ pair ∈ right.pairs node, node pair.1 pair.2 = start) ∨
        start = (HashTree.fork left right).root node := by
      rcases inside with isLeaf | ⟨pair, member, rfl⟩
      · rcases List.mem_append.mp isLeaf with inLeft | inRight
        · exact Or.inl (Or.inl inLeft)
        · exact Or.inr (Or.inl (Or.inl inRight))
      · rw [HashTree.pairs, List.mem_cons, List.mem_append] at member
        rcases member with rfl | inLeft | inRight
        · exact Or.inr (Or.inr rfl)
        · exact Or.inl (Or.inr ⟨pair, inLeft, rfl⟩)
        · exact Or.inr (Or.inl (Or.inr ⟨pair, inRight, rfl⟩))
    rcases parts with inLeft | inRight | atRoot
    · obtain ⟨steps, reached, own⟩ := ihLeft inLeft
      refine ⟨steps ++ [(.right, right.root node)], ?_, ?_⟩
      · rw [climb_concat, reached]
        rfl
      · rw [climbed_concat, reached, List.append_subset]
        exact ⟨fun pair member => by simp [HashTree.pairs, own member], by simp [HashTree.pairs, joined]⟩
    · obtain ⟨steps, reached, own⟩ := ihRight inRight
      refine ⟨steps ++ [(.left, left.root node)], ?_, ?_⟩
      · rw [climb_concat, reached]
        rfl
      · rw [climbed_concat, reached, List.append_subset]
        exact ⟨fun pair member => by simp [HashTree.pairs, own member], by simp [HashTree.pairs, joined]⟩
    · exact ⟨[], atRoot, List.nil_subset _⟩

/-- Where no two pairs of the tree collide, a way without a collision leads to the root from
every digest that opens. -/
theorem exists_way_of_opensAt {start : Digest} {tree : HashTree Digest}
    (clean : ¬ Collision node (tree.pairs node) (tree.pairs node))
    (opens : tree.OpensAt node start) :
    ∃ steps, climb node start steps = tree.root node ∧
      ¬ Collision node (climbed node start steps) (tree.pairs node) := by
  rcases opens with inner | ⟨leaf, isLeaf, below, rfl, apart⟩
  · obtain ⟨steps, reached, own⟩ := exists_way (Or.inr inner)
    exact ⟨steps, reached, fun collides => clean (collides.mono own (List.Subset.refl _))⟩
  · obtain ⟨steps, reached, own⟩ := exists_way (Or.inl isLeaf)
    refine ⟨below ++ steps, ?_, ?_⟩
    · rw [← reached]
      exact List.foldl_append
    · rintro ⟨pair, member, other, isOther, differ, same⟩
      rw [climbed_append, List.mem_append] at member
      rcases member with early | late
      · exact apart ⟨pair, early, other, isOther, differ, same⟩
      · exact clean ⟨pair, own late, other, isOther, differ, same⟩

end Climbing

end Savitri.Merkle
