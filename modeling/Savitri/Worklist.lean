import Mathlib.Data.Finset.Card
import Mathlib.Data.List.Nodup
import Mathlib.Logic.Relation

/-!
Breadth-first search over a finite adjacency. A target is marked before it is
enqueued, so no node enters the queue twice whatever cycles or duplicates the
adjacency has. `popped` is the history of visits. Exactness needs no bound on
the graph; termination needs one list that contains every node the search can
meet.
-/
namespace Savitri.Worklist
open Relation
universe u
variable {Node : Type u} [DecidableEq Node]

structure Search (Node : Type u) where
  seen : List Node
  queue : List Node
  popped : List Node

variable (search : Search Node)

def enqueue (target : Node) : Search Node :=
  if target ∈ search.seen then search else
    { search with seen := target :: search.seen, queue := search.queue ++ [target] }

def enqueueAll (targets : List Node) : Search Node := targets.foldl enqueue search

variable (adj : Node → List Node)

def pop (search : Search Node) : Search Node :=
  match search.queue with
  | [] => search
  | node :: rest =>
    enqueueAll { search with queue := rest, popped := search.popped ++ [node] } (adj node)

def start (root : Node) : Search Node := ⟨[root], [root], []⟩

def iterate (adj : Node → List Node) : Nat → Search Node → Search Node
  | 0, search => search
  | fuel + 1, search => iterate adj fuel (pop adj search)

def Edge (source target : Node) : Prop := target ∈ adj source

/-- Marked nodes are the visited and the waiting ones, each once; they are
reachable; and every successor of a visited node is marked. -/
structure Sound (adj : Node → List Node) (root : Node) (search : Search Node) : Prop where
  split : search.seen.Perm (search.popped ++ search.queue)
  unique : search.seen.Nodup
  rooted : root ∈ search.seen
  reached : ∀ node ∈ search.seen, ReflTransGen (Edge adj) root node
  closed : ∀ node ∈ search.popped, ∀ target ∈ adj node, target ∈ search.seen

omit [DecidableEq Node] in
theorem start_sound (root : Node) : Sound adj root (start root) where
  split := by simp [start]
  unique := by simp [start]
  rooted := by simp [start]
  reached := by
    intro node member
    simp only [start, List.mem_singleton] at member
    subst node
    exact ReflTransGen.refl
  closed := by simp [start]

variable {adj : Node → List Node} (search : Search Node) (targets : List Node) {root : Node}
  (fuel : Nat)

theorem enqueueAll_popped : (enqueueAll search targets).popped = search.popped := by
  induction targets generalizing search with
  | nil => rfl
  | cons target rest ih =>
    change (enqueueAll (enqueue search target) rest).popped = _
    rw [ih]
    unfold enqueue
    split <;> rfl

theorem enqueueAll_seen {node : Node} :
    node ∈ (enqueueAll search targets).seen ↔ node ∈ search.seen ∨ node ∈ targets := by
  induction targets generalizing search with
  | nil => simp [enqueueAll]
  | cons target rest ih =>
    change node ∈ (enqueueAll (enqueue search target) rest).seen ↔ _
    rw [ih, List.mem_cons, ← or_assoc]
    unfold enqueue
    by_cases hit : target ∈ search.seen
    · simp only [hit, ↓reduceIte]
      constructor
      · rintro (old | later)
        · exact Or.inl (Or.inl old)
        · exact Or.inr later
      · rintro ((old | same) | later)
        · exact Or.inl old
        · subst node
          exact Or.inl hit
        · exact Or.inr later
    · simp [hit, or_comm]

theorem enqueueAll_split (split : search.seen.Perm (search.popped ++ search.queue))
    (unique : search.seen.Nodup) :
    (enqueueAll search targets).seen.Perm
        ((enqueueAll search targets).popped ++ (enqueueAll search targets).queue) ∧
      (enqueueAll search targets).seen.Nodup := by
  induction targets generalizing search with
  | nil => exact ⟨split, unique⟩
  | cons target rest ih =>
    apply ih (enqueue search target)
    · unfold enqueue
      by_cases hit : target ∈ search.seen
      · simpa [hit] using split
      · simp only [hit, ↓reduceIte]
        have moved : (target :: (search.popped ++ search.queue)).Perm
            (search.popped ++ search.queue ++ [target]) :=
          (List.perm_append_singleton target _).symm
        rw [← List.append_assoc]
        exact (split.cons target).trans moved
    · unfold enqueue
      by_cases hit : target ∈ search.seen
      · simpa [hit] using unique
      · simpa [hit] using unique

theorem pop_sound {search : Search Node} (sound : Sound adj root search) :
    Sound adj root (pop adj search) := by
  cases waiting : search.queue with
  | nil => simpa [pop, waiting] using sound
  | cons node rest =>
    have marked : node ∈ search.seen := by
      apply sound.split.mem_iff.mpr
      simp [waiting]
    have moved : search.seen.Perm ((search.popped ++ [node]) ++ rest) := by
      simpa [waiting] using sound.split
    simp only [pop, waiting]
    have parts := enqueueAll_split
      { search with queue := rest, popped := search.popped ++ [node] } (adj node)
      moved sound.unique
    constructor
    · exact parts.1
    · exact parts.2
    · exact (enqueueAll_seen _ _).mpr (Or.inl sound.rooted)
    · intro other member
      rcases (enqueueAll_seen _ _).mp member with old | new
      · exact sound.reached other old
      · exact (sound.reached node marked).tail new
    · intro other member target edge
      rw [enqueueAll_popped] at member
      apply (enqueueAll_seen _ _).mpr
      rcases List.mem_append.mp member with old | last
      · exact Or.inl (sound.closed other old target edge)
      · rw [List.mem_singleton] at last
        subst other
        exact Or.inr edge

theorem iterate_sound (search : Search Node) (sound : Sound adj root search) :
    Sound adj root (iterate adj fuel search) := by
  induction fuel generalizing search with
  | zero => exact sound
  | succ fuel ih => exact ih (pop adj search) (pop_sound sound)

omit [DecidableEq Node] in
theorem finished_exact {adj : Node → List Node} {root : Node} {search : Search Node}
    (sound : Sound adj root search) (done : search.queue = []) (node : Node) :
    node ∈ search.popped ↔ ReflTransGen (Edge adj) root node := by
  have all : ∀ other, other ∈ search.seen ↔ other ∈ search.popped := by
    intro other
    rw [sound.split.mem_iff, done, List.append_nil]
  constructor
  · intro visited
    exact sound.reached node ((all node).mpr visited)
  · intro path
    induction path with
    | refl => exact (all root).mp sound.rooted
    | tail _ edge ih => exact (all _).mp (sound.closed _ ih _ edge)

theorem iterate_popped_length (search : Search Node)
    (waiting : (iterate adj fuel search).queue ≠ []) :
    (iterate adj fuel search).popped.length = search.popped.length + fuel := by
  induction fuel generalizing search with
  | zero => rfl
  | succ fuel ih =>
    have later := ih (pop adj search) waiting
    cases front : search.queue with
    | nil =>
      -- An empty queue stays empty, against the queue being nonempty at the end.
      have stuck : ∀ count, (iterate adj count search) = search := by
        intro count
        induction count with
        | zero => rfl
        | succ count stay =>
          change iterate adj count (pop adj search) = search
          simpa [pop, front] using stay
      rw [stuck (fuel + 1)] at waiting
      exact False.elim (waiting front)
    | cons node rest =>
      have grown : (pop adj search).popped.length = search.popped.length + 1 := by
        simp [pop, front, enqueueAll_popped]
      change (iterate adj fuel (pop adj search)).popped.length = _
      omega

theorem iterate_finishes (nodes : List Node) (bound : nodes.length ≤ fuel)
    (covered : ∀ node, ReflTransGen (Edge adj) root node → node ∈ nodes) :
    (iterate adj fuel (start root)).queue = [] := by
  have sound := iterate_sound fuel (start root) (start_sound adj root)
  -- A search still waiting has popped once per unit of fuel, all of it marked nodes.
  by_contra waiting
  have used := iterate_popped_length fuel (start root) waiting
  have total := sound.split.length_eq
  rw [List.length_append] at total
  have room : (iterate adj fuel (start root)).seen.length ≤ nodes.length :=
    (sound.unique.subperm fun node member => covered node (sound.reached node member)).length_le
  have some_left : 0 < (iterate adj fuel (start root)).queue.length :=
    List.length_pos_of_ne_nil waiting
  omega

end Savitri.Worklist
