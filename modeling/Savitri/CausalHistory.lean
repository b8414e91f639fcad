import Savitri.LineageCommit

/-!
The walk of a commit against the graph it walks. Ids are resolved through the
certified table, so the walk is a breadth-first search over `parentsOf`; the
search theory gives termination and exactness for adversarial parents (cycles,
unknown ids, repetitions), and the key order of `visited` is the commit order.
-/
namespace Savitri.CausalHistory
open Std Relation LatticeTypes PairOrder CellAggregator MachineInt LineageCommit Transition
variable {cert : CellCertificate} {id : CellId} {key : CellKey} {crypto : Crypto} {cy : Cycle}
  {agg : LatticeAggregator} {cycle : Nat} {pivot groupId : String} {walk : Walk}

section Tracking
def parentsOf (crypto : Crypto) (agg : LatticeAggregator) (id : CellId) : List CellId :=
  match resolve crypto agg id with
  | some (_, cert) => cert.cell.parents
  | none => []

/-- The walk state and the abstract search agree: same queue, same marks, and
`visited` holds the popped ids that resolve, each under its resolved key. -/
structure Tracks (crypto : Crypto) (agg : LatticeAggregator) (walk : Walk)
    (search : Worklist.Search CellId) : Prop where
  queue : walk.queue.map Prod.fst = search.queue
  seen : ∀ id : CellId, walk.seen.contains id = true ↔ id ∈ search.seen
  visited : ∀ (key : CellKey) (id : CellId), walk.visited[key]? = some id ↔
    id ∈ search.popped ∧ ∃ cert, resolve crypto agg id = some (key, cert)

variable {crypto : Crypto} {agg : LatticeAggregator}

theorem walkStart_tracks (start : CellId) (startRound : Nat) :
    Tracks crypto agg (walkStart start startRound) (Worklist.start start) where
  queue := rfl
  seen := by
    intro id
    simp [walkStart, Worklist.start, ExtTreeSet.contains_insert, @eq_comm _ id start]
  visited := by simp [walkStart, Worklist.start]

theorem enqueueParents_tracks {round : Nat} {parents : List CellId} (walk : Walk)
    (search : Worklist.Search CellId) (tracks : Tracks crypto agg walk search) :
    Tracks crypto agg (parents.foldl (enqueueParent round) walk)
      (Worklist.enqueueAll search parents) := by
  induction parents generalizing walk search with
  | nil => exact tracks
  | cons parent rest ih =>
    apply ih
    unfold enqueueParent Worklist.enqueue
    by_cases marked : parent ∈ search.seen
    · have known := (tracks.seen parent).mpr marked
      simpa [marked, known] using tracks
    · have unknown : walk.seen.contains parent = false := by
        rw [← Bool.not_eq_true, tracks.seen]
        exact marked
      simp only [marked, unknown, ↓reduceIte, Bool.false_eq_true]
      constructor
      · simp [tracks.queue]
      · intro id
        simp only [ExtTreeSet.contains_insert, Bool.or_eq_true, beq_iff_eq,
          LawfulEqCmp.compare_eq_iff_eq, tracks.seen, List.mem_cons, @eq_comm _ id parent]
      · exact tracks.visited

theorem resolve_key_unique (valid : Valid crypto agg) {first second : CellId}
    {firstCert secondCert : CellCertificate}
    (firstResolved : resolve crypto agg first = some (key, firstCert))
    (secondResolved : resolve crypto agg second = some (key, secondCert)) : first = second := by
  have left := resolve_stored valid firstResolved
  have right := resolve_stored valid secondResolved
  have sameCert : firstCert = secondCert := Option.some.inj (left.1.symm.trans right.1)
  rw [← left.2, ← right.2, sameCert]

variable {search : Worklist.Search CellId}

theorem Tracks.visited_miss {crypto : Crypto} {agg : LatticeAggregator}
    (tracks : Tracks crypto agg walk search) (unresolved : resolve crypto agg id = none)
    (key : CellKey) (other : CellId) :
    walk.visited[key]? = some other ↔
      other ∈ search.popped ++ [id] ∧ ∃ cert, resolve crypto agg other = some (key, cert) := by
  rw [tracks.visited, List.mem_append, List.mem_singleton]
  constructor
  · rintro ⟨popped, hit⟩
    exact ⟨Or.inl popped, hit⟩
  · rintro ⟨popped | same, cert, hit⟩
    · exact ⟨popped, cert, hit⟩
    · rw [same, unresolved] at hit
      cases hit

theorem Tracks.visited_hit {crypto : Crypto} {agg : LatticeAggregator}
    (tracks : Tracks crypto agg walk search) (valid : Valid crypto agg) {filed : CellKey}
    (resolved : resolve crypto agg id = some (filed, cert)) (key : CellKey) (other : CellId) :
    (walk.visited.insert filed id)[key]? = some other ↔
      other ∈ search.popped ++ [id] ∧ ∃ cert, resolve crypto agg other = some (key, cert) := by
  simp only [ExtTreeMap.getElem?_insert, LawfulEqCmp.compare_eq_iff_eq, List.mem_append,
    List.mem_singleton]
  by_cases here : filed = key
  · subst key
    simp only [↓reduceIte, Option.some.injEq]
    constructor
    · intro same
      subst other
      exact ⟨Or.inr rfl, cert, resolved⟩
    · rintro ⟨_, otherCert, otherResolved⟩
      exact resolve_key_unique valid resolved otherResolved
  · simp only [here, ↓reduceIte, tracks.visited]
    constructor
    · rintro ⟨popped, hit⟩
      exact ⟨Or.inl popped, hit⟩
    · rintro ⟨popped | same, otherCert, hit⟩
      · exact ⟨popped, otherCert, hit⟩
      · rw [same, resolved] at hit
        exact False.elim (here (congrArg Prod.fst (Option.some.inj hit)))

theorem walkStep_tracks (valid : Valid crypto agg) (below : agg.highWaterRound < u64Max)
    (tracks : Tracks crypto agg walk search) :
    ∃ next, walkStep crypto agg walk = some next ∧
      Tracks crypto agg next (Worklist.pop (parentsOf crypto agg) search) := by
  cases waiting : walk.queue with
  | nil =>
    have empty : search.queue = [] := by rw [← tracks.queue, waiting]; rfl
    refine ⟨walk, by simp [walkStep, waiting], ?_⟩
    simpa [Worklist.pop, empty] using tracks
  | cons head rest =>
    rcases head with ⟨id, hint⟩
    have front : search.queue = id :: rest.map Prod.fst := by
      rw [← tracks.queue, waiting]
      rfl
    rcases Option.isSome_iff_exists.mp (findById_isSome crypto agg id below) with
      ⟨result, found⟩
    cases result with
    | none =>
      -- The search pops the id as well: it has no parents, so nothing else moves.
      have unresolved : resolve crypto agg id = none := by simp [resolve, found]
      refine ⟨{ walk with queue := rest }, by simp [walkStep, waiting, found], ?_⟩
      simp only [Worklist.pop, front, parentsOf, unresolved, Worklist.enqueueAll, List.foldl_nil]
      constructor
      · rfl
      · exact tracks.seen
      · exact tracks.visited_miss unresolved
    | some hit =>
      rcases hit with ⟨round, author, cert⟩
      have resolved : resolve crypto agg id = some ((round, author), cert) := by
        simp [resolve, found]
      refine ⟨_, by simp only [walkStep, waiting, found]; rfl, ?_⟩
      simp only [Worklist.pop, front, parentsOf, resolved]
      apply enqueueParents_tracks
      constructor
      · rfl
      · exact tracks.seen
      · exact tracks.visited_hit valid resolved

theorem walkLoop_tracks (valid : Valid crypto agg) (below : agg.highWaterRound < u64Max)
    (fuel : Nat) (walk : Walk) (search : Worklist.Search CellId)
    (tracks : Tracks crypto agg walk search) :
    ∃ last, walkLoop crypto agg fuel walk = some last ∧
      Tracks crypto agg last (Worklist.iterate (parentsOf crypto agg) fuel search) := by
  induction fuel generalizing walk search with
  | zero => exact ⟨walk, rfl, tracks⟩
  | succ fuel ih =>
    obtain ⟨next, stepped, nextTracks⟩ := walkStep_tracks valid below tracks
    obtain ⟨last, looped, lastTracks⟩ := ih next _ nextTracks
    exact ⟨last, by simp [walkLoop, stepped, looped], lastTracks⟩

end Tracking

section Termination
def meetable (agg : LatticeAggregator) (start : CellId) : List CellId :=
  start :: agg.certified.toList.flatMap fun entry => entry.2.cell.parents

variable {crypto : Crypto} {agg : LatticeAggregator}

theorem reached_meetable (valid : Valid crypto agg) (start id : CellId)
    (path : ReflTransGen (Worklist.Edge (parentsOf crypto agg)) start id) :
    id ∈ meetable agg start := by
  cases path with
  | refl => simp [meetable]
  | tail _ edge =>
    rename_i child _
    unfold Worklist.Edge parentsOf at edge
    cases resolved : resolve crypto agg child with
    | none => simp [resolved] at edge
    | some entry =>
      obtain ⟨key, cert⟩ := entry
      simp only [resolved] at edge
      have stored := (resolve_stored valid resolved).1
      apply List.mem_cons_of_mem
      exact List.mem_flatMap.mpr
        ⟨(key, cert), ExtTreeMap.mem_toList_iff_getElem?_eq_some.mpr stored, edge⟩

theorem walkLoop_finished {fuel : Nat} (done : walk.queue = []) :
    walkLoop crypto agg fuel walk = some walk := by
  induction fuel with
  | zero => rfl
  | succ fuel ih => simp [walkLoop, walkStep, done, ih]

theorem walkLoop_add {first second : Nat} (walk : Walk) :
    walkLoop crypto agg (first + second) walk =
      (walkLoop crypto agg first walk).bind (walkLoop crypto agg second) := by
  induction first generalizing walk with
  | zero => simp [walkLoop]
  | succ first ih =>
    rw [Nat.succ_add, walkLoop, walkLoop, Option.bind_assoc]
    exact congrArg _ (funext ih)

/-- Below the last `u64` round the walk ends with an empty queue within its
fuel, more fuel changes nothing, and `visited` is the resolved reachable set. -/
theorem walk_exact (valid : Valid crypto agg) (below : agg.highWaterRound < u64Max)
    {start : CellId} {startRound : Nat} :
    ∃ last : Walk,
      (∀ extra, walkLoop crypto agg (walkFuel agg + extra) (walkStart start startRound) = some last) ∧
      last.queue = [] ∧
      ∀ (key : CellKey) (id : CellId), last.visited[key]? = some id ↔
        ReflTransGen (Worklist.Edge (parentsOf crypto agg)) start id ∧
          ∃ cert, resolve crypto agg id = some (key, cert) := by
  obtain ⟨last, looped, tracks⟩ := walkLoop_tracks valid below (walkFuel agg)
    (walkStart start startRound) _ (walkStart_tracks start startRound)
  have finished : (Worklist.iterate (parentsOf crypto agg) (walkFuel agg)
      (Worklist.start start)).queue = [] := by
    apply Worklist.iterate_finishes _ (meetable agg start)
    · simp only [meetable, walkFuel, List.length_cons]
      omega
    · exact reached_meetable valid start
  have done : last.queue = [] := by
    have mapped := tracks.queue
    rw [finished] at mapped
    exact List.map_eq_nil_iff.mp mapped
  refine ⟨last, ?_, done, ?_⟩
  · intro extra
    rw [walkLoop_add, looped, Option.bind_some]
    exact walkLoop_finished done
  · intro key id
    rw [tracks.visited, Worklist.finished_exact
      (Worklist.iterate_sound _ _ (Worklist.start_sound _ start)) finished]

end Termination

section
variable (crypto : Crypto) (agg : LatticeAggregator)

theorem tryCommit_committed (cycle : Nat) (pivot groupId : String) (cy : Cycle)
    (committed : tryCommit crypto agg cycle pivot groupId = some (.committed cy)) :
    ∃ anchor followers, certifiedGet agg (anchorRound cycle) pivot = some anchor ∧
      certifiedAtRound agg (followRound cycle) = some followers ∧
      quorum agg ≤ followers.countP (fun cert =>
        cert.cell.parents.contains (anchor.cellId crypto)) ∧
      walkCausalHistory crypto agg (anchor.cellId crypto) (anchorRound cycle) =
        some cy.committedCells ∧
      cy.index = cycle ∧ cy.pivotCell = anchor.cellId crypto := by
  unfold tryCommit at committed
  cases located : certifiedGet agg (anchorRound cycle) pivot with
  | none => simp [located] at committed
  | some anchor =>
    cases listed : certifiedAtRound agg (followRound cycle) with
    | none => simp [located, listed] at committed
    | some followers =>
      simp only [located, listed, Option.bind_eq_bind, Option.bind_some] at committed
      split at committed
      · simp at committed
      · rename_i enough
        cases walked : walkCausalHistory crypto agg (anchor.cellId crypto) (anchorRound cycle) with
        | none => simp [walked] at committed
        | some cells =>
          simp only [walked, Option.bind_some, Option.pure_def, Option.some.injEq,
            CommitDecision.committed.injEq] at committed
          subst cy
          exact ⟨anchor, followers, rfl, rfl, by omega, walked, rfl, rfl⟩

theorem walkCausalHistory_below (start : CellId) (startRound : Nat) (cells : List CellId)
    (walked : walkCausalHistory crypto agg start startRound = some cells) :
    agg.highWaterRound < u64Max := by
  by_contra last
  have panics := findById_panics crypto agg start (by omega)
  simp [walkCausalHistory, walkFuel, Nat.add_comm 1, walkLoop, walkStep, walkStart, panics] at walked

variable {crypto}

theorem committed_walk (valid : Valid crypto agg)
    (committed : tryCommit crypto agg cycle pivot groupId = some (.committed cy)) :
    ∃ (anchor : CellCertificate) (last : Walk),
      agg.highWaterRound < u64Max ∧
      certifiedGet agg (anchorRound cycle) pivot = some anchor ∧
      cy.pivotCell = anchor.cellId crypto ∧
      (∀ extra, walkLoop crypto agg (walkFuel agg + extra)
        (walkStart (anchor.cellId crypto) (anchorRound cycle)) = some last) ∧
      last.queue = [] ∧
      cy.committedCells = last.visited.toList.map Prod.snd ∧
      ∀ (key : CellKey) (id : CellId), last.visited[key]? = some id ↔
        ReflTransGen (Worklist.Edge (parentsOf crypto agg)) (anchor.cellId crypto) id ∧
          ∃ cert, resolve crypto agg id = some (key, cert) := by
  obtain ⟨anchor, _, located, _, _, walked, _, pivotCell⟩ :=
    tryCommit_committed crypto agg cycle pivot groupId cy committed
  have below := walkCausalHistory_below crypto agg _ _ _ walked
  obtain ⟨last, looped, done, visited⟩ := walk_exact valid below
  refine ⟨anchor, last, below, located, pivotCell, looped, done, ?_, visited⟩
  have budget := looped 0
  rw [Nat.add_zero] at budget
  simp only [walkCausalHistory, budget, Option.map_some, Option.some.injEq] at walked
  exact walked.symm

end

section Listing
theorem committedCells_eq_some {decision : Option CommitDecision} {cells : List CellId} :
    (decision.bind CommitDecision.cycle?).map Cycle.committedCells = some cells ↔
      ∃ cy, decision = some (.committed cy) ∧ cy.committedCells = cells := by
  simp only [Option.map_eq_some_iff, Option.bind_eq_some_iff, CommitDecision.cycle?_eq_some]
  constructor
  · rintro ⟨cy, ⟨_, decided, rfl⟩, listed⟩
    exact ⟨cy, decided, listed⟩
  · rintro ⟨cy, decided, listed⟩
    exact ⟨cy, ⟨_, decided, rfl⟩, listed⟩

variable {visited : ExtTreeMap CellKey CellId pairCompare}

theorem visited_sorted :
    visited.toList.Pairwise fun earlier later =>
      Prod.Lex (· < ·) (· < ·) earlier.1 later.1 := by
  have ordered := @ExtTreeMap.ordered_keys_toList _ _ pairCompare visited _
  exact ordered.imp fun lt => pairCompare_key_lt.mp lt

theorem visited_nodup
    (unique : ∀ (first second : CellKey) (id : CellId), visited[first]? = some id →
      visited[second]? = some id → first = second) : (visited.toList.map Prod.snd).Nodup := by
  have keysNodup : (visited.toList.map Prod.fst).Nodup := by
    rw [List.Nodup, List.pairwise_map]
    apply visited_sorted.imp
    intro earlier later lt same
    have self : pairCompare later.1 later.1 = .eq := ReflCmp.compare_self
    rw [same, ← pairCompare_key_lt, self] at lt
    cases lt
  -- Distinct keys alone do not tell the ids apart; `unique` does.
  apply List.Nodup.map_on _ keysNodup.of_map
  rintro ⟨first, id⟩ firstMem ⟨second, other⟩ secondMem same
  simp only at same
  subst other
  have key := unique first second id (ExtTreeMap.mem_toList_iff_getElem?_eq_some.mp firstMem)
    (ExtTreeMap.mem_toList_iff_getElem?_eq_some.mp secondMem)
  rw [key]

variable (valid : Valid crypto agg)
include valid
variable (committed : tryCommit crypto agg cycle pivot groupId = some (.committed cy))
include committed

theorem committedCells_nodup : cy.committedCells.Nodup := by
  obtain ⟨_, last, _, _, _, _, _, listed, visited⟩ := committed_walk agg valid committed
  rw [listed]
  apply visited_nodup
  intro first second id firstHit secondHit
  obtain ⟨_, _, firstResolved⟩ := (visited first id).mp firstHit
  obtain ⟨_, _, secondResolved⟩ := (visited second id).mp secondHit
  rw [firstResolved] at secondResolved
  exact congrArg Prod.fst (Option.some.inj secondResolved)

theorem mem_committedCells (id : CellId) :
    id ∈ cy.committedCells ↔
      ReflTransGen (Worklist.Edge (parentsOf crypto agg)) cy.pivotCell id ∧
        (resolve crypto agg id).isSome = true := by
  obtain ⟨_, last, _, _, pivotCell, _, _, listed, visited⟩ :=
    committed_walk agg valid committed
  rw [listed, pivotCell, List.mem_map]
  constructor
  · rintro ⟨⟨key, _⟩, row, rfl⟩
    obtain ⟨reached, cert, resolved⟩ :=
      (visited key _).mp (ExtTreeMap.mem_toList_iff_getElem?_eq_some.mp row)
    exact ⟨reached, by simp [resolved]⟩
  · rintro ⟨reached, found⟩
    obtain ⟨⟨key, cert⟩, resolved⟩ := Option.isSome_iff_exists.mp found
    refine ⟨(key, id), ?_, rfl⟩
    apply ExtTreeMap.mem_toList_iff_getElem?_eq_some.mpr
    exact (visited key id).mpr ⟨reached, cert, resolved⟩

theorem committed_position_lt (earlier later : CellId) (earlierKey laterKey : CellKey)
    (earlierCert laterCert : CellCertificate) (earlierMem : earlier ∈ cy.committedCells)
    (laterMem : later ∈ cy.committedCells)
    (earlierResolved : resolve crypto agg earlier = some (earlierKey, earlierCert))
    (laterResolved : resolve crypto agg later = some (laterKey, laterCert)) :
    cy.committedCells.idxOf earlier < cy.committedCells.idxOf later ↔
      Prod.Lex (· < ·) (· < ·) earlierKey laterKey := by
  have distinct := committedCells_nodup valid committed
  obtain ⟨_, last, _, _, pivotCell, _, _, listed, visited⟩ :=
    committed_walk agg valid committed
  have rowOf : ∀ (id : CellId) (key : CellKey) (cert : CellCertificate),
      id ∈ cy.committedCells → resolve crypto agg id = some (key, cert) →
      (key, id) ∈ last.visited.toList := by
    intro id key cert member resolved
    have reached := ((mem_committedCells valid committed id).mp member).1
    rw [pivotCell] at reached
    apply ExtTreeMap.mem_toList_iff_getElem?_eq_some.mpr
    exact (visited key id).mpr ⟨reached, cert, resolved⟩
  have earlierRow := rowOf earlier earlierKey earlierCert earlierMem earlierResolved
  have laterRow := rowOf later laterKey laterCert laterMem laterResolved
  rw [listed] at distinct ⊢
  rw [← pairCompare_key_lt]
  apply idxOf_lt_iff_key_lt ExtTreeMap.ordered_keys_toList distinct earlierRow laterRow
  intro sameKey
  simp only at sameKey
  subst laterKey
  have first := ExtTreeMap.mem_toList_iff_getElem?_eq_some.mp earlierRow
  have second := ExtTreeMap.mem_toList_iff_getElem?_eq_some.mp laterRow
  rw [first] at second
  rw [Option.some.inj second]

end Listing

section Exactness
def CollisionFree (crypto : Crypto) (agg : LatticeAggregator) : Prop :=
  (agg.certified.toList.map fun entry => entry.2.cellId crypto).Nodup

def CertifiedParent (crypto : Crypto) (agg : LatticeAggregator)
    (child parent : CellCertificate) : Prop :=
  (∃ key : CellKey, agg.certified[key]? = some parent) ∧ parent.cellId crypto ∈ child.cell.parents

variable {anchorKey : CellKey} {anchor : CellCertificate}

theorem resolve_certified (valid : Valid crypto agg) (below : agg.highWaterRound < u64Max)
    (free : CollisionFree crypto agg) (stored : agg.certified[key]? = some cert) :
    resolve crypto agg (cert.cellId crypto) = some (key, cert) := by
  obtain ⟨entry, resolved⟩ :=
    Option.isSome_iff_exists.mp (resolve_isSome valid below stored)
  have found := resolve_stored valid resolved
  have same : entry = (key, cert) := by
    apply List.inj_on_of_nodup_map free
    · exact ExtTreeMap.mem_toList_iff_getElem?_eq_some.mpr found.1
    · exact ExtTreeMap.mem_toList_iff_getElem?_eq_some.mpr stored
    · exact found.2
  rw [resolved, same]

theorem reached_certified (valid : Valid crypto agg) (below : agg.highWaterRound < u64Max)
    (free : CollisionFree crypto agg) (located : agg.certified[anchorKey]? = some anchor)
    (path : ReflTransGen (Worklist.Edge (parentsOf crypto agg)) (anchor.cellId crypto) id)
    (key : CellKey) (cert : CellCertificate) (resolved : resolve crypto agg id = some (key, cert)) :
    ReflTransGen (CertifiedParent crypto agg) anchor cert := by
  -- An inner id of the path has an edge out of it, so it resolves as the last one does.
  induction path generalizing key cert with
  | refl =>
    rw [resolve_certified valid below free located] at resolved
    cases resolved
    exact ReflTransGen.refl
  | tail _ edge ih =>
    rename_i child parent _
    have found := resolve_stored valid resolved
    unfold Worklist.Edge parentsOf at edge
    cases childResolved : resolve crypto agg child with
    | none => simp [childResolved] at edge
    | some entry =>
      simp only [childResolved] at edge
      apply (ih entry.1 entry.2 childResolved).tail
      refine ⟨⟨key, found.1⟩, ?_⟩
      rw [found.2]
      exact edge

theorem certified_reached (valid : Valid crypto agg) (below : agg.highWaterRound < u64Max)
    (free : CollisionFree crypto agg) (located : agg.certified[anchorKey]? = some anchor)
    (path : ReflTransGen (CertifiedParent crypto agg) anchor cert) :
    (∃ key : CellKey, agg.certified[key]? = some cert) ∧
      ReflTransGen (Worklist.Edge (parentsOf crypto agg)) (anchor.cellId crypto)
        (cert.cellId crypto) := by
  induction path with
  | refl => exact ⟨⟨anchorKey, located⟩, ReflTransGen.refl⟩
  | tail _ edge ih =>
    obtain ⟨⟨key, stored⟩, reached⟩ := ih
    refine ⟨edge.1, reached.tail ?_⟩
    unfold Worklist.Edge parentsOf
    rw [resolve_certified valid below free stored]
    exact edge.2

/-- The committed ids are those of the certified cells reachable from the
anchor, each once and in key order, and the search that finds them ends. -/
def ListsLineage (crypto : Crypto) (agg : LatticeAggregator) (cycle : Nat) (pivot : String)
    (committedCells : List CellId) : Prop :=
  ∃ (anchor : CellCertificate) (last : Walk) (lineage : List CellCertificate),
    certifiedGet agg (anchorRound cycle) pivot = some anchor ∧
    (∀ extra, walkLoop crypto agg (walkFuel agg + extra)
      (walkStart (anchor.cellId crypto) (anchorRound cycle)) = some last) ∧
    last.queue = [] ∧
    committedCells = lineage.map (CellCertificate.cellId crypto) ∧
    (∀ cert, cert ∈ lineage ↔ (∃ key : CellKey, agg.certified[key]? = some cert) ∧
      ReflTransGen (CertifiedParent crypto agg) anchor cert) ∧
    lineage.Pairwise (fun earlier later =>
      Prod.Lex (· < ·) (· < ·) earlier.cell.key later.cell.key) ∧
    committedCells.Nodup

theorem committed_lists_lineage (crypto : Crypto) (config : AggregatorConfig)
    (calls : List Call) (cycle : Nat) (pivot groupId : String) (cy : Cycle)
    (free : CollisionFree crypto (run (call crypto) (new config) calls))
    (committed : tryCommit crypto (run (call crypto) (new config) calls) cycle pivot groupId =
      some (.committed cy)) :
    ListsLineage crypto (run (call crypto) (new config) calls) cycle pivot
      cy.committedCells := by
  have valid := run_call_valid crypto config calls
  generalize run (call crypto) (new config) calls = agg at *
  obtain ⟨anchor, last, below, located, _, looped, done, listed, visited⟩ :=
    committed_walk agg valid committed
  -- Every collected entry is a certified cell under its own key.
  let certOf := fun entry : CellKey × CellId => (agg.certified[entry.1]?).getD anchor
  have entryCert : ∀ entry ∈ last.visited.toList,
      agg.certified[entry.1]? = some (certOf entry) ∧
      (certOf entry).cellId crypto = entry.2 ∧ (certOf entry).cell.key = entry.1 ∧
      ReflTransGen (CertifiedParent crypto agg) anchor (certOf entry) := by
    intro entry member
    obtain ⟨path, cert, resolved⟩ :=
      (visited entry.1 entry.2).mp (ExtTreeMap.mem_toList_iff_getElem?_eq_some.mp member)
    have found := resolve_stored valid resolved
    have same : certOf entry = cert := by simp only [certOf, found.1, Option.getD_some]
    rw [same]
    exact ⟨found.1, found.2, (valid.certified _ cert found.1).1,
      reached_certified valid below free located path _ cert resolved⟩
  refine ⟨anchor, last, last.visited.toList.map certOf, located, looped, done, ?_, ?_, ?_, ?_⟩
  · rw [listed, List.map_map]
    exact List.map_congr_left fun entry member => (entryCert entry member).2.1.symm
  · intro cert
    rw [List.mem_map]
    constructor
    · rintro ⟨entry, member, same⟩
      subst cert
      exact ⟨⟨entry.1, (entryCert entry member).1⟩, (entryCert entry member).2.2.2⟩
    · rintro ⟨⟨key, stored⟩, path⟩
      have reached := (certified_reached valid below free located path).2
      have resolved := resolve_certified valid below free stored
      refine ⟨(key, cert.cellId crypto), ?_, ?_⟩
      · apply ExtTreeMap.mem_toList_iff_getElem?_eq_some.mpr
        exact (visited key _).mpr ⟨reached, cert, resolved⟩
      · simp only [certOf, stored, Option.getD_some]
  · rw [List.pairwise_map]
    apply visited_sorted.imp_of_mem
    intro earlier later first second lt
    rw [(entryCert earlier first).2.2.1, (entryCert later second).2.2.1]
    exact lt
  · exact committedCells_nodup valid committed

def braidedCells : List LatticeCell :=
  let left := sampleCell 0 "alice" [] 1
  let right := sampleCell 0 "carol" [] 2
  let join := sampleCell 1 "bob"
    [right.cellId sampleCrypto, sampleKey 77, left.cellId sampleCrypto] 3
  let anchor := sampleCell 2 "alice" [join.cellId sampleCrypto, right.cellId sampleCrypto] 4
  let follower := sampleCell 3 "bob" [anchor.cellId sampleCrypto] 5
  [left, right, join, anchor, follower]

theorem braided_cells :
    ((tryCommit sampleCrypto
      (run (call sampleCrypto) (new soloConfig) (soloCertify braidedCells)) 1 "alice"
      "group_1_0_1").bind CommitDecision.cycle?).map Cycle.committedCells =
        some ((braidedCells.take 4).map (LatticeCell.cellId sampleCrypto)) := by
  decide +kernel

theorem braided_lists_lineage :
    ∃ cy, tryCommit sampleCrypto
        (run (call sampleCrypto) (new soloConfig) (soloCertify braidedCells)) 1 "alice"
        "group_1_0_1" = some (.committed cy) ∧
      cy.committedCells = (braidedCells.take 4).map (LatticeCell.cellId sampleCrypto) ∧
      ListsLineage sampleCrypto
        (run (call sampleCrypto) (new soloConfig) (soloCertify braidedCells)) 1 "alice"
        cy.committedCells := by
  have free : CollisionFree sampleCrypto
      (run (call sampleCrypto) (new soloConfig) (soloCertify braidedCells)) := by
    unfold CollisionFree
    decide +kernel
  obtain ⟨cy, committed, listed⟩ := committedCells_eq_some.mp braided_cells
  exact ⟨cy, committed, listed,
    committed_lists_lineage sampleCrypto soloConfig _ 1 "alice" "group_1_0_1" cy free committed⟩

end Exactness

def Topological (crypto : Crypto) (agg : LatticeAggregator) (cells : List CellId) : Prop :=
  ∀ child ∈ cells, ∀ parent ∈ parentsOf crypto agg child, parent ∈ cells →
    cells.idxOf parent < cells.idxOf child

/-- Every edge between certified cells of the causal history of `start` leads
to a smaller `(round, author)`. -/
def LineageDescends (crypto : Crypto) (agg : LatticeAggregator) (start : CellId) : Prop :=
  ∀ (child parent : CellId) (key parentKey : CellKey) (cert parentCert : CellCertificate),
    ReflTransGen (Worklist.Edge (parentsOf crypto agg)) start child →
    resolve crypto agg child = some (key, cert) → parent ∈ cert.cell.parents →
    resolve crypto agg parent = some (parentKey, parentCert) →
    Prod.Lex (· < ·) (· < ·) parentKey key

theorem committed_topological_iff (crypto : Crypto) (config : AggregatorConfig)
    (calls : List Call) (cycle : Nat) (pivot groupId : String) (cy : Cycle)
    (committed : tryCommit crypto (run (call crypto) (new config) calls) cycle pivot groupId =
      some (.committed cy)) :
    Topological crypto (run (call crypto) (new config) calls) cy.committedCells ↔
      LineageDescends crypto (run (call crypto) (new config) calls) cy.pivotCell := by
  have valid := run_call_valid crypto config calls
  generalize run (call crypto) (new config) calls = agg at *
  have listed := mem_committedCells valid committed
  have position := committed_position_lt valid committed
  constructor
  · intro topological child parent key parentKey cert parentCert reached resolved inParents
      parentResolved
    have edge : parent ∈ parentsOf crypto agg child := by
      simp only [parentsOf, resolved]
      exact inParents
    have childMem := (listed child).mpr ⟨reached, by simp [resolved]⟩
    have parentMem := (listed parent).mpr ⟨reached.tail edge, by simp [parentResolved]⟩
    exact (position parent child parentKey key parentCert cert parentMem childMem
      parentResolved resolved).mp (topological child childMem parent edge parentMem)
  · intro descends child childMem parent edge parentMem
    obtain ⟨reached, childFound⟩ := (listed child).mp childMem
    obtain ⟨⟨key, cert⟩, resolved⟩ := Option.isSome_iff_exists.mp childFound
    obtain ⟨⟨parentKey, parentCert⟩, parentResolved⟩ :=
      Option.isSome_iff_exists.mp ((listed parent).mp parentMem).2
    apply (position parent child parentKey key parentCert cert parentMem childMem
      parentResolved resolved).mpr
    apply descends child parent key parentKey cert parentCert reached resolved _ parentResolved
    simpa only [parentsOf, resolved] using edge

theorem braided_topological_iff :
    ∃ cy, tryCommit sampleCrypto
        (run (call sampleCrypto) (new soloConfig) (soloCertify braidedCells)) 1 "alice"
        "group_1_0_1" = some (.committed cy) ∧
      (Topological sampleCrypto (run (call sampleCrypto) (new soloConfig) (soloCertify braidedCells))
          cy.committedCells ↔ LineageDescends sampleCrypto
          (run (call sampleCrypto) (new soloConfig) (soloCertify braidedCells))
          cy.pivotCell) := by
  obtain ⟨cy, committed, _⟩ := committedCells_eq_some.mp braided_cells
  exact ⟨cy, committed, committed_topological_iff sampleCrypto soloConfig _ 1 "alice"
    "group_1_0_1" cy committed⟩

def invertedCells : List LatticeCell :=
  let parent := sampleCell 5 "bob" [] 1
  let anchor := sampleCell 0 "alice" [parent.cellId sampleCrypto] 2
  let follower := sampleCell 1 "bob" [anchor.cellId sampleCrypto] 3
  [anchor, parent, follower]

theorem later_parent_listed_after_child :
    ∃ cy, tryCommit sampleCrypto
        (run (call sampleCrypto) (new soloConfig) (soloCertify invertedCells)) 0 "alice"
        "group_1_0_1" = some (.committed cy) ∧
      cy.committedCells = (invertedCells.take 2).map (LatticeCell.cellId sampleCrypto) ∧
      ¬ Topological sampleCrypto
        (run (call sampleCrypto) (new soloConfig) (soloCertify invertedCells))
        cy.committedCells := by
  have cells : ((tryCommit sampleCrypto
      (run (call sampleCrypto) (new soloConfig) (soloCertify invertedCells)) 0 "alice"
      "group_1_0_1").bind CommitDecision.cycle?).map Cycle.committedCells =
        some ((invertedCells.take 2).map (LatticeCell.cellId sampleCrypto)) := by
    decide +kernel
  obtain ⟨cy, committed, listed⟩ := committedCells_eq_some.mp cells
  refine ⟨cy, committed, listed, ?_⟩
  rw [listed]
  intro topological
  have order := topological ((sampleCell 0 "alice"
    [(sampleCell 5 "bob" [] 1).cellId sampleCrypto] 2).cellId sampleCrypto)
    (by decide +kernel) ((sampleCell 5 "bob" [] 1).cellId sampleCrypto)
    (by decide +kernel) (by decide +kernel)
  exact absurd order (by decide +kernel)

end Savitri.CausalHistory
