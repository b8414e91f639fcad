import Savitri.ByteWords
import Savitri.CellAggregator
import Savitri.Worklist

/-!
The commit rule of lattice/commit.rs. `none` stands for a panic: the range end
`round + 1` overflows at the last `u64` round, in checked and in wrapping
arithmetic alike (the wrapped range is backwards, which the tree map refuses).
The walk is a breadth-first search by cell id; an id is resolved by scanning the
rounds from the high-water mark down, and the hits are kept in the order of
`(round, author)`, the commit order.
-/
namespace Savitri.LineageCommit
open Std LatticeTypes PairOrder CellAggregator MachineInt

inductive CommitDecision where
  | committed (cycle : Cycle)
  | anchorNotCertified
  | belowFollowerQuorum (followerCount quorum : Nat)
  deriving DecidableEq

def CommitDecision.cycle? : CommitDecision → Option Cycle
  | .committed cycle => some cycle
  | .anchorNotCertified | .belowFollowerQuorum _ _ => none

theorem CommitDecision.cycle?_eq_some (decision : CommitDecision) (cycle : Cycle) :
    decision.cycle? = some cycle ↔ decision = .committed cycle := by
  cases decision <;> simp [CommitDecision.cycle?]

variable (agg : LatticeAggregator) (round : Nat)

def certifiedGet (author : String) : Option CellCertificate :=
  agg.certified[((round, author) : CellKey)]?

def certifiedAtRound : Option (List CellCertificate) :=
  if round < u64Max then
    let low : CellKey := (round, "")
    let high : CellKey := (round + 1, "")
    some ((agg.certified.toList.filter fun entry =>
      (pairCompare low entry.1).isLE && (pairCompare entry.1 high).isLT).map Prod.snd)
  else none

def findAmong (crypto : Crypto) (agg : LatticeAggregator) (id : CellId) :
    List Nat → Option (Option (Nat × String × CellCertificate))
  | [] => some none
  | round :: rest =>
    match certifiedAtRound agg round with
    | none => none
    | some certs =>
      match certs.find? fun cert => cert.cellId crypto == id with
      | some cert => some (some (round, cert.cell.author, cert))
      | none => findAmong crypto agg id rest

variable (crypto : Crypto)

def findById (agg : LatticeAggregator) (id : CellId) :
    Option (Option (Nat × String × CellCertificate)) :=
  findAmong crypto agg id (List.range (agg.highWaterRound + 1)).reverse

structure Walk where
  visited : ExtTreeMap CellKey CellId pairCompare
  queue : List (CellId × Nat)
  seen : ExtTreeSet CellId

def enqueueParent (walk : Walk) (parent : CellId) : Walk :=
  if walk.seen.contains parent then walk else
    { walk with
      seen := walk.seen.insert parent
      queue := walk.queue ++ [(parent, round - 1)] }

def walkStep (agg : LatticeAggregator) (walk : Walk) : Option Walk :=
  match walk.queue with
  | [] => some walk
  -- The round hint travels with the id, but the lookup scans every round.
  | (cellId, _) :: rest =>
    match findById crypto agg cellId with
    | none => none
    -- Not certified: the id is dropped and contributes no parents.
    | some none => some { walk with queue := rest }
    | some (some (round, author, cert)) =>
      some (cert.cell.parents.foldl (enqueueParent round)
        { walk with
          queue := rest
          visited := walk.visited.insert (round, author) cellId })

def walkLoop (crypto : Crypto) (agg : LatticeAggregator) : Nat → Walk → Option Walk
  | 0, walk => some walk
  | fuel + 1, walk => (walkStep crypto agg walk).bind (walkLoop crypto agg fuel)

def walkStart (start : CellId) (startRound : Nat) : Walk :=
  { visited := ∅, queue := [(start, startRound)], seen := (∅ : ExtTreeSet CellId).insert start }

/-- The start and every parent slot of the certified table: no search meets more ids. -/
def walkFuel : Nat := 1 + (agg.certified.toList.flatMap fun entry => entry.2.cell.parents).length

def walkCausalHistory (agg : LatticeAggregator) (start : CellId) (startRound : Nat) :
    Option (List CellId) :=
  (walkLoop crypto agg (walkFuel agg) (walkStart start startRound)).map fun walk =>
    walk.visited.toList.map Prod.snd

def anchorRound (cycle : Nat) : Nat := saturatingMul u64Max cycle 2

def followRound (cycle : Nat) : Nat := saturatingAdd u64Max (anchorRound cycle) 1

def tryCommit (agg : LatticeAggregator) (cycle : Nat) (pivot groupId : String) :
    Option CommitDecision :=
  match certifiedGet agg (anchorRound cycle) pivot with
  | none => some .anchorNotCertified
  | some anchor => do
    let anchorId := anchor.cellId crypto
    let followers ← certifiedAtRound agg (followRound cycle)
    let followerCount := followers.countP fun cert => cert.cell.parents.contains anchorId
    if followerCount < quorum agg then
      return .belowFollowerQuorum followerCount (quorum agg)
    let committedCells ← walkCausalHistory crypto agg anchorId (anchorRound cycle)
    return .committed { index := cycle, groupId, pivot, pivotCell := anchorId, committedCells }

section Lookup
theorem not_lt_empty {text : String} : ¬ text < "" := by
  rw [String.lt_iff_toList_lt]
  exact List.not_lt_nil _

variable (crypto : Crypto) (agg : LatticeAggregator) (id : CellId) {rounds : List Nat} (round : Nat)
variable {key : CellKey} {cert : CellCertificate}

theorem inRound_iff :
    ((pairCompare ((round, "") : CellKey) key).isLE &&
      (pairCompare key ((round + 1, "") : CellKey)).isLT) = true ↔ key.1 = round := by
  have low : (pairCompare ((round, "") : CellKey) key).isLE = true ↔
      ¬ pairCompare key ((round, "") : CellKey) = .lt := by
    rw [@OrientedCmp.eq_swap _ pairCompare _ key (round, "")]
    cases pairCompare ((round, "") : CellKey) key <;> simp
  have high : (pairCompare key ((round + 1, "") : CellKey)).isLT = true ↔
      pairCompare key ((round + 1, "") : CellKey) = .lt := by
    cases pairCompare key ((round + 1, "") : CellKey) <;> simp
  rw [Bool.and_eq_true, low, high, pairCompare_key_lt, pairCompare_key_lt, Prod.lex_def, Prod.lex_def]
  simp only [not_lt_empty, and_false, or_false]
  omega

theorem mem_certifiedAtRound {certs : List CellCertificate}
    (listed : certifiedAtRound agg round = some certs) :
    cert ∈ certs ↔ ∃ author : String, agg.certified[((round, author) : CellKey)]? = some cert := by
  unfold certifiedAtRound at listed
  split at listed
  · cases listed
    simp only [List.mem_map, List.mem_filter, inRound_iff]
    constructor
    · rintro ⟨⟨⟨entryRound, author⟩, other⟩, ⟨stored, sameRound⟩, sameCert⟩
      simp only at sameRound sameCert
      subst entryRound
      subst other
      exact ⟨author, ExtTreeMap.mem_toList_iff_getElem?_eq_some.mp stored⟩
    · rintro ⟨author, stored⟩
      exact ⟨((round, author), cert), ⟨ExtTreeMap.mem_toList_iff_getElem?_eq_some.mpr stored, rfl⟩, rfl⟩
  · cases listed

theorem certifiedAtRound_isSome : (certifiedAtRound agg round).isSome = true ↔ round < u64Max := by
  unfold certifiedAtRound
  split <;> simp_all

theorem findAmong_isSome (bounded : ∀ round ∈ rounds, round < u64Max) :
    (findAmong crypto agg id rounds).isSome = true := by
  induction rounds with
  | nil => rfl
  | cons round rest ih =>
    have here := (certifiedAtRound_isSome agg round).mpr (bounded round (by simp))
    obtain ⟨certs, listed⟩ := Option.isSome_iff_exists.mp here
    simp only [findAmong, listed]
    split
    · rfl
    · exact ih fun later member => bounded later (List.mem_cons_of_mem round member)

theorem findAmong_hit {author : String}
    (hit : findAmong crypto agg id rounds = some (some (round, author, cert))) :
    cert.cellId crypto = id ∧ cert.cell.author = author ∧
      ∃ stored : String, agg.certified[((round, stored) : CellKey)]? = some cert := by
  induction rounds with
  | nil => simp [findAmong] at hit
  | cons first rest ih =>
    cases listed : certifiedAtRound agg first with
    | none => simp [findAmong, listed] at hit
    | some certs =>
      cases found : certs.find? fun cert => cert.cellId crypto == id with
      | none =>
        simp only [findAmong, listed, found] at hit
        exact ih hit
      | some other =>
        simp only [findAmong, listed, found, Option.some.injEq, Prod.mk.injEq] at hit
        obtain ⟨sameRound, sameAuthor, sameCert⟩ := hit
        subst first
        subst other
        have idMatches : cert.cellId crypto = id := by
          simpa using List.find?_some found
        exact ⟨idMatches, sameAuthor,
          (mem_certifiedAtRound agg round listed).mp (List.mem_of_find?_eq_some found)⟩

theorem findAmong_miss (miss : findAmong crypto agg id rounds = some none)
    (inside : key.1 ∈ rounds) (stored : agg.certified[key]? = some cert) : cert.cellId crypto ≠ id := by
  induction rounds with
  | nil => cases inside
  | cons first rest ih =>
    cases listed : certifiedAtRound agg first with
    | none => simp [findAmong, listed] at miss
    | some certs =>
      cases found : certs.find? fun cert => cert.cellId crypto == id with
      | some other => simp [findAmong, listed, found] at miss
      | none =>
        simp only [findAmong, listed, found] at miss
        rcases List.mem_cons.mp inside with here | later
        · have member : cert ∈ certs := by
            apply (mem_certifiedAtRound agg first listed).mpr
            exact ⟨key.2, by rw [← here]; exact stored⟩
          simpa using List.find?_eq_none.mp found cert member
        · exact ih miss later

/-- The table entry that the walk takes an id for, once no panic stops it. -/
def resolve (crypto : Crypto) (agg : LatticeAggregator) (id : CellId) :
    Option (CellKey × CellCertificate) :=
  (findById crypto agg id).join.map fun hit => ((hit.1, hit.2.1), hit.2.2)

theorem findById_panics (last : u64Max ≤ agg.highWaterRound) : findById crypto agg id = none := by
  have stopped : certifiedAtRound agg agg.highWaterRound = none := by
    have absent := (certifiedAtRound_isSome agg agg.highWaterRound).not.mpr (by omega)
    simpa using absent
  rw [findById, List.range_succ, List.reverse_append, List.reverse_singleton, List.singleton_append]
  simp [findAmong, stopped]

variable (below : agg.highWaterRound < u64Max)
include below

theorem findById_isSome : (findById crypto agg id).isSome = true := by
  apply findAmong_isSome
  intro round member
  simp only [List.mem_reverse, List.mem_range] at member
  omega

theorem walkStep_isSome {walk : Walk} : (walkStep crypto agg walk).isSome = true := by
  unfold walkStep
  split
  · rfl
  · rename_i id hint rest _
    obtain ⟨result, found⟩ := Option.isSome_iff_exists.mp (findById_isSome crypto agg id below)
    rw [found]
    cases result <;> rfl

theorem walkLoop_isSome (fuel : Nat) (walk : Walk) : (walkLoop crypto agg fuel walk).isSome = true := by
  induction fuel generalizing walk with
  | zero => rfl
  | succ fuel ih =>
    obtain ⟨next, stepped⟩ := Option.isSome_iff_exists.mp (walkStep_isSome crypto agg below)
    rw [walkLoop, stepped]
    exact ih next

omit below

variable {agg} {crypto}

theorem resolve_stored (valid : Valid crypto agg) {id : CellId}
    (resolved : resolve crypto agg id = some (key, cert)) :
    agg.certified[key]? = some cert ∧ cert.cellId crypto = id := by
  unfold resolve at resolved
  cases found : findById crypto agg id with
  | none => simp [found] at resolved
  | some result =>
    cases result with
    | none => simp [found] at resolved
    | some hit =>
      obtain ⟨round, author, other⟩ := hit
      simp only [found, Option.join_some, Option.map_some, Option.some.injEq, Prod.mk.injEq] at resolved
      obtain ⟨sameKey, sameCert⟩ := resolved
      subst other
      obtain ⟨idMatches, sameAuthor, stored, present⟩ := findAmong_hit crypto agg id round found
      have keyed := (valid.certified _ cert present).1
      have storedAuthor : stored = author := by
        rw [← sameAuthor]
        exact (congrArg Prod.snd keyed).symm
      rw [← sameKey, ← storedAuthor]
      exact ⟨present, idMatches⟩

theorem resolve_isSome (valid : Valid crypto agg) (below : agg.highWaterRound < u64Max)
    (stored : agg.certified[key]? = some cert) :
    (resolve crypto agg (cert.cellId crypto)).isSome = true := by
  have answered := findById_isSome crypto agg (cert.cellId crypto) below
  obtain ⟨result, found⟩ := Option.isSome_iff_exists.mp answered
  cases result with
  | none =>
    have inside : key.1 ∈ (List.range (agg.highWaterRound + 1)).reverse := by
      have bound := (valid.certified key cert stored).2
      simp only [List.mem_reverse, List.mem_range]
      omega
    exact absurd rfl (findAmong_miss crypto agg _ found inside stored)
  | some hit => simp [resolve, found]

end Lookup

end Savitri.LineageCommit
