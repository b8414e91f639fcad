import Savitri.RunningBest
import Savitri.TableFold
import Savitri.Transition

/-!
The scores of one epoch as p2p/pou.rs keeps them: reports by peers about peers, the score
accepted for a subject once enough reporters agree, and the leader that follows from the
accepted scores. A peer is the bytes of its id. Scores are `u16` values capped at 1000, so
no sum or difference below leaves the range.
-/
namespace Savitri.PouState
open RunningBest TableFold Transition
open Std (ExtTreeMap)

abbrev PeerId := List UInt8

def pouScoreMax : Nat := 1000
def minAttestations : Nat := 2
def maxScoreDeltaPerEpoch : Nat := 200
def attestationTolerance : Nat := 50
def maxAttestationsPerPeer : Nat := 1024

structure PouSnapshot where
  epoch : Option Nat := none
  leader : Option PeerId := none
  leaderScore : Option Nat := none
  localScore : Option Nat := none
  sawNonlocalReport : Bool := false
  bestRemoteScore : Option Nat := none
  peerScores : ExtTreeMap PeerId Nat := ∅
  attestations : ExtTreeMap PeerId (ExtTreeMap PeerId Nat) := ∅
  scoreChangeHistory : ExtTreeMap PeerId (List Nat) := ∅

variable (snapshot : PouSnapshot)

def PouSnapshot.resetForEpoch (epoch : Nat) : PouSnapshot :=
  { epoch := some epoch, scoreChangeHistory := snapshot.scoreChangeHistory }

structure Report where
  reporter : PeerId
  subject : PeerId
  epoch : Nat
  score : Nat

/-- The first of the longest runs of sorted scores within the tolerance of their start. -/
def bestCluster : List Nat → List Nat → List Nat
  | [], best => best
  | score :: rest, best =>
    let cluster := (score :: rest).takeWhile fun other => other - score ≤ attestationTolerance
    bestCluster rest (if best.length < cluster.length then cluster else best)

def computeAttestedScoreFromMap (attestations : ExtTreeMap PeerId Nat) : Option Nat :=
  if attestations.size < minAttestations then none
  else
    let cluster := bestCluster (attestations.values.insertionSort (· ≤ ·)) []
    if minAttestations ≤ cluster.length then cluster[cluster.length / 2]? else none

def rateLimitedScore (previous : Option Nat) (accepted : Nat) : Nat :=
  match previous with
  | none => accepted
  | some previous =>
    let delta := if previous < accepted then accepted - previous else previous - accepted
    if maxScoreDeltaPerEpoch < delta then
      if previous < accepted then min (previous + maxScoreDeltaPerEpoch) pouScoreMax
      else previous - maxScoreDeltaPerEpoch
    else accepted

/-- The snapshot the report is about, none where the report is of an earlier epoch. -/
def PouSnapshot.enterEpoch (epoch : Nat) : Option PouSnapshot :=
  match snapshot.epoch with
  | none => some (snapshot.resetForEpoch epoch)
  | some current =>
    if epoch < current then none
    else if current < epoch then some (snapshot.resetForEpoch epoch)
    else some snapshot

/-- Stores the attestation and hands out the score the subject's reporters agree on. A new
reporter of a subject that has the most attestations allowed is ignored. -/
def PouSnapshot.attest (report : Report) : PouSnapshot × Option Nat :=
  let table := snapshot.attestations.getD report.subject ∅
  if maxAttestationsPerPeer ≤ table.size ∧ report.reporter ∉ table then
    ({ snapshot with attestations := snapshot.attestations.insert report.subject table }, none)
  else
    let table := table.insert report.reporter (min report.score pouScoreMax)
    ({ snapshot with attestations := snapshot.attestations.insert report.subject table },
      computeAttestedScoreFromMap table)

variable (subject : PeerId)

def PouSnapshot.lastChange : Option Nat := snapshot.scoreChangeHistory[subject]?.bind List.getLast?

variable (score : Nat)

def PouSnapshot.storeScore : PouSnapshot :=
  let history := snapshot.scoreChangeHistory.getD subject []
  { snapshot with
    peerScores := snapshot.peerScores.insert subject score
    scoreChangeHistory := snapshot.scoreChangeHistory.insert subject (history ++ [score]) }

variable (localPeer : PeerId)

def PouSnapshot.trackSide (subject : PeerId) (score : Nat) : PouSnapshot :=
  if subject = localPeer then { snapshot with localScore := some score }
  else
    { snapshot with
      sawNonlocalReport := true
      bestRemoteScore :=
        match snapshot.bestRemoteScore with
        | none => some score
        | some existing => if score ≤ existing then some existing else some score }

def PouSnapshot.replacesLeader : Bool :=
  match snapshot.leaderScore with
  | none => true
  | some best =>
    if best < score then true
    else if score = best then
      match snapshot.leader with
      | none => true
      | some current => compare subject current == .lt
    else false

def PouSnapshot.trackLeader : PouSnapshot :=
  if snapshot.leader = some subject then { snapshot with leaderScore := some score }
  else if snapshot.replacesLeader subject score then
    { snapshot with leader := some subject, leaderScore := some score }
  else snapshot

def PouSnapshot.accept (subject : PeerId) (score : Nat) : PouSnapshot :=
  ((snapshot.storeScore subject score).trackSide localPeer subject score).trackLeader subject score

def recordAttestedReport (snapshot : PouSnapshot) (report : Report) : PouSnapshot :=
  match snapshot.enterEpoch report.epoch with
  | none => snapshot
  | some entered =>
    match entered.attest report with
    | (attested, none) => attested
    | (attested, some accepted) =>
      attested.accept localPeer report.subject
        (rateLimitedScore (attested.lastChange report.subject) accepted)

def step (snapshot : PouSnapshot) (report : Report) : PouSnapshot × Unit :=
  (recordAttestedReport localPeer snapshot report, ())

section Election
variable (localPeer : PeerId)

structure Elected (snapshot : PouSnapshot) : Prop where
  leader : Tracked snapshot.peerScores snapshot.leader snapshot.leaderScore
  remote : Greatest snapshot.peerScores (· ≠ localPeer) snapshot.bestRemoteScore

/-- The score accepted for a subject leaves the leader ahead of all others, and leaves the
best remote score with some remote peer. -/
structure LeavesBest (snapshot : PouSnapshot) (subject : PeerId) (score : Nat) : Prop where
  leader : snapshot.leader = some subject → ∀ other otherScore, other ≠ subject →
    snapshot.peerScores[other]? = some otherScore → Ahead compare subject score other otherScore
  remote : subject ≠ localPeer → ∀ best, snapshot.bestRemoteScore = some best → score < best →
    ∃ other, other ≠ subject ∧ other ≠ localPeer ∧ snapshot.peerScores[other]? = some best

variable (snapshot : PouSnapshot)

def PouSnapshot.acceptedScore (report : Report) : Option Nat :=
  (snapshot.attest report).2.map (rateLimitedScore (snapshot.lastChange report.subject))

def Harmless (report : Report) : Prop :=
  ∀ entered, snapshot.enterEpoch report.epoch = some entered →
    ∀ score, entered.acceptedScore report = some score →
      LeavesBest localPeer entered report.subject score

section Accept
variable {snapshot} (subject : PeerId) (score : Nat)

theorem trackLeader_kept :
    (snapshot.trackLeader subject score).peerScores = snapshot.peerScores ∧
      (snapshot.trackLeader subject score).bestRemoteScore = snapshot.bestRemoteScore := by
  unfold PouSnapshot.trackLeader
  split
  · exact ⟨rfl, rfl⟩
  · split <;> exact ⟨rfl, rfl⟩

theorem trackSide_kept :
    (snapshot.trackSide localPeer subject score).peerScores = snapshot.peerScores ∧
      (snapshot.trackSide localPeer subject score).leader = snapshot.leader ∧
      (snapshot.trackSide localPeer subject score).leaderScore = snapshot.leaderScore := by
  unfold PouSnapshot.trackSide
  split <;> exact ⟨rfl, rfl, rfl⟩

theorem accept_peerScores :
    (snapshot.accept localPeer subject score).peerScores =
      snapshot.peerScores.insert subject score := by
  rw [PouSnapshot.accept, (trackLeader_kept _ _).1, (trackSide_kept _ _ _).1]
  rfl

theorem accept_bestRemoteScore_local :
    (snapshot.accept subject subject score).bestRemoteScore = snapshot.bestRemoteScore := by
  rw [PouSnapshot.accept, (trackLeader_kept _ _).2, PouSnapshot.trackSide, if_pos rfl]
  rfl

theorem accept_bestRemoteScore_first (remote : subject ≠ localPeer)
    (first : snapshot.bestRemoteScore = none) :
    (snapshot.accept localPeer subject score).bestRemoteScore = some score := by
  rw [PouSnapshot.accept, (trackLeader_kept _ _).2, PouSnapshot.trackSide, if_neg remote]
  simp only [PouSnapshot.storeScore, first]

variable {best : Nat}

theorem accept_bestRemoteScore (remote : subject ≠ localPeer)
    (kept : snapshot.bestRemoteScore = some best) :
    (snapshot.accept localPeer subject score).bestRemoteScore = some (max best score) := by
  rw [PouSnapshot.accept, (trackLeader_kept _ _).2, PouSnapshot.trackSide, if_neg remote]
  simp only [PouSnapshot.storeScore, kept]
  by_cases below : score ≤ best
  · rw [if_pos below, max_eq_left below]
  · rw [if_neg below, max_eq_right (by omega)]

theorem replacesLeader_iff {current : PeerId} (leads : snapshot.leader = some current)
    (leaderScore : snapshot.leaderScore = some best) :
    snapshot.replacesLeader subject score = true ↔ Ahead compare subject score current best := by
  unfold PouSnapshot.replacesLeader Ahead
  rw [leads, leaderScore]
  dsimp only
  split
  · simp [*]
  · split
    · simp_all
    · simp_all [eq_comm]

theorem tracked_accept_leader (leads : snapshot.leader = some subject) :
    Tracked (snapshot.accept localPeer subject score).peerScores
        (snapshot.accept localPeer subject score).leader
        (snapshot.accept localPeer subject score).leaderScore ↔
      ∀ other otherScore, other ≠ subject → snapshot.peerScores[other]? = some otherScore →
        Ahead compare subject score other otherScore := by
  rw [accept_peerScores, ← leads_insert_holder_iff subject score, PouSnapshot.accept,
    PouSnapshot.trackLeader, if_pos]
  · rw [(trackSide_kept _ _ _).2.1]
    simp [PouSnapshot.storeScore, leads, Tracked]
  · rw [(trackSide_kept _ _ _).2.1]
    exact leads

theorem tracked_accept_other
    (tracked : Tracked snapshot.peerScores snapshot.leader snapshot.leaderScore)
    (other : snapshot.leader ≠ some subject) :
    Tracked (snapshot.accept localPeer subject score).peerScores
      (snapshot.accept localPeer subject score).leader
      (snapshot.accept localPeer subject score).leaderScore := by
  rw [accept_peerScores]
  let sided := (snapshot.storeScore subject score).trackSide localPeer subject score
  have sameLeader : sided.leader = snapshot.leader := (trackSide_kept _ _ _).2.1
  have sameScore : sided.leaderScore = snapshot.leaderScore := (trackSide_kept _ _ _).2.2
  change Tracked _ (sided.trackLeader subject score).leader
    (sided.trackLeader subject score).leaderScore
  rw [PouSnapshot.trackLeader, if_neg (by rwa [sameLeader])]
  cases leads : snapshot.leader with
  | none =>
    cases leaderScore : snapshot.leaderScore with
    | some _ => simp [leads, leaderScore, Tracked] at tracked
    | none =>
      rw [leads, leaderScore] at tracked
      have replaced : sided.replacesLeader subject score = true := by
        rw [PouSnapshot.replacesLeader, sameScore, leaderScore]
      rw [if_pos replaced]
      exact leads_insert_first subject score tracked
  | some current =>
    cases leaderScore : snapshot.leaderScore with
    | none => simp [leads, leaderScore, Tracked] at tracked
    | some best =>
      rw [leads, leaderScore] at tracked
      have replaces := replacesLeader_iff subject score (sameLeader.trans leads)
        (sameScore.trans leaderScore)
      by_cases overtakes : Ahead compare subject score current best
      · rw [if_pos (replaces.mpr overtakes)]
        exact Leads.overtaken tracked overtakes
      · have different : subject ≠ current := by
          rintro rfl
          exact other leads
        rw [if_neg (fun replaced => overtakes (replaces.mp replaced)), sameLeader, sameScore,
          leads, leaderScore]
        exact Leads.stays tracked different overtakes

theorem elected_accept_iff (elected : Elected localPeer snapshot) :
    Elected localPeer (snapshot.accept localPeer subject score) ↔
      LeavesBest localPeer snapshot subject score := by
  constructor
  · intro after
    constructor
    · intro leads
      exact (tracked_accept_leader localPeer subject score leads).mp after.leader
    · intro remote best kept
      have greatest := after.remote
      rw [accept_peerScores, accept_bestRemoteScore _ _ _ remote kept] at greatest
      exact (greatest_insert_iff (· ≠ localPeer) subject score remote
        (kept ▸ elected.remote)).mp greatest
  · intro leaves
    constructor
    · by_cases leads : snapshot.leader = some subject
      · exact (tracked_accept_leader localPeer subject score leads).mpr (leaves.leader leads)
      · exact tracked_accept_other localPeer subject score elected.leader leads
    · rw [accept_peerScores]
      by_cases own : subject = localPeer
      · subst own
        rw [accept_bestRemoteScore_local, greatest_insert_other _ _ _ _ (by simp)]
        exact elected.remote
      · cases kept : snapshot.bestRemoteScore with
        | none =>
          rw [accept_bestRemoteScore_first _ _ _ own kept]
          exact greatest_insert_first _ _ _ own (kept ▸ elected.remote)
        | some best =>
          rw [accept_bestRemoteScore _ _ _ own kept]
          exact (greatest_insert_iff (· ≠ localPeer) subject score own
            (kept ▸ elected.remote)).mpr (leaves.remote own best kept)

end Accept

theorem elected_empty {epoch : Option Nat} (history : ExtTreeMap PeerId (List Nat)) :
    Elected localPeer { epoch, scoreChangeHistory := history } := by
  constructor
  · intro peer
    exact ExtTreeMap.getElem?_empty
  · intro peer _
    exact ExtTreeMap.getElem?_empty

variable {snapshot : PouSnapshot} {report : Report}

theorem elected_enterEpoch {entered : PouSnapshot} {epoch : Nat}
    (elected : Elected localPeer snapshot) (enters : snapshot.enterEpoch epoch = some entered) :
    Elected localPeer entered := by
  have reset : Elected localPeer (snapshot.resetForEpoch epoch) :=
    elected_empty localPeer snapshot.scoreChangeHistory
  unfold PouSnapshot.enterEpoch at enters
  split at enters
  · exact Option.some.inj enters ▸ reset
  · split at enters
    · cases enters
    · split at enters
      · exact Option.some.inj enters ▸ reset
      · exact Option.some.inj enters ▸ elected

theorem attest_kept : ∃ attestations, (snapshot.attest report).1 = { snapshot with attestations } := by
  unfold PouSnapshot.attest
  dsimp only
  split <;> exact ⟨_, rfl⟩

theorem elected_record_iff (elected : Elected localPeer snapshot) :
    Elected localPeer (recordAttestedReport localPeer snapshot report) ↔
      Harmless localPeer snapshot report := by
  unfold recordAttestedReport Harmless
  cases enters : snapshot.enterEpoch report.epoch with
  | none => simp [elected]
  | some entered =>
    have before := elected_enterEpoch localPeer elected enters
    obtain ⟨attestations, kept⟩ := attest_kept
    have attested : Elected localPeer (entered.attest report).1 := by
      rw [kept]
      exact ⟨before.leader, before.remote⟩
    have accepted : entered.acceptedScore report =
        (entered.attest report).2.map (rateLimitedScore (entered.lastChange report.subject)) := rfl
    have history : (entered.attest report).1.lastChange = entered.lastChange := by
      rw [kept]
      rfl
    dsimp only
    generalize entered.attest report = outcome at kept attested accepted history ⊢
    obtain ⟨after, score⟩ := outcome
    dsimp only at kept attested accepted history ⊢
    subst kept
    cases score with
    | none => simp [accepted, attested]
    | some score =>
      simp only [accepted, Option.map_some, Option.some.injEq, forall_eq', history]
      rw [elected_accept_iff _ _ _ attested]
      exact ⟨fun leaves => ⟨leaves.leader, leaves.remote⟩, fun leaves => ⟨leaves.leader, leaves.remote⟩⟩

/-- After every report of a run the leader, its score and the best remote score are those
of the accepted scores exactly where every report of the run is harmless. -/
theorem elected_along_iff (reports : List Report) :
    Along (step localPeer)
        (fun before report => Elected localPeer (step localPeer before report).1) {} reports ↔
      Along (step localPeer) (Harmless localPeer) {} reports := by
  apply along_invariant_iff
  · intro snapshot report elected
    exact elected_record_iff localPeer elected
  · exact elected_empty localPeer ∅

end Election

def sampleReport (reporter subject : UInt8) (score : Nat) : Report :=
  { reporter := [reporter], subject := [subject], epoch := 1, score }

/-- Peer 1 is accepted at 900 and peer 2 at 800, then both reporters see peer 1 fall. -/
def sampleFall : List Report :=
  [sampleReport 8 1 900, sampleReport 9 1 900, sampleReport 8 2 800, sampleReport 9 2 800,
    sampleReport 8 1 100, sampleReport 9 1 100]

theorem fallen_leader_stays :
    (run (step [0]) {} sampleFall).leader = some [1] ∧
      (run (step [0]) {} sampleFall).leaderScore = some 700 ∧
      (run (step [0]) {} sampleFall).bestRemoteScore = some 900 ∧
      (run (step [0]) {} sampleFall).peerScores.toList = [([1], 700), ([2], 800)] := by
  decide +kernel

section Resilience
theorem countP_le_length_takeWhile {start : Nat} {scores : List Nat}
    (ordered : scores.Pairwise (· ≤ ·)) :
    scores.countP (fun score => score - start ≤ attestationTolerance) ≤
      (scores.takeWhile fun score => score - start ≤ attestationTolerance).length := by
  induction scores with
  | nil => simp
  | cons score rest ih =>
    obtain ⟨least, ordered⟩ := List.pairwise_cons.mp ordered
    by_cases near : score - start ≤ attestationTolerance
    · rw [List.countP_cons_of_pos (by simpa using near),
        List.takeWhile_cons_of_pos (by simpa using near)]
      exact Nat.succ_le_succ (ih ordered)
    · have none : (score :: rest).countP (fun score => score - start ≤ attestationTolerance) =
          0 := by
        rw [List.countP_eq_zero]
        intro other member
        rcases List.mem_cons.mp member with rfl | later
        · simpa using near
        · have := least other later
          simp only [decide_eq_true_eq]
          omega
      omega

/-- The cluster is one of the windows, unless it is the one it started from, and none of
the windows is longer. -/
theorem bestCluster_spec (scores best : List Nat) :
    best.length ≤ (bestCluster scores best).length ∧
    (∀ score rest, score :: rest <:+ scores →
      ((score :: rest).takeWhile fun other => other - score ≤ attestationTolerance).length ≤
        (bestCluster scores best).length) ∧
    (bestCluster scores best = best ∨ ∃ score rest, score :: rest <:+ scores ∧ bestCluster scores best =
        (score :: rest).takeWhile fun other => other - score ≤ attestationTolerance) := by
  induction scores generalizing best with
  | nil => simp [bestCluster]
  | cons score rest ih =>
    rw [bestCluster]
    generalize window : (score :: rest).takeWhile
      (fun other => decide (other - score ≤ attestationTolerance)) = cluster
    obtain ⟨grows, longest, source⟩ := ih (if best.length < cluster.length then cluster else best)
    have both : best.length ≤ (if best.length < cluster.length then cluster else best).length ∧
        cluster.length ≤ (if best.length < cluster.length then cluster else best).length := by
      split <;> omega
    refine ⟨both.1.trans grows, ?_, ?_⟩
    · intro other others suffix
      rcases List.suffix_cons_iff.mp suffix with same | later
      · cases same
        rw [window]
        exact both.2.trans grows
      · exact longest other others later
    · rcases source with kept | ⟨other, others, suffix, same⟩
      · rw [kept]
        split
        · exact Or.inr ⟨score, rest, List.suffix_rfl, window.symm⟩
        · exact Or.inl rfl
      · exact Or.inr ⟨other, others, suffix.trans (List.suffix_cons _ _), same⟩

variable {attestations : ExtTreeMap PeerId Nat} {honest : Finset PeerId}

theorem countP_values (p : Nat → Prop) [DecidablePred p] :
    (attestations.values.insertionSort (· ≤ ·)).countP p =
      attestations.toList.countP fun entry => p entry.2 := by
  rw [(List.perm_insertionSort _ _).countP_eq, values_eq_map_toList, List.countP_map]
  rfl

variable (reported : ∀ peer ∈ honest, peer ∈ attestations)
include reported

theorem countP_honest : attestations.toList.countP (fun entry => entry.1 ∈ honest) = honest.card := by
  have same : ∀ peer, peer ∈ attestations ↔ peer ∈ attestations.keys.toFinset := by simp
  rw [countP_toList same (· ∈ honest)]
  congr 1
  ext peer
  simpa using reported peer

/-- The window that starts at the smallest honest score holds all of them. -/
theorem exists_long_window (nonempty : honest.Nonempty)
    (agree : ∀ first ∈ honest, ∀ second ∈ honest, ∀ one other, attestations[first]? = some one →
      attestations[second]? = some other → one - other ≤ attestationTolerance) :
    ∃ score rest, score :: rest <:+ attestations.values.insertionSort (· ≤ ·) ∧
      honest.card ≤
        ((score :: rest).takeWhile fun other => other - score ≤ attestationTolerance).length := by
  obtain ⟨first, isHonest, least⟩ :=
    honest.exists_min_image (fun peer => attestations[peer]?.getD 0) nonempty
  obtain ⟨score, found⟩ := Option.isSome_iff_exists.mp
    (ExtTreeMap.mem_iff_isSome_getElem?.mp (reported first isHonest))
  have counted : honest.card ≤ (attestations.values.insertionSort (· ≤ ·)).countP
      fun value => score ≤ value ∧ value - score ≤ attestationTolerance := by
    rw [countP_values, ← countP_honest reported]
    apply List.countP_mono_left
    intro entry member also
    have own := ExtTreeMap.mem_toList_iff_getElem?_eq_some.mp member
    have above := least entry.1 (of_decide_eq_true also)
    have near := agree entry.1 (of_decide_eq_true also) first isHonest entry.2 score own found
    simp only [found, own, Option.getD_some] at above
    exact decide_eq_true ⟨above, near⟩
  have listed : score ∈ attestations.values.insertionSort (· ≤ ·) := by
    rw [(List.perm_insertionSort _ _).mem_iff, values_eq_map_toList]
    exact List.mem_map.mpr
      ⟨(first, score), ExtTreeMap.mem_toList_iff_getElem?_eq_some.mpr found, rfl⟩
  have ordered := List.pairwise_insertionSort (fun one other : Nat => one ≤ other)
    attestations.values
  generalize attestations.values.insertionSort (· ≤ ·) = sorted at counted listed ordered ⊢
  obtain ⟨front, rest, rfl, fresh⟩ := List.eq_append_cons_of_mem listed
  obtain ⟨_, later, between⟩ := List.pairwise_append.mp ordered
  refine ⟨score, rest, List.suffix_append _ _, ?_⟩
  have none : front.countP
      (fun value => decide (score ≤ value ∧ value - score ≤ attestationTolerance)) = 0 := by
    rw [List.countP_eq_zero]
    intro value member within
    have below := between value member score List.mem_cons_self
    have equal := Nat.le_antisymm below (of_decide_eq_true within).1
    exact fresh (equal ▸ member)
  rw [List.countP_append, none, Nat.zero_add] at counted
  apply counted.trans (le_trans (List.countP_mono_left ?_) (countP_le_length_takeWhile later))
  intro value _ within
  exact decide_eq_true (of_decide_eq_true within).2

/-- More scores than the dishonest ones include an honest one. -/
theorem exists_honest_of_length {cluster : List Nat}
    (part : cluster.Sublist (attestations.values.insertionSort (· ≤ ·)))
    (many : attestations.size < cluster.length + honest.card) :
    ∃ peer ∈ honest, ∃ own ∈ cluster, attestations[peer]? = some own := by
  by_contra none
  have inside : cluster.length ≤ attestations.toList.countP fun entry => entry.2 ∈ cluster := by
    rw [← countP_values (· ∈ cluster)]
    have all : cluster.countP (fun score => score ∈ cluster) = cluster.length := by
      rw [List.countP_eq_length]
      simp
    rw [← all]
    exact part.countP_le
  have outside : (attestations.toList.countP fun entry => entry.2 ∈ cluster) ≤
      attestations.toList.countP fun entry => ¬ entry.1 ∈ honest := by
    apply List.countP_mono_left
    intro entry member chosen
    apply decide_eq_true
    intro isHonest
    exact none ⟨entry.1, isHonest, entry.2, of_decide_eq_true chosen,
      ExtTreeMap.mem_toList_iff_getElem?_eq_some.mp member⟩
  have split := List.length_eq_countP_add_countP (fun entry : PeerId × Nat => entry.1 ∈ honest)
    (l := attestations.toList)
  rw [countP_honest reported, ExtTreeMap.length_toList] at split
  simp only [decide_eq_true_eq] at split
  omega

omit reported

/-- Honest reporters in the majority that agree within the tolerance get a score near to
one of theirs, whatever the others attest. -/
theorem attested_near_honest (attestations : ExtTreeMap PeerId Nat) (honest : Finset PeerId)
    (reported : ∀ peer ∈ honest, peer ∈ attestations) (several : 2 ≤ honest.card)
    (majority : attestations.size < 2 * honest.card)
    (agree : ∀ first ∈ honest, ∀ second ∈ honest, ∀ one other, attestations[first]? = some one →
      attestations[second]? = some other → one - other ≤ attestationTolerance) :
    ∃ score, computeAttestedScoreFromMap attestations = some score ∧
      ∃ peer ∈ honest, ∃ own, attestations[peer]? = some own ∧
        own - score ≤ attestationTolerance ∧ score - own ≤ attestationTolerance := by
  obtain ⟨score, rest, suffix, long⟩ :=
    exists_long_window reported (Finset.card_pos.mp (by omega)) agree
  have ordered := List.pairwise_insertionSort (fun one other : Nat => one ≤ other)
    attestations.values
  obtain ⟨_, longest, source⟩ := bestCluster_spec (attestations.values.insertionSort (· ≤ ·)) []
  have size := long.trans (longest score rest suffix)
  rcases source with empty | ⟨start, others, tail, same⟩
  · rw [empty, List.length_nil] at size
    omega
  have part : (bestCluster (attestations.values.insertionSort (· ≤ ·)) []).Sublist
      (attestations.values.insertionSort (· ≤ ·)) := by
    rw [same]
    exact (List.takeWhile_sublist _).trans tail.sublist
  have length : (attestations.values.insertionSort (· ≤ ·)).length = attestations.size := by
    rw [List.length_insertionSort, values_eq_map_toList, List.length_map, ExtTreeMap.length_toList]
  have enough : minAttestations ≤ attestations.size :=
    several.trans (size.trans (length ▸ part.length_le))
  obtain ⟨peer, isHonest, own, inCluster, found⟩ := exists_honest_of_length reported part (by omega)
  rw [computeAttestedScoreFromMap, if_neg (Nat.not_lt.mpr enough)]
  generalize bestCluster (attestations.values.insertionSort (· ≤ ·)) [] = cluster at *
  have inside : cluster.length / 2 < cluster.length := by omega
  -- both scores are at most the tolerance above the start of the window
  have window : ∀ value ∈ cluster, start ≤ value ∧ value - start ≤ attestationTolerance := by
    intro value member
    rw [same] at member
    have inWindow := List.mem_takeWhile_imp member
    refine ⟨?_, of_decide_eq_true inWindow⟩
    have head := (List.pairwise_cons.mp (ordered.sublist tail.sublist)).1
    rcases List.mem_cons.mp ((List.takeWhile_sublist _).subset member) with rfl | later
    · exact Nat.le_refl _
    · exact head value later
  have middle := window _ (List.getElem_mem inside)
  have near := window own inCluster
  refine ⟨cluster[cluster.length / 2], ?_, peer, isHonest, own, found, by omega, by omega⟩
  have wide : minAttestations ≤ cluster.length := several.trans size
  simp only [wide, if_true, List.getElem?_eq_getElem inside]

/-- Two honest reporters against one that attests the largest score. -/
theorem cluster_resists_one :
    ∃ score, computeAttestedScoreFromMap
        (ExtTreeMap.ofList [(([1] : PeerId), 400), ([2], 430), ([3], 1000)]) = some score ∧
      ∃ peer ∈ ({[1], [2]} : Finset PeerId), ∃ own,
        (ExtTreeMap.ofList [(([1] : PeerId), 400), ([2], 430), ([3], 1000)])[peer]? = some own ∧
        own - score ≤ attestationTolerance ∧ score - own ≤ attestationTolerance := by
  apply attested_near_honest
  · decide +kernel
  · decide
  · decide +kernel
  · have near : ∀ first ∈ ({[1], [2]} : Finset PeerId), ∀ second ∈ ({[1], [2]} : Finset PeerId),
        ((ExtTreeMap.ofList [(([1] : PeerId), 400), ([2], 430), ([3], 1000)])[first]?.getD 0) -
        ((ExtTreeMap.ofList [(([1] : PeerId), 400), ([2], 430), ([3], 1000)])[second]?.getD 0) ≤
          attestationTolerance := by decide +kernel
    intro first inFirst second inSecond one other isOne isOther
    simpa only [isOne, isOther, Option.getD_some] using near first inFirst second inSecond

end Resilience

end Savitri.PouState
