import Savitri.PairOrder
import Savitri.Reordering
import Savitri.TableFold

/-!
The latency table of savitri-consensus/src/types/latency_table.rs: reports in the
window are grouped, and each peer a group mentions gets the lower median of one bucket
for each reporter. A reporter with several reports in the window counts with the last
one, so the order of the reports matters where the choice among them moves a median.
Fields that only the signature of a report covers are left out. Sums of rounds wrap as
`u64` does in a release build; `rebuildChecked` is the table in either build.
-/
namespace Savitri.LatencyCanon
open Std PairOrder Reordering TableFold
variable {chosen : ExtTreeMap String UInt8} {target : String}

structure PeerLatencyObservation where
  peerId : String
  rttMsBucket : UInt8
  samples : UInt8
  deriving DecidableEq

structure LatencyReport where
  round : UInt64
  groupId : String
  reporter : String
  observations : List PeerLatencyObservation
  deriving DecidableEq

structure LatencyTable where
  entries : ExtTreeMap (String × String) (Option UInt8) pairCompare := ∅
  lastUpdateRound : UInt64 := 0

def minSamples : UInt8 := 3
def minReporters : Nat := 2

variable (target)

def eligible (report : LatencyReport) (obs : PeerLatencyObservation) : Bool :=
  obs.peerId == target && !decide (obs.samples < minSamples) && report.reporter != target

/-- The writes of the two loops of `compute_canonical_bucket`, in their order. -/
def bucketWrites (reports : List LatencyReport) : List (String × UInt8) :=
  reports.flatMap fun report =>
    (report.observations.filter (eligible target report)).map fun obs =>
      (report.reporter, obs.rttMsBucket)

def byReporter (reports : List LatencyReport) : ExtTreeMap String UInt8 :=
  lastWrites (bucketWrites target reports)

def lowerMedian (buckets : List UInt8) : Option UInt8 :=
  let sorted := buckets.insertionSort fun first second => first ≤ second
  sorted[(sorted.length - 1) / 2]?

def canonicalBucket (buckets : ExtTreeMap String UInt8) : Option UInt8 :=
  if buckets.size < minReporters then none else lowerMedian (buckets.toList.map Prod.snd)

def computeCanonicalBucket (groupReports : List LatencyReport) (target : String) : Option UInt8 :=
  canonicalBucket (byReporter target groupReports)

def outsideWindow (windowEnd windowSize round : UInt64) : Bool :=
  let age := if round ≤ windowEnd then windowEnd - round else 0
  decide (round + windowSize < windowEnd + 1) && decide (round ≠ windowEnd) &&
    decide (age > windowSize)

def inWindow (windowEnd windowSize : UInt64) (reports : List LatencyReport) : List LatencyReport :=
  reports.filter fun report => !outsideWindow windowEnd windowSize report.round

variable (reports : List LatencyReport)

def mentioned : List String :=
  reports.flatMap fun report => report.observations.map PeerLatencyObservation.peerId

def targetPeers : List String := (ExtTreeSet.ofList (mentioned reports) compare).toList

variable {target}

/-- The groups come out of a hash table, so in any order. -/
def rebuildFromReports (order : Shuffle (String × List LatencyReport))
    (reports : List LatencyReport) (windowEnd windowSize : UInt64) : LatencyTable :=
  let byGroup : ExtTreeMap String (List LatencyReport) :=
    collect LatencyReport.groupId (inWindow windowEnd windowSize reports)
  { entries := lastWrites ((order.order byGroup.toList).flatMap fun group =>
      (targetPeers group.2).map fun target =>
        ((group.1, target), computeCanonicalBucket group.2 target))
    lastUpdateRound := windowEnd }

/-- Both sums of the window test are made for every report, and one that does not fit panics
where overflow checks are on. -/
def rebuildChecked (overflowChecks : Bool) (order : Shuffle (String × List LatencyReport))
    (reports : List LatencyReport) (windowEnd windowSize : UInt64) : Option LatencyTable :=
  let overflows := reports.any fun report =>
    2 ^ 64 ≤ report.round.toNat + windowSize.toNat || 2 ^ 64 ≤ windowEnd.toNat + 1
  if overflowChecks && overflows then none
  else some (rebuildFromReports order reports windowEnd windowSize)

section
variable (windowEnd windowSize : UInt64)

def groupReports (reports : List LatencyReport) (group : String) : List LatencyReport :=
  (inWindow windowEnd windowSize reports).filter fun report => decide (report.groupId = group)

variable (order : Shuffle (String × List LatencyReport)) (reports : List LatencyReport)

theorem mem_targetPeers : target ∈ targetPeers reports ↔ target ∈ mentioned reports := by
  simp [targetPeers]

theorem mem_grouped {name : String} {listed : List LatencyReport} :
    (name, listed) ∈ order.order
        (collect LatencyReport.groupId (inWindow windowEnd windowSize reports) :
          ExtTreeMap String (List LatencyReport)).toList ↔
      listed = groupReports windowEnd windowSize reports name ∧ listed ≠ [] := by
  rw [(order.perm _).mem_iff, ExtTreeMap.mem_toList_iff_getElem?_eq_some, getElem?_collect]
  unfold groupReports
  split
  next empty => simp [empty]
  next nonempty =>
    rw [Option.some.injEq]
    constructor
    · rintro rfl
      exact ⟨rfl, nonempty⟩
    · exact fun both => both.1.symm

theorem mem_rebuildWrites (group target : String) (bucket : Option UInt8) :
    ((group, target), bucket) ∈ (order.order
        (collect LatencyReport.groupId (inWindow windowEnd windowSize reports) :
          ExtTreeMap String (List LatencyReport)).toList).flatMap (fun entry =>
            (targetPeers entry.2).map fun peer =>
              ((entry.1, peer), computeCanonicalBucket entry.2 peer)) ↔
      target ∈ mentioned (groupReports windowEnd windowSize reports group) ∧
        bucket = computeCanonicalBucket (groupReports windowEnd windowSize reports group)
          target := by
  rw [List.mem_flatMap]
  constructor
  · rintro ⟨⟨name, listed⟩, member, written⟩
    rcases List.mem_map.mp written with ⟨peer, isTarget, same⟩
    simp only [Prod.mk.injEq] at same
    rcases same with ⟨⟨rfl, rfl⟩, rfl⟩
    rw [((mem_grouped windowEnd windowSize order reports).mp member).1] at isTarget ⊢
    exact ⟨(mem_targetPeers _).mp isTarget, rfl⟩
  · rintro ⟨isMentioned, rfl⟩
    refine ⟨(group, groupReports windowEnd windowSize reports group),
      (mem_grouped windowEnd windowSize order reports).mpr ⟨rfl, ?_⟩,
      List.mem_map.mpr ⟨target, (mem_targetPeers _).mpr isMentioned, rfl⟩⟩
    intro empty
    rw [empty] at isMentioned
    cases isMentioned

theorem getElem?_rebuild (group target : String) :
    (rebuildFromReports order reports windowEnd windowSize).entries[(group, target)]? =
      if target ∈ mentioned (groupReports windowEnd windowSize reports group) then
        some (computeCanonicalBucket (groupReports windowEnd windowSize reports group) target)
      else none := by
  have writes := mem_rebuildWrites windowEnd windowSize order reports group target
  split
  next isMentioned =>
    apply getElem?_lastWrites_of_single
    · exact (writes _).mpr ⟨isMentioned, rfl⟩
    · exact fun other written => ((writes other).mp written).2
  next notMentioned =>
    apply getElem?_lastWrites_of_absent
    exact fun value written => notMentioned ((writes value).mp written).1

theorem rebuild_order {other : Shuffle (String × List LatencyReport)}
    {reports : List LatencyReport} :
    rebuildFromReports order reports windowEnd windowSize =
      rebuildFromReports other reports windowEnd windowSize := by
  have entries : (rebuildFromReports order reports windowEnd windowSize).entries =
      (rebuildFromReports other reports windowEnd windowSize).entries := by
    apply ExtTreeMap.ext_getElem?
    rintro ⟨group, target⟩
    rw [getElem?_rebuild, getElem?_rebuild]
  simp only [rebuildFromReports] at entries ⊢
  rw [entries]

theorem inWindow_of_round (current : ∀ report ∈ reports, report.round = windowEnd) :
    inWindow windowEnd windowSize reports = reports := by
  rw [inWindow, List.filter_eq_self]
  intro report member
  simp [outsideWindow, current report member]

end

section Selections
def lastBucket (target : String) (report : LatencyReport) : Option UInt8 :=
  ((report.observations.filter (eligible target report)).getLast?).map
    PeerLatencyObservation.rttMsBucket

def saidBy (target reporter : String) (reports : List LatencyReport) : List UInt8 :=
  reports.filterMap fun report =>
    if report.reporter = reporter then lastBucket target report else none

variable (target : String) {reports : List LatencyReport} (reporter : String)

theorem getElem?_byReporter (reports : List LatencyReport) :
    (byReporter target reports)[reporter]? = (saidBy target reporter reports).getLast? := by
  rw [byReporter, getElem?_lastWrites]
  induction reports using List.reverseRecOn with
  | nil => rfl
  | append_singleton reports report ih =>
    have last : saidBy target reporter (reports ++ [report]) =
        saidBy target reporter reports ++
          (if report.reporter = reporter then lastBucket target report else none).toList := by
      simp only [saidBy, List.filterMap_append, List.filterMap_cons, List.filterMap_nil]
      split <;> simp [*]
    have writes : bucketWrites target (reports ++ [report]) = bucketWrites target reports ++
        (report.observations.filter (eligible target report)).map fun obs =>
          (report.reporter, obs.rttMsBucket) := by
      simp [bucketWrites]
    rw [last, writes, List.filter_append, List.getLast?_append, List.getLast?_append,
      Option.map_or, ih, lastBucket]
    congr 1
    generalize report.observations.filter (eligible target report) = seen
    by_cases own : report.reporter = reporter
    · cases found : seen.getLast? <;> simp [own, found, List.filter_map, Function.comp_def]
    · simp [own, List.filter_map, Function.comp_def]

structure Selects (reports : List LatencyReport) (target : String)
    (chosen : ExtTreeMap String UInt8) : Prop where
  said : ∀ reporter bucket, chosen[reporter]? = some bucket →
    ∃ report ∈ reports, report.reporter = reporter ∧ lastBucket target report = some bucket
  silent : ∀ reporter, chosen[reporter]? = none →
    ∀ report ∈ reports, report.reporter = reporter → lastBucket target report = none

theorem mem_saidBy {bucket : UInt8} :
    bucket ∈ saidBy target reporter reports ↔
      ∃ report ∈ reports, report.reporter = reporter ∧ lastBucket target report = some bucket := by
  rw [saidBy, List.mem_filterMap]
  constructor
  · rintro ⟨report, member, said⟩
    split at said
    next own => exact ⟨report, member, own, said⟩
    next => cases said
  · rintro ⟨report, member, own, said⟩
    exact ⟨report, member, by rw [if_pos own, said]⟩

theorem byReporter_selects {target : String} : Selects reports target (byReporter target reports) := by
  constructor
  · intro reporter bucket found
    rw [getElem?_byReporter] at found
    exact (mem_saidBy target reporter).mp (List.mem_of_getLast? found)
  · intro reporter absent report member own
    rw [getElem?_byReporter, List.getLast?_eq_none_iff] at absent
    cases said : lastBucket target report with
    | none => rfl
    | some bucket =>
      have listed := (mem_saidBy target reporter).mpr ⟨report, member, own, said⟩
      rw [absent] at listed
      cases listed

theorem Selects.of_mem_iff {others : List LatencyReport} {target : String}
    (selects : Selects reports target chosen)
    (same : ∀ report, report ∈ reports ↔ report ∈ others) : Selects others target chosen := by
  constructor
  · intro reporter bucket found
    rcases selects.said reporter bucket found with ⟨report, member, rest⟩
    exact ⟨report, (same report).mp member, rest⟩
  · intro reporter absent report member
    exact selects.silent reporter absent report ((same report).mpr member)

/-- The reports that the choice does not follow, then those it does. -/
def chosenLast (target : String) (chosen : ExtTreeMap String UInt8)
    (reports : List LatencyReport) : List LatencyReport :=
  let follows := fun report : LatencyReport =>
    decide (lastBucket target report = chosen[report.reporter]?)
  reports.filter (fun report => !follows report) ++ reports.filter follows

theorem chosenLast_perm (chosen : ExtTreeMap String UInt8) (reports : List LatencyReport) :
    (chosenLast target chosen reports).Perm reports := by
  exact List.perm_append_comm.trans (List.filter_append_perm _ reports)

theorem byReporter_chosenLast {target : String} (selects : Selects reports target chosen) :
    byReporter target (chosenLast target chosen reports) = chosen := by
  apply ExtTreeMap.ext_getElem?
  intro reporter
  rw [getElem?_byReporter]
  cases found : chosen[reporter]? with
  | none =>
    rw [List.getLast?_eq_none_iff, List.eq_nil_iff_forall_not_mem]
    intro bucket listed
    rcases (mem_saidBy _ _).mp listed with ⟨report, member, own, said⟩
    have inReports := (chosenLast_perm target chosen reports).mem_iff.mp member
    rw [selects.silent reporter found report inReports own] at said
    cases said
  | some bucket =>
    -- what the followed reports say comes last, and all of it is the chosen bucket
    have split : saidBy target reporter (chosenLast target chosen reports) =
        saidBy target reporter (reports.filter fun report =>
          !decide (lastBucket target report = chosen[report.reporter]?)) ++
        saidBy target reporter (reports.filter fun report =>
          decide (lastBucket target report = chosen[report.reporter]?)) :=
      List.filterMap_append
    have followed : ∀ other ∈ saidBy target reporter (reports.filter fun report =>
        decide (lastBucket target report = chosen[report.reporter]?)), other = bucket := by
      intro other listed
      rcases (mem_saidBy _ _).mp listed with ⟨report, member, own, said⟩
      have follows := of_decide_eq_true (List.mem_filter.mp member).2
      rw [said, own, found, Option.some.injEq] at follows
      exact follows
    have nonempty : bucket ∈ saidBy target reporter (reports.filter fun report =>
        decide (lastBucket target report = chosen[report.reporter]?)) := by
      rcases selects.said reporter bucket found with ⟨report, member, own, said⟩
      refine (mem_saidBy _ _).mpr ⟨report, List.mem_filter.mpr ⟨member, ?_⟩, own, said⟩
      rw [said, own, found]
      simp
    rw [split, List.getLast?_append]
    cases last : (saidBy target reporter (reports.filter fun report =>
        decide (lastBucket target report = chosen[report.reporter]?))).getLast? with
    | none =>
      rw [List.getLast?_eq_none_iff.mp last] at nonempty
      cases nonempty
    | some other =>
      rw [Option.some_or, followed other (List.mem_of_getLast? last)]

end Selections

section Permutations
variable (windowEnd windowSize : UInt64)

def ChoiceFree (reports : List LatencyReport) : Prop :=
  ∀ group target one two,
    Selects (groupReports windowEnd windowSize reports group) target one →
      Selects (groupReports windowEnd windowSize reports group) target two →
        canonicalBucket one = canonicalBucket two

variable {reports others : List LatencyReport}

theorem mem_groupReports_of_perm (perm : reports.Perm others) (group : String)
    (report : LatencyReport) :
    report ∈ groupReports windowEnd windowSize reports group ↔
      report ∈ groupReports windowEnd windowSize others group := by
  simp only [groupReports, inWindow, List.mem_filter, perm.mem_iff]

theorem mem_mentioned_of_mem_iff (same : ∀ report, report ∈ reports ↔ report ∈ others) :
    target ∈ mentioned reports ↔ target ∈ mentioned others := by
  simp only [mentioned, List.mem_flatMap, same]

theorem groupReports_chosenLast {group : String} :
    groupReports windowEnd windowSize (chosenLast target chosen reports) group =
      chosenLast target chosen (groupReports windowEnd windowSize reports group) := by
  simp only [groupReports, inWindow, chosenLast, List.filter_append, List.filter_filter]
  congr 1
  all_goals
    apply List.filter_congr
    intro report _
    ac_rfl

theorem selects_unmentioned (selects : Selects reports target chosen)
    (absent : target ∉ mentioned reports) : chosen = ∅ := by
  apply ExtTreeMap.ext_getElem?
  intro reporter
  cases found : chosen[reporter]? with
  | none => simp
  | some bucket =>
    rcases selects.said reporter bucket found with ⟨report, member, _, said⟩
    rcases Option.map_eq_some_iff.mp said with ⟨obs, last, _⟩
    have seen := List.mem_filter.mp (List.mem_of_getLast? last)
    have isTarget : obs.peerId = target := by
      have all := seen.2
      simp only [eligible, Bool.and_eq_true, beq_iff_eq] at all
      exact all.1.1
    exact absurd (List.mem_flatMap.mpr ⟨report, member,
      List.mem_map.mpr ⟨obs, seen.1, isTarget⟩⟩) absent

/-- Every order of the reports gives the same table exactly if the choice among a
reporter's reports never moves a median. -/
theorem rebuild_permuted_iff (order : Shuffle (String × List LatencyReport))
    (reports : List LatencyReport) :
    (∀ other permuted, permuted.Perm reports → rebuildFromReports other permuted windowEnd windowSize =
        rebuildFromReports order reports windowEnd windowSize) ↔
      ChoiceFree windowEnd windowSize reports := by
  constructor
  · intro same group target one two first second
    have tableOf : ∀ chosen,
        Selects (groupReports windowEnd windowSize reports group) target chosen →
          target ∈ mentioned (groupReports windowEnd windowSize reports group) →
            (rebuildFromReports order reports windowEnd windowSize).entries[(group, target)]? =
              some (canonicalBucket chosen) := by
      intro chosen selects isMentioned
      have perm := chosenLast_perm target chosen reports
      rw [← same order _ perm, getElem?_rebuild, if_pos, groupReports_chosenLast,
        computeCanonicalBucket, byReporter_chosenLast selects]
      exact (mem_mentioned_of_mem_iff
        (mem_groupReports_of_perm windowEnd windowSize perm group)).mpr isMentioned
    by_cases isMentioned : target ∈ mentioned (groupReports windowEnd windowSize reports group)
    · have both := (tableOf one first isMentioned).symm.trans (tableOf two second isMentioned)
      exact Option.some.inj both
    · rw [selects_unmentioned first isMentioned, selects_unmentioned second isMentioned]
  · intro free other permuted perm
    have entries : (rebuildFromReports other permuted windowEnd windowSize).entries =
        (rebuildFromReports order reports windowEnd windowSize).entries := by
      apply ExtTreeMap.ext_getElem?
      rintro ⟨group, target⟩
      have members := mem_groupReports_of_perm windowEnd windowSize perm group
      rw [getElem?_rebuild, getElem?_rebuild]
      simp only [mem_mentioned_of_mem_iff members]
      split
      · exact congrArg some (free group target _ _
          (byReporter_selects.of_mem_iff members) byReporter_selects)
      · rfl
    simp only [rebuildFromReports] at entries ⊢
    rw [entries]

/-- Reports of one reporter that say the same of every peer leave no choice. -/
theorem choiceFree_of_agreeing
    (agree : ∀ group target, ∀ one ∈ groupReports windowEnd windowSize reports group,
      ∀ two ∈ groupReports windowEnd windowSize reports group, one.reporter = two.reporter →
        lastBucket target one = lastBucket target two) :
    ChoiceFree windowEnd windowSize reports := by
  intro group target one two first second
  have same : one = two := by
    apply ExtTreeMap.ext_getElem?
    intro reporter
    cases found : one[reporter]? with
    | none =>
      cases also : two[reporter]? with
      | none => rfl
      | some bucket =>
        rcases second.said reporter bucket also with ⟨report, member, own, said⟩
        rw [first.silent reporter found report member own] at said
        cases said
    | some bucket =>
      rcases first.said reporter bucket found with ⟨report, member, own, said⟩
      cases also : two[reporter]? with
      | none =>
        rw [second.silent reporter also report member own] at said
        cases said
      | some other =>
        rcases second.said reporter other also with ⟨again, inAgain, ownAgain, saidAgain⟩
        rw [← said, ← saidAgain]
        exact agree group target report member again inAgain (own.trans ownAgain.symm)
  rw [same]

end Permutations

theorem exists_mem_of_length_lt {p : UInt8 → Bool} (part rest : List UInt8)
    (more : rest.length < part.countP p + rest.countP p) : ∃ bucket ∈ part, p bucket = true := by
  have bounded := rest.countP_le_length (p := p)
  exact List.countP_pos_iff.mp (by omega)

theorem lowerMedian_between (lo hi : UInt8) {buckets : List UInt8}
    (majority : buckets.length < 2 * buckets.countP fun bucket => lo ≤ bucket ∧ bucket ≤ hi) :
    ∃ bucket, lowerMedian buckets = some bucket ∧ lo ≤ bucket ∧ bucket ≤ hi := by
  have reordered := List.perm_insertionSort (fun first second : UInt8 => first ≤ second) buckets
  have ordered := List.pairwise_insertionSort (fun first second : UInt8 => first ≤ second) buckets
  rw [← reordered.countP_eq, ← reordered.length_eq] at majority
  unfold lowerMedian
  dsimp only
  generalize buckets.insertionSort (fun first second => first ≤ second) = sorted at majority ordered
  generalize within : (fun bucket : UInt8 => decide (lo ≤ bucket ∧ bucket ≤ hi)) = p at majority
  have bounded := sorted.countP_le_length (p := p)
  have halves (index : Nat) :
      (sorted.take index).countP p + (sorted.drop index).countP p = sorted.countP p := by
    rw [← List.countP_append, List.take_append_drop]
  have inside : (sorted.length - 1) / 2 < sorted.length := by omega
  refine ⟨sorted[(sorted.length - 1) / 2], List.getElem?_eq_getElem inside, ?_, ?_⟩
  -- The part up to the median has a bucket of the majority, and so has the part from it on.
  · obtain ⟨bucket, member, holds⟩ := exists_mem_of_length_lt
      (sorted.take ((sorted.length - 1) / 2 + 1)) (sorted.drop _) (p := p)
      (by rw [halves, List.length_drop]; omega)
    obtain ⟨index, early, rfl⟩ := List.mem_take_iff_getElem.mp member
    subst within
    have least := ordered.rel_get_of_le (a := ⟨index, by omega⟩) (b := ⟨_, inside⟩) (by
      simp only [Fin.mk_le_mk]
      omega)
    exact UInt8.le_trans (of_decide_eq_true holds).1 least
  · obtain ⟨bucket, member, holds⟩ := exists_mem_of_length_lt
      (sorted.drop ((sorted.length - 1) / 2)) (sorted.take _) (p := p)
      (by rw [Nat.add_comm, halves, List.length_take]; omega)
    obtain ⟨index, late, rfl⟩ := List.mem_drop_iff_getElem.mp member
    subst within
    have most := ordered.rel_get_of_le (a := ⟨_, inside⟩)
      (b := ⟨(sorted.length - 1) / 2 + index, by omega⟩) (by simp)
    exact UInt8.le_trans most (of_decide_eq_true holds).2

/-- The reporters other than the target with an observation of it that has enough samples. -/
def observers (target : String) (reports : List LatencyReport) : Finset String :=
  ((bucketWrites target reports).map Prod.fst).toFinset

theorem mem_byReporter {reports : List LatencyReport} {reporter : String} :
    reporter ∈ byReporter target reports ↔ reporter ∈ observers target reports := by
  rw [observers, List.mem_toFinset, List.mem_map, ExtTreeMap.mem_iff_isSome_getElem?, byReporter,
    getElem?_lastWrites, Option.isSome_map, Option.isSome_iff_ne_none, ne_eq, List.getLast?_eq_none_iff]
  simp [List.filter_eq_nil_iff]

theorem written_of_byReporter {reports : List LatencyReport} {reporter : String} {bucket : UInt8}
    (found : (byReporter target reports)[reporter]? = some bucket) :
    (reporter, bucket) ∈ bucketWrites target reports := by
  rw [byReporter, getElem?_lastWrites] at found
  obtain ⟨entry, last, rfl⟩ := Option.map_eq_some_iff.mp found
  obtain ⟨written, same⟩ := List.mem_filter.mp (List.mem_of_getLast? last)
  rw [← of_decide_eq_true same]
  exact written

/-- The reports of the group from the window as it is documented: its end and the rounds of
its size before it. -/
def documentedReports (windowEnd windowSize : UInt64) (reports : List LatencyReport)
    (group : String) : List LatencyReport :=
  reports.filter fun report =>
    decide (report.groupId = group ∧ report.round ≤ windowEnd ∧ windowEnd - report.round ≤ windowSize)

/-- No report of the group that counts for the target is later than the window, and the round
after the window exists. -/
def Timely (windowEnd : UInt64) (reports : List LatencyReport) (group target : String) : Prop :=
  windowEnd.toNat + 1 < 2 ^ 64 ∧ ∀ report ∈ reports, report.groupId = group →
    bucketWrites target [report] ≠ [] → report.round ≤ windowEnd

theorem bucketWrites_filter {kept : LatencyReport → Bool} {other : LatencyReport → Bool}
    {reports : List LatencyReport}
    (same : ∀ report ∈ reports, bucketWrites target [report] ≠ [] → kept report = other report) :
    bucketWrites target (reports.filter kept) = bucketWrites target (reports.filter other) := by
  induction reports with
  | nil => rfl
  | cons report rest ih =>
    have later := ih fun next member => same next (List.mem_cons_of_mem _ member)
    have apart : ∀ reports, bucketWrites target (report :: reports) =
        bucketWrites target [report] ++ bucketWrites target reports := by
      intro reports
      simp [bucketWrites]
    rw [List.filter_cons, List.filter_cons]
    by_cases silent : bucketWrites target [report] = []
    · have dropped : ∀ reports, bucketWrites target (report :: reports) =
          bucketWrites target reports := by
        intro reports
        rw [apart, silent, List.nil_append]
      split_ifs <;> simp only [dropped, later]
    · rw [same report List.mem_cons_self silent]
      split_ifs
      · rw [apart, later, ← apart]
      · exact later

theorem bucketWrites_documented {windowEnd windowSize : UInt64} {reports : List LatencyReport}
    {group : String} (timely : Timely windowEnd reports group target) :
    bucketWrites target (groupReports windowEnd windowSize reports group) =
      bucketWrites target (documentedReports windowEnd windowSize reports group) := by
  rw [groupReports, inWindow, List.filter_filter, documentedReports]
  apply bucketWrites_filter
  intro report member counts
  -- no report counted is later than the window, so its age is a plain difference
  by_cases inGroup : report.groupId = group
  · have early := timely.2 report member inGroup counts
    have last := timely.1
    have whole : (windowEnd - report.round).toNat = windowEnd.toNat - report.round.toNat :=
      UInt64.toNat_sub_of_le _ _ early
    simp only [UInt64.le_iff_toNat_le] at early
    rw [Bool.eq_iff_iff]
    simp [inGroup, outsideWindow, UInt64.le_iff_toNat_le, early, UInt64.lt_iff_toNat_lt, whole,
      ← UInt64.toNat_inj]
    omega
  · simp [inGroup]

theorem bucket_between_honest (order : Shuffle (String × List LatencyReport))
    (reports : List LatencyReport) (windowEnd windowSize : UInt64) (group target : String)
    (honest : String → Prop) [DecidablePred honest] (lo hi : UInt8)
    (timely : Timely windowEnd reports group target)
    (enough : minReporters ≤
      (observers target (documentedReports windowEnd windowSize reports group)).card)
    (majority : (observers target (documentedReports windowEnd windowSize reports group)).card <
      2 * ((observers target (documentedReports windowEnd windowSize reports group)).filter
        honest).card)
    (between : ∀ reporter bucket, honest reporter → (reporter, bucket) ∈
      bucketWrites target (documentedReports windowEnd windowSize reports group) →
        lo ≤ bucket ∧ bucket ≤ hi) :
    ∃ bucket, (rebuildFromReports order reports windowEnd windowSize).entries[(group, target)]? =
      some (some bucket) ∧ lo ≤ bucket ∧ bucket ≤ hi := by
  have writes := @bucketWrites_documented target windowEnd windowSize reports group timely
  have observed : observers target (documentedReports windowEnd windowSize reports group) =
      observers target (groupReports windowEnd windowSize reports group) := by
    rw [observers, ← writes, observers]
  rw [observed] at enough majority
  rw [← writes] at between
  rw [getElem?_rebuild]
  generalize groupReports windowEnd windowSize reports group = seen at enough majority between ⊢
  have same : ∀ reporter, reporter ∈ byReporter target seen ↔ reporter ∈ observers target seen :=
    fun _ => mem_byReporter
  have size : (byReporter target seen).size = (observers target seen).card := by
    have all := countP_toList same fun _ => True
    simpa using all
  have counted : ((observers target seen).filter honest).card ≤
      ((byReporter target seen).toList.map Prod.snd).countP fun bucket =>
        lo ≤ bucket ∧ bucket ≤ hi := by
    rw [← countP_toList same honest, List.countP_map]
    apply List.countP_mono_left
    intro entry member isHonest
    have found := ExtTreeMap.mem_toList_iff_getElem?_eq_some.mp member
    exact decide_eq_true
      (between entry.1 entry.2 (of_decide_eq_true isHonest) (written_of_byReporter found))
  have isMentioned : target ∈ mentioned seen := by
    obtain ⟨reporter, observes⟩ := Finset.card_pos.mp (Nat.zero_lt_of_lt enough)
    simp only [observers, bucketWrites, List.mem_toFinset, List.mem_map, List.mem_flatMap,
      List.mem_filter] at observes
    obtain ⟨_, ⟨report, member, obs, ⟨listed, accepted⟩, _⟩, _⟩ := observes
    simp only [eligible, Bool.and_eq_true, beq_iff_eq] at accepted
    exact List.mem_flatMap.mpr ⟨report, member, List.mem_map.mpr ⟨obs, listed, accepted.1.1⟩⟩
  rw [if_pos isMentioned, computeCanonicalBucket, canonicalBucket, if_neg (by omega)]
  have most : ((byReporter target seen).toList.map Prod.snd).length <
      2 * ((byReporter target seen).toList.map Prod.snd).countP fun bucket =>
        lo ≤ bucket ∧ bucket ≤ hi := by
    rw [List.length_map, ExtTreeMap.length_toList, size]
    exact majority.trans_le (Nat.mul_le_mul_left 2 counted)
  obtain ⟨bucket, median, within⟩ := lowerMedian_between lo hi most
  exact ⟨bucket, by rw [median], within⟩

def sampleReport (reporter : String) (bucket : UInt8) : LatencyReport :=
  { round := 9, groupId := "group_1_0_1", reporter,
    observations := [{ peerId := "c", rttMsBucket := bucket, samples := 5 }] }

/-- Two reports of `a` in one window: the one that is listed last counts. -/
theorem order_moves_median :
    (rebuildFromReports .plain
        [sampleReport "a" 10, sampleReport "a" 50, sampleReport "b" 30] 9 3).entries[
          ("group_1_0_1", "c")]? = some (some 30) ∧
      (rebuildFromReports .plain
        [sampleReport "a" 50, sampleReport "a" 10, sampleReport "b" 30] 9 3).entries[
          ("group_1_0_1", "c")]? = some (some 10) := by
  refine ⟨?_, ?_⟩ <;> decide +kernel

/-- Where the honest observers of a peer are a strict majority and all their observations
lie between two buckets, so does the peer's canonical bucket, whatever the others report, if
no report is later than the window. -/
theorem canonical_between_honest (overflowChecks : Bool)
    (order : Shuffle (String × List LatencyReport))
    (reports : List LatencyReport) (windowEnd windowSize : UInt64) (group target : String)
    (honest : String → Prop) [DecidablePred honest] (lo hi : UInt8)
    (inRange : overflowChecks = true → ∀ report ∈ reports,
      report.round.toNat + windowSize.toNat < 2 ^ 64)
    (timely : Timely windowEnd reports group target)
    (enough : minReporters ≤
      (observers target (documentedReports windowEnd windowSize reports group)).card)
    (majority : (observers target (documentedReports windowEnd windowSize reports group)).card <
      2 * ((observers target (documentedReports windowEnd windowSize reports group)).filter
        honest).card)
    (between : ∀ reporter bucket, honest reporter → (reporter, bucket) ∈
      bucketWrites target (documentedReports windowEnd windowSize reports group) →
        lo ≤ bucket ∧ bucket ≤ hi) :
    ∃ table bucket, rebuildChecked overflowChecks order reports windowEnd windowSize = some table ∧
      table.entries[(group, target)]? = some (some bucket) ∧ lo ≤ bucket ∧ bucket ≤ hi := by
  obtain ⟨bucket, found, within⟩ := bucket_between_honest order reports windowEnd windowSize group
    target honest lo hi timely enough majority between
  refine ⟨_, bucket, ?_, found, within⟩
  rw [rebuildChecked, if_neg]
  rw [Bool.and_eq_true, List.any_eq_true]
  rintro ⟨checked, report, member, overflows⟩
  have fits := inRange checked report member
  have last := timely.1
  simp only [Bool.or_eq_true, decide_eq_true_eq] at overflows
  omega

/-- One of three reporters answers with the largest bucket. -/
theorem median_resists_one :
    ∃ table bucket, rebuildChecked true .plain
        [sampleReport "a" 10, sampleReport "x" 255, sampleReport "b" 30] 9 3 = some table ∧
      table.entries[("group_1_0_1", "c")]? = some (some bucket) ∧ 10 ≤ bucket ∧ bucket ≤ 30 := by
  apply canonical_between_honest true .plain _ 9 3 "group_1_0_1" "c" (· ≠ "x") 10 30
  · decide +kernel
  · refine ⟨by decide, ?_⟩
    decide +kernel
  · decide +kernel
  · decide +kernel
  · have written : bucketWrites "c" (documentedReports 9 3
        [sampleReport "a" 10, sampleReport "x" 255, sampleReport "b" 30] "group_1_0_1") =
          [("a", 10), ("x", 255), ("b", 30)] := by decide +kernel
    intro reporter bucket isHonest member
    rw [written] at member
    simp only [List.mem_cons, List.not_mem_nil, or_false, Prod.mk.injEq] at member
    obtain ⟨rfl, rfl⟩ | ⟨rfl, rfl⟩ | ⟨rfl, rfl⟩ := member
    · decide
    · exact absurd rfl isHonest
    · decide

def lateReports : List LatencyReport :=
  [sampleReport "a" 10, sampleReport "b" 30] ++
    ["x", "y", "z"].map fun reporter => { sampleReport reporter 255 with round := 1000 }

/-- Only the two honest reports are of the window, and three later ones outvote them. -/
theorem later_reports_count :
    bucketWrites "c" (documentedReports 9 3 lateReports "group_1_0_1") = [("a", 10), ("b", 30)] ∧
      (rebuildChecked true .plain lateReports 9 3).map
        (fun table => table.entries[("group_1_0_1", "c")]?) = some (some (some 255)) := by
  refine ⟨?_, ?_⟩ <;> decide +kernel

end Savitri.LatencyCanon
