import Savitri.PivotSchedule

/-!
How many cycles each ranked peer leads. A schedule of one slot is filled by the peer that
brings the cumulative share to the whole, so the last ranked peer takes the slot and the
shuffle has nothing to move.
-/
namespace Savitri.PivotSchedule
open LatticeTypes

def weights (ranked : List (String × Nat)) : Nat := (ranked.map fun entry => max entry.2 1).sum

theorem weights_cons {entry : String × Nat} {rest : List (String × Nat)} :
    weights (entry :: rest) = max entry.2 1 + weights rest := by
  simp [weights]

variable {ranked : List (String × Nat)} {crypto : Crypto} {cycleIndex : Nat} {groupId : String}

theorem weights_pos (nonempty : ranked ≠ []) : 0 < weights ranked := by
  cases ranked with
  | nil => exact absurd rfl nonempty
  | cons entry rest =>
    rw [weights_cons]
    omega

theorem fillSlots_one (ranked : List (String × Nat)) (acc : Nat) (nonempty : ranked ≠ []) :
    fillSlots 1 (acc + weights ranked) ranked acc [] = [(ranked.getLast nonempty).1] := by
  induction ranked generalizing acc with
  | nil => exact absurd rfl nonempty
  | cons entry rest ih =>
    have positive : 0 < acc + weights (entry :: rest) :=
      Nat.add_pos_right acc (weights_pos nonempty)
    rcases List.eq_nil_or_concat rest with empty | ⟨_, _, more⟩
    · -- the last peer: the cumulative share is the whole
      subst empty
      have whole : acc + max entry.2 1 = acc + weights [entry] := by simp [weights]
      simp [fillSlots, whole, Nat.div_self positive]
    · -- an earlier peer: the share rounds down to no slot
      have later : rest ≠ [] := by simp [more]
      have short : acc + max entry.2 1 < acc + weights (entry :: rest) := by
        have := weights_pos later
        rw [weights_cons]
        omega
      have step := ih (acc + max entry.2 1) later
      rw [Nat.add_assoc, ← weights_cons] at step
      simp [fillSlots, Nat.div_eq_of_lt short, step, List.getLast_cons later]

theorem buildWeightedPivotSchedule_eq {nonempty : ranked ≠ []} :
    buildWeightedPivotSchedule crypto ranked cycleIndex groupId =
      [(ranked.getLast nonempty).1] := by
  have total : max (weights ranked) 1 = 0 + weights ranked := by
    have := weights_pos nonempty
    omega
  have filled := fillSlots_one ranked 0 nonempty
  rw [← total] at filled
  unfold weights at filled
  simp only [buildWeightedPivotSchedule, pivotTenureSlots, filled]
  simp [shuffleFrom]

theorem pivotForCycle_eq_last :
    pivotForCycle crypto groupId cycleIndex ranked = ranked.getLast?.map Prod.fst := by
  by_cases empty : ranked = []
  · simp [pivotForCycle, empty]
  · rw [List.getLast?_eq_some_getLast empty]
    simp [pivotForCycle, empty, buildWeightedPivotSchedule_eq, pivotTenureSlots, Nat.mod_one]

section
variable (crypto : Crypto) (groupId : String) (ranked : List (String × Nat))

def windowCycles (first windows : Nat) : List Nat :=
  List.range' (first * pivotTenureSlots) (windows * pivotTenureSlots)

def turns (cycles : List Nat) (peer : String) : Nat :=
  cycles.countP fun cycleIndex => pivotForCycle crypto groupId cycleIndex ranked = some peer

def HigherScoresLead (cycles : List Nat) : Prop :=
  ∀ high ∈ ranked, ∀ low ∈ ranked, low.2 < high.2 →
    turns crypto groupId ranked cycles low.1 ≤ turns crypto groupId ranked cycles high.1

variable {cycles : List Nat} {nonempty : ranked ≠ []}

theorem turns_last :
    turns crypto groupId ranked cycles (ranked.getLast nonempty).1 = cycles.length := by
  apply List.countP_eq_length.mpr
  intro cycleIndex _
  simp [pivotForCycle_eq_last, List.getLast?_eq_some_getLast nonempty]

theorem turns_other {peer : String} (other : peer ≠ (ranked.getLast nonempty).1) :
    turns crypto groupId ranked cycles peer = 0 := by
  apply List.countP_eq_zero.mpr
  intro cycleIndex _
  simpa [pivotForCycle_eq_last, List.getLast?_eq_some_getLast nonempty] using Ne.symm other

/-- Over whole tenure windows the higher scores lead at least as often exactly where there
is no window or no two scores differ: every cycle goes to the last ranked peer. -/
theorem higherScoresLead_iff (first windows : Nat) (distinct : (ranked.map Prod.fst).Nodup)
    (sorted : ranked.Pairwise fun before after => after.2 ≤ before.2) :
    HigherScoresLead crypto groupId ranked (windowCycles first windows) ↔
      windows = 0 ∨ ∀ left ∈ ranked, ∀ right ∈ ranked, left.2 = right.2 := by
  constructor
  · intro lead
    by_contra neither
    push Not at neither
    obtain ⟨some_window, left, leftMem, right, rightMem, differ⟩ := neither
    have nonempty : ranked ≠ [] := List.ne_nil_of_mem leftMem
    have lastMem := List.getLast_mem nonempty
    have least : ∀ entry ∈ ranked, (ranked.getLast nonempty).2 ≤ entry.2 := by
      intro entry entryMem
      exact sorted.rel_getLast entryMem
    obtain ⟨high, highMem, above⟩ :
        ∃ high ∈ ranked, (ranked.getLast nonempty).2 < high.2 := by
      have := least left leftMem
      have := least right rightMem
      rcases Nat.lt_or_gt_of_ne differ with below | below
      · exact ⟨right, rightMem, by omega⟩
      · exact ⟨left, leftMem, by omega⟩
    have other : high.1 ≠ (ranked.getLast nonempty).1 := by
      intro same
      have := List.inj_on_of_nodup_map distinct highMem lastMem same
      rw [this] at above
      exact lt_irrefl _ above
    have bound := lead high highMem _ lastMem above
    rw [turns_last, turns_other crypto groupId ranked other] at bound
    simp [windowCycles, pivotTenureSlots, some_window] at bound
  · rintro (none_led | level) high highMem low lowMem below
    · simp [windowCycles, none_led, turns]
    · have := level low lowMem high highMem
      omega

end

def sampleRanking : List (String × Nat) := [("peer-a", 900), ("peer-b", 100)]

theorem lowest_score_leads :
    turns sampleCrypto "group" sampleRanking (windowCycles 0 3) "peer-a" = 0 ∧
      turns sampleCrypto "group" sampleRanking (windowCycles 0 3) "peer-b" = 3 := by
  decide +kernel

theorem sampleRanking_not_led :
    ¬ HigherScoresLead sampleCrypto "group" sampleRanking (windowCycles 0 3) := by
  rw [higherScoresLead_iff _ _ _ 0 3 (by decide) (by decide)]
  decide

end Savitri.PivotSchedule
