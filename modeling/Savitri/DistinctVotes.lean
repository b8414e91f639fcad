import Mathlib

/-!
A count of the entries of a list against a count of the distinct names in it. A
quorum of entries is a quorum of names as long as no name is listed twice; with a
name listed twice, some set of names one short of the quorum fills it.
-/
namespace Savitri.DistinctVotes
universe u
variable {Voter : Type u} [DecidableEq Voter] {voters : List Voter} {quorum : Nat}

theorem quorum_le_names {counted : Voter → Bool} (enough : quorum ≤ voters.countP counted)
    (listedOnce : voters.Nodup ∨ quorum ≤ 1) : quorum ≤ (voters.filter counted).toFinset.card := by
  rw [List.countP_eq_length_filter] at enough
  rcases listedOnce with distinct | single
  · rw [List.toFinset_card_of_nodup (distinct.filter _)]
    exact enough
  · by_cases none : voters.filter counted = []
    · rw [none] at enough ⊢
      exact enough
    · have some : 0 < (voters.filter counted).toFinset.card := by
        rw [Finset.card_pos, List.toFinset_nonempty_iff]
        exact none
      omega

theorem exists_short_quorum (repeated : ¬ voters.Nodup) (listed : quorum ≤ voters.length)
    (several : 2 ≤ quorum) :
    ∃ names : Finset Voter, quorum ≤ voters.countP (· ∈ names) ∧
      (voters.filter (· ∈ names)).toFinset.card < quorum := by
  by_cases few : voters.toFinset.card < quorum
  · have all : voters.filter (· ∈ voters.toFinset) = voters := List.filter_eq_self.mpr (by simp)
    refine ⟨voters.toFinset, ?_, ?_⟩
    · rw [List.countP_eq_length_filter, all]
      exact listed
    · rw [all]
      exact few
  · -- take the repeated name and as many others as leave the quorum one short
    obtain ⟨name, twice⟩ := List.exists_duplicate_iff_not_nodup.mpr repeated
    have single : {name} ⊆ voters.toFinset := by simpa using twice.mem
    obtain ⟨names, holdsName, among, size⟩ := Finset.exists_subsuperset_card_eq single
      (n := quorum - 1) (by rw [Finset.card_singleton]; omega) (by omega)
    have named : (voters.filter (· ∈ names)).toFinset = names := by
      ext other
      simp only [List.mem_toFinset, List.mem_filter, decide_eq_true_eq]
      exact ⟨And.right, fun member => ⟨List.mem_toFinset.mp (among member), member⟩⟩
    have repeats : ¬ (voters.filter (· ∈ names)).Nodup := by
      rw [← List.exists_duplicate_iff_not_nodup]
      refine ⟨name, List.duplicate_iff_two_le_count.mpr ?_⟩
      rw [List.count_filter (by simpa using holdsName)]
      exact List.duplicate_iff_two_le_count.mp twice
    have more : (voters.filter (· ∈ names)).toFinset.card < (voters.filter (· ∈ names)).length :=
      lt_of_le_of_ne (List.toFinset_card_le _) (fun same =>
        repeats (Multiset.toFinset_card_eq_card_iff_nodup.mp same))
    rw [named, size] at more
    refine ⟨names, ?_, ?_⟩
    · rw [List.countP_eq_length_filter]
      omega
    · rw [named, size]
      omega

end Savitri.DistinctVotes
