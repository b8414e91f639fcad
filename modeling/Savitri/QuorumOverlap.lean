import Mathlib.Data.Finset.Card
import Mathlib.Order.Interval.Finset.Nat

/-!
Overlap of two vote sets drawn from one finite group. The lower bound is
inclusion-exclusion; the matching construction spreads the second set over
everything the first one leaves out, so the bound is attained for every
threshold that the group can meet at all.
-/
namespace Savitri.QuorumOverlap
universe u
variable {Member : Type u} [DecidableEq Member]

/-- Every two subsets that meet `quorum` share at least `shared` members. -/
def Overlaps (group : Finset Member) (quorum shared : Nat) : Prop :=
  ∀ left right : Finset Member, left ⊆ group → right ⊆ group →
    quorum ≤ left.card → quorum ≤ right.card → shared ≤ (left ∩ right).card

variable {group : Finset Member}
variable {left right : Finset Member}

theorem overlap_lower_bound (leftIn : left ⊆ group) (rightIn : right ⊆ group) :
    left.card + right.card ≤ group.card + (left ∩ right).card := by
  have counted := Finset.card_union_add_card_inter left right
  have within := Finset.card_le_card (Finset.union_subset leftIn rightIn)
  omega

theorem exists_common_correct (faulty : Finset Member) (leftIn : left ⊆ group)
    (rightIn : right ⊆ group) (large : group.card + faulty.card < left.card + right.card) :
    ∃ member, member ∈ left ∧ member ∈ right ∧ member ∉ faulty := by
  have counted := overlap_lower_bound leftIn rightIn
  have outside : ¬ left ∩ right ⊆ faulty := by
    intro within
    have bound := Finset.card_le_card within
    omega
  rcases Finset.not_subset.mp outside with ⟨member, common, correct⟩
  exact ⟨member, (Finset.mem_inter.mp common).1, (Finset.mem_inter.mp common).2, correct⟩

/-- The bound is attained. When two quorums cannot cover the group they are
chosen disjoint; otherwise the second quorum contains the complement of the
first one. -/
theorem overlap_attained {quorum : Nat} (fits : quorum ≤ group.card) :
    ∃ left right : Finset Member, left ⊆ group ∧ right ⊆ group ∧
      left.card = quorum ∧ right.card = quorum ∧
      (left ∩ right).card = 2 * quorum - group.card := by
  obtain ⟨left, leftIn, leftCard⟩ := Finset.exists_subset_card_eq fits
  have restCard : (group \ left).card = group.card - quorum := by
    rw [Finset.card_sdiff_of_subset leftIn, leftCard]
  by_cases apart : 2 * quorum ≤ group.card
  · obtain ⟨right, rightIn, rightCard⟩ :=
      Finset.exists_subset_card_eq (s := group \ left) (n := quorum) (by omega)
    refine ⟨left, right, leftIn, rightIn.trans Finset.sdiff_subset, leftCard, rightCard, ?_⟩
    have disjoint : left ∩ right = ∅ := by
      rw [← Finset.disjoint_iff_inter_eq_empty]
      exact Finset.disjoint_of_subset_right rightIn Finset.disjoint_sdiff
    rw [disjoint, Finset.card_empty]
    omega
  · obtain ⟨right, restIn, rightIn, rightCard⟩ :=
      Finset.exists_subsuperset_card_eq (Finset.sdiff_subset (s := group) (t := left))
        (n := quorum) (by omega) fits
    refine ⟨left, right, leftIn, rightIn, leftCard, rightCard, ?_⟩
    have covered : left ∪ right = group := by
      apply Finset.Subset.antisymm (Finset.union_subset leftIn rightIn)
      rw [← Finset.union_sdiff_of_subset leftIn]
      exact Finset.union_subset_union_right restIn
    have counted := Finset.card_union_add_card_inter left right
    rw [covered, leftCard, rightCard] at counted
    omega

theorem overlaps_iff {quorum shared : Nat} (fits : quorum ≤ group.card) :
    Overlaps group quorum shared ↔ shared ≤ 2 * quorum - group.card := by
  constructor
  · intro every
    obtain ⟨left, right, leftIn, rightIn, leftCard, rightCard, overlap⟩ := overlap_attained fits
    rw [← overlap]
    exact every left right leftIn rightIn leftCard.ge rightCard.ge
  · intro bound left right leftIn rightIn leftMeets rightMeets
    have counted := overlap_lower_bound leftIn rightIn
    omega

end Savitri.QuorumOverlap
