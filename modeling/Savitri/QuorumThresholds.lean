import Savitri.QuorumOverlap

/-!
The two BFT thresholds of the consensus crate. `latticeQuorum` follows
types/lattice.rs and `quorumForVoters` follows primitives/quorum.rs. Both
are exact in `Nat` while `2 * n + 2 < 2 ^ 64`, which every list of voters in memory keeps to.
-/
namespace Savitri.QuorumThresholds
open QuorumOverlap

def faultBound (n : Nat) : Nat := (n - 1) / 3

def latticeQuorum (groupSize : Nat) : Nat :=
  if groupSize = 0 then 0 else 2 * faultBound groupSize + 1

def quorumForVoters (n : Nat) : Nat :=
  if n = 0 then 0 else (2 * n + 2) / 3

theorem latticeQuorum_le {n : Nat} : latticeQuorum n ≤ n := by
  unfold latticeQuorum faultBound
  split <;> omega

theorem quorumForVoters_outnumbers (n : Nat) (members : 1 ≤ n) :
    n + faultBound n < 2 * quorumForVoters n := by
  have positive : n ≠ 0 := by omega
  simp only [faultBound, quorumForVoters, positive, ↓reduceIte]
  omega

/-- `2f + 1` votes force `f + 1` common members exactly when the group has
`3f + 1` members. At `3f + 2` and `3f + 3` the guaranteed overlap drops to
`f` and `f - 1`, which faulty members alone can fill. -/
theorem latticeQuorum_overlap_iff {Member : Type*} [DecidableEq Member]
    (group : Finset Member) :
    Overlaps group (latticeQuorum group.card) (faultBound group.card + 1) ↔ group.card % 3 = 1 := by
  rw [overlaps_iff latticeQuorum_le]
  unfold latticeQuorum faultBound
  split <;> omega

/-- Two quorums of the default five-member group may share a single member,
while one of the five may be faulty. -/
theorem latticeQuorum_five_single_overlap :
    ¬ Overlaps (Finset.range 5) (latticeQuorum 5) (faultBound 5 + 1) := by
  intro every
  have shared := every {0, 1, 2} {2, 3, 4} (by decide) (by decide) (by decide) (by decide)
  exact absurd shared (by decide)

/-- Without the votes of the faulty members the quorum can still be met, and two
quorums share a member that is not faulty, whatever the remainder modulo 3. -/
theorem quorumForVoters_available_and_overlaps {Member : Type*} [DecidableEq Member]
    (group : Finset Member) (members : 1 ≤ group.card) :
    quorumForVoters group.card ≤ group.card - faultBound group.card ∧
      Overlaps group (quorumForVoters group.card) (faultBound group.card + 1) := by
  have outnumbers := quorumForVoters_outnumbers group.card members
  have available : quorumForVoters group.card ≤ group.card - faultBound group.card := by
    unfold quorumForVoters faultBound
    split <;> omega
  refine ⟨available, ?_⟩
  rw [overlaps_iff (by omega)]
  omega

theorem five_voters_overlap :
    quorumForVoters (Finset.range 5).card ≤ (Finset.range 5).card - faultBound 5 ∧
      Overlaps (Finset.range 5) (quorumForVoters 5) (faultBound 5 + 1) :=
  quorumForVoters_available_and_overlaps (Finset.range 5) (by decide)

end Savitri.QuorumThresholds
