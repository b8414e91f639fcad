import Savitri.ContractStorage

/-!
What the meter of contracts/gas.rs bounds. Charges wait in a batch, and only a commit
compares them with the limit: the committed gas stays within it, the total need not. The
budget of a meter, for a loop that pays one unit a turn, is what is left of the limit
and of the batch.
-/
namespace Savitri.Contracts
open Transition

/-- The pending batch is settled first. -/
def GasMeter.consumeImmediate (meter : GasMeter) (amount : Nat) : GasMeter × Except String Unit :=
  match meter.commitBatch with
  | (meter, .error text) => (meter, .error text)
  | (meter, .ok ()) => { meter with batchAccumulator := amount, batchCount := 1 }.commitBatch

def GasMeter.charged (meter : GasMeter) : Nat := meter.gasUsed + meter.batchAccumulator

def GasMeter.withBatchLimit (gasLimit batchLimit : UInt64) : GasMeter :=
  { gasLimit := gasLimit.toNat, batchLimit := batchLimit.toNat }

variable {meter after : GasMeter}

theorem commitBatch_ok (committed : meter.commitBatch = (after, .ok ())) :
    after.gasUsed = meter.charged ∧ after.batchAccumulator = 0 ∧
      after.gasLimit = meter.gasLimit ∧ after.batchLimit = meter.batchLimit ∧
      (meter.gasUsed ≤ meter.gasLimit → meter.charged ≤ meter.gasLimit) ∧
      (after = meter ∨ after.batchCount = 0 ∧ meter.charged ≤ meter.gasLimit) := by
  unfold GasMeter.commitBatch at committed
  unfold GasMeter.charged
  split at committed
  · next empty =>
      cases committed
      simp [empty]
  · split at committed
    · cases committed
    · dsimp only at committed
      split at committed
      · cases committed
      · next within =>
          cases committed
          have covered : meter.gasUsed + meter.batchAccumulator ≤ meter.gasLimit := by omega
          simp [covered]

/-- The charges a meter can still take, each of at least one unit: what is left of the
limit, and what is left of the batch. -/
def GasMeter.budget (meter : GasMeter) : Nat :=
  max meter.gasUsed meter.gasLimit + meter.batchLimit -
    (meter.gasUsed + min meter.batchAccumulator meter.batchCount)

theorem budget_le (meter : GasMeter) : meter.budget ≤ meter.gasLimit + meter.batchLimit := by
  unfold GasMeter.budget
  omega

theorem budget_consume {amount : Nat} (consumed : meter.consume amount = (after, .ok ())) :
    after.budget + min amount 1 ≤ meter.budget := by
  unfold GasMeter.consume at consumed
  split at consumed
  · cases consumed
  · dsimp only at consumed
    split at consumed
    · obtain ⟨used, empty, limit, batch, _, rfl | ⟨count, covered⟩⟩ := commitBatch_ok consumed
      · simp only [GasMeter.budget] at empty ⊢
        omega
      · simp only [GasMeter.budget, GasMeter.charged] at used limit batch covered ⊢
        rw [used, empty, limit, batch, count]
        omega
    · next notFull =>
        cases consumed
        simp only [GasMeter.budget] at notFull ⊢
        omega

section
inductive GasCall where
  | consume (amount : UInt64)
  | consumeImmediate (amount : UInt64)
  | commitBatch

def gasStep (meter : GasMeter) : GasCall → GasMeter × Except String Unit
  | .consume amount => meter.consume amount.toNat
  | .consumeImmediate amount => meter.consumeImmediate amount.toNat
  | .commitBatch => meter.commitBatch

def GasOk (meter : GasMeter) (call : GasCall) : Prop := (gasStep meter call).2.isOk = true

instance (meter : GasMeter) (call : GasCall) : Decidable (GasOk meter call) :=
  inferInstanceAs (Decidable (_ = true))

/-- The amounts asked for, those committed and those since the last commit. A batch that adds
up to nothing is not committed. -/
structure Amounts where
  committed : List Nat := []
  pending : List Nat := []

def Amounts.commit (amounts : Amounts) : Amounts :=
  if amounts.pending.sum = 0 then amounts else { committed := amounts.committed ++ amounts.pending }

def Amounts.add (batchLimit : UInt64) (amounts : Amounts) : GasCall → Amounts
  | .consume amount =>
    let next := { amounts with pending := amounts.pending ++ [amount.toNat] }
    if batchLimit.toNat ≤ next.pending.length then next.commit else next
  | .consumeImmediate amount => { amounts.commit with pending := [amount.toNat] }.commit
  | .commitBatch => amounts.commit

def amountsOf (batchLimit : UInt64) (calls : List GasCall) : Amounts :=
  calls.foldl (Amounts.add batchLimit) {}

structure Metered (gasLimit batchLimit : UInt64) (amounts : Amounts) (meter : GasMeter) : Prop where
  limit : meter.gasLimit = gasLimit.toNat
  batch : meter.batchLimit = batchLimit.toNat
  used : meter.gasUsed = amounts.committed.sum
  accumulated : meter.batchAccumulator = amounts.pending.sum
  counted : meter.batchCount = amounts.pending.length
  within : meter.gasUsed ≤ gasLimit.toNat

variable {gasLimit batchLimit : UInt64} {amounts : Amounts}

theorem eq_ok_of_isOk {result : GasMeter × Except String Unit} (ok : result.2.isOk = true) :
    result = (result.1, .ok ()) := by
  obtain ⟨meter, outcome⟩ := result
  cases outcome with
  | error text => simp [Except.isOk, Except.toBool] at ok
  | ok nothing => rfl

theorem Metered.commit (metered : Metered gasLimit batchLimit amounts meter)
    (committed : meter.commitBatch = (after, .ok ())) :
    Metered gasLimit batchLimit amounts.commit after := by
  obtain ⟨limit, batch, used, accumulated, counted, within⟩ := metered
  unfold GasMeter.commitBatch at committed
  rw [accumulated] at committed
  unfold Amounts.commit
  split at committed
  · next empty =>
      cases committed
      rw [if_pos empty]
      exact ⟨limit, batch, used, accumulated, counted, within⟩
  · next some =>
      rw [if_neg some]
      split at committed
      · cases committed
      · dsimp only at committed
        split at committed
        · cases committed
        · next covered =>
            cases committed
            refine ⟨limit, batch, ?_, rfl, rfl, ?_⟩
            · simp [used]
            · rw [← limit]
              exact Nat.le_of_not_lt covered

theorem Metered.consume (metered : Metered gasLimit batchLimit amounts meter) (amount : UInt64)
    (consumed : meter.consume amount.toNat = (after, .ok ())) :
    Metered gasLimit batchLimit (amounts.add batchLimit (.consume amount)) after := by
  obtain ⟨limit, batch, used, accumulated, counted, within⟩ := metered
  have added : Metered gasLimit batchLimit
      { amounts with pending := amounts.pending ++ [amount.toNat] }
      { meter with
        batchAccumulator := meter.batchAccumulator + amount.toNat
        batchCount := meter.batchCount + 1 } := by
    exact ⟨limit, batch, used, by simp [accumulated], by simp [counted], within⟩
  unfold GasMeter.consume at consumed
  split at consumed
  · cases consumed
  · dsimp only at consumed
    have filled : meter.batchLimit ≤ meter.batchCount + 1 ↔
        batchLimit.toNat ≤ (amounts.pending ++ [amount.toNat]).length := by
      rw [batch, counted, List.length_append, List.length_singleton]
    dsimp only [Amounts.add]
    split at consumed
    · next full =>
        rw [if_pos (filled.mp full)]
        exact added.commit consumed
    · next notFull =>
        cases consumed
        rw [if_neg (mt filled.mpr notFull)]
        exact added

theorem Metered.consumeImmediate (metered : Metered gasLimit batchLimit amounts meter)
    (amount : UInt64) (consumed : meter.consumeImmediate amount.toNat = (after, .ok ())) :
    Metered gasLimit batchLimit (amounts.add batchLimit (.consumeImmediate amount)) after := by
  unfold GasMeter.consumeImmediate at consumed
  split at consumed
  · cases consumed
  · next settled committed =>
      have first := metered.commit committed
      refine Metered.commit ?_ consumed
      exact ⟨first.limit, first.batch, first.used, by simp, rfl, first.within⟩

theorem gasStep_metered {call : GasCall} (metered : Metered gasLimit batchLimit amounts meter)
    (ok : GasOk meter call) :
    Metered gasLimit batchLimit (amounts.add batchLimit call) (gasStep meter call).1 := by
  have returned := eq_ok_of_isOk ok
  cases call with
  | consume amount => exact metered.consume amount returned
  | consumeImmediate amount => exact metered.consumeImmediate amount returned
  | commitBatch => exact metered.commit returned

theorem run_metered {calls : List GasCall} (metered : Metered gasLimit batchLimit amounts meter)
    (ok : Along gasStep GasOk meter calls) :
    Metered gasLimit batchLimit (calls.foldl (Amounts.add batchLimit) amounts)
      (run gasStep meter calls) := by
  induction calls generalizing meter amounts with
  | nil => exact metered
  | cons call rest ih => exact ih (gasStep_metered metered ok.1) ok.2

/-- While all calls return `Ok`, the committed gas is what the calls up to the last commit asked
for, and within the limit. The total is within it exactly if the amounts asked for since then
are at most what these leave of it. -/
theorem charged_within_limit_iff (gasLimit batchLimit : UInt64) (calls : List GasCall)
    (ok : Along gasStep GasOk (GasMeter.withBatchLimit gasLimit batchLimit) calls) :
    let meter := run gasStep (GasMeter.withBatchLimit gasLimit batchLimit) calls
    let amounts := amountsOf batchLimit calls
    meter.gasUsed = amounts.committed.sum ∧ meter.gasUsed ≤ gasLimit.toNat ∧
      (meter.charged ≤ gasLimit.toNat ↔
        amounts.pending.sum ≤ gasLimit.toNat - amounts.committed.sum) := by
  have metered : Metered gasLimit batchLimit (amountsOf batchLimit calls)
      (run gasStep (GasMeter.withBatchLimit gasLimit batchLimit) calls) :=
    run_metered ⟨rfl, rfl, rfl, rfl, rfl, Nat.zero_le _⟩ ok
  refine ⟨metered.used, metered.within, ?_⟩
  have within := metered.within
  rw [metered.used] at within
  rw [GasMeter.charged, metered.used, metered.accumulated]
  omega

theorem committed_charges_within_limit :
    let meter := run gasStep (GasMeter.withBatchLimit 10 100) [.consumeImmediate 3, .consume 4]
    meter.gasUsed = 3 ∧ meter.gasUsed ≤ 10 ∧ (meter.charged ≤ 10 ↔ 4 ≤ 10 - 3) :=
  charged_within_limit_iff 10 100 [.consumeImmediate 3, .consume 4] (by decide)

theorem batched_charge_exceeds_limit :
    Along gasStep GasOk (GasMeter.withBatchLimit 10 100) [.consume 100] ∧
      (run gasStep (GasMeter.withBatchLimit 10 100) [.consume 100]).charged = 100 := by
  decide

end

end Savitri.Contracts
