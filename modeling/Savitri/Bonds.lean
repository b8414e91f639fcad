import Savitri.ByteWords
import Savitri.MapTotal
import Savitri.Transition

/-!
The bonds of storage/bonds.rs. A record is kept under its validator and the sum of all
amounts in a counter of its own. `create_bond` refuses only where the stored bond is
active: a bond that is unbonding or slashed is replaced, and what it still held is
forgotten by the records but not by the counter.
-/
namespace Savitri.Bonds
open Std (ExtTreeMap)
open MachineInt Transition MapTotal

def minBondAmount : Nat := 100000000000000
def maxBondAmount : Nat := 10000000000000000
def minSlashPct : UInt16 := 100
def maxSlashPct : UInt16 := 10000
def unbondingPeriodBlocks : UInt64 := 21600

abbrev Validator := List UInt8

inductive BondStatus where
  | active
  | unbonding
  | slashed
  deriving DecidableEq

structure BondInfo where
  validator : Validator
  amount : Nat
  bondedAt : UInt64
  status : BondStatus
  unbondingStart : Option UInt64
  deriving DecidableEq

def BondInfo.new (validator : Validator) (amount : Nat) (bondedAt : UInt64) : BondInfo :=
  { validator, amount, bondedAt, status := .active, unbondingStart := none }

def BondInfo.isActive (bond : BondInfo) : Bool := bond.status = .active

def BondInfo.startUnbonding (bond : BondInfo) (currentBlock : UInt64) : BondInfo :=
  { bond with status := .unbonding, unbondingStart := some currentBlock }

/-- `none` is a panic: with overflow checks the sum of the blocks must fit. -/
def BondInfo.isUnbondingComplete (overflowChecks : Bool) (bond : BondInfo)
    (currentBlock : UInt64) : Option Bool :=
  match bond.unbondingStart with
  | none => some false
  | some start =>
    if overflowChecks && 2 ^ 64 ≤ start.toNat + unbondingPeriodBlocks.toNat then none
    else some (start + unbondingPeriodBlocks ≤ currentBlock)

inductive SlashingReason where
  | equivocation
  | doubleVote
  | invalidAttestation
  deriving DecidableEq

structure SlashingParams where
  minBondAmount : Nat := Bonds.minBondAmount
  slashPctEquivocation : UInt16 := 5000
  slashPctDoubleVote : UInt16 := 2500
  slashPctInvalidAttestation : UInt16 := 1000

variable (params : SlashingParams)

def SlashingParams.getSlashPct : SlashingReason → UInt16
  | .equivocation => params.slashPctEquivocation
  | .doubleVote => params.slashPctDoubleVote
  | .invalidAttestation => params.slashPctInvalidAttestation

def SlashingParams.calculateSlashAmount (bondAmount : Nat) (reason : SlashingReason) : Nat :=
  saturatingMul u128Max bondAmount (params.getSlashPct reason).toNat / 10000

structure SlashingEvent where
  validator : Validator
  reason : SlashingReason
  amountSlashed : Nat
  blockHeight : UInt64
  timestamp : UInt64

/-- `poisoned` is the state of the lock around the bonds. -/
structure BondManager where
  bonds : ExtTreeMap Validator BondInfo := ∅
  slashingParams : SlashingParams := {}
  slashingHistory : List SlashingEvent := []
  totalBonded : Nat := 0
  poisoned : Bool := false

inductive Failure where
  | error (text : String)
  | panic

def lockPoisoned : Failure := .error "Lock poisoned: poisoned lock: another task failed inside"

namespace BondManager

def new : BondManager := {}

variable (manager : BondManager)

def createBond (validator : Validator) (amount : Nat) (currentBlock : UInt64) :
    BondManager × Except Failure Unit :=
  if amount < manager.slashingParams.minBondAmount then
    (manager, .error (.error ("Bond amount " ++ toString amount ++ " is below minimum " ++
      toString manager.slashingParams.minBondAmount)))
  else if maxBondAmount < amount then
    (manager, .error (.error ("Bond amount " ++ toString amount ++ " exceeds maximum " ++
      toString maxBondAmount)))
  else if manager.poisoned then (manager, .error lockPoisoned)
  else if manager.bonds[validator]?.any BondInfo.isActive then
    (manager, .error (.error "Validator already has an active bond"))
  else
    ({ manager with
        bonds := manager.bonds.insert validator (.new validator amount currentBlock)
        totalBonded := saturatingAdd u128Max manager.totalBonded amount }, .ok ())

def startUnbonding (manager : BondManager) (validator : Validator) (currentBlock : UInt64) :
    BondManager × Except Failure Unit :=
  if manager.poisoned then (manager, .error lockPoisoned)
  else
    match manager.bonds[validator]? with
    | none => (manager, .error (.error "Validator has no bond"))
    | some bond =>
      if !bond.isActive then (manager, .error (.error "Bond is not active"))
      else
        ({ manager with
            bonds := manager.bonds.insert validator (bond.startUnbonding currentBlock) }, .ok ())

/-- A panic leaves the lock poisoned, which the call holds by then. -/
def completeUnbonding (overflowChecks : Bool) (manager : BondManager) (validator : Validator)
    (currentBlock : UInt64) : BondManager × Except Failure Nat :=
  if manager.poisoned then (manager, .error lockPoisoned)
  else
    match manager.bonds[validator]? with
    | none => (manager, .error (.error "Validator has no bond"))
    | some bond =>
      if bond.status ≠ .unbonding then
        (manager, .error (.error "Bond is not in unbonding state"))
      else
        match bond.isUnbondingComplete overflowChecks currentBlock with
        | none => ({ manager with poisoned := true }, .error .panic)
        | some false => (manager, .error (.error "Unbonding period not complete"))
        | some true =>
          ({ manager with
              bonds := manager.bonds.erase validator
              totalBonded := manager.totalBonded - bond.amount }, .ok bond.amount)

def slash (validator : Validator) (reason : SlashingReason) (blockHeight timestamp : UInt64) :
    BondManager × Except Failure Nat :=
  if manager.poisoned then (manager, .error lockPoisoned)
  else
    match manager.bonds[validator]? with
    | none => (manager, .error (.error "Validator has no bond"))
    | some bond =>
      let slashAmount := manager.slashingParams.calculateSlashAmount bond.amount reason
      ({ manager with
          bonds := manager.bonds.insert validator
            { bond with amount := bond.amount - slashAmount, status := .slashed }
          slashingHistory := manager.slashingHistory ++
            [{ validator, reason, amountSlashed := slashAmount, blockHeight, timestamp }]
          totalBonded := manager.totalBonded - slashAmount }, .ok slashAmount)

def updateSlashingParams (params : SlashingParams) : BondManager × Except Failure Unit :=
  if params.slashPctEquivocation < minSlashPct || maxSlashPct < params.slashPctEquivocation then
    (manager, .error (.error "Equivocation slash percentage out of range"))
  else if params.slashPctDoubleVote < minSlashPct || maxSlashPct < params.slashPctDoubleVote then
    (manager, .error (.error "Double vote slash percentage out of range"))
  else if params.slashPctInvalidAttestation < minSlashPct ||
      maxSlashPct < params.slashPctInvalidAttestation then
    (manager, .error (.error "Invalid attestation slash percentage out of range"))
  else if params.minBondAmount < Bonds.minBondAmount then
    (manager, .error (.error "Minimum bond amount too low"))
  else ({ manager with slashingParams := params }, .ok ())

end BondManager

inductive Call where
  | createBond (validator : Validator) (amount : Nat) (currentBlock : UInt64)
  | startUnbonding (validator : Validator) (currentBlock : UInt64)
  | completeUnbonding (validator : Validator) (currentBlock : UInt64)
  | slash (validator : Validator) (reason : SlashingReason) (blockHeight timestamp : UInt64)
  | updateSlashingParams (params : SlashingParams)

def exec (overflowChecks : Bool) (manager : BondManager) (call : Call) :
    BondManager × Except Failure Nat :=
  match call with
  | .createBond validator amount currentBlock =>
    (manager.createBond validator amount currentBlock).map id (·.map fun _ => 0)
  | .startUnbonding validator currentBlock =>
    (manager.startUnbonding validator currentBlock).map id (·.map fun _ => 0)
  | .completeUnbonding validator currentBlock =>
    manager.completeUnbonding overflowChecks validator currentBlock
  | .slash validator reason blockHeight timestamp =>
    manager.slash validator reason blockHeight timestamp
  | .updateSlashingParams params => (manager.updateSlashingParams params).map id (·.map fun _ => 0)

section
def stored (manager : BondManager) : Nat := total BondInfo.amount manager.bonds

def held (validator : Validator) (manager : BondManager) : Nat :=
  weightAt BondInfo.amount manager.bonds validator

variable (overflowChecks : Bool)

/-- The validator a call books under, with the amounts it books: bonded, slashed, released
and forgotten. A call that fails books nothing. -/
structure Entry where
  validator : Validator := []
  bonded : Nat := 0
  slashed : Nat := 0
  released : Nat := 0
  forgotten : Nat := 0

def entry (manager : BondManager) (call : Call) : Entry :=
  match call, (exec overflowChecks manager call).2 with
  | .createBond validator amount _, .ok _ =>
    { validator, bonded := amount, forgotten := held validator manager }
  | .completeUnbonding validator _, .ok amount => { validator, released := amount }
  | .slash validator _ _ _, .ok amount => { validator, slashed := amount }
  | _, _ => {}

def booked (column : Entry → Nat) (calls : List Call) : Nat :=
  tally (exec overflowChecks) (fun manager call => column (entry overflowChecks manager call))
    .new calls

def ofValidator (validator : Validator) (column : Entry → Nat) (entry : Entry) : Nat :=
  if entry.validator = validator then column entry else 0

end

section
variable {overflowChecks : Bool} {manager : BondManager}

structure Sound (manager : BondManager) : Prop where
  percentages : ∀ reason, (manager.slashingParams.getSlashPct reason).toNat ≤ 10000
  covered : stored manager ≤ manager.totalBonded

/-- What a call does to the records, the counter and the parameters, and what it books. -/
inductive Change (manager : BondManager) : BondManager → Entry → Prop where
  | failed (after : BondManager) (bonds : after.bonds = manager.bonds)
      (counter : after.totalBonded = manager.totalBonded)
      (params : after.slashingParams = manager.slashingParams) : Change manager after {}
  | created (validator : Validator) (amount : Nat) (currentBlock : UInt64) :
      Change manager
        { manager with
          bonds := manager.bonds.insert validator (.new validator amount currentBlock)
          totalBonded := saturatingAdd u128Max manager.totalBonded amount }
        { validator, bonded := amount, forgotten := held validator manager }
  | started (validator : Validator) (bond : BondInfo) (currentBlock : UInt64)
      (found : manager.bonds[validator]? = some bond) :
      Change manager
        { manager with
          bonds := manager.bonds.insert validator (bond.startUnbonding currentBlock) } {}
  | released (validator : Validator) (bond : BondInfo)
      (found : manager.bonds[validator]? = some bond) :
      Change manager
        { manager with
          bonds := manager.bonds.erase validator
          totalBonded := manager.totalBonded - bond.amount }
        { validator, released := bond.amount }
  | slashed (validator : Validator) (bond : BondInfo) (reason : SlashingReason)
      (events : List SlashingEvent) (found : manager.bonds[validator]? = some bond) :
      Change manager
        { manager with
          bonds := manager.bonds.insert validator
            { bond with
              amount := bond.amount - manager.slashingParams.calculateSlashAmount bond.amount reason
              status := .slashed }
          slashingHistory := events
          totalBonded := manager.totalBonded -
            manager.slashingParams.calculateSlashAmount bond.amount reason }
        { validator
          slashed := manager.slashingParams.calculateSlashAmount bond.amount reason }
  | updated (params : SlashingParams)
      (within : ∀ reason, (params.getSlashPct reason).toNat ≤ 10000) :
      Change manager { manager with slashingParams := params } {}

theorem percentage_le {pct : UInt16}
    (inRange : ¬ (pct < minSlashPct || maxSlashPct < pct) = true) : pct.toNat ≤ 10000 := by
  simp only [Bool.or_eq_true, decide_eq_true_eq, not_or, UInt16.not_lt] at inRange
  exact UInt16.le_iff_toNat_le.mp inRange.2

theorem change_exec (manager : BondManager) (call : Call) :
    Change manager (exec overflowChecks manager call).1 (entry overflowChecks manager call) := by
  -- A check that fails leaves the manager as it is.
  have unchanged : Change manager manager {} := .failed manager rfl rfl rfl
  unfold entry
  cases call with
  | createBond validator amount currentBlock =>
    rw [exec, BondManager.createBond]
    split
    · exact unchanged
    · split
      · exact unchanged
      · split
        · exact unchanged
        · split
          · exact unchanged
          · exact .created validator amount currentBlock
  | startUnbonding validator currentBlock =>
    rw [exec, BondManager.startUnbonding]
    split
    · exact unchanged
    · split
      · exact unchanged
      · next bond found =>
          split
          · exact unchanged
          · exact .started validator bond currentBlock found
  | completeUnbonding validator currentBlock =>
    rw [exec, BondManager.completeUnbonding]
    split
    · exact unchanged
    · split
      · exact unchanged
      · next bond found =>
          split
          · exact unchanged
          · split
            · exact .failed _ rfl rfl rfl
            · exact unchanged
            · exact .released validator bond found
  | slash validator reason blockHeight timestamp =>
    rw [exec, BondManager.slash]
    split
    · exact unchanged
    · split
      · exact unchanged
      · next bond found => exact .slashed validator bond reason _ found
  | updateSlashingParams params =>
    rw [exec, BondManager.updateSlashingParams]
    split
    · exact unchanged
    · next equivocation =>
        split
        · exact unchanged
        · next doubleVote =>
            split
            · exact unchanged
            · next invalidAttestation =>
                split
                · exact unchanged
                · apply Change.updated params
                  intro reason
                  cases reason with
                  | equivocation => exact percentage_le equivocation
                  | doubleVote => exact percentage_le doubleVote
                  | invalidAttestation => exact percentage_le invalidAttestation

variable {after : BondManager} {entry : Entry}

theorem calculateSlashAmount_le (sound : Sound manager) (amount : Nat) (reason : SlashingReason) :
    manager.slashingParams.calculateSlashAmount amount reason ≤ amount := by
  unfold SlashingParams.calculateSlashAmount saturatingMul
  calc min (amount * (manager.slashingParams.getSlashPct reason).toNat) u128Max / 10000
      ≤ amount * 10000 / 10000 := by
        apply Nat.div_le_div_right
        exact (Nat.min_le_left _ _).trans (Nat.mul_le_mul_left _ (sound.percentages reason))
    _ = amount := Nat.mul_div_cancel amount (by decide)

theorem held_of_found {validator : Validator} {bond : BondInfo}
    (found : manager.bonds[validator]? = some bond) : held validator manager = bond.amount := by
  unfold held weightAt
  rw [found]
  rfl

variable (change : Change manager after entry)
include change

theorem Change.books_held (sound : Sound manager) (validator : Validator) :
    held validator after +
        (ofValidator validator Entry.slashed entry + ofValidator validator Entry.released entry) +
        ofValidator validator Entry.forgotten entry =
      held validator manager + ofValidator validator Entry.bonded entry := by
  cases change with
  | failed _ bonds counter params => simp [held, bonds, ofValidator]
  | created other amount currentBlock =>
    by_cases same : other = validator
    · simp [held, weightAt_insert, ofValidator, same, BondInfo.new, Nat.add_comm]
    · simp [held, weightAt_insert, ofValidator, same]
  | started other bond currentBlock found =>
    by_cases same : other = validator
    · subst same
      rw [held_of_found found]
      simp [held, weightAt_insert, ofValidator, BondInfo.startUnbonding]
    · simp [held, weightAt_insert, ofValidator, same]
  | released other bond found =>
    by_cases same : other = validator
    · subst same
      rw [held_of_found found]
      simp [held, weightAt_erase, ofValidator]
    · simp [held, weightAt_erase, ofValidator, same]
  | slashed other bond reason events found =>
    by_cases same : other = validator
    · subst same
      have less := calculateSlashAmount_le sound bond.amount reason
      rw [held_of_found found]
      simp [held, weightAt_insert, ofValidator, Nat.sub_add_cancel less]
    · simp [held, weightAt_insert, ofValidator, same]
  | updated params within => simp [held, ofValidator]

theorem Change.books_stored (sound : Sound manager) :
    stored after + (entry.slashed + entry.released) + entry.forgotten =
      stored manager + entry.bonded := by
  cases change with
  | failed _ bonds counter params => simp [stored, bonds]
  | created validator amount currentBlock =>
    exact total_insert BondInfo.amount manager.bonds validator _
  | started validator bond currentBlock found =>
    have written := total_insert BondInfo.amount manager.bonds validator
      (bond.startUnbonding currentBlock)
    have before : weightAt BondInfo.amount manager.bonds validator = bond.amount :=
      held_of_found found
    rw [before] at written
    exact Nat.add_right_cancel written
  | released validator bond found =>
    have erased := total_erase BondInfo.amount manager.bonds validator
    have before : weightAt BondInfo.amount manager.bonds validator = bond.amount :=
      held_of_found found
    rw [before] at erased
    simpa [stored] using erased
  | slashed validator bond reason events found =>
    have less := calculateSlashAmount_le sound bond.amount reason
    have written := total_insert BondInfo.amount manager.bonds validator
      { bond with
        amount := bond.amount - manager.slashingParams.calculateSlashAmount bond.amount reason
        status := .slashed }
    have before : weightAt BondInfo.amount manager.bonds validator = bond.amount :=
      held_of_found found
    rw [before] at written
    dsimp only at written
    simp only [stored, Nat.add_zero]
    omega
  | updated params within => rfl

omit change in
theorem held_le_stored (validator : Validator) (manager : BondManager) :
    held validator manager ≤ stored manager := by
  have erased := total_erase BondInfo.amount manager.bonds validator
  unfold held stored
  omega

/-- The counter books the same, except that it forgets nothing. -/
theorem Change.books_counter (sound : Sound manager)
    (fits : manager.totalBonded + entry.bonded ≤ u128Max) :
    after.totalBonded + (entry.slashed + entry.released) = manager.totalBonded + entry.bonded := by
  have below {validator : Validator} {bond : BondInfo}
      (found : manager.bonds[validator]? = some bond) : bond.amount ≤ manager.totalBonded :=
    held_of_found found ▸ (held_le_stored validator manager).trans sound.covered
  cases change with
  | failed _ bonds counter params => simp [counter]
  | created validator amount currentBlock => simpa [saturatingAdd] using fits
  | started | updated => rfl
  | released validator bond found => simpa using Nat.sub_add_cancel (below found)
  | slashed validator bond reason events found =>
    have less := calculateSlashAmount_le sound bond.amount reason
    simpa using Nat.sub_add_cancel (less.trans (below found))

theorem Change.sound (sound : Sound manager) (fits : manager.totalBonded + entry.bonded ≤ u128Max) :
    Sound after := by
  have counter := change.books_counter sound fits
  have records := change.books_stored sound
  have covered := sound.covered
  constructor
  · cases change with
    | failed _ bonds counter params =>
      rw [params]
      exact sound.percentages
    | updated params within => exact within
    | created | started | released | slashed => exact sound.percentages
  · omega

/-- Saturation aside, the counter never grows by more than what is bonded. -/
theorem Change.counter_le : after.totalBonded ≤ manager.totalBonded + entry.bonded := by
  cases change with
  | failed _ bonds counter params => exact counter.le
  | created validator amount currentBlock => exact Nat.min_le_left _ _
  | started | updated => exact Nat.le_refl _
  | released | slashed => exact Nat.sub_le _ _

end

section
variable {overflowChecks : Bool} {calls : List Call}

theorem sound_new : Sound .new := by
  constructor
  · intro reason
    cases reason <;> decide
  · rfl

variable (fits : booked overflowChecks Entry.bonded calls ≤ u128Max)
include fits

theorem along_sound :
    Along (exec overflowChecks)
      (fun manager call => Sound manager ∧
        manager.totalBonded + (entry overflowChecks manager call).bonded ≤ u128Max)
      .new calls := by
  have within := along_within (exec overflowChecks) BondManager.totalBonded
    (fun manager call => (entry overflowChecks manager call).bonded) u128Max
    (fun manager call => (change_exec manager call).counter_le) .new calls
    ((Nat.zero_add _).trans_le fits)
  refine along_of_invariant (exec overflowChecks) _ _ Sound ?_ ?_ .new calls sound_new within
  · intro manager call sound here
    exact (change_exec manager call).sound sound here
  · intro manager call sound here
    exact ⟨sound, here⟩

theorem books_held_run (validator : Validator) :
    held validator (run (exec overflowChecks) .new calls) +
        (booked overflowChecks (ofValidator validator Entry.slashed) calls +
          booked overflowChecks (ofValidator validator Entry.released) calls) +
        booked overflowChecks (ofValidator validator Entry.forgotten) calls =
      booked overflowChecks (ofValidator validator Entry.bonded) calls := by
  have books := run_books_along (exec overflowChecks) _ (held validator) _ _ _
    (fun manager call good => (change_exec manager call).books_held good.1 validator) .new calls
    (along_sound fits)
  rwa [tally_add, show held validator .new = 0 from rfl, Nat.zero_add] at books

theorem books_stored_run :
    stored (run (exec overflowChecks) .new calls) +
        (booked overflowChecks Entry.slashed calls + booked overflowChecks Entry.released calls) +
        booked overflowChecks Entry.forgotten calls =
      booked overflowChecks Entry.bonded calls := by
  have books := run_books_along (exec overflowChecks) _ stored _ _ _
    (fun manager call good => (change_exec manager call).books_stored good.1) .new calls
    (along_sound fits)
  rwa [tally_add, show stored .new = 0 from rfl, Nat.zero_add] at books

theorem books_counter_run :
    (run (exec overflowChecks) .new calls).totalBonded +
        (booked overflowChecks Entry.slashed calls + booked overflowChecks Entry.released calls) =
      booked overflowChecks Entry.bonded calls := by
  have books := run_books_along (exec overflowChecks) _ BondManager.totalBonded _ (fun _ _ => 0) _
    (fun manager call good => (change_exec manager call).books_counter good.1 good.2) .new calls
    (along_sound fits)
  rwa [tally_add, tally_eq_zero _ (fun _ _ => rfl),
    show BondManager.totalBonded .new = 0 from rfl, Nat.zero_add] at books

omit fits

/-- The counter is the sum of the stored amounts, and everything a validator bonded is
stored, slashed or released, exactly when no `create_bond` replaces a bond that still
holds something. -/
theorem bonds_conserved_iff (overflowChecks : Bool) (calls : List Call)
    (fits : booked overflowChecks Entry.bonded calls ≤ u128Max) :
    ((run (exec overflowChecks) .new calls).totalBonded =
        stored (run (exec overflowChecks) .new calls) ∧
      ∀ validator, booked overflowChecks (ofValidator validator Entry.bonded) calls =
        held validator (run (exec overflowChecks) .new calls) +
          booked overflowChecks (ofValidator validator Entry.slashed) calls +
          booked overflowChecks (ofValidator validator Entry.released) calls) ↔
      Along (exec overflowChecks)
        (fun manager call => (entry overflowChecks manager call).forgotten = 0) .new calls := by
  have counter := books_counter_run fits
  have records := books_stored_run fits
  rw [← tally_eq_zero_iff]
  constructor
  · rintro ⟨same, _⟩
    unfold booked at records counter
    omega
  · intro kept
    constructor
    · unfold booked at records counter
      omega
    · intro validator
      have fewer : booked overflowChecks (ofValidator validator Entry.forgotten) calls ≤
          booked overflowChecks Entry.forgotten calls := by
        apply tally_le_tally
        intro manager call
        unfold ofValidator
        split
        · exact Nat.le_refl _
        · exact Nat.zero_le _
      have none : booked overflowChecks Entry.forgotten calls = 0 := kept
      have books := books_held_run fits validator
      omega

def sampleCalls : List Call :=
  [.createBond [1] minBondAmount 0, .createBond [2] minBondAmount 0, .slash [1] .equivocation 5 0,
    .startUnbonding [2] 10, .completeUnbonding [2] 21610]

theorem sampleCalls_conserved :
    (run (exec true) .new sampleCalls).totalBonded = stored (run (exec true) .new sampleCalls) ∧
      ∀ validator, booked true (ofValidator validator Entry.bonded) sampleCalls =
        held validator (run (exec true) .new sampleCalls) +
          booked true (ofValidator validator Entry.slashed) sampleCalls +
          booked true (ofValidator validator Entry.released) sampleCalls :=
  (bonds_conserved_iff true sampleCalls (by decide +kernel)).mpr (by decide +kernel)

def sampleRebond : List Call :=
  [.createBond [1] minBondAmount 0, .slash [1] .equivocation 5 0, .createBond [1] minBondAmount 6]

/-- The validator bonds again after it was slashed: the half that was left is in no record
and was neither slashed nor released, but the counter still has it. -/
theorem second_bond_forgets_first :
    (run (exec true) .new sampleRebond).totalBonded = 150000000000000 ∧
    stored (run (exec true) .new sampleRebond) = 100000000000000 ∧
    booked true (ofValidator [1] Entry.bonded) sampleRebond = 200000000000000 ∧
    booked true (ofValidator [1] Entry.slashed) sampleRebond = 50000000000000 ∧
    booked true (ofValidator [1] Entry.released) sampleRebond = 0 := by
  refine ⟨?_, ?_, ?_, ?_, ?_⟩ <;> decide +kernel

/-- Whatever bonds are replaced, no validator is slashed or paid back more than it bonded. -/
theorem validator_never_overdrawn (overflowChecks : Bool) (calls : List Call)
    (fits : booked overflowChecks Entry.bonded calls ≤ u128Max) (validator : Validator) :
    held validator (run (exec overflowChecks) .new calls) +
        booked overflowChecks (ofValidator validator Entry.slashed) calls +
        booked overflowChecks (ofValidator validator Entry.released) calls ≤
      booked overflowChecks (ofValidator validator Entry.bonded) calls := by
  have books := books_held_run fits validator
  omega

theorem sampleRebond_covered :
    held [1] (run (exec true) .new sampleRebond) +
        booked true (ofValidator [1] Entry.slashed) sampleRebond +
        booked true (ofValidator [1] Entry.released) sampleRebond ≤
      booked true (ofValidator [1] Entry.bonded) sampleRebond :=
  validator_never_overdrawn true sampleRebond (by decide +kernel) [1]

end

end Savitri.Bonds
