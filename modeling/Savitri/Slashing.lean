import Savitri.HexCodec
import Savitri.Transition

/-!
The slashing manager of savitri-consensus, slashing.rs. A report is refused for a validator
that is slashed for good, in jail or in its cooldown; otherwise it is recorded, counted, and may
send the validator to jail. Epochs come with the calls and need not grow. With overflow checks
the sum of the recorded penalties, which nothing uses, can panic after the count was raised.
-/
namespace Savitri.Slashing
open Std (ExtTreeMap)
open Transition

abbrev Validator := List UInt8

abbrev Hash := List UInt8

inductive MisbehaviorType where
  | doubleVote
  | equivocation
  | downtime
  | invalidProposal
  | maliciousGradient

/-- Penalties in permille, 0 to 1000. -/
structure SlashingConfig where
  doubleVoteSlashPermille : UInt32 := 500
  equivocationSlashPermille : UInt32 := 500
  downtimeSlashPermille : UInt32 := 100
  invalidProposalSlashPermille : UInt32 := 250
  maliciousGradientSlashPermille : UInt32 := 300
  jailThresholdPermille : UInt32 := 600
  jailDurationEpochs : UInt64 := 10
  cooldownEpochs : UInt64 := 5
  maxCumulativeSlashes : UInt32 := 5

def SlashingConfig.slashPermilleFor (config : SlashingConfig) : MisbehaviorType → UInt32
  | .doubleVote => config.doubleVoteSlashPermille
  | .equivocation => config.equivocationSlashPermille
  | .downtime => config.downtimeSlashPermille
  | .invalidProposal => config.invalidProposalSlashPermille
  | .maliciousGradient => config.maliciousGradientSlashPermille

structure SlashingRecord where
  validatorId : Validator
  misbehaviorType : MisbehaviorType
  epoch : UInt64
  slot : UInt64
  evidenceHash : Hash
  slashAmountPermille : UInt32
  timestamp : UInt64

structure ValidatorSlashingState where
  cumulativeSlashes : UInt32 := 0
  lastSlashEpoch : UInt64 := 0
  jailedUntilEpoch : UInt64 := 0
  isPermanentlySlashed : Bool := false
  records : List SlashingRecord := []

namespace ValidatorSlashingState
variable (state : ValidatorSlashingState)

def isJailedAt (currentEpoch : UInt64) : Bool := currentEpoch < state.jailedUntilEpoch

def isActiveAt (currentEpoch : UInt64) : Bool :=
  !state.isPermanentlySlashed && !state.isJailedAt currentEpoch

def inCooldown (config : SlashingConfig) (currentEpoch : UInt64) : Bool :=
  0 < state.lastSlashEpoch &&
    currentEpoch.toNat - state.lastSlashEpoch.toNat < config.cooldownEpochs.toNat

end ValidatorSlashingState

inductive ConsensusError where
  | alreadySlashed (text : String)
  | validatorJailed (text : String)
  | slashCooldown (text : String)

inductive Reply where
  | accepted (slashPermille : UInt32)
  | unjailed
  | refused (error : ConsensusError)
  | panicked

abbrev States := ExtTreeMap Validator ValidatorSlashingState

section
variable (overflowChecks : Bool) (config : SlashingConfig)

/-- `none` is a panic. -/
def addEpochs (left right : UInt64) : Option UInt64 :=
  if overflowChecks && 2 ^ 64 ≤ left.toNat + right.toNat then none else some (left + right)

def penalties (records : List SlashingRecord) : Nat :=
  (records.map fun record => record.slashAmountPermille.toNat).sum

def refuseReport (validatorId : Validator) (state : ValidatorSlashingState)
    (currentEpoch : UInt64) : Option Reply :=
  if state.isPermanentlySlashed then
    some (.refused (.alreadySlashed
      ("Validator " ++ HexCodec.encode validatorId ++ " is permanently slashed")))
  else if state.isJailedAt currentEpoch then
    some (.refused (.validatorJailed ("Validator " ++ HexCodec.encode validatorId ++
      " is jailed until epoch " ++ toString state.jailedUntilEpoch)))
  else if state.inCooldown config currentEpoch then
    match addEpochs overflowChecks state.lastSlashEpoch config.cooldownEpochs with
    | none => some .panicked
    | some expiry =>
      some (.refused (.slashCooldown ("Validator " ++ HexCodec.encode validatorId ++
        " is in cooldown until epoch " ++ toString expiry ++ " (last slashed at epoch " ++
        toString state.lastSlashEpoch ++ ")")))
  else none

def cumulativeRatioPermille (cumulativeSlashes : UInt32) : Nat :=
  if 0 < config.maxCumulativeSlashes then
    cumulativeSlashes.toNat * 1000 / config.maxCumulativeSlashes.toNat
  else 1000

variable (state : ValidatorSlashingState)

/-- What follows the count: the maximum, the sum of the penalties, the jail. -/
def judge (currentEpoch : UInt64) (slashPermille : UInt32) : ValidatorSlashingState × Reply :=
  if config.maxCumulativeSlashes ≤ state.cumulativeSlashes then
    ({ state with isPermanentlySlashed := true }, .accepted slashPermille)
  else if overflowChecks && 2 ^ 32 ≤ penalties state.records then (state, .panicked)
  else if config.jailThresholdPermille.toNat ≤
      cumulativeRatioPermille config state.cumulativeSlashes then
    match addEpochs overflowChecks currentEpoch config.jailDurationEpochs with
    | none => (state, .panicked)
    | some release => ({ state with jailedUntilEpoch := release }, .accepted slashPermille)
  else (state, .accepted slashPermille)

def acceptReport (record : SlashingRecord) : ValidatorSlashingState × Reply :=
  let recorded := { state with records := state.records ++ [record] }
  if overflowChecks && state.cumulativeSlashes.toNat + 1 = 2 ^ 32 then (recorded, .panicked)
  else
    let counted := { recorded with
      cumulativeSlashes := state.cumulativeSlashes + 1
      lastSlashEpoch := record.epoch }
    judge overflowChecks config counted record.epoch record.slashAmountPermille

variable (states : States)

def reportMisbehavior (validatorId : Validator) (misbehavior : MisbehaviorType)
    (currentEpoch currentSlot : UInt64) (evidenceHash : Hash) (timestamp : UInt64) : States × Reply :=
  let state := states[validatorId]?.getD {}
  match refuseReport overflowChecks config validatorId state currentEpoch with
  | some reply => (states.insert validatorId state, reply)
  | none =>
    let (after, reply) := acceptReport overflowChecks config state
      { validatorId, misbehaviorType := misbehavior, epoch := currentEpoch, slot := currentSlot,
        evidenceHash, slashAmountPermille := config.slashPermilleFor misbehavior, timestamp }
    (states.insert validatorId after, reply)

def unjail (validatorId : Validator) (state : ValidatorSlashingState) (currentEpoch : UInt64) :
    ValidatorSlashingState × Reply :=
  if state.isPermanentlySlashed then
    (state, .refused (.alreadySlashed ("Validator " ++ HexCodec.encode validatorId ++
      " is permanently slashed and cannot be unjailed")))
  else if state.jailedUntilEpoch ≤ currentEpoch then
    ({ state with jailedUntilEpoch := 0 }, .unjailed)
  else
    (state, .refused (.validatorJailed ("Validator " ++ HexCodec.encode validatorId ++
      " is still jailed until epoch " ++ toString state.jailedUntilEpoch)))

def unjailValidator (validatorId : Validator) (currentEpoch : UInt64) : States × Reply :=
  match states[validatorId]? with
  | none => (states, .unjailed)
  | some state =>
    let (after, reply) := unjail validatorId state currentEpoch
    (states.insert validatorId after, reply)

def isValidatorActive (validatorId : Validator) (currentEpoch : UInt64) : Bool :=
  match states[validatorId]? with
  | some state => state.isActiveAt currentEpoch
  | none => true

inductive Call where
  | reportMisbehavior (validatorId : Validator) (misbehavior : MisbehaviorType)
      (currentEpoch currentSlot : UInt64) (evidenceHash : Hash) (timestamp : UInt64)
  | unjailValidator (validatorId : Validator) (currentEpoch : UInt64)

def Call.validatorId : Call → Validator
  | .reportMisbehavior validatorId .. => validatorId
  | .unjailValidator validatorId _ => validatorId

def Call.currentEpoch : Call → UInt64
  | .reportMisbehavior _ _ currentEpoch .. => currentEpoch
  | .unjailValidator _ currentEpoch => currentEpoch

def step : Call → States × Reply
  | .reportMisbehavior validatorId misbehavior currentEpoch currentSlot evidenceHash timestamp =>
    reportMisbehavior overflowChecks config states validatorId misbehavior currentEpoch currentSlot
      evidenceHash timestamp
  | .unjailValidator validatorId currentEpoch => unjailValidator states validatorId currentEpoch

end

def Reply.isAccepted : Reply → Bool
  | .accepted _ => true
  | _ => false

def Reply.isRefused : Reply → Bool
  | .refused _ => true
  | _ => false

variable (states : States) (validatorId : Validator)

/-- A validator without an entry is as one that was never slashed. -/
def stateOf : ValidatorSlashingState := states[validatorId]?.getD {}

def slashes : Nat := (stateOf states validatorId).cumulativeSlashes.toNat

def isSlashed : Bool := (stateOf states validatorId).isPermanentlySlashed

def limit (config : SlashingConfig) : Nat := max 1 config.maxCumulativeSlashes.toNat

variable {currentEpoch : UInt64}

section OneValidator
variable (overflowChecks : Bool) (config : SlashingConfig)
variable (state : ValidatorSlashingState)

def respond : Call → ValidatorSlashingState × Reply
  | .reportMisbehavior validatorId misbehavior currentEpoch currentSlot evidenceHash timestamp =>
    match refuseReport overflowChecks config validatorId state currentEpoch with
    | some reply => (state, reply)
    | none => acceptReport overflowChecks config state
        { validatorId, misbehaviorType := misbehavior, epoch := currentEpoch, slot := currentSlot,
          evidenceHash, slashAmountPermille := config.slashPermilleFor misbehavior, timestamp }
  | .unjailValidator validatorId currentEpoch => unjail validatorId state currentEpoch

def penaltiesFit : Call → Bool
  | .reportMisbehavior validatorId misbehavior currentEpoch .. =>
    !overflowChecks ||
      (refuseReport overflowChecks config validatorId state currentEpoch).isSome ||
      config.maxCumulativeSlashes ≤ state.cumulativeSlashes + 1 ||
      penalties state.records + (config.slashPermilleFor misbehavior).toNat < 2 ^ 32
  | .unjailValidator .. => true

structure Sound (state : ValidatorSlashingState) : Prop where
  within : state.cumulativeSlashes.toNat ≤ limit config
  reached : state.isPermanentlySlashed = true ↔ state.cumulativeSlashes.toNat = limit config

/-- What a call makes of a validator: nothing, an end of its jail, or one more slash. -/
inductive Response (state : ValidatorSlashingState) (currentEpoch : UInt64) :
    ValidatorSlashingState → Reply → Prop where
  | kept (reply : Reply) (other : reply.isAccepted = false) :
      Response state currentEpoch state reply
  | unjailed (free : state.isPermanentlySlashed = false) :
      Response state currentEpoch { state with jailedUntilEpoch := 0 } .unjailed
  | slashed (after : ValidatorSlashingState) (permille : UInt32)
      (free : state.isPermanentlySlashed = false)
      (outside : state.isJailedAt currentEpoch = false)
      (counted : after.cumulativeSlashes.toNat = state.cumulativeSlashes.toNat + 1)
      (final : after.isPermanentlySlashed = true ↔
        config.maxCumulativeSlashes.toNat ≤ state.cumulativeSlashes.toNat + 1) :
      Response state currentEpoch after (.accepted permille)

variable {overflowChecks config} {state}

theorem lt_limit (sound : Sound config state) (free : state.isPermanentlySlashed = false) :
    state.cumulativeSlashes.toNat < limit config := by
  apply Nat.lt_of_le_of_ne sound.within
  intro same
  rw [sound.reached.mpr same] at free
  cases free

theorem toNat_succ (sound : Sound config state) (free : state.isPermanentlySlashed = false) :
    (state.cumulativeSlashes + 1).toNat = state.cumulativeSlashes.toNat + 1 := by
  have below := lt_limit sound free
  have bound := config.maxCumulativeSlashes.toNat_lt
  have small : state.cumulativeSlashes.toNat + 1 < 2 ^ 32 := by
    unfold limit at below
    omega
  rw [UInt32.toNat_add]
  exact Nat.mod_eq_of_lt small

theorem addEpochs_of_fits {left right : UInt64} (fits : left.toNat + right.toNat < 2 ^ 64) :
    addEpochs overflowChecks left right = some (left + right) := by
  unfold addEpochs
  rw [if_neg]
  simp only [Bool.and_eq_true, decide_eq_true_eq, not_and, Nat.not_le]
  exact fun _ => fits

variable {validatorId}

theorem refuseReport_eq_none
    (taken : refuseReport overflowChecks config validatorId state currentEpoch = none) :
    state.isPermanentlySlashed = false ∧ state.isJailedAt currentEpoch = false := by
  unfold refuseReport at taken
  split at taken
  · cases taken
  · next free =>
      split at taken
      · cases taken
      · next outside => exact ⟨Bool.not_eq_true _ ▸ free, Bool.not_eq_true _ ▸ outside⟩

theorem refuseReport_not_accepted {reply : Reply}
    (refused : refuseReport overflowChecks config validatorId state currentEpoch = some reply) :
    reply.isAccepted = false := by
  unfold refuseReport at refused
  split at refused
  · cases refused
    rfl
  · split at refused
    · cases refused
      rfl
    · split at refused
      · split at refused
        · cases refused
          rfl
        · cases refused
          rfl
      · cases refused

theorem response_judge {counted : ValidatorSlashingState} {permille : UInt32}
    (free : state.isPermanentlySlashed = false) (outside : state.isJailedAt currentEpoch = false)
    (count : counted.cumulativeSlashes.toNat = state.cumulativeSlashes.toNat + 1)
    (still : counted.isPermanentlySlashed = false)
    (epochFits : currentEpoch.toNat + config.jailDurationEpochs.toNat < 2 ^ 64)
    (sumFits : overflowChecks = false ∨ config.maxCumulativeSlashes ≤ counted.cumulativeSlashes ∨
      penalties counted.records < 2 ^ 32) :
    Response config state currentEpoch (judge overflowChecks config counted currentEpoch permille).1
      (judge overflowChecks config counted currentEpoch permille).2 := by
  unfold judge
  split
  · next maximum =>
      rw [UInt32.le_iff_toNat_le, count] at maximum
      apply Response.slashed _ _ free outside
      · exact count
      · simp [maximum]
  · next below =>
      have under : ¬ config.maxCumulativeSlashes.toNat ≤ state.cumulativeSlashes.toNat + 1 := by
        rwa [UInt32.le_iff_toNat_le, count] at below
      split
      · next panics =>
          simp only [Bool.and_eq_true, decide_eq_true_eq] at panics
          rcases sumFits with unchecked | maximum | fits
          · rw [unchecked] at panics
            cases panics.1
          · exact absurd maximum below
          · omega
      · split
        · rw [addEpochs_of_fits epochFits]
          apply Response.slashed _ _ free outside
          · exact count
          · simp [still, under]
        · apply Response.slashed _ _ free outside
          · exact count
          · simp [still, under]

theorem response_respond (sound : Sound config state) (call : Call)
    (epochFits : call.currentEpoch.toNat + config.jailDurationEpochs.toNat < 2 ^ 64)
    (sumFits : penaltiesFit overflowChecks config state call = true) :
    Response config state call.currentEpoch (respond overflowChecks config state call).1
      (respond overflowChecks config state call).2 := by
  cases call with
  | unjailValidator validatorId currentEpoch =>
    unfold respond unjail
    dsimp only
    split
    · exact .kept _ rfl
    · next free =>
        split
        · exact .unjailed (Bool.not_eq_true _ ▸ free)
        · exact .kept _ rfl
  | reportMisbehavior validatorId misbehavior currentEpoch currentSlot evidenceHash timestamp =>
    unfold respond
    dsimp only
    cases taken : refuseReport overflowChecks config validatorId state currentEpoch with
    | some reply => exact .kept reply (refuseReport_not_accepted taken)
    | none =>
      obtain ⟨free, outside⟩ := refuseReport_eq_none taken
      have succ := toNat_succ sound free
      have bound := (state.cumulativeSlashes + 1).toNat_lt
      unfold acceptReport
      dsimp only
      rw [if_neg (by simp only [Bool.and_eq_true, decide_eq_true_eq]; omega)]
      refine response_judge free outside ?_ ?_ epochFits ?_
      · exact succ
      · exact free
      simp only [penaltiesFit, taken, Option.isSome_none, Bool.or_false, Bool.or_eq_true,
        decide_eq_true_eq, Bool.not_eq_true'] at sumFits
      rcases sumFits with (unchecked | maximum) | fits
      · exact Or.inl unchecked
      · exact Or.inr (Or.inl maximum)
      · apply Or.inr (Or.inr _)
        simpa [penalties] using fits

end OneValidator

variable {call : Call}

section
variable {overflowChecks : Bool} {config : SlashingConfig} {states}
variable {state : ValidatorSlashingState} {calls : List Call}

theorem stateOf_insert {validatorId other : Validator} :
    stateOf (states.insert validatorId state) other =
      if validatorId = other then state else stateOf states other := by
  unfold stateOf
  rw [ExtTreeMap.getElem?_insert]
  simp only [Std.LawfulEqCmp.compare_eq_iff_eq]
  split
  · rfl
  · rfl

theorem report_respond {validatorId : Validator} {misbehavior : MisbehaviorType}
    {currentSlot : UInt64} {evidenceHash : Hash} {timestamp : UInt64} :
    reportMisbehavior overflowChecks config states validatorId misbehavior currentEpoch currentSlot
        evidenceHash timestamp =
      (states.insert validatorId (respond overflowChecks config (stateOf states validatorId)
          (.reportMisbehavior validatorId misbehavior currentEpoch currentSlot evidenceHash
            timestamp)).1, (respond overflowChecks config (stateOf states validatorId)
          (.reportMisbehavior validatorId misbehavior currentEpoch currentSlot evidenceHash
            timestamp)).2) := by
  unfold reportMisbehavior respond
  dsimp only
  rw [← stateOf]
  cases refuseReport overflowChecks config validatorId (stateOf states validatorId) currentEpoch with
  | some | none => rfl

theorem step_respond (call : Call) :
    (∀ other, stateOf (step overflowChecks config states call).1 other =
      if call.validatorId = other then
        (respond overflowChecks config (stateOf states other) call).1
      else stateOf states other) ∧
    (step overflowChecks config states call).2 =
      (respond overflowChecks config (stateOf states call.validatorId) call).2 := by
  cases call with
  | reportMisbehavior validatorId misbehavior currentEpoch currentSlot evidenceHash timestamp =>
    rw [step, report_respond]
    constructor
    · intro other
      rw [stateOf_insert, Call.validatorId]
      split
      · next same => rw [same]
      · rfl
    · rfl
  | unjailValidator validatorId currentEpoch =>
    rw [step, unjailValidator]
    cases found : states[validatorId]? with
    | none =>
      -- Nothing to do, as for an entry without slashes.
      have default : stateOf states validatorId = {} := by simp [stateOf, found]
      have same : unjail validatorId {} currentEpoch = ({}, .unjailed) := by
        unfold unjail
        rw [if_neg Bool.false_ne_true, if_pos (by simp)]
      constructor
      · intro other
        dsimp only
        rw [Call.validatorId, respond]
        split
        · next own => rw [← own, default, same]
        · rfl
      · rw [Call.validatorId, respond, default, same]
    | some state =>
      have stored : stateOf states validatorId = state := by simp [stateOf, found]
      constructor
      · intro other
        dsimp only
        rw [stateOf_insert, Call.validatorId, respond]
        split
        · next own => rw [← own, stored]
        · rfl
      · rw [Call.validatorId, respond, stored]

def AllSound (config : SlashingConfig) (states : States) : Prop :=
  ∀ validatorId, Sound config (stateOf states validatorId)

def Fits (overflowChecks : Bool) (config : SlashingConfig) (states : States) (call : Call) : Prop :=
  call.currentEpoch.toNat + config.jailDurationEpochs.toNat < 2 ^ 64 ∧
    penaltiesFit overflowChecks config (stateOf states call.validatorId) call = true

theorem sound_of_response {after : ValidatorSlashingState} {reply : Reply}
    (sound : Sound config state) (response : Response config state currentEpoch after reply) :
    Sound config after := by
  cases response with
  | kept _ _ => exact sound
  | unjailed _ => exact ⟨sound.within, sound.reached⟩
  | slashed _ _ free _ counted final =>
    have below := lt_limit sound free
    unfold limit at below
    constructor
    · rw [counted, limit]
      omega
    · rw [final, counted, limit]
      omega

variable (sound : AllSound config states)
include sound

theorem response_step (fits : Fits overflowChecks config states call) :
    Response config (stateOf states call.validatorId) call.currentEpoch
      (stateOf (step overflowChecks config states call).1 call.validatorId)
      (step overflowChecks config states call).2 := by
  rw [(step_respond call).1, if_pos rfl, (step_respond call).2]
  exact response_respond (sound call.validatorId) call fits.1 fits.2

theorem sound_step (call : Call) (fits : Fits overflowChecks config states call) :
    AllSound config (step overflowChecks config states call).1 := by
  intro validatorId
  by_cases same : call.validatorId = validatorId
  · subst same
    exact sound_of_response (sound _) (response_step sound fits)
  · rw [(step_respond call).1, if_neg same]
    exact sound validatorId

def acceptedFor (overflowChecks : Bool) (config : SlashingConfig) (validatorId : Validator)
    (states : States) (call : Call) : Nat :=
  if call.validatorId = validatorId ∧ (step overflowChecks config states call).2.isAccepted = true
  then 1 else 0

theorem slashes_step (fits : Fits overflowChecks config states call)
    {validatorId : Validator} :
    slashes (step overflowChecks config states call).1 validatorId =
      slashes states validatorId + acceptedFor overflowChecks config validatorId states call := by
  unfold slashes acceptedFor
  by_cases same : call.validatorId = validatorId
  · subst same
    have response := response_step sound fits
    generalize (step overflowChecks config states call).2 = reply at response ⊢
    generalize stateOf (step overflowChecks config states call).1 call.validatorId = after
      at response ⊢
    cases response with
    | kept _ other => simp [other]
    | unjailed _ => simp [Reply.isAccepted]
    | slashed _ _ _ _ counted _ => simp [Reply.isAccepted, counted]
  · rw [(step_respond call).1, if_neg same, if_neg (fun both => same both.1), Nat.add_zero]

omit sound

theorem respond_of_slashed (slashed : state.isPermanentlySlashed = true) :
    (respond overflowChecks config state call).1 = state ∧
      (respond overflowChecks config state call).2.isRefused = true := by
  cases call with
  | reportMisbehavior validatorId misbehavior currentEpoch currentSlot evidenceHash timestamp =>
    rw [respond, refuseReport, if_pos slashed]
    exact ⟨rfl, rfl⟩
  | unjailValidator validatorId currentEpoch =>
    rw [respond, unjail, if_pos slashed]
    exact ⟨rfl, rfl⟩

theorem inactive_of_slashed {validatorId : Validator}
    (slashed : isSlashed states validatorId = true) :
    isValidatorActive states validatorId currentEpoch = false := by
  unfold isSlashed stateOf at slashed
  unfold isValidatorActive
  cases found : states[validatorId]? with
  | none =>
    rw [found] at slashed
    cases slashed
  | some state =>
    rw [found, Option.getD_some] at slashed
    simp [ValidatorSlashingState.isActiveAt, slashed]

theorem allSound_empty : AllSound config ∅ := by
  intro validatorId
  have none : stateOf ∅ validatorId = {} := by simp [stateOf]
  rw [none]
  constructor
  · exact Nat.zero_le _
  · simp only [limit, Bool.false_eq_true, false_iff]
    change ¬ 0 = _
    omega

variable (fits : Along (step overflowChecks config) (Fits overflowChecks config) ∅ calls)
include fits

theorem allSound_along :
    Along (step overflowChecks config)
      (fun states call => AllSound config states ∧ Fits overflowChecks config states call) ∅
      calls :=
  along_of_invariant _ _ _ (AllSound config) (fun _ call sound here => sound_step sound call here)
    (fun _ _ sound here => ⟨sound, here⟩) ∅ calls allSound_empty fits

theorem slashes_run {validatorId : Validator} :
    slashes (run (step overflowChecks config) ∅ calls) validatorId =
      tally (step overflowChecks config) (acceptedFor overflowChecks config validatorId) ∅
        calls := by
  have books := run_books_along (step overflowChecks config) _
    (fun states => slashes states validatorId) (fun _ _ => 0) (fun _ _ => 0)
    (acceptedFor overflowChecks config validatorId)
    (fun states call here => slashes_step here.1 here.2) ∅ calls
    (allSound_along fits)
  rw [tally_eq_zero _ fun _ _ => rfl] at books
  have none : slashes ∅ validatorId = 0 := by simp [slashes, stateOf]
  omega

omit fits

theorem step_of_slashed (slashed : isSlashed states call.validatorId = true) :
    (step overflowChecks config states call).2.isRefused = true ∧
      isSlashed (step overflowChecks config states call).1 call.validatorId = true := by
  constructor
  · rw [(step_respond call).2]
    exact (respond_of_slashed slashed).2
  · unfold isSlashed
    rw [(step_respond call).1, if_pos rfl, (respond_of_slashed slashed).1]
    exact slashed

theorem not_accepted_of_jailed (sound : AllSound config states)
    (here : Fits overflowChecks config states call)
    (jailed : (stateOf states call.validatorId).isJailedAt call.currentEpoch = true) :
    (step overflowChecks config states call).2.isAccepted = false := by
  have response := response_step sound here
  generalize (step overflowChecks config states call).2 = reply at response ⊢
  generalize stateOf (step overflowChecks config states call).1 call.validatorId = after at response
  cases response with
  | kept _ other => exact other
  | unjailed _ => rfl
  | slashed _ _ _ outside _ _ =>
    rw [jailed] at outside
    cases outside

end

def statesAfter (overflowChecks : Bool) (config : SlashingConfig) (calls : List Call) : States :=
  run (step overflowChecks config) ∅ calls

/-- While the sums fit, the count of a validator is the number of its accepted reports and ends at
the maximum; there it is slashed for good, refused everything and inactive; and nobody in jail gets
a report accepted. -/
theorem slashes_counted_to_limit (overflowChecks : Bool) (config : SlashingConfig)
    (calls : List Call)
    (fits : Along (step overflowChecks config) (Fits overflowChecks config) ∅ calls) :
    (∀ validatorId, slashes (statesAfter overflowChecks config calls) validatorId =
          tally (step overflowChecks config) (acceptedFor overflowChecks config validatorId) ∅ calls ∧
        slashes (statesAfter overflowChecks config calls) validatorId ≤ limit config ∧
        (isSlashed (statesAfter overflowChecks config calls) validatorId = true ↔
          slashes (statesAfter overflowChecks config calls) validatorId = limit config) ∧
        (isSlashed (statesAfter overflowChecks config calls) validatorId = true → ∀ epoch,
          isValidatorActive (statesAfter overflowChecks config calls) validatorId epoch = false)) ∧
    Along (step overflowChecks config) (fun states call =>
      (isSlashed states call.validatorId = true →
        (step overflowChecks config states call).2.isRefused = true ∧
          isSlashed (step overflowChecks config states call).1 call.validatorId = true) ∧
      ((stateOf states call.validatorId).isJailedAt call.currentEpoch = true →
        (step overflowChecks config states call).2.isAccepted = false)) ∅ calls := by
  have sound : AllSound config (statesAfter overflowChecks config calls) :=
    run_invariant_along _ _ (AllSound config) (fun _ call sound here => sound_step sound call here)
      ∅ calls allSound_empty fits
  constructor
  · intro validatorId
    exact ⟨slashes_run fits, (sound validatorId).within, (sound validatorId).reached,
      fun slashed epoch => inactive_of_slashed slashed⟩
  · apply along_of_invariant _ _ _ (AllSound config)
      (fun _ call sound here => sound_step sound call here) _ ∅ calls allSound_empty fits
    intro states call sound here
    exact ⟨step_of_slashed, not_accepted_of_jailed sound here⟩

instance (overflowChecks : Bool) (config : SlashingConfig) (states : States) (call : Call) :
    Decidable (Fits overflowChecks config states call) :=
  inferInstanceAs (Decidable (_ ∧ _))

def reportAt (currentEpoch : UInt64) : Call :=
  .reportMisbehavior [7] .doubleVote currentEpoch 0 [] 0

def sampleCalls : List Call :=
  [reportAt 5, reportAt 20, reportAt 10, reportAt 30, reportAt 35, .unjailValidator [7] 40,
    reportAt 50, reportAt 60, reportAt 70, .unjailValidator [7] 90]

theorem sampleCalls_counted :
    slashes (run (step true {}) ∅ sampleCalls) [7] =
      tally (step true {}) (acceptedFor true {} [7]) ∅ sampleCalls :=
  ((slashes_counted_to_limit true {} sampleCalls (by decide +kernel)).1 [7]).1

def patientConfig : SlashingConfig :=
  { doubleVoteSlashPermille := 1000, jailThresholdPermille := 1000, cooldownEpochs := 0,
    maxCumulativeSlashes := 4294967295 }

def reportedRecord : SlashingRecord where
  validatorId := [7]
  misbehaviorType := .doubleVote
  epoch := 1
  slot := 0
  evidenceHash := []
  slashAmountPermille := 1000
  timestamp := 0

def afterReports (count : Nat) : ValidatorSlashingState where
  cumulativeSlashes := UInt32.ofNat count
  lastSlashEpoch := if count = 0 then 0 else 1
  records := List.replicate count reportedRecord

variable {count : Nat}

theorem penalties_afterReports : penalties (List.replicate count reportedRecord) = count * 1000 := by
  rw [penalties, List.map_replicate, List.sum_replicate_nat]
  rfl

theorem toNat_afterReports (few : count ≤ 4294968) :
    (afterReports count).cumulativeSlashes.toNat = count := by
  change (UInt32.ofNat count).toNat = count
  rw [UInt32.toNat_ofNat']
  exact Nat.mod_eq_of_lt (by omega)

theorem taken_afterReports : refuseReport true patientConfig [7] (afterReports count) 1 = none := by
  unfold refuseReport
  rw [if_neg, if_neg, if_neg]
  · simp [ValidatorSlashingState.inCooldown, patientConfig]
  · simp [ValidatorSlashingState.isJailedAt, afterReports]
  · simp [afterReports]

/-- The last report that fits is the 4294967th. -/
theorem judge_afterReports (few : count ≤ 4294968) :
    judge true patientConfig (afterReports count) 1 1000 =
      (afterReports count, if count ≤ 4294967 then .accepted 1000 else .panicked) := by
  have cumulative := toNat_afterReports few
  have sum : penalties (afterReports count).records = count * 1000 := penalties_afterReports
  unfold judge
  rw [if_neg, sum]
  · by_cases fits : count ≤ 4294967
    · have low :
          cumulativeRatioPermille patientConfig (afterReports count).cumulativeSlashes < 1000 := by
        unfold cumulativeRatioPermille
        rw [cumulative, if_pos (by decide)]
        change count * 1000 / 4294967295 < 1000
        omega
      rw [if_neg (by simp; omega), if_neg, if_pos fits]
      change ¬ 1000 ≤ _
      omega
    · rw [if_pos (by simp; omega), if_neg fits]
  · rw [UInt32.le_iff_toNat_le, cumulative]
    change ¬ 4294967295 ≤ count
    omega

theorem respond_afterReports (few : count ≤ 4294967) :
    respond true patientConfig (afterReports count) (reportAt 1) =
      (afterReports (count + 1), if count + 1 ≤ 4294967 then .accepted 1000 else .panicked) := by
  have cumulative := toNat_afterReports (few.trans (Nat.le_succ _))
  have counted : ({ afterReports count with
      cumulativeSlashes := (afterReports count).cumulativeSlashes + 1
      lastSlashEpoch := 1
      records := (afterReports count).records ++ [reportedRecord] } : ValidatorSlashingState) =
        afterReports (count + 1) := by
    simp [afterReports, UInt32.ofNat_add, List.replicate_succ']
  rw [reportAt, respond, taken_afterReports]
  dsimp only
  rw [acceptReport, if_neg (by simp [cumulative]; omega)]
  rw [← judge_afterReports (by omega), ← counted]
  rfl

theorem run_afterReports (more : Nat) (few : count + more ≤ 4294967)
    {states : States} (reported : stateOf states [7] = afterReports count) :
    stateOf (run (step true patientConfig) states (List.replicate more (reportAt 1))) [7] =
        afterReports (count + more) ∧
      tally (step true patientConfig) (acceptedFor true patientConfig [7]) states
        (List.replicate more (reportAt 1)) = more := by
  induction more generalizing count states with
  | zero => exact ⟨reported, rfl⟩
  | succ more ih =>
    have responds := respond_afterReports (show count ≤ 4294967 by omega)
    have next : stateOf (step true patientConfig states (reportAt 1)).1 [7] =
        afterReports (count + 1) := by
      rw [(step_respond _).1, reported, responds]
      rfl
    have accepted : acceptedFor true patientConfig [7] states (reportAt 1) = 1 := by
      apply if_pos
      rw [(step_respond _).2]
      change _ ∧ (respond true patientConfig (stateOf states [7]) (reportAt 1)).2.isAccepted = true
      rw [reported, responds, if_pos (by omega)]
      exact ⟨rfl, rfl⟩
    obtain ⟨last, tallied⟩ := ih (by omega) next
    rw [List.replicate_succ]
    constructor
    · rw [run_cons, last, Nat.add_right_comm, Nat.add_assoc]
    · rw [tally, accepted, tallied, Nat.add_comm]

/-- The 4294968th report panics, and is counted. -/
theorem panicked_report_is_counted :
    slashes (run (step true patientConfig) ∅ (List.replicate 4294967 (reportAt 1) ++ [reportAt 1]))
        [7] = 4294968 ∧
      tally (step true patientConfig) (acceptedFor true patientConfig [7]) ∅
        (List.replicate 4294967 (reportAt 1) ++ [reportAt 1]) = 4294967 := by
  have start : stateOf ∅ [7] = afterReports 0 := by simp [stateOf, afterReports]
  obtain ⟨last, tallied⟩ := run_afterReports 4294967 (by omega) start
  rw [Nat.zero_add] at last
  have responds := respond_afterReports (show 4294967 ≤ 4294967 by omega)
  constructor
  · rw [run_concat, slashes, (step_respond _).1, last, responds]
    exact toNat_afterReports (by omega)
  · rw [tally_append, tallied]
    have none : acceptedFor true patientConfig [7]
        (run (step true patientConfig) ∅ (List.replicate 4294967 (reportAt 1))) (reportAt 1) =
          0 := by
      apply if_neg
      rw [(step_respond _).2]
      change ¬ (_ ∧ (respond true patientConfig (stateOf _ [7]) (reportAt 1)).2.isAccepted = true)
      rw [last, responds]
      rintro ⟨_, accepted⟩
      cases accepted
    rw [tally, none]
    rfl

end Savitri.Slashing
