import Savitri.ByteWords
import Savitri.DecimalPairs
import Savitri.LatticeTypes

/-!
Slot leaders, from core/slot_scheduler.rs. The
leader of a slot is chosen among the texts of the validators, read as hexadecimal keys,
and `slot_info_at` compares it with the local id written in decimal, byte by byte.
`is_validator` is what `new` sets it to. Storage keeps the last slot; its writes
succeed here. `none` stands for a panic.
-/
namespace Savitri.SlotLeaders
open LatticeTypes DecimalPairs LeBytes

/-- The 32 bytes of a key; a parsed key gives back the bytes it was parsed from. -/
abbrev Key := List UInt8

structure Settings where
  slotDurationMs : UInt64
  baseMs : UInt64
  validators : List String
  deriving DecidableEq

structure SlotScheduler extends Settings where
  localId : String
  lastSlot : UInt64
  deriving DecidableEq

inductive SlotRole where
  | leader
  | follower
  | observer
  deriving DecidableEq

structure SlotInfo where
  slot : UInt64
  round : UInt32
  leader : Option String
  role : SlotRole
  startMs : UInt64
  endMs : UInt64
  deriving DecidableEq

variable (overflowChecks : Bool) (sha256 : List UInt8 → Vector UInt8 32) (parses : Key → Bool)

def machineSum {Word : Type} (bound exact : Nat) (wrapped : Word) : Option Word :=
  if overflowChecks && bound ≤ exact then none else some wrapped

def toDigit16 (char : Char) : Option Nat :=
  if '0' ≤ char ∧ char ≤ '9' then some (char.toNat - 48)
  else if 'a' ≤ char ∧ char ≤ 'f' then some (char.toNat - 87)
  else if 'A' ≤ char ∧ char ≤ 'F' then some (char.toNat - 55)
  else none

/-- Characters that are no digits are passed over; an odd number of digits panics. -/
def validatorKey (validator : String) : Option (Option Key) :=
  (readPairs (validator.toList.filterMap toDigit16)).map fun bytes =>
    if bytes.length = 32 ∧ parses bytes = true then some bytes else none

def validatorKeys : List String → Option (List Key)
  | [] => some []
  | validator :: rest => do
    let key ← validatorKey parses validator
    let keys ← validatorKeys rest
    return key.toList ++ keys

variable (settings : Settings)

def calculateDeterministicSeed (slot : UInt64) : Vector UInt8 32 :=
  sha256 ("savitri-slot-leader-v1".toUTF8.toList ++ toLeBytes 8 settings.baseMs.toNat ++
    toLeBytes 8 slot.toNat ++ toLeBytes 8 settings.slotDurationMs.toNat ++
    settings.validators.flatMap fun validator => validator.toUTF8.toList)

def totalScore (scores : List UInt32) : Option UInt32 :=
  machineSum overflowChecks (2 ^ 32) (scores.map UInt32.toNat).sum scores.sum

/-- The loop over keys and scores; none is left where the selection runs past all of them. -/
def selectKey : UInt32 → List (Key × UInt32) → Option Key
  | _, [] => none
  | selection, (key, score) :: rest =>
    if selection < score then some key else selectKey (selection - score) rest

def calculateLeader (slot : UInt64) (pouScores : Key → Option UInt32) : Option (Option Key) := do
  let keys ← validatorKeys parses settings.validators
  let scores := keys.map fun key => (pouScores key).getD 1
  if keys = [] then return none
  let total ← totalScore overflowChecks scores
  if total = 0 then return keys.head?
  let seed := calculateDeterministicSeed sha256 settings slot
  let selection := UInt32.ofNat (fromLeBytes (seed.toList.take 4)) % total
  return (selectKey selection (keys.zip scores)).or keys.head?

def render (key : Key) : String := String.join (key.map fun byte => toString byte.toNat)

def slotFromTime (nowMs : UInt64) : Option UInt64 :=
  if nowMs ≤ settings.baseMs then some 0
  else if settings.slotDurationMs = 0 then none
  else some ((nowMs - settings.baseMs) / settings.slotDurationMs)

variable (scheduler : SlotScheduler)

def SlotScheduler.isValidator : Bool := scheduler.localId ∈ scheduler.validators

def roleFor (leader : Option String) (isValidator : Bool) (localId : String) : SlotRole :=
  match leader, isValidator with
  | some text, true => if text = localId then .leader else .follower
  | _, _ => .observer

/-- The scheduler with its last slot moved on, and what it reports. -/
def slotInfoAt (nowMs : UInt64) : Option (SlotScheduler × SlotInfo) := do
  let timed ← slotFromTime scheduler.toSettings nowMs
  let slot := max timed scheduler.lastSlot
  let startMs ← machineSum overflowChecks (2 ^ 64)
    (scheduler.baseMs.toNat + slot.toNat * scheduler.slotDurationMs.toNat)
    (scheduler.baseMs + slot * scheduler.slotDurationMs)
  let endMs ← machineSum overflowChecks (2 ^ 64)
    (startMs.toNat + scheduler.slotDurationMs.toNat) (startMs + scheduler.slotDurationMs)
  -- without validators no leader is asked for, and there is none
  let leader ← calculateLeader overflowChecks sha256 parses scheduler.toSettings slot fun _ => none
  let leader := leader.map render
  let round := if scheduler.validators = [] then 0
    else UInt32.ofNat (slot.toNat % scheduler.validators.length)
  return ({ scheduler with lastSlot := slot },
    { slot, round, leader, startMs, endMs
      role := roleFor leader scheduler.isValidator scheduler.localId })

section
theorem digits_toString : ∀ number < 256,
    (toString number).toList.filterMap toDigit16 = decimalDigits number := by
  decide +kernel

variable {key : Key}

theorem digits_render : (render key).toList.filterMap toDigit16 = spread key := by
  rw [render, String.toList_join, List.flatMap_map, List.filterMap_flatMap, spread]
  congr 1
  funext byte
  exact digits_toString byte.toNat byte.toNat_lt

variable {parses}

/-- No validator is the decimal rendering of the key it reads as. -/
theorem render_ne_validator {validator : String}
    (read : validatorKey parses validator = some (some key)) : render key ≠ validator := by
  intro same
  obtain ⟨bytes, digits, chosen⟩ := Option.map_eq_some_iff.mp read
  split at chosen
  next valid =>
    cases chosen
    rw [← same, digits_render] at digits
    have filled : key ≠ [] := by
      rintro rfl
      cases valid.1
    exact readPairs_spread_ne filled digits
  next => cases chosen

end

section Roles
variable {overflowChecks sha256 parses}

theorem leader_of_roleFor {leader : Option String} {isValidator : Bool} {localId : String}
    (leads : roleFor leader isValidator localId = .leader) : leader = some localId := by
  unfold roleFor at leads
  split at leads
  next text =>
    split at leads
    next same => rw [same]
    next => cases leads
  next => cases leads

theorem leader_of_slotInfoAt {scheduler after : SlotScheduler} {nowMs : UInt64} {info : SlotInfo}
    (reported : slotInfoAt overflowChecks sha256 parses scheduler nowMs = some (after, info))
    (leads : info.role = .leader) :
    ∃ key, calculateLeader overflowChecks sha256 parses scheduler.toSettings info.slot
        (fun _ => none) = some (some key) ∧ render key = scheduler.localId := by
  simp only [slotInfoAt, Option.bind_eq_bind, Option.bind_eq_some_iff, Option.pure_def,
    Option.some.injEq, Prod.mk.injEq] at reported
  obtain ⟨timed, _, startMs, _, endMs, _, leader, chosen, _, rfl⟩ := reported
  obtain ⟨key, rfl, rendered⟩ := Option.map_eq_some_iff.mp (leader_of_roleFor leads)
  exact ⟨key, chosen, rendered⟩

variable (overflowChecks sha256 parses)

def ReportsLeader (settings : Settings) (slot : UInt64) (validator : String) : Prop :=
  ∃ lastSlot nowMs after info,
    slotInfoAt overflowChecks sha256 parses
        { toSettings := settings, localId := validator, lastSlot } nowMs = some (after, info) ∧
      info.slot = slot ∧ info.role = .leader

def ChosenLeads (settings : Settings) (slot : UInt64) : Prop :=
  ∃ chosen ∈ settings.validators,
    (∀ validator ∈ settings.validators,
      ReportsLeader overflowChecks sha256 parses settings slot validator ↔ validator = chosen) ∧
    ∃ key, calculateLeader overflowChecks sha256 parses settings slot (fun _ => none) =
      some (some key) ∧ validatorKey parses chosen = some (some key)

/-- The validator chosen for a slot never reports to lead it. -/
theorem chosen_never_leads (settings : Settings) (slot : UInt64) :
    ¬ ChosenLeads overflowChecks sha256 parses settings slot := by
  rintro ⟨chosen, member, unique, key, calculated, read⟩
  obtain ⟨lastSlot, nowMs, after, info, report, atSlot, leads⟩ := (unique chosen member).mpr rfl
  obtain ⟨other, again, rendered⟩ := leader_of_slotInfoAt report leads
  rw [atSlot] at again
  cases calculated.symm.trans again
  exact render_ne_validator read rendered

/-- Two points of the curve. -/
def firstKey : Key :=
  [0xd7, 0x5a, 0x98, 0x01, 0x82, 0xb1, 0x0a, 0xb7, 0xd5, 0x4b, 0xfe, 0xd3, 0xc9, 0x64, 0x07, 0x3a,
    0x0e, 0xe1, 0x72, 0xf3, 0xda, 0xa6, 0x23, 0x25, 0xaf, 0x02, 0x1a, 0x68, 0xf7, 0x07, 0x51, 0x1a]

def secondKey : Key :=
  [0x3d, 0x40, 0x17, 0xc3, 0xe8, 0x43, 0x89, 0x5a, 0x92, 0xb7, 0x0a, 0xa7, 0x4d, 0x1b, 0x7e, 0xbc,
    0x9c, 0x98, 0x2c, 0xcf, 0x2e, 0xc4, 0x96, 0x8c, 0xc0, 0xcd, 0x55, 0xf1, 0x2a, 0xf4, 0x66, 0x0c]

def sampleParses (bytes : Key) : Bool := bytes == firstKey || bytes == secondKey

def sampleSettings : Settings where
  slotDurationMs := 1000
  baseMs := 5000
  validators := ["d75a980182b10ab7d54bfed3c964073a0ee172f3daa62325af021a68f707511a",
    "3d4017c3e843895a92b70aa74d1b7ebc9c982ccf2ec4968cc0cd55f12af4660c"]

def sampleSha256 (_ : List UInt8) : Vector UInt8 32 := Vector.replicate 32 0

/-- The first validator is chosen, and both report to follow. -/
theorem chosen_validator_follows :
    calculateLeader true sampleSha256 sampleParses sampleSettings 3 (fun _ => none) =
        some (some firstKey) ∧
      sampleSettings.validators.head?.map (validatorKey sampleParses) =
        some (some (some firstKey)) ∧
      sampleSettings.validators.map (fun validator =>
        (slotInfoAt true sampleSha256 sampleParses
          { toSettings := sampleSettings, localId := validator, lastSlot := 0 } 8500).map
            fun report => report.2.role) = [some .follower, some .follower] := by
  decide +kernel

end Roles

variable {selection : UInt32} {scores : List UInt32}

section Weights
/-- The list position whose key `selectKey` returns. -/
def selectPosition : UInt32 → List UInt32 → Option Nat
  | _, [] => none
  | selection, score :: rest =>
    if selection < score then some 0 else (selectPosition (selection - score) rest).map (· + 1)

theorem selectKey_zip {keys : List Key}
    (sized : keys.length = scores.length) :
    selectKey selection (keys.zip scores) = (selectPosition selection scores).bind (keys[·]?) := by
  induction scores generalizing selection keys with
  | nil => cases keys <;> rfl
  | cons score rest ih =>
    cases keys with
    | nil => cases sized
    | cons key keys =>
      rw [List.zip_cons_cons, selectKey, selectPosition]
      split
      · rfl
      · rw [ih (Nat.succ.inj sized), Option.bind_map]
        rfl

def weightBefore (scores : List UInt32) (position : Nat) : Nat :=
  ((scores.map UInt32.toNat).take position).sum

/-- The subtractions stay exact: a position is chosen by the selections of its interval. -/
theorem selectPosition_eq_some_iff {position : Nat} :
    selectPosition selection scores = some position ↔ position < scores.length ∧
      weightBefore scores position ≤ selection.toNat ∧
        selection.toNat < weightBefore scores (position + 1) := by
  induction scores generalizing selection position with
  | nil => simp [selectPosition]
  | cons score rest ih =>
    rw [selectPosition]
    split
    next chosen =>
      have small := UInt32.lt_iff_toNat_lt.mp chosen
      cases position with
      | zero => simpa [weightBefore] using small
      | succ position =>
        simp only [weightBefore, List.map_cons, List.take_succ_cons, List.sum_cons]
        simp
        omega
    next passed =>
      have large : score.toNat ≤ selection.toNat := by
        rw [UInt32.lt_iff_toNat_lt] at passed
        omega
      have exactly := UInt32.toNat_sub_of_le selection score (UInt32.le_iff_toNat_le.mpr large)
      cases position with
      | zero =>
        simp [weightBefore]
        omega
      | succ position =>
        simp only [Option.map_eq_some_iff, Nat.succ_inj, exists_eq_right, ih, exactly, weightBefore,
          List.map_cons, List.take_succ_cons, List.sum_cons, List.length_cons]
        omega

theorem card_selections {position : Nat} {score : UInt32}
    (small : (scores.map UInt32.toNat).sum < 2 ^ 32) (found : scores[position]? = some score) :
    ((Finset.range (scores.map UInt32.toNat).sum).filter fun residue =>
      selectPosition (UInt32.ofNat residue) scores = some position).card = score.toNat := by
  obtain ⟨inside, rfl⟩ := List.getElem?_eq_some_iff.mp found
  have next : weightBefore scores (position + 1) =
      weightBefore scores position + scores[position].toNat := by
    rw [weightBefore, List.take_add_one, List.sum_append]
    simp [inside, weightBefore]
  have last : weightBefore scores (position + 1) ≤ (scores.map UInt32.toNat).sum :=
    (List.take_sublist _ _).sum_le_sum (by simp)
  have interval : (Finset.range (scores.map UInt32.toNat).sum).filter (fun residue =>
      selectPosition (UInt32.ofNat residue) scores = some position) =
      Finset.Ico (weightBefore scores position) (weightBefore scores (position + 1)) := by
    ext residue
    rw [Finset.mem_filter, Finset.mem_range, Finset.mem_Ico, selectPosition_eq_some_iff]
    constructor
    · rintro ⟨below, _, within⟩
      rwa [UInt32.toNat_ofNat_of_lt' (show _ < 2 ^ 32 by omega)] at within
    · intro within
      rw [UInt32.toNat_ofNat_of_lt' (show _ < 2 ^ 32 by omega)]
      exact ⟨by omega, inside, within⟩
  rw [interval, Nat.card_Ico, next]
  omega

theorem toNat_sum (small : (scores.map UInt32.toNat).sum < 2 ^ 32) :
    scores.sum.toNat = (scores.map UInt32.toNat).sum := by
  induction scores with
  | nil => rfl
  | cons score rest ih =>
    rw [List.map_cons, List.sum_cons] at small ⊢
    rw [List.sum_cons, UInt32.toNat_add, ih (by omega), Nat.mod_eq_of_lt small]

variable {parses}

theorem validatorKeys_length {validators : List String}
    (digits : ∀ validator ∈ validators, (validator.toList.filterMap toDigit16).length = 64)
    (parsed : ∀ validator ∈ validators, ∀ bytes,
      readPairs (validator.toList.filterMap toDigit16) = some bytes → parses bytes = true) :
    ∃ keys, validatorKeys parses validators = some keys ∧ keys.length = validators.length := by
  induction validators with
  | nil => exact ⟨[], rfl, rfl⟩
  | cons validator rest ih =>
    obtain ⟨keys, read, sized⟩ := ih
      (fun other member => digits other (List.mem_cons_of_mem _ member))
      (fun other member => parsed other (List.mem_cons_of_mem _ member))
    obtain ⟨bytes, paired⟩ := exists_readPairs 32 (digits validator List.mem_cons_self)
    have width := length_readPairs paired
    rw [digits validator List.mem_cons_self] at width
    have key : validatorKey parses validator = some (some bytes) := by
      rw [validatorKey, paired, Option.map_some,
        if_pos ⟨by omega, parsed validator List.mem_cons_self bytes paired⟩]
    exact ⟨bytes :: keys, by simp [validatorKeys, key, read], by simp [sized]⟩

theorem exists_selectPosition (selection : UInt32)
    (below : selection.toNat < (scores.map UInt32.toNat).sum) :
    ∃ position, selectPosition selection scores = some position := by
  induction scores generalizing selection with
  | nil => simp at below
  | cons score rest ih =>
    rw [selectPosition]
    split
    next => exact ⟨0, rfl⟩
    next passed =>
      have large : score ≤ selection := UInt32.not_lt.mp passed
      have exactly := UInt32.toNat_sub_of_le selection score large
      rw [List.map_cons, List.sum_cons] at below
      have less := UInt32.le_iff_toNat_le.mp large
      obtain ⟨position, found⟩ := ih (selection - score) (by omega)
      exact ⟨position + 1, by rw [found]; rfl⟩

variable (parses)

/-- The residues of the seed are split among the validators by their scores: the loop always
ends at a position, and as many residues choose a position as its score says. -/
theorem leader_weights_exact (settings : Settings) (slot : UInt64)
    (pouScores : Key → Option UInt32)
    (digits : ∀ validator ∈ settings.validators, (validator.toList.filterMap toDigit16).length = 64)
    (parsed : ∀ validator ∈ settings.validators, ∀ bytes,
      readPairs (validator.toList.filterMap toDigit16) = some bytes → parses bytes = true) :
    ∃ keys scores, validatorKeys parses settings.validators = some keys ∧
      keys.length = settings.validators.length ∧
      scores = keys.map (fun key => (pouScores key).getD 1) ∧
      (0 < (scores.map UInt32.toNat).sum → (scores.map UInt32.toNat).sum < 2 ^ 32 →
        (∃ residue position, residue = fromLeBytes
            ((calculateDeterministicSeed sha256 settings slot).toList.take 4) %
              (scores.map UInt32.toNat).sum ∧
          selectPosition (UInt32.ofNat residue) scores = some position ∧
          (weightBefore scores position ≤ residue ∧
            residue < weightBefore scores (position + 1)) ∧ position < keys.length ∧
          calculateLeader overflowChecks sha256 parses settings slot pouScores = some keys[position]?) ∧
        ∀ position score, scores[position]? = some score →
          ((Finset.range (scores.map UInt32.toNat).sum).filter fun residue =>
            selectPosition (UInt32.ofNat residue) scores = some position).card = score.toNat) := by
  obtain ⟨keys, read, sized⟩ := validatorKeys_length digits parsed
  refine ⟨keys, _, read, sized, rfl, fun positive small =>
    ⟨?_, fun position score found => card_selections small found⟩⟩
  generalize scored : keys.map (fun key => (pouScores key).getD 1) = scores at positive small ⊢
  have paired : keys.length = scores.length := by rw [← scored, List.length_map]
  have nonempty : keys ≠ [] := by
    rintro rfl
    rw [← scored] at positive
    exact absurd positive (by simp)
  have total := toNat_sum small
  generalize residueOf : fromLeBytes
    ((calculateDeterministicSeed sha256 settings slot).toList.take 4) = value
  have word : value < 2 ^ 32 := by
    have bound := fromLeBytes_lt ((calculateDeterministicSeed sha256 settings slot).toList.take 4)
    rw [residueOf, List.length_take, Vector.length_toList] at bound
    exact bound
  have selection : UInt32.ofNat value % scores.sum =
      UInt32.ofNat (value % (scores.map UInt32.toNat).sum) := by
    apply UInt32.toNat_inj.mp
    have under := Nat.mod_lt value positive
    rw [UInt32.toNat_mod, total, UInt32.toNat_ofNat_of_lt' word,
      UInt32.toNat_ofNat_of_lt' (show _ < 2 ^ 32 by omega)]
  have below := Nat.mod_lt value positive
  have same : (UInt32.ofNat (value % (scores.map UInt32.toNat).sum)).toNat =
      value % (scores.map UInt32.toNat).sum := UInt32.toNat_ofNat_of_lt' (show _ < 2 ^ 32 by omega)
  obtain ⟨position, chosen⟩ := exists_selectPosition
    (UInt32.ofNat (value % (scores.map UInt32.toNat).sum)) (same ▸ below)
  obtain ⟨inside, within⟩ := selectPosition_eq_some_iff.mp chosen
  rw [same] at within
  refine ⟨_, position, rfl, chosen, within, by omega, ?_⟩
  have nonzero : scores.sum ≠ 0 := by
    intro zero
    rw [zero] at total
    rw [← total] at positive
    exact absurd positive (by decide)
  rw [calculateLeader, read]
  simp only [Option.bind_eq_bind, Option.bind_some, scored, if_neg nonempty]
  rw [totalScore, machineSum, if_neg (by simp; omega), Option.bind_some, if_neg nonzero, residueOf,
    selection, selectKey_zip paired, chosen, Option.bind_some,
    List.getElem?_eq_getElem (by omega)]
  rfl

theorem sampleSettings_parsed : ∀ validator ∈ sampleSettings.validators, ∀ bytes,
    readPairs (validator.toList.filterMap toDigit16) = some bytes → sampleParses bytes = true := by
  have read : sampleSettings.validators.map (fun validator =>
      readPairs (validator.toList.filterMap toDigit16)) = [some firstKey, some secondKey] := by
    decide +kernel
  intro validator member bytes found
  have listed := List.mem_map_of_mem (f := fun validator : String =>
    readPairs (validator.toList.filterMap toDigit16)) member
  rw [read, found] at listed
  simp only [List.mem_cons, Option.some.injEq, List.not_mem_nil, or_false] at listed
  rcases listed with rfl | rfl <;> decide +kernel

/-- Scores 3 and 0 for two validators: all three residues choose the first. -/
theorem leader_weights_three_zero :
    ∃ keys scores, validatorKeys sampleParses sampleSettings.validators = some keys ∧
      keys.length = sampleSettings.validators.length ∧
      scores = keys.map (fun key =>
        (if key = firstKey then some (3 : UInt32) else some 0).getD 1) ∧
      scores = [3, 0] ∧
      ∀ position score, scores[position]? = some score →
        ((Finset.range 3).filter fun residue =>
          selectPosition (UInt32.ofNat residue) scores = some position).card = score.toNat := by
  obtain ⟨keys, scores, read, sized, scored, weights⟩ := leader_weights_exact true sampleSha256
    sampleParses sampleSettings 3 (fun key => if key = firstKey then some 3 else some 0)
    (by decide +kernel) sampleSettings_parsed
  have known : validatorKeys sampleParses sampleSettings.validators =
      some [firstKey, secondKey] := by decide +kernel
  cases read.symm.trans known
  have scores_eq : scores = [3, 0] := by
    rw [scored]
    decide +kernel
  subst scores_eq
  exact ⟨_, _, read, sized, scored, rfl, (weights (by decide) (by decide)).2⟩

end Weights

end Savitri.SlotLeaders
