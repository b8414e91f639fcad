import Savitri.ByteWords
import Savitri.Fallible
import Savitri.LatticeTypes

/-!
The storage of one contract as contracts/storage.rs keeps it: writes go to an overlay,
reads come from the overlay, then from a cache, then from the database. A write of zero
takes the slot out of the overlay, so the next read finds what the database has.
Reads of the database succeed; of the gas costs only those charged here are kept.
-/
namespace Savitri.Contracts
open Fallible Transition
open LatticeTypes (toLeBytes)
open Std (ExtTreeMap)
variable {contractAddress : List UInt8} {nothing : Unit}

structure GasCosts where
  sload : Nat := 100
  sstoreNew : Nat := 20000
  sstoreUpdate : Nat := 5000
  log : Nat := 375
  logTopic : Nat := 375
  logData : Nat := 8

structure GasMeter where
  gasLimit : Nat
  gasUsed : Nat := 0
  costs : GasCosts := {}
  batchAccumulator : Nat := 0
  batchCount : Nat := 0
  batchLimit : Nat := 100

/-- The gas used is raised before it is compared with the limit. -/
def GasMeter.commitBatch (meter : GasMeter) : GasMeter × Except String Unit :=
  if meter.batchAccumulator = 0 then (meter, .ok ())
  else if 2 ^ 64 ≤ meter.gasUsed + meter.batchAccumulator then
    (meter, .error "Gas overflow: addition would exceed u64::MAX")
  else
    let meter := { meter with gasUsed := meter.gasUsed + meter.batchAccumulator }
    if meter.gasLimit < meter.gasUsed then
      (meter, .error ("Out of gas: used " ++ toString meter.gasUsed ++ " > limit " ++
        toString meter.gasLimit))
    else ({ meter with batchAccumulator := 0, batchCount := 0 }, .ok ())

def GasMeter.consume (meter : GasMeter) (amount : Nat) : GasMeter × Except String Unit :=
  if 2 ^ 64 ≤ meter.batchAccumulator + amount then
    (meter, .error "Gas overflow: batch accumulator would exceed u64::MAX")
  else
    let meter := { meter with
      batchAccumulator := meter.batchAccumulator + amount, batchCount := meter.batchCount + 1 }
    if meter.batchLimit ≤ meter.batchCount then meter.commitBatch else (meter, .ok ())

def GasMeter.consumeSload (meter : GasMeter) : GasMeter × Except String Unit :=
  meter.consume meter.costs.sload

def GasMeter.consumeSstore (isNew : Bool) (meter : GasMeter) : GasMeter × Except String Unit :=
  meter.consume (if isNew then meter.costs.sstoreNew else meter.costs.sstoreUpdate)

/-- The first topic is part of the base cost. -/
def GasMeter.consumeLog (topics dataLen : Nat) (meter : GasMeter) : GasMeter × Except String Unit :=
  let topicsCost := (topics - 1) * meter.costs.logTopic
  let dataCost := dataLen * meter.costs.logData
  if 2 ^ 64 ≤ topicsCost then (meter, .error "Gas overflow: log topics cost calculation")
  else if 2 ^ 64 ≤ meter.costs.log + topicsCost then
    (meter, .error "Gas overflow: log cost calculation")
  else if 2 ^ 64 ≤ dataCost then (meter, .error "Gas overflow: log data cost calculation")
  else if 2 ^ 64 ≤ meter.costs.log + topicsCost + dataCost then
    (meter, .error "Gas overflow: log cost calculation")
  else meter.consume (meter.costs.log + topicsCost + dataCost)

abbrev Slot := UInt64
abbrev Value := List UInt8

/-- The column family `contracts`, ordered by the bytes of its keys. -/
abbrev ContractsCf := ExtTreeMap (List UInt8) Value

def zeroValue : Value := List.replicate 32 0

def isZero (value : Value) : Bool := value.all (· == 0)

structure ContractStorage where
  contractAddress : List UInt8
  overlay : ExtTreeMap Slot Value := ∅
  readCache : ExtTreeMap Slot Value := ∅
  sized : contractAddress.length = 32

def ContractStorage.new (contractAddress : List UInt8) : Except Failure ContractStorage :=
  if sized : contractAddress.length = 32 then .ok { contractAddress, sized }
  else .error ["contract address must be exactly 32 bytes, got " ++ toString contractAddress.length]

def makeStoragePrefix (contractAddress : List UInt8) : List UInt8 :=
  "storage:".toUTF8.toList ++ contractAddress

def makeStorageKey (contractAddress : List UInt8) (slot : Slot) : List UInt8 :=
  makeStoragePrefix contractAddress ++ toLeBytes 8 slot.toNat

structure Execution where
  contractStorage : ContractStorage
  gasMeter : Option GasMeter := none

section Access
/-- A call without a meter is free. -/
def useGas (consume : GasMeter → GasMeter × Except String Unit) (label : String) :
    Action Execution Unit := do
  match (← get).gasMeter with
  | none => return ()
  | some meter =>
    let (meter, result) := consume meter
    modify fun execution => { execution with gasMeter := some meter }
    match result with
    | .ok () => return ()
    | .error text => fail (label ++ text)

variable (db : ContractsCf)

/-- The value of a slot in the database; a missing slot is not malformed. -/
def storedValue (contractAddress : List UInt8) (slot : Slot) : Action Execution Value :=
  match db[makeStorageKey contractAddress slot]? with
  | none => return zeroValue
  | some value => do
    require (value.length == 32)
      ("invalid storage value length in database: expected 32, got " ++ toString value.length)
    return value

def ContractStorage.cacheRead (self : ContractStorage) (slot : Slot) (value : Value) :
    ContractStorage :=
  { self with readCache := self.readCache.insert slot value }

def onStorage (change : ContractStorage → ContractStorage) : Action Execution Unit :=
  modify fun execution =>
    { execution with contractStorage := change execution.contractStorage }

def sload (slot : Slot) : Action Execution Value := do
  useGas GasMeter.consumeSload "SLOAD gas consumption failed: "
  let self := (← get).contractStorage
  match self.overlay[slot]?.or self.readCache[slot]? with
  | some value => return value
  | none =>
    let value ← storedValue db self.contractAddress slot
    onStorage (·.cacheRead slot value)
    return value

def isReservedSlot (slot : Slot) : Bool := decide (slot ≤ 99)

def validateSlotNotReserved (slot : Slot) : Action Execution Unit :=
  require (!isReservedSlot slot)
    ("Slot " ++ toString slot.toNat ++ " is reserved for BaseContract (slots 0-99 are reserved)")

def ContractStorage.isNew (self : ContractStorage) (slot : Slot) : Bool :=
  let missing := db[makeStorageKey self.contractAddress slot]?.isNone
  match self.overlay[slot]? with
  | some current => isZero current && missing
  | none => missing

/-- A zero is not kept: overlay and cache forget the slot. -/
def ContractStorage.write (self : ContractStorage) (slot : Slot) (value : Value) : ContractStorage :=
  if isZero value then
    { self with overlay := self.overlay.erase slot, readCache := self.readCache.erase slot }
  else
    { self with
      overlay := self.overlay.insert slot value
      readCache := self.readCache.insert slot value }

/-- `sstore` and `sstore_reserved`, which differ in the slots they take. -/
def storeChecked (check : Action Execution Unit) (slot : Slot) (value : Value) :
    Action Execution Unit := do
  require (value.length == 32)
    ("storage value must be exactly 32 bytes, got " ++ toString value.length)
  check
  let isNew := (← get).contractStorage.isNew db slot
  useGas (GasMeter.consumeSstore isNew) "SSTORE gas consumption failed: "
  onStorage (·.write slot value)

def sstore (slot : Slot) (value : Value) : Action Execution Unit :=
  storeChecked db (withContext ("Cannot write to reserved slot " ++ toString slot.toNat ++
    " (slots 0-99 are reserved for BaseContract)") (validateSlotNotReserved slot)) slot value

def sstoreReserved (slot : Slot) (value : Value) : Action Execution Unit :=
  storeChecked db (require (isReservedSlot slot)
    ("sstore_reserved() can only be used for reserved slots (0-99), got slot " ++
      toString slot.toNat)) slot value

end Access

section
open LeBytes
variable {width : Nat}

theorem toLeBytes_succ {value : Nat} :
    toLeBytes (width + 1) value = UInt8.ofNat value :: toLeBytes width (value / 256) := by
  unfold toLeBytes
  rw [List.range_succ_eq_map, List.map_cons, List.map_map, Nat.pow_zero, Nat.div_one]
  congr 1
  apply List.map_congr_left
  intro index _
  rw [Function.comp_apply, Nat.pow_succ', Nat.div_div_eq_div_mul]

theorem fromLeBytes_toLeBytes (value : Nat) :
    fromLeBytes (toLeBytes width value) = value % 256 ^ width := by
  induction width generalizing value with
  | zero => simp [toLeBytes, fromLeBytes, Nat.mod_one]
  | succ width ih =>
    rw [toLeBytes_succ, fromLeBytes, ih, Nat.pow_succ', Nat.mod_mul, UInt8.toNat_ofNat']

theorem toLeBytes_fromLeBytes {bytes : List UInt8} :
    toLeBytes bytes.length (fromLeBytes bytes) = bytes := by
  apply fromLeBytes_inj
  · rw [LatticeTypes.length_toLeBytes]
  · rw [fromLeBytes_toLeBytes, Nat.mod_eq_of_lt (fromLeBytes_lt bytes)]

end

variable {before after : Execution} {self : ContractStorage}

section Effects
variable {db : ContractsCf}

def dbValue (db : ContractsCf) (contractAddress : List UInt8) (slot : Slot) : Value :=
  db[makeStorageKey contractAddress slot]?.getD zeroValue

def ContractStorage.value (db : ContractsCf) (self : ContractStorage) (slot : Slot) : Value :=
  self.overlay[slot]?.getD (dbValue db self.contractAddress slot)

/-- A cached slot that is not in the overlay has its value in the database. -/
def Coherent (db : ContractsCf) (self : ContractStorage) : Prop :=
  ∀ slot value, self.readCache[slot]? = some value → self.overlay[slot]? = none →
    value = dbValue db self.contractAddress slot

variable {slot : Slot} {value : Value} {other : Slot}

theorem eq_zeroValue (zero : isZero value = true) (sized : value.length = 32) : value = zeroValue := by
  unfold isZero at zero
  rw [List.all_eq_true] at zero
  exact List.eq_replicate_iff.mpr ⟨sized, fun byte member => by simpa using zero byte member⟩

theorem useGas_spec {consume : GasMeter → GasMeter × Except String Unit} {label : String}
    (returned : Returns (useGas consume label) before nothing after) :
    after.contractStorage = before.contractStorage := by
  unfold useGas at returned
  rw [returns_bind] at returned
  obtain ⟨_, _, read, returned⟩ := returned
  rw [returns_get] at read
  obtain ⟨rfl, rfl⟩ := read
  split at returned
  · rw [returns_pure] at returned
    rw [returned.2]
  · simp only [returns_bind, returns_modify] at returned
    obtain ⟨_, _, rfl, returned⟩ := returned
    split at returned
    · rw [returns_pure] at returned
      rw [← returned.2]
    · exact absurd returned returns_fail

@[simp]
theorem returns_onStorage {change : ContractStorage → ContractStorage} :
    Returns (onStorage change) before nothing after ↔
      { before with contractStorage := change before.contractStorage } = after := by
  unfold onStorage
  rw [returns_modify]

theorem storedValue_spec
    (returned : Returns (storedValue db contractAddress slot) before value after) :
    value = dbValue db contractAddress slot ∧ after = before := by
  unfold storedValue at returned
  unfold dbValue
  cases found : db[makeStorageKey contractAddress slot]? with
  | none =>
    simp only [found, returns_pure] at returned
    exact ⟨returned.1.symm, returned.2.symm⟩
  | some stored =>
    simp only [found, returns_bind, returns_require, returns_pure] at returned
    obtain ⟨_, _, ⟨_, rfl⟩, rfl, rfl⟩ := returned
    exact ⟨rfl, rfl⟩

theorem sload_spec (returned : Returns (sload db slot) before value after)
    (coherent : Coherent db before.contractStorage) :
    value = before.contractStorage.value db slot ∧
      after.contractStorage.overlay = before.contractStorage.overlay ∧
      after.contractStorage.contractAddress = before.contractStorage.contractAddress ∧
      Coherent db after.contractStorage := by
  unfold sload at returned
  simp only [returns_bind, returns_get] at returned
  obtain ⟨_, charged, gas, _, _, ⟨rfl, rfl⟩, returned⟩ := returned
  rw [← useGas_spec gas] at coherent ⊢
  unfold ContractStorage.value
  cases written : charged.contractStorage.overlay[slot]? with
  | some held =>
    simp only [written, Option.some_or, returns_pure] at returned
    obtain ⟨rfl, rfl⟩ := returned
    exact ⟨rfl, rfl, rfl, coherent⟩
  | none =>
    cases cached : charged.contractStorage.readCache[slot]? with
    | some held =>
      simp only [written, cached, Option.none_or, returns_pure] at returned
      obtain ⟨rfl, rfl⟩ := returned
      exact ⟨coherent slot held cached written, rfl, rfl, coherent⟩
    | none =>
      simp only [written, cached, Option.none_or, returns_bind, returns_onStorage,
        returns_pure] at returned
      obtain ⟨stored, _, read, _, _, rfl, rfl, rfl⟩ := returned
      obtain ⟨rfl, rfl⟩ := storedValue_spec read
      refine ⟨rfl, rfl, rfl, ?_⟩
      intro other value inCache notWritten
      simp only [ContractStorage.cacheRead, ExtTreeMap.getElem?_insert,
        Std.LawfulEqCmp.compare_eq_iff_eq] at inCache
      split at inCache
      · next same =>
          cases inCache
          rw [← same]
          rfl
      · exact coherent other value inCache notWritten

theorem storeChecked_spec {check : Action Execution Unit}
    (passes : ∀ before after nothing, Returns check before nothing after → before = after)
    (returned : Returns (storeChecked db check slot value) before nothing after) :
    value.length = 32 ∧ after.contractStorage = before.contractStorage.write slot value ∧
      Returns check before nothing before := by
  unfold storeChecked at returned
  simp only [returns_bind, returns_get, returns_require, returns_onStorage] at returned
  obtain ⟨_, _, ⟨sized, rfl⟩, _, _, checked, _, _, ⟨rfl, rfl⟩, _, _, gas, rfl⟩ := returned
  cases passes _ _ _ checked
  refine ⟨by simpa using sized, ?_, checked⟩
  rw [useGas_spec gas]

theorem sstore_spec (returned : Returns (sstore db slot value) before nothing after) :
    value.length = 32 ∧ after.contractStorage = before.contractStorage.write slot value ∧
      isReservedSlot slot = false := by
  obtain ⟨sized, written, checked⟩ := storeChecked_spec (by
    intro before after nothing checked
    rw [returns_withContext, validateSlotNotReserved, returns_require] at checked
    exact checked.2) returned
  rw [returns_withContext, validateSlotNotReserved, returns_require] at checked
  exact ⟨sized, written, by simpa using checked.1⟩

theorem sstoreReserved_spec (returned : Returns (sstoreReserved db slot value) before nothing after) :
    value.length = 32 ∧ after.contractStorage = before.contractStorage.write slot value := by
  obtain ⟨sized, written, _⟩ := storeChecked_spec (by
    intro before after nothing checked
    rw [returns_require] at checked
    exact checked.2) returned
  exact ⟨sized, written⟩

@[simp]
theorem contractAddress_write : (self.write slot value).contractAddress = self.contractAddress := by
  unfold ContractStorage.write
  split <;> rfl

theorem overlay_write :
    (self.write slot value).overlay[other]? =
      if slot = other then (if isZero value then none else some value)
      else self.overlay[other]? := by
  unfold ContractStorage.write
  split
  · simp only [ExtTreeMap.getElem?_erase, Std.LawfulEqCmp.compare_eq_iff_eq]
  · simp only [ExtTreeMap.getElem?_insert, Std.LawfulEqCmp.compare_eq_iff_eq]

theorem readCache_write :
    (self.write slot value).readCache[other]? =
      if slot = other then (if isZero value then none else some value)
      else self.readCache[other]? := by
  unfold ContractStorage.write
  split
  · simp only [ExtTreeMap.getElem?_erase, Std.LawfulEqCmp.compare_eq_iff_eq]
  · simp only [ExtTreeMap.getElem?_insert, Std.LawfulEqCmp.compare_eq_iff_eq]

theorem Coherent.write (coherent : Coherent db self) (slot : Slot) (value : Value) :
    Coherent db (self.write slot value) := by
  intro other held cached notWritten
  rw [overlay_write] at notWritten
  rw [readCache_write] at cached
  rw [contractAddress_write]
  by_cases same : slot = other
  · rw [if_pos same] at cached notWritten
    rw [notWritten] at cached
    cases cached
  · rw [if_neg same] at cached notWritten
    exact coherent other held cached notWritten

theorem value_write :
    (self.write slot value).value db other =
      if slot = other then
        (if isZero value then dbValue db self.contractAddress other else value)
      else self.value db other := by
  unfold ContractStorage.value
  rw [overlay_write, contractAddress_write]
  split
  · split <;> rfl
  · rfl

end Effects

section
variable {db : ContractsCf}

/-- The contract has no slot in the database, and its slots have the values of the view. -/
structure Sees (db : ContractsCf) (view : Slot → Value) (execution : Execution) : Prop where
  coherent : Coherent db execution.contractStorage
  unpersisted : ∀ slot, db[makeStorageKey execution.contractStorage.contractAddress slot]? = none
  values : execution.contractStorage.value db = view

variable {view : Slot → Value}
variable (sees : Sees db view before)
include sees

theorem Sees.dbValue_eq (slot : Slot) :
    dbValue db before.contractStorage.contractAddress slot = zeroValue := by
  rw [dbValue, sees.unpersisted slot, Option.getD_none]

theorem Sees.of_storage (same : after.contractStorage = before.contractStorage) :
    Sees db view after := by
  refine ⟨?_, ?_, ?_⟩
  · rw [same]
    exact sees.coherent
  · rw [same]
    exact sees.unpersisted
  · rw [same]
    exact sees.values

theorem Sees.sload (slot : Slot) (value : Value)
    (returned : Returns (sload db slot) before value after) :
    value = view slot ∧ Sees db view after := by
  obtain ⟨read, sameOverlay, sameAddress, coherent⟩ := sload_spec returned sees.coherent
  refine ⟨read.trans (congrFun sees.values slot), coherent, ?_, ?_⟩
  · rw [sameAddress]
    exact sees.unpersisted
  · rw [← sees.values]
    funext other
    rw [ContractStorage.value, ContractStorage.value, sameOverlay, sameAddress]

/-- With nothing in the database, a write of zero is seen as well. -/
theorem Sees.write (slot : Slot) (value : Value) (sized : value.length = 32)
    (written : after.contractStorage = before.contractStorage.write slot value) :
    Sees db (Function.update view slot value) after := by
  refine ⟨?_, ?_, ?_⟩
  · rw [written]
    exact sees.coherent.write slot value
  · rw [written, contractAddress_write]
    exact sees.unpersisted
  · funext other
    rw [written, value_write]
    by_cases same : slot = other
    · subst same
      rw [if_pos rfl, Function.update_self, sees.dbValue_eq]
      split
      · next zero => exact (eq_zeroValue zero sized).symm
      · rfl
    · rw [if_neg same, Function.update_of_ne (Ne.symm same)]
      exact congrFun sees.values other

theorem Sees.sstore (slot : Slot) (value : Value)
    (returned : Returns (sstore db slot value) before nothing after) :
    Sees db (Function.update view slot value) after := by
  obtain ⟨sized, written, _⟩ := sstore_spec returned
  exact sees.write slot value sized written

end

section
inductive StorageOp where
  | sload (slot : Slot)
  | sstore (slot : Slot) (value : Value)
  | sstoreReserved (slot : Slot) (value : Value)

/-- Every call brings its own meter, or none. -/
structure StorageCall where
  op : StorageOp
  gasMeter : Option GasMeter := none

def StorageCall.exec (db : ContractsCf) (call : StorageCall) : Action Execution (Option Value) := do
  modify fun execution => { execution with gasMeter := call.gasMeter }
  match call.op with
  | .sload slot => do
    let value ← sload db slot
    return some value
  | .sstore slot value => do
    sstore db slot value
    return none
  | .sstoreReserved slot value => do
    sstoreReserved db slot value
    return none

def storageStep (db : ContractsCf) (execution : Execution) (call : StorageCall) :
    Execution × Except Failure (Option Value) :=
  perform (call.exec db) execution

def Succeeds (db : ContractsCf) (execution : Execution) (call : StorageCall) : Prop :=
  (storageStep db execution call).2.isOk = true

instance (db : ContractsCf) (execution : Execution) (call : StorageCall) :
    Decidable (Succeeds db execution call) :=
  inferInstanceAs (Decidable (_ = true))

/-- The last value written to a slot, after one more operation. -/
def StorageOp.note (slot : Slot) (last : Option Value) : StorageOp → Option Value
  | .sload _ => last
  | .sstore target value => if target = slot then some value else last
  | .sstoreReserved target value => if target = slot then some value else last

def lastWritten (slot : Slot) (calls : List StorageCall) : Option Value :=
  calls.foldl (fun last call => call.op.note slot last) none

def Execution.fresh (contractAddress : List UInt8) (sized : contractAddress.length = 32) : Execution :=
  { contractStorage := { contractAddress, sized } }

variable {db : ContractsCf}

/-- What is left of the last write: a zero has fallen back to the database. -/
def remaining (db : ContractsCf) (contractAddress : List UInt8) (slot : Slot)
    (last : Option Value) : Value :=
  match last with
  | none => dbValue db contractAddress slot
  | some value => if isZero value then dbValue db contractAddress slot else value

structure Tracks (db : ContractsCf) (contractAddress : List UInt8)
    (last : Slot → Option Value) (storage : ContractStorage) : Prop where
  coherent : Coherent db storage
  address : storage.contractAddress = contractAddress
  sized : ∀ slot value, last slot = some value → value.length = 32
  values : ∀ slot, storage.value db slot = remaining db contractAddress slot (last slot)

variable {last : Slot → Option Value}

theorem Tracks.write (tracks : Tracks db contractAddress last self)
    (slot : Slot) (value : Value) (sized : value.length = 32) :
    Tracks db contractAddress (fun other => if slot = other then some value else last other)
      (self.write slot value) := by
  refine ⟨tracks.coherent.write slot value, ?_, ?_, ?_⟩
  · rw [contractAddress_write]
    exact tracks.address
  · intro other held noted
    split at noted
    · cases noted
      exact sized
    · exact tracks.sized other held noted
  · intro other
    rw [value_write, tracks.address]
    split
    · rfl
    · exact tracks.values other

theorem exec_tracks
    (tracks : Tracks db contractAddress last before.contractStorage) {call : StorageCall}
    {out : Option Value} (returned : Returns (call.exec db) before out after) :
    Tracks db contractAddress (fun slot => call.op.note slot (last slot))
      after.contractStorage := by
  obtain ⟨op, gasMeter⟩ := call
  unfold StorageCall.exec at returned
  simp only [returns_bind, returns_modify] at returned
  obtain ⟨_, _, rfl, returned⟩ := returned
  cases op with
  | sload slot =>
    simp only [returns_bind, returns_pure] at returned
    obtain ⟨value, _, read, _, rfl⟩ := returned
    obtain ⟨_, sameOverlay, sameAddress, coherent⟩ := sload_spec read tracks.coherent
    refine ⟨coherent, sameAddress.trans tracks.address, tracks.sized, ?_⟩
    intro other
    rw [ContractStorage.value, sameOverlay, sameAddress]
    exact tracks.values other
  | sstore slot value =>
    simp only [returns_bind, returns_pure] at returned
    obtain ⟨_, _, stored, _, rfl⟩ := returned
    obtain ⟨sized, written, _⟩ := sstore_spec stored
    rw [written]
    exact tracks.write slot value sized
  | sstoreReserved slot value =>
    simp only [returns_bind, returns_pure] at returned
    obtain ⟨_, _, stored, _, rfl⟩ := returned
    obtain ⟨sized, written⟩ := sstoreReserved_spec stored
    rw [written]
    exact tracks.write slot value sized

theorem run_tracks (last : Slot → Option Value) (before : Execution) {calls : List StorageCall}
    (tracks : Tracks db contractAddress last before.contractStorage)
    (succeed : Along (storageStep db) (Succeeds db) before calls) :
    Tracks db contractAddress
      (fun slot => calls.foldl (fun last call => call.op.note slot last) (last slot))
      (run (storageStep db) before calls).contractStorage := by
  induction calls generalizing last before with
  | nil => exact tracks
  | cons call rest ih =>
    obtain ⟨out, returned⟩ := exists_returns succeed.1
    exact ih _ _ (exec_tracks tracks returned) succeed.2

theorem fresh_tracks {sized : contractAddress.length = 32} :
    Tracks db contractAddress (fun _ => none)
      (Execution.fresh contractAddress sized).contractStorage := by
  refine ⟨?_, rfl, ?_, ?_⟩
  · intro slot value cached
    simp [Execution.fresh] at cached
  · intro slot value noted
    cases noted
  · intro slot
    simp [Execution.fresh, ContractStorage.value, remaining]

/-- After any successful calls on a fresh storage, a read gives the last value written to
the slot, or else the value in the database, exactly if no zero was written last over
another value of the database. -/
theorem sload_last_written_iff (db : ContractsCf) (contractAddress : List UInt8)
    (sized : contractAddress.length = 32) (calls : List StorageCall)
    (succeed : Along (storageStep db) (Succeeds db) (Execution.fresh contractAddress sized) calls)
    (slot : Slot) (gasMeter : Option GasMeter) (value : Value)
    (read : (storageStep db (run (storageStep db) (Execution.fresh contractAddress sized) calls)
      { op := .sload slot, gasMeter }).2 = .ok (some value)) :
    value = (lastWritten slot calls).getD (dbValue db contractAddress slot) ↔
      ¬ (lastWritten slot calls = some zeroValue ∧
        dbValue db contractAddress slot ≠ zeroValue) := by
  have tracks := run_tracks _ _ fresh_tracks succeed
  have returned := returns_of_ok read
  unfold StorageCall.exec at returned
  simp only [returns_bind, returns_modify, returns_pure] at returned
  obtain ⟨_, _, rfl, found, _, loaded, same, _⟩ := returned
  cases same
  rw [(sload_spec loaded tracks.coherent).1]
  have held : (run (storageStep db) (Execution.fresh contractAddress sized)
      calls).contractStorage.value db slot =
        remaining db contractAddress slot (lastWritten slot calls) := tracks.values slot
  have noted : ∀ value, lastWritten slot calls = some value → value.length = 32 := tracks.sized slot
  rw [held]
  cases written : lastWritten slot calls with
  | none => simp [remaining]
  | some last =>
    by_cases zero : isZero last = true
    · -- the write is gone, and the database answers in its place
      obtain rfl := eq_zeroValue zero (noted last written)
      simp only [remaining, zero, if_true, Option.getD_some, true_and]
      exact not_not.symm
    · have other : last ≠ zeroValue := by
        rintro rfl
        exact zero (by decide)
      simp [remaining, zero, other]

def sampleAddress : List UInt8 := List.replicate 32 7

def sampleValue (number : UInt8) : Value := number :: List.replicate 31 0

def sampleDb : ContractsCf :=
  (∅ : ContractsCf).insert (makeStorageKey sampleAddress 100) (sampleValue 5)

/-- A value other than zero is read back. -/
theorem nonzero_read_back :
    Along (storageStep sampleDb) (Succeeds sampleDb) (Execution.fresh sampleAddress rfl)
        [{ op := .sstore 100 (sampleValue 9) }] ∧
      sampleValue 9 = (lastWritten 100 [{ op := .sstore 100 (sampleValue 9) }]).getD
        (dbValue sampleDb sampleAddress 100) := by
  have succeed : Along (storageStep sampleDb) (Succeeds sampleDb)
      (Execution.fresh sampleAddress rfl) [{ op := .sstore 100 (sampleValue 9) }] := by
    decide +kernel
  exact ⟨succeed, (sload_last_written_iff sampleDb sampleAddress rfl _ succeed 100 none
    (sampleValue 9) (by decide +kernel)).mpr (by decide +kernel)⟩

/-- A zero written over the 5 of the database is read back as 5. -/
theorem zero_reads_database :
    let calls : List StorageCall := [{ op := .sstore 100 zeroValue }]
    let start := Execution.fresh sampleAddress rfl
    Along (storageStep sampleDb) (Succeeds sampleDb) start calls ∧
      lastWritten 100 calls = some zeroValue ∧
      (storageStep sampleDb (run (storageStep sampleDb) start calls)
        { op := .sload 100 }).2 = .ok (some (sampleValue 5)) := by
  decide +kernel

end

end Savitri.Contracts
