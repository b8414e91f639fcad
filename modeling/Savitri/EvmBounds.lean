import Savitri.EvmInterpreter
import Savitri.GasAccounting

/-!
What bounds a run of the interpreter. Every instruction pays one unit of gas before it is
executed, so the budget of the meter bounds the number of instructions. Memory is not paid
for: its size, the bytes copied and the absence of panics depend on the operands, and
each opcode says in `region` which part of the memory they ask for.
-/
namespace Savitri.Evm
open Contracts Fallible Loops
open MachineInt (saturatingAdd)
variable {overflowChecks : Bool} {db : ContractsCf} {env : Environment} {stack : List U256}
  {bound : Nat}

/-- The part of the memory an opcode asks for: an offset and a length. -/
def Opcode.region (stack : List U256) : Opcode → Option (Nat × Nat)
  | .mload => stack[0]?.map fun offset => (offset.toNat, 32)
  | .mstore => stack[0]?.map fun offset => (offset.toNat, 32)
  | .mstore8 => stack[0]?.map fun offset => (offset.toNat, 1)
  | .calldatacopy => stack[0]?.bind fun offset => stack[2]?.map fun len => (offset.toNat, len.toNat)
  | .codecopy => stack[0]?.bind fun offset => stack[2]?.map fun len => (offset.toNat, len.toNat)
  | .sha3 => stack[0]?.bind fun offset => stack[1]?.map fun len => (offset.toNat, len.toNat)
  | .returnData => stack[0]?.bind fun offset => stack[1]?.map fun len => (offset.toNat, len.toNat)
  | .revert => stack[0]?.bind fun offset => stack[1]?.map fun len => (offset.toNat, len.toNat)
  | _ => none

def Opcode.reads (stack : List U256) : Opcode → Option (Nat × Nat)
  | .calldatacopy => stack[1]?.bind fun offset => stack[2]?.map fun len => (offset.toNat, len.toNat)
  | .codecopy => stack[1]?.bind fun offset => stack[2]?.map fun len => (offset.toNat, len.toNat)
  | _ => none

/-- The memory asked for ends within the bound, and what is read does not wrap around. -/
def Opcode.modest (bound : Nat) (stack : List U256) (op : Opcode) : Bool :=
  (op.region stack).all (fun part => decide (part.1 + part.2 ≤ bound)) &&
    (op.reads stack).all fun part => decide (part.1 + part.2 ≤ usizeMax)

def Opcode.copied (stack : List U256) (op : Opcode) : Nat := (op.region stack).elim 0 (·.2)

structure Sized (storage : ContractStorage) : Prop where
  overlay : ∀ (slot : Slot) (value : Value), storage.overlay[slot]? = some value → value.length = 32
  readCache : ∀ (slot : Slot) (value : Value),
    storage.readCache[slot]? = some value → value.length = 32

variable {vm : Vm}

section Parts
variable {modest : Prop}

def Excused (modest : Prop) (stop : Stop) : Prop := ∀ panic, stop = .panicked panic → ¬ modest

@[simp]
theorem excused_failed {text : String} : Excused modest (.failed text) := by
  intro panic same
  cases same

@[simp]
theorem excused_returned {data : List UInt8} : Excused modest (.returned data) := by
  intro panic same
  cases same

theorem excused_panicked {panic : Panic} (immodest : ¬ modest) : Excused modest (.panicked panic) :=
  fun _ _ => immodest

theorem pop_meets : Meets (Excused modest)
    (fun result => ∃ top rest, vm.stack = top :: rest ∧ result = (top, { vm with stack := rest }))
    vm.pop := by
  unfold Vm.pop
  split
  · simp
  · next top rest held => exact ⟨top, rest, held, rfl⟩

theorem u256ToUsize_meets {value : U256} : Meets (Excused modest)
    (fun number => number = value.toNat ∧ number ≤ usizeMax) (u256ToUsize value) := by
  unfold u256ToUsize
  split
  · simp
  · next small => exact ⟨rfl, Nat.le_of_not_lt small⟩

theorem popUsize_meets : Meets (Excused modest)
    (fun result => ∃ top rest, vm.stack = top :: rest ∧
      result = (top.toNat, { vm with stack := rest }) ∧ top.toNat ≤ usizeMax)
    vm.popUsize := by
  unfold Vm.popUsize
  apply Meets.bind pop_meets
  rintro _ ⟨top, rest, held, rfl⟩
  apply Meets.bind u256ToUsize_meets
  rintro _ ⟨rfl, small⟩
  exact ⟨top, rest, held, rfl, small⟩

variable {end_ : Nat}

theorem addUsize_meets {left right : Nat} (fits : modest → left + right ≤ usizeMax) :
    Meets (Excused modest) (fun sum => modest → sum = left + right)
      (addUsize overflowChecks left right) := by
  unfold addUsize
  split
  · exact fun _ => rfl
  · next large =>
      have immodest : ¬ modest := fun asked => large (fits asked)
      split
      · exact excused_panicked immodest
      · exact fun asked => absurd asked immodest

variable {bytes : List UInt8}

theorem slice_meets {start : Nat} (inside : modest → start ≤ end_ ∧ end_ ≤ bytes.length) :
    Meets (Excused modest) (fun part => part.length = end_ - start) (slice bytes start end_) := by
  unfold slice
  split
  · next within =>
      rw [meets_ok, List.length_take, List.length_drop]
      omega
  · next outside => exact excused_panicked fun asked => outside (inside asked)

theorem setByte_meets {index : Nat} {byte : UInt8} (inside : modest → index < bytes.length) :
    Meets (Excused modest) (fun written => written.length = bytes.length)
      (setByte bytes index byte) := by
  unfold setByte
  split
  · exact List.length_set
  · next outside => exact excused_panicked fun asked => outside (inside asked)

theorem overwrite_meets {start : Nat} {word : List UInt8}
    (inside : modest → start ≤ end_ ∧ end_ ≤ bytes.length)
    (sized : modest → word.length = end_ - start) :
    Meets (Excused modest) (fun written => modest → written.length = bytes.length)
      (overwrite bytes start end_ word) := by
  unfold overwrite
  apply Meets.bind (slice_meets inside)
  intro old length
  split
  · intro asked
    have within := inside asked
    have wide := sized asked
    simp only [List.length_append, List.length_take, List.length_drop]
    omega
  · next different =>
      exact excused_panicked fun asked => different (length.trans (sized asked).symm)

/-- Nothing but the memory changes. It has room for what was asked, and grows no further. -/
theorem ensureMemory_meets (small : bound ≤ isizeMax) (fits : modest → end_ ≤ bound) :
    Meets (Excused modest)
      (fun grown => ∃ memory, grown = { vm with memory } ∧
        (modest → end_ ≤ memory.length ∧ memory.length ≤ max vm.memory.length bound))
      (vm.ensureMemory end_) := by
  unfold Vm.ensureMemory
  split
  · next short =>
      split
      · next large => exact excused_panicked fun asked => by have := fits asked; omega
      · refine ⟨_, rfl, fun asked => ?_⟩
        have := fits asked
        rw [List.length_append, List.length_replicate]
        omega
  · next long =>
      exact ⟨vm.memory, rfl, fun _ => ⟨Nat.le_of_not_lt long, Nat.le_max_left _ _⟩⟩

theorem copyBytes_meets {source : List UInt8} {memOffset dataOffset count : Nat} (index : Nat)
    (memory : List UInt8) (room : modest → memOffset + index + count ≤ memory.length)
    (fits : modest → memory.length ≤ usizeMax ∧ dataOffset + index + count ≤ usizeMax) :
    Meets (Excused modest) (fun written => modest → written.length = memory.length)
      (copyBytes overflowChecks source memOffset dataOffset count index memory) := by
  induction count generalizing index memory with
  | zero => exact fun _ => rfl
  | succ count ih =>
    unfold copyBytes
    apply Meets.bind (addUsize_meets
      fun asked => by have := fits asked; omega)
    intro src _
    apply Meets.bind (addUsize_meets
      fun asked => by have := fits asked; have := room asked; omega)
    intro target sum
    apply Meets.bind (setByte_meets
      fun asked => by have := room asked; have := sum asked; omega)
    intro written same
    refine (ih (index + 1) written (fun asked => ?_) fun asked => ?_).imp
      (fun _ excused => excused) fun final kept asked => (kept asked).trans same
    · have := room asked
      omega
    · have := fits asked
      omega

end Parts

section Handlers
variable {modest : Prop} {overflowChecks : Bool}

/-- What an instruction leaves: a meter with no larger budget, a memory within the bound,
and words in the storage. -/
structure After (bound : Nat) (modest : Prop) (vm after : Vm) : Prop where
  frugal : after.gasMeter.budget ≤ vm.gasMeter.budget
  memory : modest → after.memory.length ≤ max vm.memory.length bound
  storage : Sized vm.contractStorage → Sized after.contractStorage

theorem After.of_memory {pc : Nat} {memory : List UInt8}
    (within : modest → memory.length ≤ max vm.memory.length bound) :
    After bound modest vm { vm with pc, stack, memory } :=
  ⟨Nat.le_refl _, within, id⟩

theorem After.of_stack (pc : Nat) (stack : List U256) : After bound modest vm { vm with pc, stack } :=
  After.of_memory fun _ => Nat.le_max_left _ _

theorem unop_meets (apply : U256 → U256) :
    Meets (Excused modest) (After bound modest vm)
      (do let (top, vm) ← vm.pop; return vm.push (apply top)) := by
  apply Meets.bind pop_meets
  rintro _ ⟨top, rest, _, rfl⟩
  exact After.of_stack vm.pc _

theorem binop_meets (apply : U256 → U256 → U256) :
    Meets (Excused modest) (After bound modest vm) (binop apply vm) := by
  unfold binop
  apply Meets.bind pop_meets
  rintro _ ⟨b, rest, _, rfl⟩
  apply Meets.bind pop_meets
  rintro _ ⟨a, rest, _, rfl⟩
  exact After.of_stack vm.pc _

variable {offset len : Nat} {before after : Execution} {meter : GasMeter}

theorem saturatingAdd_le (fits : offset + len ≤ bound) : saturatingAdd usizeMax offset len ≤ bound :=
  Nat.le_trans (Nat.min_le_left _ _) fits

theorem saturatingAdd_eq (small : bound ≤ isizeMax) (fits : offset + len ≤ bound) :
    saturatingAdd usizeMax offset len = offset + len := by
  apply Nat.min_eq_left
  unfold isizeMax at small
  unfold usizeMax
  omega

/-- The start of every opcode that works on one part of the memory. -/
theorem reserve_meets {Result : Type} {goal : Result → Prop} {next : Vm → Nat → Except Stop Result}
    (small : bound ≤ isizeMax) (asked : modest → offset + len ≤ bound) (goesOn : ∀ memory end_,
      (modest → end_ = offset + len ∧ end_ ≤ memory.length ∧
        memory.length ≤ max vm.memory.length bound) →
      Meets (Excused modest) goal (next { vm with memory } end_)) :
    Meets (Excused modest) goal (do
      let vm ← vm.ensureMemory (saturatingAdd usizeMax offset len)
      let end_ ← addUsize overflowChecks offset len
      next vm end_) := by
  apply Meets.bind (ensureMemory_meets small fun isModest => saturatingAdd_le (asked isModest))
  rintro _ ⟨memory, rfl, room⟩
  apply Meets.bind (addUsize_meets fun isModest => by
    have := asked isModest
    unfold isizeMax at small
    unfold usizeMax
    omega)
  intro end_ sum
  apply goesOn
  intro isModest
  obtain ⟨enough, within⟩ := room isModest
  rw [saturatingAdd_eq small (asked isModest), ← sum isModest] at enough
  exact ⟨sum isModest, enough, within⟩

variable (small : bound ≤ isizeMax)
include small

theorem mload_meets
    (fits : modest → ∀ part ∈ Opcode.mload.region vm.stack, part.1 + part.2 ≤ bound) :
    Meets (Excused modest) (After bound modest vm) (vm.mload overflowChecks) := by
  unfold Vm.mload
  apply Meets.bind popUsize_meets
  rintro _ ⟨offset, rest, held, rfl, _⟩
  apply reserve_meets small fun isModest =>
    fits isModest (offset.toNat, 32) (by simp [Opcode.region, held])
  intro memory end_ room
  apply Meets.bind (slice_meets fun isModest => by have := room isModest; dsimp only; omega)
  intro word _
  exact After.of_memory fun isModest => (room isModest).2.2

theorem mstore_meets
    (fits : modest → ∀ part ∈ Opcode.mstore.region vm.stack, part.1 + part.2 ≤ bound) :
    Meets (Excused modest) (After bound modest vm) (vm.mstore overflowChecks) := by
  unfold Vm.mstore
  apply Meets.bind popUsize_meets
  rintro _ ⟨offset, rest, held, rfl, _⟩
  apply Meets.bind pop_meets
  rintro _ ⟨value, rest, _, rfl⟩
  apply reserve_meets small fun isModest =>
    fits isModest (offset.toNat, 32) (by simp [Opcode.region, held])
  intro memory end_ room
  have wide : (toBigEndian value).length = 32 := by simp [toBigEndian]
  apply Meets.bind (overwrite_meets
    (fun isModest => by have := room isModest; dsimp only; omega)
    fun isModest => by have := room isModest; omega)
  intro written same
  refine After.of_memory fun isModest => ?_
  rw [same isModest]
  exact (room isModest).2.2

theorem mstore8_meets
    (fits : modest → ∀ part ∈ Opcode.mstore8.region vm.stack, part.1 + part.2 ≤ bound) :
    Meets (Excused modest) (After bound modest vm) vm.mstore8 := by
  unfold Vm.mstore8
  apply Meets.bind popUsize_meets
  rintro _ ⟨offset, rest, held, rfl, _⟩
  apply Meets.bind pop_meets
  rintro _ ⟨value, rest, _, rfl⟩
  have asked : modest → offset.toNat + 1 ≤ bound :=
    fun isModest => fits isModest (offset.toNat, 1) (by simp [Opcode.region, held])
  apply Meets.bind (ensureMemory_meets small fun isModest => saturatingAdd_le (asked isModest))
  rintro _ ⟨memory, rfl, room⟩
  apply Meets.bind (setByte_meets fun isModest => by
    have enough := (room isModest).1
    rw [saturatingAdd_eq small (asked isModest)] at enough
    exact enough)
  intro written same
  refine After.of_memory fun isModest => ?_
  rw [same]
  exact (room isModest).2

/-- `fits` is what `modest` asks of both copy opcodes. -/
theorem copy_meets (source : List UInt8)
    (fits : modest → ∀ offset data len rest, vm.stack = offset :: data :: len :: rest →
      offset.toNat + len.toNat ≤ bound ∧ data.toNat + len.toNat ≤ usizeMax)
    (start : modest → vm.memory.length ≤ bound) :
    Meets (Excused modest) (After bound modest vm) (vm.copy overflowChecks source) := by
  unfold Vm.copy
  apply Meets.bind popUsize_meets
  rintro _ ⟨offset, rest, held, rfl, _⟩
  apply Meets.bind popUsize_meets
  rintro _ ⟨data, rest, heldData, rfl, _⟩
  apply Meets.bind popUsize_meets
  rintro _ ⟨len, rest, heldLen, rfl, _⟩
  dsimp only at heldData heldLen
  subst heldData heldLen
  have asked := fun isModest => fits isModest offset data len rest held
  apply Meets.bind (ensureMemory_meets small fun isModest =>
    saturatingAdd_le (asked isModest).1)
  rintro _ ⟨memory, rfl, room⟩
  apply Meets.bind (copyBytes_meets 0 _
    (fun isModest => by
      have enough := (room isModest).1
      rw [saturatingAdd_eq small (asked isModest).1] at enough
      exact enough)
    fun isModest => by
      have within := (room isModest).2
      have began := start isModest
      refine ⟨?_, (asked isModest).2⟩
      unfold isizeMax at small
      unfold usizeMax
      dsimp only at within ⊢
      omega)
  intro written same
  refine After.of_memory fun isModest => ?_
  rw [same isModest]
  exact (room isModest).2

theorem sha3_meets (keccak256 : List UInt8 → Vector UInt8 32)
    (fits : modest → ∀ part ∈ Opcode.sha3.region vm.stack, part.1 + part.2 ≤ bound) :
    Meets (Excused modest) (After bound modest vm) (vm.sha3 overflowChecks keccak256) := by
  unfold Vm.sha3
  apply Meets.bind popUsize_meets
  rintro _ ⟨offset, rest, held, rfl, _⟩
  apply Meets.bind popUsize_meets
  rintro _ ⟨len, rest, heldLen, rfl, _⟩
  dsimp only at heldLen
  subst heldLen
  apply reserve_meets small fun isModest =>
    fits isModest (offset.toNat, len.toNat) (by simp [Opcode.region, held])
  intro memory end_ room
  apply Meets.bind (slice_meets fun isModest => by have := room isModest; dsimp only; omega)
  intro data _
  exact After.of_memory fun isModest => (room isModest).2.2

theorem returnData_meets
    (fits : modest → ∀ part ∈ Opcode.returnData.region vm.stack, part.1 + part.2 ≤ bound) :
    Meets (Excused modest) (fun _ => True) (vm.returnData overflowChecks) := by
  unfold Vm.returnData
  apply Meets.bind popUsize_meets
  rintro _ ⟨offset, rest, held, rfl, _⟩
  apply Meets.bind popUsize_meets
  rintro _ ⟨len, rest, heldLen, rfl, _⟩
  dsimp only at heldLen
  subst heldLen
  apply reserve_meets small fun isModest =>
    fits isModest (offset.toNat, len.toNat) (by simp [Opcode.region, held])
  intro memory end_ room
  exact (slice_meets fun isModest => by have := room isModest; dsimp only; omega).imp
    (fun _ excused => excused) fun _ _ => trivial

omit small

theorem calldataload_meets :
    Meets (Excused modest) (After bound modest vm) (vm.calldataload overflowChecks env) := by
  have loaded : env.calldata.length ≤ usizeMax := Nat.le_trans env.calldataFits (by decide)
  unfold Vm.calldataload
  apply Meets.bind popUsize_meets
  rintro _ ⟨offset, rest, _, rfl, _⟩
  dsimp only
  split
  · next inside =>
      apply Meets.bind (addUsize_meets fun _ => by omega)
      intro end_ sum
      apply Meets.bind (slice_meets fun isModest => by
        have := sum isModest
        omega)
      intro data _
      exact After.of_stack vm.pc _
  · exact After.of_stack vm.pc _

theorem validateJumpdest_meets {dest : Nat} :
    Meets (Excused modest) (fun _ => True) (validateJumpdest env dest) := by
  unfold validateJumpdest
  split
  · simp
  · split
    · trivial
    · simp

theorem jump_meets : Meets (Excused modest) (After bound modest vm) (vm.jump env) := by
  unfold Vm.jump
  apply Meets.bind popUsize_meets
  rintro _ ⟨dest, rest, _, rfl, _⟩
  apply Meets.bind validateJumpdest_meets
  intro _ _
  exact After.of_stack dest.toNat rest

theorem jumpi_meets : Meets (Excused modest) (After bound modest vm) (vm.jumpi env) := by
  unfold Vm.jumpi
  apply Meets.bind popUsize_meets
  rintro _ ⟨dest, rest, _, rfl, _⟩
  apply Meets.bind pop_meets
  rintro _ ⟨cond, rest, _, rfl⟩
  dsimp only
  split
  · exact After.of_stack vm.pc rest
  · apply Meets.bind validateJumpdest_meets
    intro _ _
    exact After.of_stack dest.toNat rest

theorem useGas_meter {consume : GasMeter → GasMeter × Except String Unit} {label : String}
    {nothing : Unit} (metered : before.gasMeter = some meter)
    (returned : Returns (useGas consume label) before nothing after) :
    ∃ charged, consume meter = (charged, .ok ()) ∧ after.gasMeter = some charged := by
  unfold useGas at returned
  rw [returns_bind] at returned
  obtain ⟨_, _, read, returned⟩ := returned
  rw [returns_get] at read
  obtain ⟨rfl, rfl⟩ := read
  rw [metered] at returned
  simp only [returns_bind, returns_modify] at returned
  obtain ⟨_, _, rfl, returned⟩ := returned
  cases consumed : consume meter with
  | mk charged result =>
    rw [consumed] at returned
    cases result with
    | error text => exact absurd returned returns_fail
    | ok done =>
      rw [returns_pure] at returned
      exact ⟨charged, rfl, by rw [← returned.2]⟩

theorem sload_words {slot : Slot} {value : Value} (metered : before.gasMeter = some meter)
    (returned : Returns (Contracts.sload db slot) before value after) :
    (∃ charged, meter.consumeSload = (charged, .ok ()) ∧ after.gasMeter = some charged) ∧
      (Sized before.contractStorage → value.length = 32 ∧ Sized after.contractStorage) := by
  unfold Contracts.sload at returned
  simp only [returns_bind, returns_get] at returned
  obtain ⟨_, charged, gas, _, _, ⟨rfl, rfl⟩, returned⟩ := returned
  have paid := useGas_meter metered gas
  rw [← useGas_spec gas]
  split at returned
  · next held found =>
      rw [returns_pure] at returned
      obtain ⟨rfl, rfl⟩ := returned
      refine ⟨paid, fun sized => ⟨?_, sized⟩⟩
      cases written : charged.contractStorage.overlay[slot]? with
      | some word =>
        rw [written, Option.some_or, Option.some.injEq] at found
        exact sized.overlay slot _ (found ▸ written)
      | none =>
        rw [written, Option.none_or] at found
        exact sized.readCache slot _ found
  · simp only [returns_bind, returns_onStorage, returns_pure] at returned
    obtain ⟨stored, _, read, _, _, rfl, rfl, rfl⟩ := returned
    have length : stored.length = 32 := by
      unfold storedValue at read
      split at read
      · rw [returns_pure] at read
        rw [← read.1]
        decide
      · simp only [returns_bind, returns_require, returns_pure, beq_iff_eq] at read
        obtain ⟨_, _, ⟨sized, _⟩, rfl, _⟩ := read
        exact sized
    obtain ⟨_, rfl⟩ := storedValue_spec read
    refine ⟨paid, fun sized => ⟨length, sized.overlay, ?_⟩⟩
    intro other word cached
    simp only [ContractStorage.cacheRead, Std.ExtTreeMap.getElem?_insert,
      Std.LawfulEqCmp.compare_eq_iff_eq] at cached
    split at cached
    · cases cached
      exact length
    · exact sized.readCache other word cached

theorem sload_meets (sized : modest → Sized vm.contractStorage) :
    Meets (Excused modest) (After bound modest vm) (vm.sload db) := by
  unfold Vm.sload
  apply Meets.bind pop_meets
  rintro _ ⟨slot, rest, _, rfl⟩
  dsimp only
  split
  · simp
  · next after value performed =>
      obtain ⟨⟨charged, consumed, held⟩, words⟩ := sload_words rfl performed
      apply Meets.bind (slice_meets fun isModest => by
        have := (words (sized isModest)).1
        omega)
      intro word _
      refine ⟨?_, fun _ => Nat.le_max_left _ _, fun storage => (words storage).2⟩
      have spent := budget_consume consumed
      simp only [Vm.push, held, Option.getD_some]
      omega

theorem sstore_meets : Meets (Excused modest) (After bound modest vm) vm.sstore := by
  unfold Vm.sstore
  apply Meets.bind pop_meets
  rintro _ ⟨slot, rest, _, rfl⟩
  apply Meets.bind pop_meets
  rintro _ ⟨value, rest, _, rfl⟩
  dsimp only
  split
  · simp
  · next charged consumed =>
      have spent := budget_consume consumed
      refine ⟨by dsimp only; omega, fun _ => Nat.le_max_left _ _, fun sized => ⟨?_, sized.readCache⟩⟩
      intro other word written
      simp only [Std.ExtTreeMap.getElem?_insert, Std.LawfulEqCmp.compare_eq_iff_eq] at written
      split at written
      · cases written
        simp [toBigEndian]
      · exact sized.overlay other word written

end Handlers

section Instructions
variable {keccak256 : List UInt8 → Vector UInt8 32}
variable {op : Opcode}

theorem modest_region (isModest : op.modest bound stack = true) :
    ∀ part ∈ op.region stack, part.1 + part.2 ≤ bound := by
  intro part found
  simp only [Opcode.modest, Bool.and_eq_true] at isModest
  rw [Option.mem_def.mp found] at isModest
  simpa using isModest.1

theorem modest_copy (isCopy : op = .calldatacopy ∨ op = .codecopy) {offset data len : U256}
    {rest : List U256} (isModest : op.modest bound (offset :: data :: len :: rest) = true) :
    offset.toNat + len.toNat ≤ bound ∧ data.toNat + len.toNat ≤ usizeMax := by
  rcases isCopy with rfl | rfl
  · simpa [Opcode.modest, Opcode.region, Opcode.reads] using isModest
  · simpa [Opcode.modest, Opcode.region, Opcode.reads] using isModest

/-- What every instruction does, whatever the operands: it pays, and if it asks for a modest
part of the memory it does not panic and the memory stays within the bound. -/
theorem exec_meets (small : bound ≤ isizeMax) :
    Meets (Excused (op.modest bound vm.stack = true ∧ Sized vm.contractStorage ∧
        vm.memory.length ≤ bound))
      (After bound (op.modest bound vm.stack = true ∧ Sized vm.contractStorage ∧
        vm.memory.length ≤ bound) vm)
      (exec overflowChecks keccak256 db env vm op) := by
  cases op with
  | stop => exact excused_returned
  | binary op => exact binop_meets op.apply
  | compare op => exact binop_meets fun a b => truth (op.apply a b)
  | iszero => exact unop_meets fun value => truth (value = 0)
  | not => exact unop_meets (~~~·)
  | byte =>
    rw [exec]
    apply Meets.bind pop_meets
    rintro _ ⟨index, rest, _, rfl⟩
    apply Meets.bind pop_meets
    rintro _ ⟨word, rest, _, rfl⟩
    apply Meets.bind u256ToUsize_meets
    intro number _
    exact After.of_stack vm.pc _
  | shl => exact binop_meets fun value shift => shifted (value <<< ·) (shiftAmount shift)
  | shr => exact binop_meets fun value shift => shifted (value >>> ·) (shiftAmount shift)
  | sha3 =>
    exact sha3_meets small keccak256 fun isModest => modest_region isModest.1
  | push op => exact After.of_stack vm.pc _
  | calldataload => exact calldataload_meets
  | calldatacopy | codecopy =>
    refine copy_meets small _ ?_ fun isModest => isModest.2.2
    intro isModest offset data len rest held
    rw [held] at isModest
    exact modest_copy (by simp) isModest.1
  | pop =>
    rw [exec]
    apply Meets.bind pop_meets
    rintro _ ⟨top, rest, _, rfl⟩
    exact After.of_stack vm.pc rest
  | mload => exact mload_meets small fun isModest => modest_region isModest.1
  | mstore => exact mstore_meets small fun isModest => modest_region isModest.1
  | mstore8 => exact mstore8_meets small fun isModest => modest_region isModest.1
  | sload => exact sload_meets fun isModest => isModest.2.1
  | sstore => exact sstore_meets
  | jump => exact jump_meets
  | jumpi => exact jumpi_meets
  | jumpdest => exact After.of_stack vm.pc vm.stack
  | pushn n =>
    rw [exec, Vm.pushn]
    split
    · exact excused_failed
    · exact After.of_stack _ _
  | dup depth =>
    rw [exec, Vm.dup]
    split
    · exact excused_failed
    · exact After.of_stack vm.pc _
  | swap depth =>
    rw [exec, Vm.swap]
    split
    · exact After.of_stack vm.pc _
    · exact excused_failed
  | returnData =>
    rw [exec]
    apply Meets.bind (returnData_meets small fun isModest =>
      modest_region isModest.1)
    intro data _
    exact excused_returned
  | revert =>
    rw [exec]
    apply Meets.bind (returnData_meets small fun isModest =>
      modest_region (show Opcode.modest bound vm.stack .returnData = true from isModest.1))
    intro data _
    exact excused_failed
  | invalid | unsupported => exact excused_failed

end Instructions

section
variable (overflowChecks : Bool) (keccak256 : List UInt8 → Vector UInt8 32) (db : ContractsCf)
  (env : Environment)

def Vm.modest (bound : Nat) (vm : Vm) : Bool :=
  env.code[vm.pc]?.all fun byte => (decode byte).modest bound vm.stack

def Vm.copied (vm : Vm) : Nat := env.code[vm.pc]?.elim 0 fun byte => (decode byte).copied vm.stack

/-- A word of memory for each unit of gas, as far as memory can be addressed. -/
def Vm.allowance (vm : Vm) : Nat := min (32 * vm.gasMeter.gasLimit) isizeMax

/-- The next instruction asks for memory within the bound, and for no more of it than the word
that goes with the unit of gas it pays. -/
def Vm.paid (bound : Nat) (vm : Vm) : Bool := vm.modest env bound && decide (vm.copied env ≤ 32)

variable {env} in
theorem fetch_spends {ready : Vm} (fetched : fetch env vm = .ok ready) :
    ready.gasMeter.budget < vm.gasMeter.budget ∧ ready.memory = vm.memory ∧
      ready.contractStorage = vm.contractStorage := by
  unfold fetch at fetched
  split at fetched
  · split at fetched
    · cases fetched
    · next gasMeter consumed =>
        cases fetched
        have spent := budget_consume consumed
        exact ⟨by dsimp only; omega, rfl, rfl⟩
  · cases fetched

variable {env} in
theorem act_meets (small : bound ≤ isizeMax) (ready : Vm) :
    Meets (Excused (ready.modest env bound = true ∧ Sized ready.contractStorage ∧
        ready.memory.length ≤ bound))
      (After bound (ready.modest env bound = true ∧ Sized ready.contractStorage ∧
        ready.memory.length ≤ bound) ready)
      (act overflowChecks keccak256 db env ready) := by
  unfold act Vm.modest
  cases env.code[ready.pc]? with
  | none => exact excused_returned
  | some byte =>
    exact (exec_meets small).imp
      (fun _ excused => excused) fun after left => ⟨left.frugal, left.memory, left.storage⟩

theorem interpreter_spends :
    (interpreter overflowChecks keccak256 db env).Spends fun vm => vm.gasMeter.budget := by
  intro vm ready fetched
  have spent := (fetch_spends fetched).1
  refine ⟨Nat.zero_lt_of_lt spent, ?_⟩
  refine (act_meets overflowChecks keccak256 db (Nat.zero_le isizeMax) ready).imp
    (fun _ _ => trivial) fun after left => ?_
  have := left.frugal
  dsimp only
  omega

/-- From every state, in every build and for every code, the interpreter stops, and has
then executed at most as many instructions as the gas limit and the batch limit
together. -/
theorem interpreter_stops (vm : Vm) :
    (∃ stop, ∀ fuel, vm.gasMeter.gasLimit + vm.gasMeter.batchLimit < fuel →
      (interpreter overflowChecks keccak256 db env).run fuel vm = some stop) ∧
    ∀ fuel, (interpreter overflowChecks keccak256 db env).tally (fun _ => 1) fuel vm ≤
      vm.gasMeter.gasLimit + vm.gasMeter.batchLimit := by
  have spends := interpreter_spends overflowChecks keccak256 db env
  have covered := budget_le vm.gasMeter
  constructor
  · obtain ⟨stop, stopped⟩ := Option.isSome_iff_exists.mp
      (Loop.run_isSome spends (vm.gasMeter.budget + 1) vm (Nat.lt_succ_self _))
    exact ⟨stop, fun fuel enough => Loop.run_mono stopped (by omega)⟩
  · intro fuel
    exact Nat.le_trans (Loop.tally_le_budget spends fuel vm) covered

/-- While every instruction works on one word at most, within as many words of memory as there
is gas, a run over words ends without a panic, and the size of the memory and the bytes
copied stay below 32 times the gas and the batch limit. -/
theorem modest_run_safe (vm : Vm) (sized : Sized vm.contractStorage)
    (start : vm.memory.length ≤ vm.allowance)
    (asks : (interpreter overflowChecks keccak256 db env).Acts
      (fun ready => ready.paid env vm.allowance = true)
      (vm.gasMeter.gasLimit + vm.gasMeter.batchLimit + 1) vm) :
    let fuel := vm.gasMeter.gasLimit + vm.gasMeter.batchLimit + 1
    (∃ stop, (interpreter overflowChecks keccak256 db env).run fuel vm = some stop ∧
      ∀ panic, stop ≠ .panicked panic) ∧
    (interpreter overflowChecks keccak256 db env).Heads
      (fun head => head.memory.length ≤ 32 * vm.gasMeter.gasLimit) fuel vm ∧
    (interpreter overflowChecks keccak256 db env).tally (fun ready => ready.copied env) fuel vm ≤
      32 * (vm.gasMeter.gasLimit + vm.gasMeter.batchLimit) := by
  intro fuel
  obtain ⟨⟨stop, stops⟩, executed⟩ := interpreter_stops overflowChecks keccak256 db env vm
  have stopped := stops fuel (Nat.lt_succ_self _)
  have parts : ∀ ready : Vm, ready.paid env vm.allowance = true →
      ready.modest env vm.allowance = true ∧ ready.copied env ≤ 32 := by
    intro ready paid
    simpa [Vm.paid] using paid
  obtain ⟨heads, outcome⟩ := Loop.heads_of_invariant
    (fun ready => ready.modest env vm.allowance = true)
    (fun head => head.memory.length ≤ vm.allowance ∧ Sized head.contractStorage)
    (fun stop => ∀ panic, stop ≠ .panicked panic)
    (fun _ ready kept fetched isModest => by
      obtain ⟨_, sameMemory, sameStorage⟩ := fetch_spends fetched
      rw [← sameMemory, ← sameStorage] at kept
      have asked := And.intro isModest (And.intro kept.2 kept.1)
      refine (act_meets overflowChecks keccak256 db (Nat.min_le_right _ _) ready).imp
        (fun stop excused panic same => excused panic same asked) fun after left => ?_
      exact ⟨Nat.le_trans (left.memory asked) (Nat.max_le.mpr ⟨kept.1, Nat.le_refl _⟩),
        left.storage kept.2⟩)
    (fun vm stop _ fetched panic same => by
      subst same
      unfold interpreter fetch at fetched
      dsimp only at fetched
      split at fetched
      · split at fetched <;> cases fetched
      · cases fetched)
    fuel vm ⟨start, sized⟩ (Loop.Acts.imp (fun ready paid => (parts ready paid).1) fuel vm asks)
  refine ⟨⟨stop, stopped, outcome stop stopped⟩, ?_, ?_⟩
  · exact Loop.Heads.imp (fun _ kept => kept.1.trans (Nat.min_le_left _ _)) fuel vm heads
  · have costs := Loop.tally_le_mul (fun ready : Vm => ready.copied env) 32 fuel vm
      (Loop.Acts.imp (fun ready paid => (parts ready paid).2) fuel vm asks)
    exact Nat.le_trans costs (Nat.mul_le_mul_left 32 (executed fuel))

end

def sampleEnv (code : List UInt8) : Environment where
  code := code
  contractAddress := Vector.replicate 32 7
  caller := Vector.replicate 32 1
  value := 0
  calldata := [1, 2, 3]
  blockTimestamp := 0
  calldataFits := by decide

def sampleVm (gasLimit batchLimit : Nat) : Vm where
  contractStorage := { contractAddress := List.replicate 32 7, sized := rfl }
  gasMeter := { gasLimit, batchLimit }

def noHash (_ : List UInt8) : Vector UInt8 32 := Vector.replicate 32 0

theorem sized_sampleVm {gasLimit batchLimit : Nat} :
    Sized (sampleVm gasLimit batchLimit).contractStorage :=
  ⟨fun _ _ found => by simp [sampleVm] at found, fun _ _ found => by simp [sampleVm] at found⟩

def smallCode : List UInt8 := [0x60, 9, 0x60, 5, 0x53, 0x60, 32, 0x60, 0, 0xf3]

theorem smallCode_safe :
    (∃ stop, (interpreter true noHash ∅ (sampleEnv smallCode)).run 13 (sampleVm 10 2) = some stop ∧
      ∀ panic, stop ≠ .panicked panic) ∧
    (interpreter true noHash ∅ (sampleEnv smallCode)).Heads
      (fun head => head.memory.length ≤ 320) 13 (sampleVm 10 2) ∧
    (interpreter true noHash ∅ (sampleEnv smallCode)).tally
      (fun ready => ready.copied (sampleEnv smallCode)) 13 (sampleVm 10 2) ≤ 32 * 12 :=
  modest_run_safe true noHash ∅ (sampleEnv smallCode) (sampleVm 10 2) sized_sampleVm (by decide)
    (by decide +kernel)

def farStore : List UInt8 := [0x60, 0, 0x67, 0xff, 0xff, 0xff, 0xff, 0xff, 0xff, 0xff, 0xff, 0x53]

/-- Two bytes are copied from position `usize::MAX` of the arguments. -/
def farCopy : List UInt8 :=
  [0x60, 2, 0x67, 0xff, 0xff, 0xff, 0xff, 0xff, 0xff, 0xff, 0xff, 0x60, 0, 0x37]

/-- A byte is written to address 4095, and the size of the memory is returned. -/
def cheapMemory : List UInt8 :=
  [0x60, 0, 0x61, 0x0f, 0xff, 0x53, 0x59, 0x60, 0, 0x52, 0x60, 32, 0x60, 0, 0xf3]

theorem operands_panic_and_memory_is_free :
    (interpreter false noHash ∅ (sampleEnv farStore)).run 4 (sampleVm 10 100) =
        some (.panicked .capacityOverflow) ∧
      (interpreter true noHash ∅ (sampleEnv farCopy)).run 5 (sampleVm 10 100) =
        some (.panicked .arithmeticOverflow) ∧
      (interpreter true noHash ∅ (sampleEnv cheapMemory)).run 10 (sampleVm 10 100) =
        some (.returned (toBigEndian 4096)) := by
  decide +kernel

end Savitri.Evm
