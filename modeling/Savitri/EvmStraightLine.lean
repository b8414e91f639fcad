import Savitri.EvmBounds
import Savitri.Lockstep

/-!
Straight-line programs on the interpreter and on the machine of the Ethereum semantics,
whose first operand is the top of the stack and whose storage has 256-bit slots. The
interpreter takes the top of the stack as the second operand and keeps of a slot its low
64 bits; each instruction says under which operands that makes no difference.
-/
namespace Savitri.Evm
open Contracts Lockstep
open LatticeTypes (toLeBytes)

def BinaryOp.meaning : BinaryOp → U256 → U256 → U256
  | .add, a, b => BitVec.ofNat 256 (a.toNat + b.toNat)
  | .mul, a, b => BitVec.ofNat 256 (a.toNat * b.toNat)
  | .sub, a, b => BitVec.ofNat 256 (2 ^ 256 - b.toNat + a.toNat)
  | .div, a, b => BitVec.ofNat 256 (a.toNat / b.toNat)
  | .mod, a, b => if b = 0 then 0 else BitVec.ofNat 256 (a.toNat % b.toNat)
  | .and, a, b => a &&& b
  | .or, a, b => a ||| b
  | .xor, a, b => a ^^^ b

def CompareOp.meaning : CompareOp → U256 → U256 → Bool
  | .lt, a, b => decide (a.toNat < b.toNat)
  | .gt, a, b => decide (b.toNat < a.toNat)
  | .slt, a, b => decide (a.toInt < b.toInt)
  | .sgt, a, b => decide (b.toInt < a.toInt)
  | .eq, a, b => decide (a.toNat = b.toNat)

inductive Instruction where
  | push (data : List UInt8) (sized : 1 ≤ data.length ∧ data.length ≤ 32)
  | dup (depth : Fin 16)
  | swap (depth : Fin 16)
  | pop
  | binary (op : BinaryOp)
  | compare (op : CompareOp)
  | iszero | not | byte | shl | shr | sload | sstore

structure Machine where
  stack : List U256 := []
  slots : U256 → U256 := fun _ => 0

/-- The Ethereum semantics; none where the stack is too short. -/
def Instruction.ethereum (machine : Machine) : Instruction → Option Machine
  | .push data _ => some { machine with stack := fromBigEndian data :: machine.stack }
  | .dup depth => machine.stack[depth.val]?.map fun value =>
    { machine with stack := value :: machine.stack }
  | .swap depth => machine.stack[0]?.bind fun top => machine.stack[depth.val + 1]?.map fun other =>
    { machine with stack := (machine.stack.set 0 other).set (depth.val + 1) top }
  | .pop => match machine.stack with
    | _ :: rest => some { machine with stack := rest }
    | _ => none
  | .binary op => match machine.stack with
    | a :: b :: rest => some { machine with stack := op.meaning a b :: rest }
    | _ => none
  | .compare op => match machine.stack with
    | a :: b :: rest => some { machine with stack := truth (op.meaning a b) :: rest }
    | _ => none
  | .iszero => match machine.stack with
    | a :: rest => some { machine with stack := truth (a = 0) :: rest }
    | _ => none
  | .not => match machine.stack with
    | a :: rest => some { machine with stack := ~~~a :: rest }
    | _ => none
  | .byte => match machine.stack with
    | index :: word :: rest =>
      some { machine with
        stack := (if index.toNat < 32 then (word >>> (8 * (31 - index.toNat))) &&& 0xff
          else 0) :: rest }
    | _ => none
  | .shl => match machine.stack with
    | shift :: value :: rest =>
      some { machine with
        stack := (if shift.toNat < 256 then value <<< shift.toNat else 0) :: rest }
    | _ => none
  | .shr => match machine.stack with
    | shift :: value :: rest =>
      some { machine with
        stack := (if shift.toNat < 256 then value >>> shift.toNat else 0) :: rest }
    | _ => none
  | .sload => match machine.stack with
    | slot :: rest => some { machine with stack := machine.slots slot :: rest }
    | _ => none
  | .sstore => match machine.stack with
    | slot :: value :: rest =>
      some { stack := rest, slots := Function.update machine.slots slot value }
    | _ => none

def Instruction.opcode : Instruction → Opcode
  | .push data _ => .pushn data.length
  | .dup depth => .dup (depth.val + 1)
  | .swap depth => .swap (depth.val + 1)
  | .pop => .pop
  | .binary op => .binary op
  | .compare op => .compare op
  | .iszero => .iszero
  | .not => .not
  | .byte => .byte
  | .shl => .shl
  | .shr => .shr
  | .sload => .sload
  | .sstore => .sstore

def BinaryOp.opcodeByte : BinaryOp → UInt8
  | .add => 0x01 | .mul => 0x02 | .sub => 0x03 | .div => 0x04 | .mod => 0x06
  | .and => 0x16 | .or => 0x17 | .xor => 0x18

def CompareOp.opcodeByte : CompareOp → UInt8
  | .lt => 0x10 | .gt => 0x11 | .slt => 0x12 | .sgt => 0x13 | .eq => 0x14

def Instruction.opcodeByte : Instruction → UInt8
  | .push data _ => UInt8.ofNat (0x5f + data.length)
  | .dup depth => UInt8.ofNat (0x80 + depth.val)
  | .swap depth => UInt8.ofNat (0x90 + depth.val)
  | .pop => 0x50
  | .binary op => op.opcodeByte
  | .compare op => op.opcodeByte
  | .iszero => 0x15
  | .not => 0x19
  | .byte => 0x1a
  | .shl => 0x1b
  | .shr => 0x1c
  | .sload => 0x54
  | .sstore => 0x55

def Instruction.data : Instruction → List UInt8
  | .push data _ => data
  | _ => []

def assemble : List Instruction → List UInt8
  | [] => []
  | instruction :: rest => instruction.opcodeByte :: (instruction.data ++ assemble rest)

theorem decode_push {count : Nat} (sized : 1 ≤ count ∧ count ≤ 32) :
    decode (UInt8.ofNat (0x5f + count)) = .pushn count := by
  obtain ⟨low, high⟩ := sized
  interval_cases count <;> rfl

theorem decode_opcodeByte {instruction : Instruction} :
    decode instruction.opcodeByte = instruction.opcode := by
  cases instruction with
  | push data sized => exact decode_push sized
  | dup depth | swap depth => fin_cases depth <;> rfl
  | binary op | compare op => cases op <;> rfl
  | _ => rfl

section
theorem negative_eq_msb {value : U256} : negative value = value.msb := by
  have bit : signBit = BitVec.twoPow 256 255 := by decide +kernel
  unfold negative
  rw [bit, BitVec.and_twoPow, BitVec.msb_eq_getLsbD_last]
  cases value.getLsbD 255 <;> decide +kernel

variable {a b : U256}

theorem signedLt_eq : signedLt a b = decide (a.toInt < b.toInt) := by
  unfold signedLt
  rw [negative_eq_msb, negative_eq_msb, BitVec.toInt_eq_msb_cond, BitVec.toInt_eq_msb_cond]
  have left := a.isLt
  have right := b.isLt
  cases a.msb <;> cases b.msb <;> simp [BitVec.lt_def] <;> omega

theorem signedGt_eq : signedGt a b = decide (b.toInt < a.toInt) := by
  rw [← signedLt_eq]
  unfold signedGt signedLt
  rw [bne_comm]

theorem BinaryOp.apply_eq_meaning (op : BinaryOp) (a b : U256) : op.apply a b = op.meaning a b := by
  cases op with
  | add | mul | sub => exact BitVec.eq_of_toNat_eq (by simp [BinaryOp.apply, BinaryOp.meaning])
  | div | mod =>
    apply BitVec.eq_of_toNat_eq
    by_cases zero : b = 0
    · simp [BinaryOp.apply, BinaryOp.meaning, zero]
    · have quotient := Nat.lt_of_le_of_lt (Nat.div_le_self a.toNat b.toNat) a.isLt
      have remainder := Nat.lt_of_le_of_lt (Nat.mod_le a.toNat b.toNat) a.isLt
      simp only [BinaryOp.apply, BinaryOp.meaning, if_neg zero, BitVec.toNat_udiv,
        BitVec.toNat_umod, BitVec.toNat_ofNat, Nat.mod_eq_of_lt quotient, Nat.mod_eq_of_lt remainder]
  | _ => rfl

theorem CompareOp.apply_eq_meaning (op : CompareOp) (a b : U256) : op.apply a b = op.meaning a b := by
  cases op with
  | slt => exact signedLt_eq
  | sgt => exact signedGt_eq
  | eq => simp [CompareOp.apply, CompareOp.meaning, BitVec.toNat_inj]
  | _ => rfl

theorem truth_inj {left right : Bool} : truth left = truth right ↔ left = right := by
  cases left <;> cases right <;> decide +kernel

theorem shifted_eq {shift : U256} {move : Nat → U256} :
    shifted move (shiftAmount shift) = if shift.toNat < 256 then move shift.toNat else 0 := by
  unfold shifted shiftAmount
  have bound : (255 : U256) < shift ↔ ¬ shift.toNat < 256 := by
    rw [BitVec.lt_def, Nat.not_lt]
    exact Iff.rfl
  by_cases small : shift.toNat < 256
  · rw [if_neg (bound.not.mpr (not_not.mpr small)), if_neg (Nat.not_le.mpr small), if_pos small]
  · rw [if_pos (bound.mpr small), if_pos (Nat.le_refl 256), if_neg small]

theorem fromBigEndian_toBigEndian (value : U256) : fromBigEndian (toBigEndian value) = value := by
  unfold fromBigEndian toBigEndian
  have small : value.toNat < 256 ^ 32 := value.isLt
  rw [List.reverse_reverse, fromLeBytes_toLeBytes, Nat.mod_eq_of_lt small, BitVec.ofNat_toNat,
    BitVec.setWidth_eq]

end

section
def low (slot : U256) : U256 := slot &&& (2 ^ 64 - 1 : Nat)

variable {slot : U256}

theorem toNat_low : (low slot).toNat = slot.toNat % 2 ^ 64 := by
  rw [low, BitVec.toNat_and, show ((2 ^ 64 - 1 : Nat) : U256).toNat = 2 ^ 64 - 1 by decide +kernel,
    Nat.and_two_pow_sub_one_eq_mod]

theorem low_low : low (low slot) = low slot := by
  apply BitVec.eq_of_toNat_eq
  rw [toNat_low, toNat_low, Nat.mod_mod]

theorem slotToU64_inj {left right : U256} :
    slotToU64 left = slotToU64 right ↔ low left = low right := by
  unfold slotToU64
  change UInt64.ofNat (low left).toNat = UInt64.ofNat (low right).toNat ↔ _
  constructor
  · intro same
    have := congrArg UInt64.toNat same
    rw [UInt64.toNat_ofNat', UInt64.toNat_ofNat', toNat_low, toNat_low, Nat.mod_mod,
      Nat.mod_mod] at this
    apply BitVec.eq_of_toNat_eq
    rw [toNat_low, toNat_low, this]
  · intro same
    rw [same]

end

section Agreement
variable (overflowChecks : Bool) (keccak256 : List UInt8 → Vector UInt8 32) (db : ContractsCf)
  (env : Environment)

def Vm.word (vm : Vm) (slot : U256) : U256 :=
  fromBigEndian (vm.contractStorage.value db (slotToU64 slot))

/-- The storage as a map over 256-bit slots: those above 64 bits are not stored. -/
def Vm.slots (vm : Vm) (slot : U256) : U256 := if low slot = slot then vm.word db slot else 0

structure Agrees (vm : Vm) (machine : Machine) : Prop where
  stack : vm.stack = machine.stack
  slots : vm.slots db = machine.slots

variable (instruction : Instruction)

/-- The order of the operands does not matter, and a slot may as well be cut to its low 64
bits. -/
def Instruction.Neutral (machine : Machine) : Prop :=
  match instruction, machine.stack with
  | .binary op, a :: b :: _ => op.meaning b a = op.meaning a b
  | .compare op, a :: b :: _ => op.meaning b a = op.meaning a b
  | .sload, slot :: _ => machine.slots (low slot) = machine.slots slot
  | .sstore, slot :: value :: _ =>
    low slot = slot ∨ machine.slots (low slot) = value ∧ machine.slots slot = value
  | _, _ => True

structure Ahead (rest : List Instruction) (vm : Vm) : Prop where
  code : env.code.drop vm.pc = assemble rest
  coherent : Coherent db vm.contractStorage
  sized : Sized vm.contractStorage

structure Follows (instruction : Instruction) (vm after : Vm) (machine : Machine) : Prop where
  pc : after.pc = vm.pc + instruction.data.length
  coherent : Coherent db after.contractStorage
  sized : Sized after.contractStorage
  agrees : Agrees db vm machine → ∃ after', instruction.ethereum machine = some after' ∧
    (Agrees db after after' ↔ instruction.Neutral machine)

section Cases
variable {db} {vm after : Vm} {machine : Machine}

theorem bind_ok {First Second : Type} {first : Except Stop First}
    {next : First → Except Stop Second} {result : Second} (ran : first >>= next = .ok result) :
    ∃ middle, first = .ok middle ∧ next middle = .ok result := by
  cases first with
  | error stop => cases ran
  | ok middle => exact ⟨middle, rfl, ran⟩

theorem pop_ok {result : U256 × Vm} (popped : vm.pop = .ok result) :
    ∃ top rest, vm.stack = top :: rest ∧ result = (top, { vm with stack := rest }) := by
  unfold Vm.pop at popped
  split at popped
  · cases popped
  · next top rest held => exact ⟨top, rest, held, (Except.ok.inj popped).symm⟩

theorem pop_bind_ok {Result : Type} {next : U256 × Vm → Except Stop Result} {result : Result}
    (ran : vm.pop >>= next = .ok result) :
    ∃ top rest, vm.stack = top :: rest ∧ next (top, { vm with stack := rest }) = .ok result := by
  obtain ⟨_, popped, ran⟩ := bind_ok ran
  obtain ⟨top, rest, held, rfl⟩ := pop_ok popped
  exact ⟨top, rest, held, ran⟩

theorem binop_ok {apply : U256 → U256 → U256} (ran : binop apply vm = .ok after) :
    ∃ top second rest, vm.stack = top :: second :: rest ∧
      after = { vm with stack := apply second top :: rest } := by
  obtain ⟨top, _, held, ran⟩ := pop_bind_ok ran
  obtain ⟨second, rest, below, ran⟩ := pop_bind_ok ran
  dsimp only at below
  exact ⟨top, second, rest, below ▸ held, (Except.ok.inj ran).symm⟩

theorem follows_of_stack {instruction : Instruction} {stack : List U256}
    (coherent : Coherent db vm.contractStorage) (sized : Sized vm.contractStorage)
    (left : after = { vm with stack, pc := vm.pc + instruction.data.length })
    (right : vm.stack = machine.stack → ∃ stack', instruction.ethereum machine =
      some { machine with stack := stack' } ∧ (stack = stack' ↔ instruction.Neutral machine)) :
    Follows db instruction vm after machine := by
  subst left
  refine ⟨rfl, coherent, sized, fun agrees => ?_⟩
  obtain ⟨stack', followed, same⟩ := right agrees.stack
  refine ⟨_, followed, ?_⟩
  rw [← same]
  exact ⟨fun agreed => agreed.stack, fun level => ⟨level, agrees.slots⟩⟩

theorem sload_follows (coherent : Coherent db vm.contractStorage)
    (sized : Sized vm.contractStorage) (ran : vm.sload db = .ok after) :
    Follows db .sload vm after machine := by
  obtain ⟨slot, rest, held, ran⟩ := pop_bind_ok ran
  dsimp only at ran
  split at ran
  · cases ran
  · next execution value performed =>
    obtain ⟨_, words⟩ := sload_words rfl performed
    obtain ⟨rfl, overlay, address, coherent'⟩ := sload_spec performed coherent
    obtain ⟨length, sized'⟩ := words sized
    obtain ⟨word, sliced, ran⟩ := bind_ok ran
    cases ran
    have read : fromBigEndian word = vm.word db slot := by
      unfold slice at sliced
      split at sliced
      · cases sliced
        rw [Vm.word, List.drop_zero, List.take_of_length_le (by omega)]
      · cases sliced
    have kept : ∀ other, Vm.word db (Vm.push { vm with
        stack := rest, contractStorage := execution.contractStorage,
        gasMeter := execution.gasMeter.getD vm.gasMeter } (fromBigEndian word)) other =
          vm.word db other := by
      intro other
      simp [Vm.word, Vm.push, ContractStorage.value, overlay, address]
    refine ⟨rfl, coherent', sized', fun agrees => ?_⟩
    have stack := agrees.stack
    rw [held] at stack
    refine ⟨_, by rw [Instruction.ethereum, ← stack], ?_⟩
    have found : vm.word db slot = machine.slots (low slot) := by
      rw [← agrees.slots, Vm.slots, if_pos low_low, Vm.word, Vm.word, slotToU64_inj.mpr low_low]
    have neutral : Instruction.Neutral .sload machine ↔
        machine.slots (low slot) = machine.slots slot := by
      unfold Instruction.Neutral
      rw [← stack]
    rw [neutral, ← found, ← read]
    constructor
    · intro agreed
      exact (List.cons.inj agreed.stack).1
    · intro same
      refine ⟨by rw [Vm.push, same], ?_⟩
      rw [← agrees.slots]
      funext other
      rw [Vm.slots, kept other, Vm.slots]

theorem slots_insert (vm : Vm) (stack : List U256) (gasMeter : GasMeter) (slot value : U256) :
    Vm.slots db { vm with
      stack, gasMeter, contractStorage := { vm.contractStorage with
        overlay := vm.contractStorage.overlay.insert (slotToU64 slot) (toBigEndian value) } } =
      Function.update (vm.slots db) (low slot) value := by
  funext other
  rw [Function.update_apply]
  simp only [Vm.slots, Vm.word, ContractStorage.value, Std.ExtTreeMap.getElem?_insert,
    Std.LawfulEqCmp.compare_eq_iff_eq, slotToU64_inj]
  by_cases here : other = low slot
  · rw [if_pos here, here, low_low, if_pos rfl, if_pos rfl, Option.getD_some, fromBigEndian_toBigEndian]
  · rw [if_neg here]
    by_cases short : low other = other
    · rw [if_pos short, if_pos short, if_neg (fun same => here (short ▸ same.symm))]
    · rw [if_neg short, if_neg short]

theorem update_eq_update_iff {slots : U256 → U256} {first second value : U256} :
    Function.update slots first value = Function.update slots second value ↔
      first = second ∨ slots first = value ∧ slots second = value := by
  constructor
  · intro same
    by_cases level : first = second
    · exact .inl level
    · have one := congrFun same first
      have two := congrFun same second
      rw [Function.update_self, Function.update_of_ne level] at one
      rw [Function.update_self, Function.update_of_ne (Ne.symm level)] at two
      exact .inr ⟨one.symm, two⟩
  · rintro (rfl | ⟨rfl, same⟩)
    · rfl
    · rw [Function.update_eq_self, ← same, Function.update_eq_self]

theorem sstore_follows (coherent : Coherent db vm.contractStorage)
    (sized : Sized vm.contractStorage) (ran : vm.sstore = .ok after) :
    Follows db .sstore vm after machine := by
  obtain ⟨slot, _, held, ran⟩ := pop_bind_ok ran
  dsimp only at ran
  obtain ⟨value, rest, below, ran⟩ := pop_bind_ok ran
  dsimp only at below ran
  subst below
  split at ran
  · cases ran
  · cases ran
    refine ⟨rfl, ?_, ⟨?_, sized.readCache⟩, fun agrees => ?_⟩
    · intro other word cached unwritten
      simp only [Std.ExtTreeMap.getElem?_insert] at unwritten
      split at unwritten
      · cases unwritten
      · exact coherent other word cached unwritten
    · intro other word written
      simp only [Std.ExtTreeMap.getElem?_insert] at written
      split at written
      · cases written
        simp [toBigEndian]
      · exact sized.overlay other word written
    · have stack := agrees.stack
      rw [held] at stack
      refine ⟨_, by rw [Instruction.ethereum, ← stack], ?_⟩
      have neutral : Instruction.Neutral .sstore machine ↔ low slot = slot ∨
          machine.slots (low slot) = value ∧ machine.slots slot = value := by
        unfold Instruction.Neutral
        rw [← stack]
      rw [neutral, ← update_eq_update_iff, ← agrees.slots]
      have written := @slots_insert db vm rest
      exact ⟨fun agreed => (written _ slot value).symm.trans agreed.slots,
        fun same => ⟨rfl, (written _ slot value).trans same⟩⟩

theorem swapped_follows {instruction : Instruction} (meaning : U256 → U256 → U256)
    (coherent : Coherent db vm.contractStorage) (sized : Sized vm.contractStorage)
    (noData : instruction.data = [])
    (ran : binop meaning vm = .ok after)
    (ethereum : ∀ a b rest, machine.stack = a :: b :: rest →
      instruction.ethereum machine = some { machine with stack := meaning a b :: rest })
    (neutral : ∀ a b rest, machine.stack = a :: b :: rest →
      (instruction.Neutral machine ↔ meaning b a = meaning a b)) :
    Follows db instruction vm after machine := by
  obtain ⟨top, second, rest, held, left⟩ := binop_ok ran
  refine follows_of_stack coherent sized (by rw [noData]; exact left) fun same => ?_
  rw [held] at same
  refine ⟨_, ethereum _ _ _ same.symm, ?_⟩
  rw [neutral _ _ _ same.symm, List.cons.injEq, and_iff_left rfl]

end Cases

variable {overflowChecks keccak256 db env} {vm after : Vm} {machine : Machine}

theorem exec_follows (rest : List Instruction)
    (code : env.code.drop vm.pc = instruction.data ++ assemble rest)
    (coherent : Coherent db vm.contractStorage) (sized : Sized vm.contractStorage)
    (ran : exec overflowChecks keccak256 db env vm instruction.opcode = .ok after) :
    Follows db instruction vm after machine := by
  cases instruction with
  | push data bound =>
    change vm.pushn env data.length = .ok after at ran
    unfold Vm.pushn at ran
    split at ran
    · cases ran
    · cases ran
      refine follows_of_stack coherent sized rfl fun same => ⟨_, rfl, ?_⟩
      rw [code, Instruction.data, List.take_left' rfl, ← same]
      exact iff_of_true rfl trivial
  | dup depth =>
    change vm.dup (depth.val + 1) = .ok after at ran
    unfold Vm.dup at ran
    split at ran
    · cases ran
    · next value found =>
      cases ran
      refine follows_of_stack coherent sized rfl fun same => ?_
      rw [Nat.add_sub_cancel, same] at found
      refine ⟨value :: machine.stack, by rw [Instruction.ethereum, found]; rfl, ?_⟩
      exact iff_of_true (by rw [same]) trivial
  | swap depth =>
    change vm.swap (depth.val + 1) = .ok after at ran
    unfold Vm.swap at ran
    split at ran
    · next top other first second =>
      cases ran
      refine follows_of_stack coherent sized rfl fun same => ?_
      rw [same] at first second
      exact ⟨_, by rw [Instruction.ethereum, first, second]; rfl, iff_of_true (by rw [same]) trivial⟩
    · cases ran
  -- The interpreter takes the operands in the other order than the Ethereum machine.
  | binary op =>
    refine swapped_follows op.apply coherent sized rfl ran ?_ ?_
    · intro a b rest held
      rw [Instruction.ethereum, held, op.apply_eq_meaning]
    · intro a b rest held
      unfold Instruction.Neutral
      rw [held, op.apply_eq_meaning, op.apply_eq_meaning]
  | compare op =>
    refine swapped_follows (fun a b => truth (op.apply a b)) coherent sized rfl ran ?_ ?_
    · intro a b rest held
      rw [Instruction.ethereum, held, op.apply_eq_meaning]
    · intro a b rest held
      unfold Instruction.Neutral
      rw [held, op.apply_eq_meaning, op.apply_eq_meaning]
      exact truth_inj.symm
  | pop | iszero | not =>
    obtain ⟨top, rest, held, ran⟩ := pop_bind_ok ran
    cases ran
    refine follows_of_stack coherent sized rfl fun same => ?_
    rw [held] at same
    exact ⟨_, by rw [Instruction.ethereum, ← same], iff_of_true rfl trivial⟩
  | byte =>
    obtain ⟨index, _, held, ran⟩ := pop_bind_ok ran
    obtain ⟨word, rest, below, ran⟩ := pop_bind_ok ran
    obtain ⟨number, small, ran⟩ := bind_ok ran
    dsimp only at below
    subst below
    cases ran
    refine follows_of_stack coherent sized rfl fun same => ?_
    rw [held] at same
    refine ⟨_, by rw [Instruction.ethereum, ← same], iff_of_true ?_ trivial⟩
    unfold u256ToUsize at small
    split at small
    · cases small
    · cases small
      by_cases inside : index.toNat < 32
      · rw [if_pos inside, if_neg (Nat.not_le.mpr inside), Nat.mul_comm]
      · rw [if_neg inside, if_pos (Nat.not_lt.mp inside)]
  | shl | shr =>
    simp only [Instruction.opcode, exec] at ran
    obtain ⟨top, second, rest, held, left⟩ := binop_ok ran
    refine follows_of_stack coherent sized left fun same => ?_
    rw [held] at same
    exact ⟨_, by rw [Instruction.ethereum, ← same], iff_of_true (by rw [shifted_eq]) trivial⟩
  | sload => exact sload_follows coherent sized ran
  | sstore => exact sstore_follows coherent sized ran

variable {instruction} {rest : List Instruction}

theorem turn_exec (ahead : Ahead db env (instruction :: rest) vm)
    (ran : (interpreter overflowChecks keccak256 db env).turn vm = .ok after) :
    ∃ gasMeter, exec overflowChecks keccak256 db env
      { vm with gasMeter, pc := vm.pc + 1 } instruction.opcode = .ok after := by
  obtain ⟨ready, fetched, ran⟩ := bind_ok ran
  change fetch env vm = .ok ready at fetched
  change act overflowChecks keccak256 db env ready = .ok after at ran
  have found : env.code[vm.pc]? = some instruction.opcodeByte := by
    rw [← List.head?_drop, ahead.code]
    rfl
  unfold fetch at fetched
  split at fetched
  · split at fetched
    · cases fetched
    · next gasMeter _ =>
      cases fetched
      unfold act at ran
      rw [found] at ran
      exact ⟨gasMeter, decode_opcodeByte ▸ ran⟩
  · cases fetched

theorem turn_follows (ahead : Ahead db env (instruction :: rest) vm)
    (agrees : Agrees db vm machine)
    (ran : (interpreter overflowChecks keccak256 db env).turn vm = .ok after) :
    Ahead db env rest after ∧ ∃ after', instruction.ethereum machine = some after' ∧
      (Agrees db after after' ↔ instruction.Neutral machine) := by
  obtain ⟨gasMeter, ran⟩ := turn_exec ahead ran
  have code : env.code.drop (vm.pc + 1) = instruction.data ++ assemble rest := by
    rw [← List.drop_drop, ahead.code]
    rfl
  have follows : Follows db instruction { vm with gasMeter, pc := vm.pc + 1 } after machine :=
    exec_follows instruction rest code ahead.coherent ahead.sized ran
  refine ⟨⟨?_, follows.coherent, follows.sized⟩, follows.agrees ⟨agrees.stack, agrees.slots⟩⟩
  rw [follows.pc, ← List.drop_drop, code, List.drop_left' rfl]

end Agreement

section
variable (overflowChecks : Bool) (keccak256 : List UInt8 → Vector UInt8 32) (db : ContractsCf)
  (env : Environment)

def turn (vm : Vm) : Option Vm := ((interpreter overflowChecks keccak256 db env).turn vm).toOption

/-- A call that starts on a contract with nothing in its storage. -/
structure Fresh (vm : Vm) : Prop where
  start : vm.pc = 0 ∧ vm.stack = []
  unwritten : vm.contractStorage.overlay = ∅ ∧ vm.contractStorage.readCache = ∅
  unpersisted : ∀ slot, db[makeStorageKey vm.contractStorage.contractAddress slot]? = none

/-- A straight-line program that runs without error has after each of its instructions the
stack and the slots of the Ethereum semantics exactly where each instruction is neutral
on the machine it starts from. -/
theorem same_as_ethereum_iff (program : List Instruction) (vm : Vm) (fresh : Fresh db vm)
    (code : env.code = assemble program)
    (runs : Runs (turn overflowChecks keccak256 db env) program vm) :
    EveryState (turn overflowChecks keccak256 db env) (flip Instruction.ethereum)
        (Agrees db) program vm {} ↔
      EveryStep (flip Instruction.ethereum) Instruction.Neutral program {} := by
  have empty : ∀ slot, vm.contractStorage.value db slot = zeroValue := by
    intro slot
    rw [ContractStorage.value, fresh.unwritten.1, dbValue, fresh.unpersisted]
    rfl
  apply everyState_iff_everyStep (Ahead db env) _ _ _ runs
  · intro op rest before machine after ahead agrees stepped
    unfold turn at stepped
    cases ran : (interpreter overflowChecks keccak256 db env).turn before with
    | error stop =>
      rw [ran] at stepped
      cases stepped
    | ok next =>
      rw [ran] at stepped
      cases stepped
      exact turn_follows ahead agrees ran
  · refine ⟨by rw [fresh.start.1, code]; rfl, ?_, ?_, ?_⟩
    · intro slot value cached
      rw [fresh.unwritten.2] at cached
      simp at cached
    · intro slot value written
      rw [fresh.unwritten.1] at written
      simp at written
    · intro slot value cached
      rw [fresh.unwritten.2] at cached
      simp at cached
  · refine ⟨fresh.start.2, ?_⟩
    funext slot
    rw [Vm.slots, Vm.word, empty]
    split
    · exact (show fromBigEndian zeroValue = 0 by decide +kernel)
    · rfl

end

theorem fresh_sampleVm {gasLimit batchLimit : Nat} : Fresh ∅ (sampleVm gasLimit batchLimit) :=
  ⟨⟨rfl, rfl⟩, ⟨rfl, rfl⟩, fun _ => Std.ExtTreeMap.getElem?_empty⟩

theorem sized_one {byte : UInt8} : 1 ≤ [byte].length ∧ [byte].length ≤ 32 := by simp

def one (byte : UInt8) : Instruction := .push [byte] sized_one

def storedSum : List Instruction := [one 2, one 3, .binary .add, one 1, .sstore]

theorem storedSum_same :
    EveryState (turn true noHash ∅ (sampleEnv (assemble storedSum)))
        (flip Instruction.ethereum) (Agrees ∅) storedSum (sampleVm 20000 100) {} ↔
      EveryStep (flip Instruction.ethereum) Instruction.Neutral storedSum {} :=
  same_as_ethereum_iff true noHash ∅ (sampleEnv (assemble storedSum)) storedSum
    (sampleVm 20000 100) fresh_sampleVm rfl (by decide +kernel)

variable (program : List Instruction)

def stackAfter : Option (List U256) :=
  ((interpreter true noHash ∅ (sampleEnv (assemble program))).turns program.length
    (sampleVm 20000 100)).toOption.map (·.stack)

def ethereumStack : Option (List U256) := (program.foldlM Instruction.ethereum {}).map (·.stack)

def farBytes : List UInt8 := [1, 0, 0, 0, 0, 0, 0, 0, 0]

theorem sized_farBytes : 1 ≤ farBytes.length ∧ farBytes.length ≤ 32 := by decide

def farSlot : List Instruction := [one 7, .push farBytes sized_farBytes, .sstore, one 0, .sload]

theorem operands_swapped_and_slots_mixed :
    stackAfter [one 1, one 3, .binary .sub] = some [-2] ∧
      ethereumStack [one 1, one 3, .binary .sub] = some [2] ∧
      stackAfter farSlot = some [7] ∧ ethereumStack farSlot = some [0] := by
  decide +kernel

end Savitri.Evm
