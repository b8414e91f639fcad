import Savitri.ByteWords
import Savitri.ContractStorage
import Savitri.HexCodec
import Savitri.Loops

/-!
The interpreter of contracts/evm_interpreter.rs on a 64-bit machine. A panic is an outcome
of its own. Whether an overflowing addition panics or wraps depends on the build, so it
is a parameter; growing the memory past `isize::MAX` bytes always panics, and growing it
to less succeeds. Stacks have the top first.
-/
namespace Savitri.Evm
open Contracts Fallible LeBytes Loops
open LatticeTypes (toLeBytes)
open MachineInt (saturatingAdd)

abbrev U256 := BitVec 256

inductive Panic where
  | capacityOverflow
  | arithmeticOverflow
  | indexOutOfRange
  deriving DecidableEq, Repr

inductive Stop where
  | returned (data : List UInt8)
  | failed (text : String)
  | panicked (panic : Panic)
  deriving DecidableEq

inductive BinaryOp where
  | add | mul | sub | div | mod | and | or | xor

inductive CompareOp where
  | lt | gt | slt | sgt | eq

inductive PushOp where
  | address | caller | callvalue | calldatasize | codesize | timestamp | pc | msize

inductive Opcode where
  | stop
  | binary (op : BinaryOp)
  | compare (op : CompareOp)
  | iszero | not | byte | shl | shr | sha3
  | push (op : PushOp)
  | calldataload | calldatacopy | codecopy
  | pop | mload | mstore | mstore8 | sload | sstore | jump | jumpi | jumpdest
  | pushn (n : Nat)
  | dup (depth : Nat)
  | swap (depth : Nat)
  | returnData | revert | invalid
  | unsupported (byte : UInt8)

def decodeRange (byte : UInt8) : Opcode :=
  if 0x60 ≤ byte ∧ byte ≤ 0x7f then .pushn (byte - 0x5f).toNat
  else if 0x80 ≤ byte ∧ byte ≤ 0x8f then .dup (byte - 0x7f).toNat
  else if 0x90 ≤ byte ∧ byte ≤ 0x9f then .swap (byte - 0x8f).toNat
  else .unsupported byte

def decode (byte : UInt8) : Opcode :=
  match byte.toNat with
  | 0x00 => .stop
  | 0x01 => .binary .add
  | 0x02 => .binary .mul
  | 0x03 => .binary .sub
  | 0x04 => .binary .div
  | 0x06 => .binary .mod
  | 0x10 => .compare .lt
  | 0x11 => .compare .gt
  | 0x12 => .compare .slt
  | 0x13 => .compare .sgt
  | 0x14 => .compare .eq
  | 0x15 => .iszero
  | 0x16 => .binary .and
  | 0x17 => .binary .or
  | 0x18 => .binary .xor
  | 0x19 => .not
  | 0x1a => .byte
  | 0x1b => .shl
  | 0x1c => .shr
  | 0x20 => .sha3
  | 0x30 => .push .address
  | 0x33 => .push .caller
  | 0x34 => .push .callvalue
  | 0x35 => .calldataload
  | 0x36 => .push .calldatasize
  | 0x37 => .calldatacopy
  | 0x38 => .push .codesize
  | 0x39 => .codecopy
  | 0x42 => .push .timestamp
  | 0x50 => .pop
  | 0x51 => .mload
  | 0x52 => .mstore
  | 0x53 => .mstore8
  | 0x54 => .sload
  | 0x55 => .sstore
  | 0x56 => .jump
  | 0x57 => .jumpi
  | 0x58 => .push .pc
  | 0x59 => .push .msize
  | 0x5b => .jumpdest
  | 0xf3 => .returnData
  | 0xfd => .revert
  | 0xfe => .invalid
  | _ => decodeRange byte

def fromBigEndian (bytes : List UInt8) : U256 := BitVec.ofNat 256 (fromLeBytes bytes.reverse)

def toBigEndian (value : U256) : List UInt8 := (toLeBytes 32 value.toNat).reverse

def signBit : U256 := 1 <<< 255

def negative (value : U256) : Bool := (value &&& signBit) != 0

def signedLt (a b : U256) : Bool :=
  if negative a != negative b then negative a else decide (a < b)

def signedGt (a b : U256) : Bool :=
  if negative a != negative b then negative b else decide (b < a)

def BinaryOp.apply : BinaryOp → U256 → U256 → U256
  | .add, a, b => a + b
  | .mul, a, b => a * b
  | .sub, a, b => a - b
  | .div, a, b => if b = 0 then 0 else a / b
  | .mod, a, b => if b = 0 then 0 else a % b
  | .and, a, b => a &&& b
  | .or, a, b => a ||| b
  | .xor, a, b => a ^^^ b

def CompareOp.apply : CompareOp → U256 → U256 → Bool
  | .lt, a, b => decide (a < b)
  | .gt, a, b => decide (b < a)
  | .slt, a, b => signedLt a b
  | .sgt, a, b => signedGt a b
  | .eq, a, b => decide (a = b)

def truth (holds : Bool) : U256 := if holds then 1 else 0

def shiftAmount (shift : U256) : Nat := if 255 < shift then 256 else shift.toNat

def shifted (shift : Nat → U256) (amount : Nat) : U256 := if 256 ≤ amount then 0 else shift amount

def slotToU64 (slot : U256) : Slot := UInt64.ofNat (slot &&& (2 ^ 64 - 1 : Nat)).toNat

def usizeMax : Nat := 2 ^ 64 - 1
def isizeMax : Nat := 2 ^ 63 - 1

/-- What a call cannot change: its code, its arguments and the block it is in. A slice has
at most `isize::MAX` bytes. -/
structure Environment where
  code : List UInt8
  contractAddress : Vector UInt8 32
  caller : Vector UInt8 32
  value : BitVec 128
  calldata : List UInt8
  blockTimestamp : UInt64
  calldataFits : calldata.length ≤ isizeMax

structure Vm where
  pc : Nat := 0
  stack : List U256 := []
  memory : List UInt8 := []
  contractStorage : ContractStorage
  gasMeter : GasMeter

section Machine
variable (vm : Vm)

def Vm.push (value : U256) : Vm := { vm with stack := value :: vm.stack }

def Vm.pop : Except Stop (U256 × Vm) :=
  match vm.stack with
  | [] => .error (.failed "EVM stack underflow")
  | top :: rest => .ok (top, { vm with stack := rest })

def u256ToUsize (value : U256) : Except Stop Nat :=
  if usizeMax < value.toNat then .error (.failed "value too large for usize")
  else .ok value.toNat

def Vm.popUsize : Except Stop (Nat × Vm) := do
  let (value, vm) ← vm.pop
  let number ← u256ToUsize value
  return (number, vm)

/-- An addition of the source that is neither checked nor saturating. -/
def addUsize (overflowChecks : Bool) (left right : Nat) : Except Stop Nat :=
  if left + right ≤ usizeMax then .ok (left + right)
  else if overflowChecks then .error (.panicked .arithmeticOverflow)
  else .ok ((left + right) % 2 ^ 64)

def Vm.ensureMemory (end_ : Nat) : Except Stop Vm :=
  if vm.memory.length < end_ then
    if isizeMax < end_ then .error (.panicked .capacityOverflow)
    else .ok { vm with memory := vm.memory ++ List.replicate (end_ - vm.memory.length) 0 }
  else .ok vm

variable (bytes : List UInt8)

def slice (start end_ : Nat) : Except Stop (List UInt8) :=
  if start ≤ end_ ∧ end_ ≤ bytes.length then .ok ((bytes.drop start).take (end_ - start))
  else .error (.panicked .indexOutOfRange)

def setByte (index : Nat) (byte : UInt8) : Except Stop (List UInt8) :=
  if index < bytes.length then .ok (bytes.set index byte)
  else .error (.panicked .indexOutOfRange)

/-- `copy_from_slice` into a part of the memory. -/
def overwrite (start end_ : Nat) (word : List UInt8) : Except Stop (List UInt8) := do
  let old ← slice bytes start end_
  if old.length = word.length then .ok (bytes.take start ++ word ++ bytes.drop end_)
  else .error (.panicked .indexOutOfRange)

/-- The loop of the copy opcodes, byte by byte; past the end of the source it copies zeros. -/
def copyBytes (overflowChecks : Bool) (source : List UInt8) (memOffset dataOffset : Nat) :
    (count index : Nat) → List UInt8 → Except Stop (List UInt8)
  | 0, _, memory => .ok memory
  | count + 1, index, memory => do
    let src ← addUsize overflowChecks dataOffset index
    let target ← addUsize overflowChecks memOffset index
    let memory ← setByte memory target (source.getD src 0)
    copyBytes overflowChecks source memOffset dataOffset count (index + 1) memory

variable (overflowChecks : Bool) (keccak256 : List UInt8 → Vector UInt8 32) (db : ContractsCf)
  (env : Environment)

def Vm.mload (vm : Vm) : Except Stop Vm := do
  let (offset, vm) ← vm.popUsize
  let vm ← vm.ensureMemory (saturatingAdd usizeMax offset 32)
  let end_ ← addUsize overflowChecks offset 32
  let word ← slice vm.memory offset end_
  return vm.push (fromBigEndian word)

def Vm.mstore (vm : Vm) : Except Stop Vm := do
  let (offset, vm) ← vm.popUsize
  let (value, vm) ← vm.pop
  let vm ← vm.ensureMemory (saturatingAdd usizeMax offset 32)
  let end_ ← addUsize overflowChecks offset 32
  let memory ← overwrite vm.memory offset end_ (toBigEndian value)
  return { vm with memory }

def Vm.mstore8 : Except Stop Vm := do
  let (offset, vm) ← vm.popUsize
  let (value, vm) ← vm.pop
  let vm ← vm.ensureMemory (saturatingAdd usizeMax offset 1)
  let memory ← setByte vm.memory offset (UInt8.ofNat (value &&& 0xff).toNat)
  return { vm with memory }

def Vm.calldataload (vm : Vm) : Except Stop Vm := do
  let (offset, vm) ← vm.popUsize
  if offset < env.calldata.length then
    let copyLen := min (env.calldata.length - offset) 32
    let end_ ← addUsize overflowChecks offset copyLen
    let data ← slice env.calldata offset end_
    return vm.push (fromBigEndian (data ++ List.replicate (32 - copyLen) 0))
  else return vm.push 0

def Vm.copy (source : List UInt8) (vm : Vm) : Except Stop Vm := do
  let (memOffset, vm) ← vm.popUsize
  let (dataOffset, vm) ← vm.popUsize
  let (len, vm) ← vm.popUsize
  let vm ← vm.ensureMemory (saturatingAdd usizeMax memOffset len)
  let memory ← copyBytes overflowChecks source memOffset dataOffset len 0 vm.memory
  return { vm with memory }

def Vm.sha3 (vm : Vm) : Except Stop Vm := do
  let (offset, vm) ← vm.popUsize
  let (len, vm) ← vm.popUsize
  let vm ← vm.ensureMemory (saturatingAdd usizeMax offset len)
  let end_ ← addUsize overflowChecks offset len
  let data ← slice vm.memory offset end_
  return vm.push (fromBigEndian (keccak256 data).toList)

def Vm.sload (vm : Vm) : Except Stop Vm := do
  let (slot, vm) ← vm.pop
  let before : Execution := { contractStorage := vm.contractStorage, gasMeter := some vm.gasMeter }
  match perform (Contracts.sload db (slotToU64 slot)) before with
  | (_, .error failure) => .error (.failed ("sload failed: " ++ failure.headD ""))
  | (after, .ok value) =>
    let word ← slice value 0 32
    let vm := { vm with
      contractStorage := after.contractStorage
      gasMeter := after.gasMeter.getD vm.gasMeter }
    return vm.push (fromBigEndian word)

/-- The overlay is written directly: reserved slots are not refused, and a zero is kept. -/
def Vm.sstore (vm : Vm) : Except Stop Vm := do
  let (slot, vm) ← vm.pop
  let (value, vm) ← vm.pop
  match vm.gasMeter.consumeSstore false with
  | (_, .error text) => .error (.failed ("sstore gas failed: " ++ text))
  | (gasMeter, .ok ()) =>
    let overlay := vm.contractStorage.overlay.insert (slotToU64 slot) (toBigEndian value)
    return { vm with contractStorage := { vm.contractStorage with overlay }, gasMeter }

def validateJumpdest (dest : Nat) : Except Stop Unit :=
  match env.code[dest]? with
  | none => .error (.failed "jump destination out of bounds")
  | some byte =>
    if byte = 0x5b then .ok () else .error (.failed "jump destination is not JUMPDEST")

def Vm.jump (vm : Vm) : Except Stop Vm := do
  let (dest, vm) ← vm.popUsize
  validateJumpdest env dest
  return { vm with pc := dest }

def Vm.jumpi (vm : Vm) : Except Stop Vm := do
  let (dest, vm) ← vm.popUsize
  let (cond, vm) ← vm.pop
  if cond = 0 then return vm
  else
    validateJumpdest env dest
    return { vm with pc := dest }

def Vm.returnData (vm : Vm) : Except Stop (List UInt8) := do
  let (offset, vm) ← vm.popUsize
  let (size, vm) ← vm.popUsize
  let vm ← vm.ensureMemory (saturatingAdd usizeMax offset size)
  let end_ ← addUsize overflowChecks offset size
  slice vm.memory offset end_

def Vm.pushn (n : Nat) (vm : Vm) : Except Stop Vm :=
  if env.code.length < vm.pc + n then .error (.failed "PUSH exceeds bytecode length")
  else .ok { vm.push (fromBigEndian ((env.code.drop vm.pc).take n)) with pc := vm.pc + n }

def Vm.dup (depth : Nat) (vm : Vm) : Except Stop Vm :=
  match vm.stack[depth - 1]? with
  | none => .error (.failed "EVM stack underflow")
  | some value => .ok (vm.push value)

def Vm.swap (depth : Nat) (vm : Vm) : Except Stop Vm :=
  match vm.stack[0]?, vm.stack[depth]? with
  | some top, some other => .ok { vm with stack := (vm.stack.set 0 other).set depth top }
  | _, _ => .error (.failed "EVM stack underflow")

def Vm.found (vm : Vm) : PushOp → U256
  | .address => fromBigEndian env.contractAddress.toList
  | .caller => fromBigEndian env.caller.toList
  | .callvalue => env.value.setWidth 256
  | .calldatasize => BitVec.ofNat 256 env.calldata.length
  | .codesize => BitVec.ofNat 256 env.code.length
  | .timestamp => BitVec.ofNat 256 env.blockTimestamp.toNat
  | .pc => BitVec.ofNat 256 (vm.pc - 1)
  | .msize => BitVec.ofNat 256 vm.memory.length

end Machine

section Run
variable (overflowChecks : Bool) (keccak256 : List UInt8 → Vector UInt8 32) (db : ContractsCf)
  (env : Environment)

def binop (apply : U256 → U256 → U256) (vm : Vm) : Except Stop Vm := do
  let (b, vm) ← vm.pop
  let (a, vm) ← vm.pop
  return vm.push (apply a b)

def hexByte (byte : UInt8) : String := HexCodec.encode [byte]

def exec (vm : Vm) : Opcode → Except Stop Vm
  | .stop => .error (.returned [])
  | .binary op => binop op.apply vm
  | .compare op => binop (fun a b => truth (op.apply a b)) vm
  | .iszero => do
    let (value, vm) ← vm.pop
    return vm.push (truth (value = 0))
  | .not => do
    let (value, vm) ← vm.pop
    return vm.push (~~~value)
  | .byte => do
    let (index, vm) ← vm.pop
    let (word, vm) ← vm.pop
    let index ← u256ToUsize index
    return vm.push (if 32 ≤ index then 0 else (word >>> ((31 - index) * 8)) &&& 0xff)
  | .shl => binop (fun value shift => shifted (value <<< ·) (shiftAmount shift)) vm
  | .shr => binop (fun value shift => shifted (value >>> ·) (shiftAmount shift)) vm
  | .sha3 => vm.sha3 overflowChecks keccak256
  | .push op => .ok (vm.push (vm.found env op))
  | .calldataload => vm.calldataload overflowChecks env
  | .calldatacopy => vm.copy overflowChecks env.calldata
  | .codecopy => vm.copy overflowChecks env.code
  | .pop => do
    let (_, vm) ← vm.pop
    return vm
  | .mload => vm.mload overflowChecks
  | .mstore => vm.mstore overflowChecks
  | .mstore8 => vm.mstore8
  | .sload => vm.sload db
  | .sstore => vm.sstore
  | .jump => vm.jump env
  | .jumpi => vm.jumpi env
  | .jumpdest => .ok vm
  | .pushn n => vm.pushn env n
  | .dup depth => vm.dup depth
  | .swap depth => vm.swap depth
  | .returnData => do
    let data ← vm.returnData overflowChecks
    .error (.returned data)
  | .revert => do
    let data ← vm.returnData overflowChecks
    .error (.failed ("EVM revert: 0x" ++ HexCodec.encode data))
  | .invalid => .error (.failed "EVM invalid opcode")
  | .unsupported byte =>
    .error (.failed ("EVM opcode 0x" ++ hexByte byte ++ " not yet supported"))

def fetch (vm : Vm) : Except Stop Vm :=
  if vm.pc < env.code.length then
    match vm.gasMeter.consume 1 with
    | (_, .error text) => .error (.failed ("gas exhausted: " ++ text))
    | (gasMeter, .ok ()) => .ok { vm with gasMeter }
  else .error (.returned [])

def act (vm : Vm) : Except Stop Vm :=
  match env.code[vm.pc]? with
  | none => .error (.returned [])
  | some byte =>
    exec overflowChecks keccak256 db env { vm with pc := vm.pc + 1 } (decode byte)

def interpreter : Loop Vm Stop where
  fetch := fetch env
  act := act overflowChecks keccak256 db env

end Run

end Savitri.Evm
