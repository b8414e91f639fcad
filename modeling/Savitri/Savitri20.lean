import Savitri.ContractStorage
import Savitri.HexCodec

/-!
The fungible token of contracts/standards/savitri20.rs on the storage of its contract.
Amounts are `u128`, kept in the first half of a word. An event only costs gas here: the
buffer it goes to is read by nothing that follows.
-/
namespace Savitri.Savitri20
open Contracts Fallible LeBytes
open LatticeTypes (toLeBytes)

abbrev Address := Vector UInt8 32
abbrev Amount := BitVec 128

def slotTotalSupply : Slot := 100
def slotBalancesBase : Slot := 101
def slotAllowancesBase : Slot := 200
def slotNameBase : Slot := 300
def slotSymbolBase : Slot := 400

def slotOwner : Slot := 0
def slotPaused : Slot := 4

def zeroAddress : Address := Vector.replicate 32 0

/-- The frame on top of the call stack. -/
structure CallFrame where
  contractAddress : Address
  caller : Address

section
variable (keccak256 : List UInt8 → Vector UInt8 32)

def slotOfHash (hash : Vector UInt8 32) : Slot := UInt64.ofNat (fromLeBytes (hash.toList.take 8))

def calculateBalanceSlot (address : Address) : Slot :=
  slotOfHash (keccak256 (address.toList ++ toLeBytes 8 slotBalancesBase.toNat))

def calculateAllowanceSlot (owner spender : Address) : Slot :=
  let hash := keccak256 (owner.toList ++ toLeBytes 8 slotAllowancesBase.toNat)
  slotOfHash (keccak256 (spender.toList ++ hash.toList))

def u128ToStorageValue (value : Amount) : Value := toLeBytes 16 value.toNat ++ List.replicate 16 0

def word (value : Value) : Amount := BitVec.ofNat 128 (fromLeBytes (value.take 16))

def storageValueToU128 (value : Value) : Action Execution Amount := do
  require (decide (16 ≤ value.length)) "Storage value too short for u128"
  return word value

def checkedAdd (left right : Amount) : Option Amount :=
  if left.toNat + right.toNat < 2 ^ 128 then some (left + right) else none

def checkedSub (left right : Amount) : Option Amount :=
  if right.toNat ≤ left.toNat then some (left - right) else none

end

def hexFailure : HexCodec.FromHexError → String
  | .invalidHexCharacter c index =>
    "Invalid character " ++ (Char.ofNat c.toNat).quote ++ " at position " ++ toString index
  | .oddLength => "Odd number of digits"

def parseAddress (text : String) : Except Failure Address :=
  let digits :=
    match text.toList with
    | '0' :: 'x' :: rest => String.ofList rest
    | _ => text
  match HexCodec.decode digits with
  | .error failure => .error ["Failed to decode address", hexFailure failure]
  | .ok bytes =>
    if sized : bytes.length = 32 then .ok ⟨bytes.toArray, sized⟩
    else .error ["Address must be 32 bytes, got " ++ toString bytes.length]

def decodeAddress (text : String) : Action Execution Address :=
  match parseAddress text with
  | .ok address => return address
  | .error failure => throw failure

def ensureNonZeroAddress (address : Address) (message : String) : Action Execution Unit :=
  require (decide (address ≠ zeroAddress)) message

section
variable (db : ContractsCf)

def isPaused : Action Execution Bool := do
  let value ← withContext "Failed to read paused from BaseContract storage" (sload db slotPaused)
  return (value.head?.getD 0) != 0

def getOwner : Action Execution Address := do
  let value ← withContext "Failed to read owner from BaseContract storage" (sload db slotOwner)
  if sized : value.length = 32 then return ⟨value.toArray, sized⟩
  else fail ("Invalid owner value length: expected 32, got " ++ toString value.length)

def requireRunning : Action Execution Unit := do
  let paused ← isPaused db
  require (!paused) "Contract is paused"

/-- An event whose gas is refused is not emitted; the call goes on. -/
def emitCustomEvent (topics dataLen : Nat) : Action Execution Unit :=
  modify fun execution =>
    { execution with
      gasMeter := execution.gasMeter.map fun meter => (meter.consumeLog topics dataLen).1 }

/-- A `Transfer` or an `Approval`: three topics and one word. -/
def emitEvent : Action Execution Unit := emitCustomEvent 3 32

def readAmount (slot : Slot) (context : String) : Action Execution Amount := do
  let value ← withContext context (sload db slot)
  storageValueToU128 value

def writeAmount (slot : Slot) (amount : Amount) (context : String) : Action Execution Unit :=
  withContext context (sstore db slot (u128ToStorageValue amount))

end

section
variable (db : ContractsCf)

def chunks (bytes : List UInt8) : List (List UInt8) :=
  (List.range ((bytes.length + 31) / 32)).map fun index => (bytes.drop (32 * index)).take 32

def writeChunks (baseSlot : Slot) : Nat → List (List UInt8) → Action Execution Unit
  | _, [] => return ()
  | index, chunk :: rest => do
    let slot := baseSlot + 1 + UInt64.ofNat index
    withContext ("Failed to store string chunk " ++ toString index ++ " at slot " ++
        toString slot.toNat)
      (sstore db slot (chunk ++ List.replicate (32 - chunk.length) 0))
    writeChunks baseSlot (index + 1) rest

def writeStringToStorage (baseSlot : Slot) (value : String) : Action Execution Unit := do
  let bytes := value.toUTF8.toList
  withContext ("Failed to store string length at slot " ++ toString baseSlot.toNat)
    (sstore db baseSlot (toLeBytes 8 bytes.length ++ List.replicate 24 0))
  writeChunks db baseSlot 0 (chunks bytes)

def setName (name : String) : Action Execution Unit :=
  withContext "Failed to store token name" (writeStringToStorage db slotNameBase name)

def setSymbol (symbol : String) : Action Execution Unit :=
  withContext "Failed to store token symbol" (writeStringToStorage db slotSymbolBase symbol)

end

section
variable (keccak256 : List UInt8 → Vector UInt8 32) (db : ContractsCf)

def initializeToken (owner : Address) (name symbol : String) (initialSupply : Amount) :
    Action Execution Unit := do
  withContext "Failed to initialize token name" (setName db name)
  withContext "Failed to initialize token symbol" (setSymbol db symbol)
  writeAmount db slotTotalSupply initialSupply "Failed to initialize total_supply"
  if 0 < initialSupply then
    writeAmount db (calculateBalanceSlot keccak256 owner) initialSupply
      "Failed to initialize owner balance"

def totalSupply : Action Execution Amount :=
  readAmount db slotTotalSupply "Failed to read total_supply from storage"

def balanceOf (address : String) : Action Execution Amount := do
  let owner ← decodeAddress address
  readAmount db (calculateBalanceSlot keccak256 owner)
    ("Failed to read balance for address " ++ address)

def allowance (owner spender : String) : Action Execution Amount := do
  let ownerBytes ← decodeAddress owner
  let spenderBytes ← decodeAddress spender
  readAmount db (calculateAllowanceSlot keccak256 ownerBytes spenderBytes)
    ("Failed to read allowance for owner " ++ owner ++ " and spender " ++ spender)

variable (source : Address)

def readSender (amount : Amount) : Action Execution Amount := do
  let balance ← readAmount db (calculateBalanceSlot keccak256 source) "Failed to read sender balance"
  require (decide (amount.toNat ≤ balance.toNat))
    ("Insufficient balance: have " ++ toString balance.toNat ++ ", need " ++ toString amount.toNat)
  return balance

/-- The end that both transfers share. The receiver's balance is read before the sender's
is written. -/
def moveBalance (target : Address) (amount sourceBalance : Amount) : Action Execution Unit := do
  let newSource ← present (checkedSub sourceBalance amount) "Balance underflow"
  let targetBalance ← readAmount db (calculateBalanceSlot keccak256 target)
    "Failed to read receiver balance"
  let newTarget ← present (checkedAdd targetBalance amount) "Balance overflow"
  writeAmount db (calculateBalanceSlot keccak256 source) newSource "Failed to update sender balance"
  writeAmount db (calculateBalanceSlot keccak256 target) newTarget
    "Failed to update receiver balance"

variable (runtime : Option CallFrame)

/-- The contract's address is read from the same frame, so only this read can fail. -/
def currentFrame : Action Execution CallFrame := present runtime "No caller in execution context"

def transfer (runtime : Option CallFrame) (target : String) (amount : Amount) :
    Action Execution Unit := do
  requireRunning db
  let frame ← currentFrame runtime
  let targetBytes ← decodeAddress target
  ensureNonZeroAddress targetBytes "Cannot transfer to zero address"
  let balance ← readSender keccak256 db frame.caller amount
  -- A transfer to oneself writes nothing.
  if frame.caller = targetBytes then emitEvent
  else
    moveBalance keccak256 db frame.caller targetBytes amount balance
    emitEvent

def approve (runtime : Option CallFrame) (spender : String) (amount : Amount) :
    Action Execution Unit := do
  requireRunning db
  let frame ← currentFrame runtime
  let spenderBytes ← decodeAddress spender
  ensureNonZeroAddress spenderBytes "Cannot approve zero address"
  writeAmount db (calculateAllowanceSlot keccak256 frame.caller spenderBytes) amount
    "Failed to write allowance"
  emitEvent

/-- Unlike `transfer`, it does not ask whether the two addresses are the same. -/
def transferFrom (source target : String) (amount : Amount) : Action Execution Unit := do
  requireRunning db
  let frame ← currentFrame runtime
  let sourceBytes ← decodeAddress source
  let targetBytes ← decodeAddress target
  ensureNonZeroAddress sourceBytes "Cannot transfer from zero address"
  ensureNonZeroAddress targetBytes "Cannot transfer to zero address"
  let allowanceSlot := calculateAllowanceSlot keccak256 sourceBytes frame.caller
  let allowed ← readAmount db allowanceSlot "Failed to read allowance"
  require (decide (amount.toNat ≤ allowed.toNat))
    ("Insufficient allowance: have " ++ toString allowed.toNat ++ ", need " ++
      toString amount.toNat)
  let newAllowance ← present (checkedSub allowed amount) "Allowance underflow"
  writeAmount db allowanceSlot newAllowance "Failed to update allowance"
  let balance ← readSender keccak256 db sourceBytes amount
  moveBalance keccak256 db sourceBytes targetBytes amount balance
  emitEvent

def mint (runtime : Option CallFrame) (target : String) (amount : Amount) :
    Action Execution Unit := do
  requireRunning db
  let frame ← currentFrame runtime
  let owner ← getOwner db
  require (decide (frame.caller = owner)) "Only owner can mint tokens"
  let targetBytes ← decodeAddress target
  ensureNonZeroAddress targetBytes "Cannot mint to zero address"
  let supply ← totalSupply db
  let newSupply ← present (checkedAdd supply amount) "Total supply overflow"
  writeAmount db slotTotalSupply newSupply "Failed to update total_supply"
  let balance ← readAmount db (calculateBalanceSlot keccak256 targetBytes)
    "Failed to read receiver balance"
  let newBalance ← present (checkedAdd balance amount) "Balance overflow"
  writeAmount db (calculateBalanceSlot keccak256 targetBytes) newBalance
    "Failed to update receiver balance"
  emitEvent

/-- A caller who burns from another address spends an allowance. -/
def spendToBurn (caller : Address) (source : String) (sourceBytes : Address) (amount : Amount) :
    Action Execution Unit := do
  let allowed ← allowance keccak256 db source (HexCodec.encode caller.toList)
  require (decide (amount.toNat ≤ allowed.toNat))
    "Burn not authorized: caller is not token owner and insufficient allowance"
  let newAllowance ← present (checkedSub allowed amount) "Allowance underflow"
  writeAmount db (calculateAllowanceSlot keccak256 sourceBytes caller) newAllowance
    "Failed to update allowance after burn"

/-- The balance and the supply are both read before either is written. -/
def burnBalance (amount : Amount) : Action Execution Unit := do
  let balance ← readSender keccak256 db source amount
  let newBalance ← present (checkedSub balance amount) "Balance underflow"
  let supply ← totalSupply db
  let newSupply ← present (checkedSub supply amount) "Total supply underflow"
  writeAmount db (calculateBalanceSlot keccak256 source) newBalance
    "Failed to update sender balance"
  writeAmount db slotTotalSupply newSupply "Failed to update total_supply"

def burn (source : String) (amount : Amount) : Action Execution Unit := do
  requireRunning db
  let frame ← currentFrame runtime
  let sourceBytes ← decodeAddress source
  if frame.caller ≠ sourceBytes then
    spendToBurn keccak256 db frame.caller source sourceBytes amount
  burnBalance keccak256 db sourceBytes amount
  emitEvent

end

end Savitri.Savitri20
