import Savitri.Savitri20

/-!
The token of contracts/standards/savitri721.rs, where every token has one owner and at
most one approved address. It shares addresses, the call frame and the base contract with
the fungible token. The source has no operators: nobody is approved for all tokens of an
owner.
-/
namespace Savitri.Savitri721
open Contracts Fallible LeBytes
open LatticeTypes (toLeBytes)
open Savitri20 (Address CallFrame zeroAddress slotOfHash decodeAddress ensureNonZeroAddress
  requireRunning getOwner emitEvent currentFrame)

def slotTokenOwnersBase : Slot := 100
def slotTokenBalancesBase : Slot := 200
def slotTokenApprovalsBase : Slot := 300

section
variable (keccak256 : List UInt8 → Vector UInt8 32)

def tokenSlot (base : Slot) (tokenId : UInt64) : Slot :=
  slotOfHash (keccak256 (toLeBytes 8 base.toNat ++ toLeBytes 8 tokenId.toNat))

def tokenOwnerSlot (tokenId : UInt64) : Slot := tokenSlot keccak256 slotTokenOwnersBase tokenId

def tokenApprovalSlot (tokenId : UInt64) : Slot :=
  tokenSlot keccak256 slotTokenApprovalsBase tokenId

def ownerBalanceSlot (owner : Address) : Slot :=
  slotOfHash (keccak256 (owner.toList ++ toLeBytes 8 slotTokenBalancesBase.toNat))

def u64ToStorageValue (value : UInt64) : Value := toLeBytes 8 value.toNat ++ List.replicate 24 0

variable (value : Value)

def count : UInt64 := UInt64.ofNat (fromLeBytes (value.take 8))

def storageValueToU64 : Action Execution UInt64 := do
  require (decide (8 ≤ value.length)) "Storage value too short for u64"
  return count value

def storageValueToAddress : Action Execution Address :=
  if sized : value.length = 32 then return ⟨value.toArray, sized⟩
  else fail ("Invalid address value length: expected 32, got " ++ toString value.length)

def encodeAddress (address : Address) : String := "0x" ++ HexCodec.encode address.toList

def checkedAdd (left right : UInt64) : Option UInt64 :=
  if left.toNat + right.toNat < 2 ^ 64 then some (left + right) else none

def checkedSub (left right : UInt64) : Option UInt64 :=
  if right.toNat ≤ left.toNat then some (left - right) else none

end

section
variable (keccak256 : List UInt8 → Vector UInt8 32) (db : ContractsCf)
variable (tokenId : UInt64)

def readTokenOwner : Action Execution Value :=
  withContext "Failed to read token owner" (sload db (tokenOwnerSlot keccak256 tokenId))

def readTokenApproval : Action Execution Value :=
  withContext "Failed to read token approval" (sload db (tokenApprovalSlot keccak256 tokenId))

def existingOwner : Action Execution Address := do
  let value ← readTokenOwner keccak256 db tokenId
  require (!isZero value) "Token does not exist"
  storageValueToAddress value

def approvedAddress (value : Value) : Action Execution (Option Address) :=
  if isZero value then return none
  else do
    let approved ← storageValueToAddress value
    return some approved

def balanceOf (owner : String) : Action Execution UInt64 := do
  let ownerBytes ← decodeAddress owner
  let value ← withContext "Failed to read balance"
    (sload db (ownerBalanceSlot keccak256 ownerBytes))
  storageValueToU64 value

def ownerOf : Action Execution String := do
  let owner ← existingOwner keccak256 db tokenId
  return encodeAddress owner

def getApproved : Action Execution (Option String) := do
  let ownerValue ← readTokenOwner keccak256 db tokenId
  require (!isZero ownerValue) "Token does not exist"
  let value ← readTokenApproval keccak256 db tokenId
  let approved ← approvedAddress value
  return approved.map encodeAddress

def changeBalance (holder : Address) (who : String) (change : UInt64 → Option UInt64)
    (failure : String) : Action Execution Unit := do
  let slot := ownerBalanceSlot keccak256 holder
  let value ← withContext ("Failed to read " ++ who ++ " balance") (sload db slot)
  let balance ← storageValueToU64 value
  let newBalance ← present (change balance) failure
  withContext ("Failed to update " ++ who ++ " balance")
    (sstore db slot (u64ToStorageValue newBalance))

def mint (runtime : Option CallFrame) (target : String) (tokenId : UInt64) :
    Action Execution Unit := do
  requireRunning db
  let frame ← currentFrame runtime
  let owner ← getOwner db
  require (decide (frame.caller = owner)) "Only owner can mint tokens"
  let targetBytes ← decodeAddress target
  ensureNonZeroAddress targetBytes "Address cannot be zero"
  let value ← readTokenOwner keccak256 db tokenId
  require (isZero value) "Token already minted"
  withContext "Failed to write token owner"
    (sstore db (tokenOwnerSlot keccak256 tokenId) targetBytes.toList)
  changeBalance keccak256 db targetBytes "owner" (checkedAdd · 1) "Balance overflow"
  emitEvent

def approve (runtime : Option CallFrame) (target : String) (tokenId : UInt64) :
    Action Execution Unit := do
  requireRunning db
  let frame ← currentFrame runtime
  let tokenOwner ← existingOwner keccak256 db tokenId
  require (decide (frame.caller = tokenOwner)) "Only token owner can approve"
  let approvedBytes ← decodeAddress target
  require (decide (approvedBytes ≠ tokenOwner)) "Cannot approve owner"
  withContext "Failed to write token approval"
    (sstore db (tokenApprovalSlot keccak256 tokenId) approvedBytes.toList)
  emitEvent

/-- The writes of a transfer: owner, approval, and both balances one after the other. -/
def moveToken (source target : Address) (tokenId : UInt64) : Action Execution Unit := do
  withContext "Failed to update token owner"
    (sstore db (tokenOwnerSlot keccak256 tokenId) target.toList)
  withContext "Failed to clear approval" (sstore db (tokenApprovalSlot keccak256 tokenId) zeroValue)
  changeBalance keccak256 db source "from" (checkedSub · 1) "Balance underflow"
  changeBalance keccak256 db target "to" (checkedAdd · 1) "Balance overflow"

def transferFrom (runtime : Option CallFrame) (source target : String) (tokenId : UInt64) :
    Action Execution Unit := do
  requireRunning db
  let frame ← currentFrame runtime
  let sourceBytes ← decodeAddress source
  let targetBytes ← decodeAddress target
  ensureNonZeroAddress targetBytes "Address cannot be zero"
  let tokenOwner ← existingOwner keccak256 db tokenId
  require (decide (tokenOwner = sourceBytes)) "From is not token owner"
  let value ← readTokenApproval keccak256 db tokenId
  let approved ← approvedAddress value
  require (decide (frame.caller = tokenOwner ∨ approved = some frame.caller))
    "Caller is not owner nor approved"
  -- A transfer to oneself writes nothing, the approval included.
  if sourceBytes = targetBytes then emitEvent
  else
    moveToken keccak256 db sourceBytes targetBytes tokenId
    emitEvent

end

end Savitri.Savitri721
