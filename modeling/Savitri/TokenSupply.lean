import Savitri.MapTotal
import Savitri.Savitri20

/-!
Balances and supply of the fungible token. What a call that succeeds does to the slots is
said call by call; the sum of the balances follows the supply as long as no transfer has
one address on both sides and the token is set up only while there is no supply.
-/
namespace Savitri.Savitri20
open Contracts Fallible Transition
open LatticeTypes (toLeBytes)
variable {amount : Amount} {db : ContractsCf} {before after : Execution} {parties : Finset Address}
  {slot : Slot} {view : Slot → Value} {nothing : Unit}

section
variable {left right : Amount} {context : String}

@[simp]
theorem word_u128ToStorageValue : word (u128ToStorageValue amount) = amount := by
  have small : amount.toNat < 256 ^ 16 := amount.isLt
  rw [word, u128ToStorageValue, List.take_left' (by simp), fromLeBytes_toLeBytes,
    Nat.mod_eq_of_lt small, BitVec.ofNat_toNat, BitVec.setWidth_eq]

theorem checkedAdd_eq_some {sum : Amount} (added : checkedAdd left right = some sum) :
    sum.toNat = left.toNat + right.toNat := by
  unfold checkedAdd at added
  split at added
  · next fits =>
      cases added
      rw [BitVec.toNat_add, Nat.mod_eq_of_lt fits]
  · cases added

theorem checkedSub_eq_some {rest : Amount} (taken : checkedSub left right = some rest) :
    rest.toNat + right.toNat = left.toNat := by
  unfold checkedSub at taken
  split at taken
  · next covered =>
      cases taken
      rw [BitVec.toNat_sub_of_le (BitVec.le_def.mpr covered)]
      omega
  · cases taken

theorem readAmount_sees (sees : Sees db view before)
    (returned : Returns (readAmount db slot context) before amount after) :
    amount = word (view slot) ∧ Sees db view after := by
  unfold readAmount storageValueToU128 at returned
  simp only [returns_bind, returns_withContext, returns_require, returns_pure] at returned
  obtain ⟨value, middle, read, _, _, ⟨_, rfl⟩, rfl, rfl⟩ := returned
  obtain ⟨rfl, seen⟩ := sees.sload slot value read
  exact ⟨rfl, seen⟩

theorem writeAmount_sees (sees : Sees db view before)
    (returned : Returns (writeAmount db slot amount context) before nothing after) :
    Sees db (Function.update view slot (u128ToStorageValue amount)) after := by
  unfold writeAmount at returned
  rw [returns_withContext] at returned
  exact sees.sstore slot _ returned

theorem emitEvent_sees (sees : Sees db view before)
    (returned : Returns emitEvent before nothing after) : Sees db view after := by
  unfold emitEvent emitCustomEvent at returned
  rw [returns_modify] at returned
  exact sees.of_storage (by rw [← returned])

theorem requireRunning_sees (sees : Sees db view before)
    (returned : Returns (requireRunning db) before nothing after) : Sees db view after := by
  unfold requireRunning isPaused at returned
  simp only [returns_bind, returns_withContext, returns_require, returns_pure] at returned
  obtain ⟨_, _, ⟨value, _, read, rfl, rfl⟩, _, rfl⟩ := returned
  exact (sees.sload slotPaused value read).2

theorem getOwner_sees (sees : Sees db view before) (owner : Address)
    (returned : Returns (getOwner db) before owner after) : Sees db view after := by
  unfold getOwner at returned
  simp only [returns_bind, returns_withContext] at returned
  obtain ⟨value, middle, read, returned⟩ := returned
  split at returned
  · rw [returns_pure] at returned
    rw [← returned.2]
    exact (sees.sload slotOwner value read).2
  · exact absurd returned returns_fail

theorem returns_decodeAddress (text : String) (address : Address) :
    Returns (decodeAddress text) before address after ↔
      parseAddress text = .ok address ∧ before = after := by
  unfold decodeAddress
  cases parsed : parseAddress text with
  | ok found => simp
  | error failure =>
    constructor
    · intro returned
      cases returned
    · rintro ⟨same, _⟩
      cases same

end

section
variable (keccak256 : List UInt8 → Vector UInt8 32)

def balanceIn (view : Slot → Value) (address : Address) : Nat :=
  (word (view (calculateBalanceSlot keccak256 address))).toNat

def supplyIn (view : Slot → Value) : Nat := (word (view slotTotalSupply)).toNat

def totalIn (parties : Finset Address) (view : Slot → Value) : Nat :=
  ∑ party ∈ parties, balanceIn keccak256 view party

/-- The hash gives the parties slots of their own. -/
structure OwnSlots (parties : Finset Address) : Prop where
  distinct : Set.InjOn (calculateBalanceSlot keccak256) parties
  unreserved : ∀ party ∈ parties, isReservedSlot (calculateBalanceSlot keccak256 party) = false
  notSupply : ∀ party ∈ parties, calculateBalanceSlot keccak256 party ≠ slotTotalSupply

def Aside (parties : Finset Address) (slot : Slot) : Prop :=
  slot ≠ slotTotalSupply ∧ ∀ party ∈ parties, slot ≠ calculateBalanceSlot keccak256 party

def SameTotals (parties : Finset Address) (view view' : Slot → Value) : Prop :=
  totalIn keccak256 parties view' = totalIn keccak256 parties view ∧ supplyIn view' = supplyIn view

variable {keccak256} (slots : OwnSlots keccak256 parties)

theorem SameTotals.trans {view' view'' : Slot → Value}
    (first : SameTotals keccak256 parties view view')
    (second : SameTotals keccak256 parties view' view'') : SameTotals keccak256 parties view view'' :=
  ⟨second.1.trans first.1, second.2.trans first.2⟩

theorem sameTotals_update (aside : Aside keccak256 parties slot) (view : Slot → Value)
    (value : Value) : SameTotals keccak256 parties view (Function.update view slot value) := by
  constructor
  · apply Finset.sum_congr rfl
    intro party member
    rw [balanceIn, Function.update_of_ne (aside.2 party member).symm, balanceIn]
  · rw [supplyIn, Function.update_of_ne aside.1.symm, supplyIn]

@[simp]
theorem supplyIn_update_supply :
    supplyIn (Function.update view slotTotalSupply (u128ToStorageValue amount)) =
      amount.toNat := by
  rw [supplyIn, Function.update_self, word_u128ToStorageValue]

include slots
variable {party : Address}
variable (member : party ∈ parties)
include member

theorem balanceIn_update {other : Address} (isParty : other ∈ parties) (view : Slot → Value)
    (amount : Amount) :
    balanceIn keccak256
        (Function.update view (calculateBalanceSlot keccak256 party) (u128ToStorageValue amount))
        other =
      if other = party then amount.toNat else balanceIn keccak256 view other := by
  unfold balanceIn
  split
  · next same => rw [same, Function.update_self, word_u128ToStorageValue]
  · next different =>
      rw [Function.update_of_ne]
      intro sameSlot
      exact different (slots.distinct isParty member sameSlot)

theorem totalIn_update_balance (view : Slot → Value) (amount : Amount) :
    totalIn keccak256 parties
        (Function.update view (calculateBalanceSlot keccak256 party) (u128ToStorageValue amount)) +
        balanceIn keccak256 view party =
      totalIn keccak256 parties view + amount.toNat := by
  have here : balanceIn keccak256 (Function.update view (calculateBalanceSlot keccak256 party)
      (u128ToStorageValue amount)) party = amount.toNat := by
    rw [balanceIn_update slots member member, if_pos rfl]
  rw [← here]
  apply MapTotal.sum_add_eq_of_agree parties member
  intro other isParty different
  rw [balanceIn_update slots member isParty, if_neg different]

theorem supplyIn_update_balance (view : Slot → Value) (value : Value) :
    supplyIn (Function.update view (calculateBalanceSlot keccak256 party) value) =
      supplyIn view := by
  rw [supplyIn, Function.update_of_ne (slots.notSupply party member).symm, supplyIn]

theorem balanceIn_update_supply (view : Slot → Value) (value : Value) :
    balanceIn keccak256 (Function.update view slotTotalSupply value) party =
      balanceIn keccak256 view party := by
  rw [balanceIn, Function.update_of_ne (slots.notSupply party member), balanceIn]

omit member

theorem totalIn_update_supply (view : Slot → Value) (value : Value) :
    totalIn keccak256 parties (Function.update view slotTotalSupply value) =
      totalIn keccak256 parties view :=
  Finset.sum_congr rfl fun _ member => balanceIn_update_supply slots member view value

end

section
variable {keccak256 : List UInt8 → Vector UInt8 32}

def KeepsTotals (keccak256 : List UInt8 → Vector UInt8 32) (db : ContractsCf)
    (parties : Finset Address) (view : Slot → Value) (after : Execution) : Prop :=
  ∃ view', Sees db view' after ∧ SameTotals keccak256 parties view view'

theorem KeepsTotals.of_sees (sees : Sees db view after) : KeepsTotals keccak256 db parties view after :=
  ⟨view, sees, rfl, rfl⟩

theorem keepsTotals_of_aside (sees : Sees db view before) (aside : Aside keccak256 parties slot)
    {value : Value} (returned : Returns (sstore db slot value) before nothing after) :
    KeepsTotals keccak256 db parties view after :=
  ⟨_, sees.sstore slot value returned, sameTotals_update aside view value⟩

theorem KeepsTotals.emitEvent (kept : KeepsTotals keccak256 db parties view before)
    (returned : Returns emitEvent before nothing after) :
    KeepsTotals keccak256 db parties view after := by
  obtain ⟨view', sees, same⟩ := kept
  exact ⟨view', emitEvent_sees sees returned, same⟩

def callerOf (runtime : Option CallFrame) : List Address := (runtime.map (·.caller)).toList

def named (text : String) : List Address := (parseAddress text).toOption.toList

theorem mem_named {text : String} {address : Address} :
    address ∈ named text ↔ parseAddress text = .ok address := by
  unfold named
  cases parseAddress text with
  | error failure => simp [Except.toOption]
  | ok found => simp [Except.toOption, eq_comm]

def stringSlots (baseSlot : Slot) (value : String) : List Slot :=
  baseSlot :: (List.range' 0 (chunks value.toUTF8.toList).length).map
    fun index => baseSlot + 1 + UInt64.ofNat index

variable {baseSlot : Slot} {source : Address}

theorem writeChunks_keeps (index : Nat) {pieces : List (List UInt8)}
    (aside : ∀ slot ∈ (List.range' index pieces.length).map
      (fun index => baseSlot + 1 + UInt64.ofNat index), Aside keccak256 parties slot)
    (view : Slot → Value) (before : Execution) (sees : Sees db view before)
    (returned : Returns (writeChunks db baseSlot index pieces) before nothing after) :
    KeepsTotals keccak256 db parties view after := by
  induction pieces generalizing index view before with
  | nil =>
    rw [writeChunks, returns_pure] at returned
    rw [← returned.2]
    exact .of_sees sees
  | cons piece rest ih =>
    simp only [writeChunks, returns_bind, returns_withContext] at returned
    obtain ⟨_, middle, stored, returned⟩ := returned
    simp only [List.length_cons, List.range'_succ, List.map_cons, List.forall_mem_cons] at aside
    obtain ⟨view', sees', first⟩ := keepsTotals_of_aside sees aside.1 stored
    obtain ⟨view'', sees'', later⟩ := ih (index + 1) aside.2 view' middle sees' returned
    exact ⟨view'', sees'', first.trans later⟩

theorem writeString_keeps (sees : Sees db view before) {value : String}
    (aside : ∀ slot ∈ stringSlots baseSlot value, Aside keccak256 parties slot)
    (returned : Returns (writeStringToStorage db baseSlot value) before nothing after) :
    KeepsTotals keccak256 db parties view after := by
  simp only [writeStringToStorage, returns_bind, returns_withContext] at returned
  obtain ⟨_, middle, stored, returned⟩ := returned
  rw [stringSlots, List.forall_mem_cons] at aside
  obtain ⟨view', sees', first⟩ := keepsTotals_of_aside sees aside.1 stored
  obtain ⟨view'', sees'', later⟩ := writeChunks_keeps 0 aside.2 view' middle sees' returned
  exact ⟨view'', sees'', first.trans later⟩

theorem readSender_sees (sees : Sees db view before) {balance : Amount}
    (returned : Returns (readSender keccak256 db source amount) before balance after) :
    balance.toNat = balanceIn keccak256 view source ∧ Sees db view after := by
  simp only [readSender, returns_bind, returns_require, returns_pure] at returned
  obtain ⟨read, _, loaded, _, _, ⟨_, rfl⟩, rfl, rfl⟩ := returned
  obtain ⟨rfl, seen⟩ := readAmount_sees sees loaded
  exact ⟨rfl, seen⟩

theorem approve_keeps (sees : Sees db view before) {runtime : Option CallFrame} {spender : String}
    (aside : ∀ caller ∈ callerOf runtime, ∀ address ∈ named spender,
      Aside keccak256 parties (calculateAllowanceSlot keccak256 caller address))
    (returned : Returns (approve keccak256 db runtime spender amount) before nothing after) :
    KeepsTotals keccak256 db parties view after := by
  simp only [approve, currentFrame, ensureNonZeroAddress, returns_bind, returns_present,
    returns_require, returns_decodeAddress] at returned
  obtain ⟨_, _, running, frame, _, ⟨rfl, rfl⟩, address, _, ⟨parsed, rfl⟩, _, _, ⟨_, rfl⟩, _, _,
    wrote, emitted⟩ := returned
  have seen := writeAmount_sees (requireRunning_sees sees running) wrote
  refine KeepsTotals.emitEvent ⟨_, seen, ?_⟩ emitted
  exact sameTotals_update (aside _ (by simp [callerOf]) _ (mem_named.mpr parsed)) view _

theorem spendToBurn_keeps (sees : Sees db view before) {caller : Address} {source : String}
    {sourceBytes : Address}
    (aside : Aside keccak256 parties (calculateAllowanceSlot keccak256 sourceBytes caller))
    (returned : Returns (spendToBurn keccak256 db caller source sourceBytes amount) before
      nothing after) : KeepsTotals keccak256 db parties view after := by
  simp only [spendToBurn, allowance, returns_bind, returns_present, returns_require,
    returns_decodeAddress] at returned
  obtain ⟨allowed, _, ⟨_, _, ⟨_, rfl⟩, _, _, ⟨_, rfl⟩, loaded⟩, _, _, ⟨_, rfl⟩, newAllowance, _,
    ⟨_, rfl⟩, wrote⟩ := returned
  obtain ⟨_, seen⟩ := readAmount_sees sees loaded
  exact ⟨_, writeAmount_sees seen wrote, sameTotals_update aside view _⟩

variable (slots : OwnSlots keccak256 parties)
include slots

/-- Both balances are read before either is written, so the two addresses must differ. -/
theorem moveBalance_keeps (sees : Sees db view before) {target : Address}
    (isSource : source ∈ parties) (isTarget : target ∈ parties) (different : source ≠ target)
    (amount balance : Amount) (read : balance.toNat = balanceIn keccak256 view source) (returned :
      Returns (moveBalance keccak256 db source target amount balance) before nothing after) :
    KeepsTotals keccak256 db parties view after := by
  simp only [moveBalance, returns_bind, returns_present] at returned
  obtain ⟨newSource, _, ⟨taken, rfl⟩, targetBalance, _, loaded, newTarget, _, ⟨added, rfl⟩, _, _,
    wroteSource, wroteTarget⟩ := returned
  obtain ⟨rfl, sees⟩ := readAmount_sees sees loaded
  have seesSource := writeAmount_sees sees wroteSource
  have seesTarget := writeAmount_sees seesSource wroteTarget
  refine ⟨_, seesTarget, ?_, ?_⟩
  · have left := totalIn_update_balance slots isSource view newSource
    have moved := totalIn_update_balance slots isTarget (Function.update view
      (calculateBalanceSlot keccak256 source) (u128ToStorageValue newSource)) newTarget
    rw [balanceIn_update slots isSource isTarget, if_neg different.symm] at moved
    have sub := checkedSub_eq_some taken
    have add : newTarget.toNat = balanceIn keccak256 view target + amount.toNat :=
      checkedAdd_eq_some added
    omega
  · rw [supplyIn_update_balance slots isTarget, supplyIn_update_balance slots isSource]

theorem transfer_keeps (sees : Sees db view before) (runtime : Option CallFrame)
    (target : String) (amount : Amount) (isSource : ∀ source ∈ callerOf runtime, source ∈ parties)
    (isTarget : ∀ address ∈ named target, address ∈ parties)
    (returned : Returns (transfer keccak256 db runtime target amount) before nothing after) :
    KeepsTotals keccak256 db parties view after := by
  simp only [transfer, currentFrame, ensureNonZeroAddress, returns_bind, returns_present,
    returns_require, returns_decodeAddress] at returned
  obtain ⟨_, _, running, frame, _, ⟨rfl, rfl⟩, address, _, ⟨parsed, rfl⟩, _, _, ⟨_, rfl⟩,
    balance, _, read, returned⟩ := returned
  obtain ⟨held, sees⟩ := readSender_sees (requireRunning_sees sees running) read
  split at returned
  · exact (KeepsTotals.of_sees sees).emitEvent returned
  · next different =>
      rw [returns_bind] at returned
      obtain ⟨_, _, moved, emitted⟩ := returned
      exact (moveBalance_keeps slots sees (isSource _ (by simp [callerOf]))
        (isTarget address (mem_named.mpr parsed)) different amount balance held moved).emitEvent
          emitted

/-- Unlike for `transfer`, the two addresses are asked to differ. -/
theorem transferFrom_keeps (sees : Sees db view before) (runtime : Option CallFrame)
    (source target : String) (amount : Amount)
    (isSource : ∀ address ∈ named source, address ∈ parties)
    (isTarget : ∀ address ∈ named target, address ∈ parties)
    (aside : ∀ caller ∈ callerOf runtime, ∀ address ∈ named source,
      Aside keccak256 parties (calculateAllowanceSlot keccak256 address caller))
    (different : parseAddress source ≠ parseAddress target)
    (returned : Returns (transferFrom keccak256 db runtime source target amount) before nothing after) :
    KeepsTotals keccak256 db parties view after := by
  simp only [transferFrom, currentFrame, ensureNonZeroAddress, returns_bind, returns_present,
    returns_require, returns_decodeAddress] at returned
  obtain ⟨_, _, running, frame, _, ⟨rfl, rfl⟩, sourceBytes, _, ⟨parsedSource, rfl⟩, targetBytes,
    _, ⟨parsedTarget, rfl⟩, _, _, ⟨_, rfl⟩, _, _, ⟨_, rfl⟩, allowed, _, loaded, _, _, ⟨_, rfl⟩,
    newAllowance, _, ⟨_, rfl⟩, _, _, spent, balance, _, read, _, _, moved, emitted⟩ := returned
  have apart : sourceBytes ≠ targetBytes := by
    rintro rfl
    exact different (parsedSource.trans parsedTarget.symm)
  obtain ⟨_, sees⟩ := readAmount_sees (requireRunning_sees sees running) loaded
  have seesSpent := writeAmount_sees sees spent
  obtain ⟨held, sees⟩ := readSender_sees seesSpent read
  obtain ⟨view', sees', same⟩ := moveBalance_keeps slots sees
    (isSource _ (mem_named.mpr parsedSource)) (isTarget _ (mem_named.mpr parsedTarget)) apart
    amount balance held moved
  refine KeepsTotals.emitEvent ⟨view', sees', SameTotals.trans ?_ same⟩ emitted
  exact sameTotals_update (aside _ (by simp [callerOf]) _ (mem_named.mpr parsedSource)) view _

def Balanced (keccak256 : List UInt8 → Vector UInt8 32) (db : ContractsCf)
    (parties : Finset Address) (execution : Execution) : Prop :=
  ∃ view, Sees db view execution ∧ totalIn keccak256 parties view = supplyIn view

omit slots in
theorem KeepsTotals.balanced (kept : KeepsTotals keccak256 db parties view after)
    (balanced : totalIn keccak256 parties view = supplyIn view) :
    Balanced keccak256 db parties after := by
  obtain ⟨view', sees, sameTotal, sameSupply⟩ := kept
  exact ⟨view', sees, by rw [sameTotal, sameSupply, balanced]⟩

omit slots in
theorem Balanced.emitEvent (balanced : Balanced keccak256 db parties before)
    (returned : Returns emitEvent before nothing after) : Balanced keccak256 db parties after := by
  obtain ⟨view', sees, equal⟩ := balanced
  exact ⟨view', emitEvent_sees sees returned, equal⟩

theorem mint_balanced (sees : Sees db view before)
    (balanced : totalIn keccak256 parties view = supplyIn view) (runtime : Option CallFrame)
    (target : String) (amount : Amount)
    (isTarget : ∀ address ∈ named target, address ∈ parties)
    (returned : Returns (mint keccak256 db runtime target amount) before nothing after) :
    Balanced keccak256 db parties after := by
  simp only [mint, currentFrame, totalSupply, ensureNonZeroAddress, returns_bind,
    returns_present, returns_require, returns_decodeAddress] at returned
  obtain ⟨_, _, running, frame, _, ⟨rfl, rfl⟩, owner, _, gotOwner, _, _, ⟨_, rfl⟩, address, _,
    ⟨parsed, rfl⟩, _, _, ⟨_, rfl⟩, supply, _, readSupply, newSupply, _, ⟨raised, rfl⟩, _, _,
    wroteSupply, balance, _, readBalance, newBalance, _, ⟨added, rfl⟩, _, _, wroteBalance,
    emitted⟩ := returned
  have member := isTarget address (mem_named.mpr parsed)
  obtain ⟨rfl, sees⟩ := readAmount_sees
    (getOwner_sees (requireRunning_sees sees running) _ gotOwner) readSupply
  obtain ⟨rfl, sees⟩ := readAmount_sees (writeAmount_sees sees wroteSupply) readBalance
  have seen := emitEvent_sees (writeAmount_sees sees wroteBalance) emitted
  refine ⟨_, seen, ?_⟩
  have total := totalIn_update_balance slots member (Function.update view slotTotalSupply
    (u128ToStorageValue newSupply)) newBalance
  rw [totalIn_update_supply slots, balanceIn_update_supply slots member] at total
  rw [supplyIn_update_balance slots member, supplyIn_update_supply]
  have raisedBy : newSupply.toNat = supplyIn view + amount.toNat := checkedAdd_eq_some raised
  have addedTo : newBalance.toNat = balanceIn keccak256 view address + amount.toNat := by
    rw [checkedAdd_eq_some added, ← balanceIn, balanceIn_update_supply slots member]
  omega

theorem burnBalance_balanced (sees : Sees db view before)
    (balanced : totalIn keccak256 parties view = supplyIn view) (member : source ∈ parties)
    (amount : Amount)
    (returned : Returns (burnBalance keccak256 db source amount) before nothing after) :
    Balanced keccak256 db parties after := by
  simp only [burnBalance, totalSupply, returns_bind, returns_present] at returned
  obtain ⟨balance, _, readBalance, newBalance, _, ⟨taken, rfl⟩, supply, _, readSupply, newSupply,
    _, ⟨lowered, rfl⟩, _, _, wroteBalance, wroteSupply⟩ := returned
  obtain ⟨held, sees⟩ := readSender_sees sees readBalance
  obtain ⟨rfl, sees⟩ := readAmount_sees sees readSupply
  have seen := writeAmount_sees (writeAmount_sees sees wroteBalance) wroteSupply
  refine ⟨_, seen, ?_⟩
  have total := totalIn_update_balance slots member view newBalance
  rw [totalIn_update_supply slots, supplyIn_update_supply]
  have lessBalance := checkedSub_eq_some taken
  have lessSupply : newSupply.toNat + amount.toNat = supplyIn view := checkedSub_eq_some lowered
  omega

theorem burn_balanced (sees : Sees db view before)
    (balanced : totalIn keccak256 parties view = supplyIn view) (runtime : Option CallFrame)
    (source : String) (amount : Amount)
    (isSource : ∀ address ∈ named source, address ∈ parties)
    (aside : ∀ caller ∈ callerOf runtime, ∀ address ∈ named source, caller ≠ address →
      Aside keccak256 parties (calculateAllowanceSlot keccak256 address caller))
    (returned : Returns (burn keccak256 db runtime source amount) before nothing after) :
    Balanced keccak256 db parties after := by
  simp only [burn, currentFrame, returns_bind, returns_present, returns_decodeAddress] at returned
  obtain ⟨_, _, running, frame, _, ⟨rfl, rfl⟩, address, _, ⟨parsed, rfl⟩, returned⟩ := returned
  have seen := requireRunning_sees sees running
  have inParties := isSource address (mem_named.mpr parsed)
  split at returned
  · next different =>
      simp only [returns_bind] at returned
      obtain ⟨_, _, spent, _, _, burnt, emitted⟩ := returned
      obtain ⟨view', sees', sameTotal, sameSupply⟩ := spendToBurn_keeps seen
        (aside _ (by simp [callerOf]) _ (mem_named.mpr parsed) different) spent
      have balanced' : totalIn keccak256 parties view' = supplyIn view' := by
        rw [sameTotal, sameSupply, balanced]
      exact (burnBalance_balanced slots sees' balanced' inParties amount burnt).emitEvent emitted
  · rw [returns_bind] at returned
    obtain ⟨_, _, burnt, emitted⟩ := returned
    exact (burnBalance_balanced slots seen balanced inParties amount burnt).emitEvent emitted

/-- Over an empty supply all balances are zero, so the owner's is the only one left. -/
theorem initializeToken_balanced (sees : Sees db view before)
    (balanced : totalIn keccak256 parties view = supplyIn view) (empty : supplyIn view = 0)
    (owner : Address) (name symbol : String) (initialSupply : Amount) (member : owner ∈ parties)
    (asideName : ∀ slot ∈ stringSlots slotNameBase name, Aside keccak256 parties slot)
    (asideSymbol : ∀ slot ∈ stringSlots slotSymbolBase symbol, Aside keccak256 parties slot)
    (returned : Returns (initializeToken keccak256 db owner name symbol initialSupply) before
      nothing after) :
    Balanced keccak256 db parties after := by
  simp only [initializeToken, setName, setSymbol, returns_bind, returns_withContext] at returned
  obtain ⟨_, _, wroteName, _, _, wroteSymbol, _, _, wroteSupply, returned⟩ := returned
  obtain ⟨_, sees, first⟩ := writeString_keeps sees asideName wroteName
  obtain ⟨view', sees, second⟩ := writeString_keeps sees asideSymbol wroteSymbol
  have none : totalIn keccak256 parties view' = 0 := by
    rw [(first.trans second).1, balanced, empty]
  have seen := writeAmount_sees sees wroteSupply
  split at returned
  · refine ⟨_, writeAmount_sees seen returned, ?_⟩
    have total := totalIn_update_balance slots member (Function.update view' slotTotalSupply
      (u128ToStorageValue initialSupply)) initialSupply
    rw [totalIn_update_supply slots, balanceIn_update_supply slots member, none] at total
    rw [supplyIn_update_balance slots member, supplyIn_update_supply]
    have nothingHeld : balanceIn keccak256 view' owner = 0 := by
      have part := Finset.single_le_sum (f := balanceIn keccak256 view')
        (fun _ _ => Nat.zero_le _) member
      have : totalIn keccak256 parties view' = ∑ party ∈ parties, balanceIn keccak256 view' party :=
        rfl
      omega
    omega
  · next notPositive =>
      rw [returns_pure] at returned
      rw [← returned.2]
      refine ⟨_, seen, ?_⟩
      have zero : initialSupply.toNat = 0 := by
        simpa [BitVec.lt_def] using notPositive
      rw [totalIn_update_supply slots, supplyIn_update_supply, none, zero]

end

section
inductive TokenOp where
  | initializeToken (owner : Address) (name symbol : String) (initialSupply : Amount)
  | transfer (target : String) (amount : Amount)
  | transferFrom (source target : String) (amount : Amount)
  | approve (spender : String) (amount : Amount)
  | mint (target : String) (amount : Amount)
  | burn (source : String) (amount : Amount)

/-- Every call has its own caller and its own meter, or none. -/
structure TokenCall where
  op : TokenOp
  runtime : Option CallFrame := none
  gasMeter : Option GasMeter := none

variable (keccak256 : List UInt8 → Vector UInt8 32) (db : ContractsCf)

def TokenCall.exec (call : TokenCall) : Action Execution Unit := do
  modify fun execution => { execution with gasMeter := call.gasMeter }
  match call.op with
  | .initializeToken owner name symbol initialSupply =>
    initializeToken keccak256 db owner name symbol initialSupply
  | .transfer target amount => transfer keccak256 db call.runtime target amount
  | .transferFrom source target amount =>
    transferFrom keccak256 db call.runtime source target amount
  | .approve spender amount => approve keccak256 db call.runtime spender amount
  | .mint target amount => mint keccak256 db call.runtime target amount
  | .burn source amount => burn keccak256 db call.runtime source amount

def tokenStep (execution : Execution) (call : TokenCall) : Execution × Except Failure Unit :=
  perform (call.exec keccak256 db) execution

def TokenSucceeds (execution : Execution) (call : TokenCall) : Prop :=
  (tokenStep keccak256 db execution call).2.isOk = true

def TokenCall.holders (call : TokenCall) : List Address :=
  match call.op with
  | .initializeToken owner _ _ _ => [owner]
  | .transfer target _ => callerOf call.runtime ++ named target
  | .transferFrom source target _ => named source ++ named target
  | .approve _ _ => []
  | .mint target _ => named target
  | .burn source _ => named source

def TokenCall.sideSlots (call : TokenCall) : List Slot :=
  match call.op with
  | .initializeToken _ name symbol _ =>
    stringSlots slotNameBase name ++ stringSlots slotSymbolBase symbol
  | .transfer _ _ => []
  | .transferFrom source _ _ =>
    (callerOf call.runtime).flatMap fun caller =>
      (named source).map fun address => calculateAllowanceSlot keccak256 address caller
  | .approve spender _ =>
    (callerOf call.runtime).flatMap fun caller =>
      (named spender).map fun address => calculateAllowanceSlot keccak256 caller address
  | .mint _ _ => []
  | .burn source _ =>
    (callerOf call.runtime).flatMap fun caller =>
      ((named source).filter (caller ≠ ·)).map fun address =>
        calculateAllowanceSlot keccak256 address caller

/-- The balances a call may write are those of parties; it writes no other slot of theirs. -/
structure TokenCall.Within (parties : Finset Address) (call : TokenCall) : Prop where
  holders : ∀ holder ∈ call.holders, holder ∈ parties
  aside : ∀ slot ∈ call.sideSlots keccak256, Aside keccak256 parties slot

def supplyOf (execution : Execution) : Nat := supplyIn (execution.contractStorage.value db)

def balanceHeld (execution : Execution) (address : Address) : Nat :=
  balanceIn keccak256 (execution.contractStorage.value db) address

/-- A token is set up while it has no supply, and nobody is paid from their own account by
`transferFrom`. -/
def TokenCall.Regular (execution : Execution) (call : TokenCall) : Prop :=
  match call.op with
  | .initializeToken _ _ _ _ => supplyOf db execution = 0
  | .transferFrom source target _ => parseAddress source ≠ parseAddress target
  | _ => True

/-- A contract as its deployment leaves it: nothing of it is in the database, and it has
written reserved slots only. -/
structure Deployed (execution : Execution) : Prop where
  coherent : Coherent db execution.contractStorage
  unpersisted : ∀ slot,
    db[makeStorageKey execution.contractStorage.contractAddress slot]? = none
  unwritten : ∀ slot, isReservedSlot slot = false →
    execution.contractStorage.overlay[slot]? = none

variable {keccak256 db}

theorem exec_balanced (slots : OwnSlots keccak256 parties) (sees : Sees db view before)
    (balanced : totalIn keccak256 parties view = supplyIn view) (call : TokenCall)
    (within : call.Within keccak256 parties) (regular : call.Regular db before)
    (returned : Returns (call.exec keccak256 db) before nothing after) :
    Balanced keccak256 db parties after := by
  obtain ⟨op, runtime, gasMeter⟩ := call
  obtain ⟨holders, aside⟩ := within
  unfold TokenCall.exec at returned
  simp only [returns_bind, returns_modify] at returned
  obtain ⟨_, _, rfl, returned⟩ := returned
  have started : Sees db view { before with gasMeter := gasMeter } := sees.of_storage rfl
  cases op with
  | initializeToken owner name symbol initialSupply =>
    simp only [TokenCall.Regular, supplyOf, sees.values] at regular
    simp only [TokenCall.holders, List.forall_mem_singleton] at holders
    simp only [TokenCall.sideSlots, List.forall_mem_append] at aside
    exact initializeToken_balanced slots started balanced regular owner name symbol
      initialSupply holders aside.1 aside.2 returned
  | transfer target amount =>
    simp only [TokenCall.holders, List.forall_mem_append] at holders
    exact (transfer_keeps slots started runtime target amount holders.1 holders.2
      returned).balanced balanced
  | transferFrom source target amount =>
    simp only [TokenCall.holders, List.forall_mem_append] at holders
    simp only [TokenCall.sideSlots, List.forall_mem_flatMap, List.forall_mem_map] at aside
    exact (transferFrom_keeps slots started runtime source target amount holders.1 holders.2
      aside regular returned).balanced balanced
  | approve spender amount =>
    simp only [TokenCall.sideSlots, List.forall_mem_flatMap, List.forall_mem_map] at aside
    exact (approve_keeps started aside returned).balanced balanced
  | mint target amount =>
    exact mint_balanced slots started balanced runtime target amount holders returned
  | burn source amount =>
    simp only [TokenCall.sideSlots, List.forall_mem_flatMap, List.forall_mem_map,
      List.mem_filter, decide_eq_true_eq, and_imp] at aside
    exact burn_balanced slots started balanced runtime source amount holders aside returned

variable {execution : Execution}

theorem Deployed.sees (deployed : Deployed db execution) :
    Sees db (execution.contractStorage.value db) execution :=
  ⟨deployed.coherent, deployed.unpersisted, rfl⟩

theorem Deployed.word_eq_zero (deployed : Deployed db execution)
    (unreserved : isReservedSlot slot = false) :
    word (execution.contractStorage.value db slot) = 0 := by
  rw [ContractStorage.value, deployed.unwritten slot unreserved, Option.getD_none,
    deployed.sees.dbValue_eq]
  decide

theorem Deployed.balanced (slots : OwnSlots keccak256 parties) (deployed : Deployed db execution) :
    Balanced keccak256 db parties execution := by
  refine ⟨_, deployed.sees, ?_⟩
  have empty : totalIn keccak256 parties (execution.contractStorage.value db) = 0 := by
    apply Finset.sum_eq_zero
    intro party member
    rw [balanceIn, deployed.word_eq_zero (slots.unreserved party member)]
    rfl
  rw [empty, supplyIn, deployed.word_eq_zero (by decide)]
  rfl

/-- After any successful calls on a token that was just deployed, the balances add up to
the supply, for any set of addresses that has all holders and over which the hash
keeps the slots apart, if `transferFrom` is only asked to move tokens between two
addresses and the token is only set up while it has no supply. -/
theorem balances_sum_to_supply (keccak256 : List UInt8 → Vector UInt8 32) (db : ContractsCf)
    (parties : Finset Address) (slots : OwnSlots keccak256 parties) (start : Execution)
    (deployed : Deployed db start) (calls : List TokenCall)
    (within : ∀ call ∈ calls, call.Within keccak256 parties)
    (succeed : Along (tokenStep keccak256 db) (TokenSucceeds keccak256 db) start calls)
    (regular : Along (tokenStep keccak256 db) (fun execution call => call.Regular db execution)
      start calls) :
    ∑ party ∈ parties,
        balanceHeld keccak256 db (run (tokenStep keccak256 db) start calls) party =
      supplyOf db (run (tokenStep keccak256 db) start calls) := by
  have guarded := along_and _ _ _ start calls
    (along_and _ _ _ start calls succeed regular)
    (along_of_forall _ (fun _ call => call.Within keccak256 parties) start calls
      fun call member _ => within call member)
  obtain ⟨view, sees, balanced⟩ := run_invariant_along _ _ (Balanced keccak256 db parties)
    (fun before call balanced ok => by
      obtain ⟨⟨succeeds, regular⟩, within⟩ := ok
      obtain ⟨view, sees, balanced⟩ := balanced
      obtain ⟨_, returned⟩ := exists_returns succeeds
      exact exec_balanced slots sees balanced call within regular returned)
    start calls (deployed.balanced slots) guarded
  rw [supplyOf, sees.values]
  unfold balanceHeld
  rw [sees.values]
  exact balanced

end

instance (keccak256 : List UInt8 → Vector UInt8 32) (db : ContractsCf) (execution : Execution)
    (call : TokenCall) : Decidable (TokenSucceeds keccak256 db execution call) :=
  inferInstanceAs (Decidable (_ = true))

instance (db : ContractsCf) (execution : Execution) :
    (call : TokenCall) → Decidable (call.Regular db execution)
  | ⟨.initializeToken _ _ _ _, _, _⟩ => inferInstanceAs (Decidable (_ = _))
  | ⟨.transferFrom _ _ _, _, _⟩ => inferInstanceAs (Decidable (_ ≠ _))
  | ⟨.transfer _ _, _, _⟩ => isTrue trivial
  | ⟨.approve _ _, _, _⟩ => isTrue trivial
  | ⟨.mint _ _, _, _⟩ => isTrue trivial
  | ⟨.burn _ _, _, _⟩ => isTrue trivial

def sampleKeccak (bytes : List UInt8) : Vector UInt8 32 :=
  Vector.ofFn fun index =>
    if index.val = 0 then bytes.getD 0 0 else if index.val = 1 then bytes.getD 32 0 else 0

def sampleHolder (first : UInt8) : Address :=
  Vector.ofFn fun index => if index.val = 0 then first else 9

def sampleText (first : UInt8) : String := HexCodec.encode (sampleHolder first).toList

theorem sampleAddress_length : (List.replicate 32 (7 : UInt8)).length = 32 := rfl

def sampleToken : Execution :=
  { contractStorage :=
      { contractAddress := List.replicate 32 7
        overlay := (∅ : Std.ExtTreeMap Slot Value).insert slotOwner (sampleHolder 1).toList
        sized := sampleAddress_length } }

def calledBy (first : UInt8) : Option CallFrame :=
  some { contractAddress := Vector.replicate 32 7, caller := sampleHolder first }

theorem deployed_sampleToken : Deployed ∅ sampleToken := by
  refine ⟨?_, ?_, ?_⟩
  · intro slot value cached
    simp [sampleToken] at cached
  · intro slot
    simp
  · intro slot unreserved
    simp only [sampleToken, Std.ExtTreeMap.getElem?_insert, Std.LawfulEqCmp.compare_eq_iff_eq]
    rw [if_neg]
    · simp
    · rintro rfl
      exact absurd unreserved (by decide)

def sampleCalls : List TokenCall :=
  [{ op := .initializeToken (sampleHolder 1) "Token" "T" 100 },
    { op := .transfer (sampleText 2) 30, runtime := calledBy 1 },
    { op := .approve (sampleText 2) 50, runtime := calledBy 1 },
    { op := .transferFrom (sampleText 1) (sampleText 2) 20, runtime := calledBy 2 },
    { op := .mint (sampleText 2) 5, runtime := calledBy 1 },
    { op := .burn (sampleText 1) 10, runtime := calledBy 2 }]

theorem ownSlots_sample : OwnSlots sampleKeccak {sampleHolder 1, sampleHolder 2} := by
  have members : ∀ party ∈ ({sampleHolder 1, sampleHolder 2} : Finset Address),
      party = sampleHolder 1 ∨ party = sampleHolder 2 := by
    intro party member
    simpa using member
  refine ⟨?_, ?_, ?_⟩
  · intro one isOne two isTwo same
    rcases members one isOne with rfl | rfl <;> rcases members two isTwo with rfl | rfl <;>
      first | rfl | exact absurd same (by decide +kernel)
  all_goals
    intro party member
    rcases members party member with rfl | rfl <;> decide +kernel

theorem within_sampleCalls : ∀ call ∈ sampleCalls,
    call.Within sampleKeccak {sampleHolder 1, sampleHolder 2} := by
  have checked : sampleCalls.all (fun call =>
      call.holders.all (fun holder =>
          decide (holder ∈ ({sampleHolder 1, sampleHolder 2} : Finset Address))) &&
        (call.sideSlots sampleKeccak).all fun slot =>
          slot != slotTotalSupply && slot != calculateBalanceSlot sampleKeccak (sampleHolder 1) &&
            slot != calculateBalanceSlot sampleKeccak (sampleHolder 2)) = true := by
    decide +kernel
  simp only [List.all_eq_true, Bool.and_eq_true, decide_eq_true_eq, bne_iff_ne] at checked
  intro call member
  refine ⟨(checked call member).1, ?_⟩
  intro slot written
  obtain ⟨⟨notSupply, first⟩, second⟩ := (checked call member).2 slot written
  refine ⟨notSupply, ?_⟩
  intro party isParty
  simp only [Finset.mem_insert, Finset.mem_singleton] at isParty
  rcases isParty with rfl | rfl
  · exact first
  · exact second

theorem sampleCalls_sum_to_supply :
    ∑ party ∈ {sampleHolder 1, sampleHolder 2}, balanceHeld sampleKeccak ∅
        (run (tokenStep sampleKeccak ∅) sampleToken sampleCalls) party =
      supplyOf ∅ (run (tokenStep sampleKeccak ∅) sampleToken sampleCalls) :=
  balances_sum_to_supply sampleKeccak ∅ {sampleHolder 1, sampleHolder 2} ownSlots_sample
    sampleToken deployed_sampleToken sampleCalls within_sampleCalls (by decide +kernel)
    (by decide +kernel)

/-- A spender pays the owner with the owner's own tokens: the balance written last is the
old one plus the amount. -/
def selfPayment : List TokenCall :=
  [{ op := .initializeToken (sampleHolder 1) "Token" "T" 100 },
    { op := .approve (sampleText 2) 50, runtime := calledBy 1 },
    { op := .transferFrom (sampleText 1) (sampleText 1) 50, runtime := calledBy 2 }]

/-- A token that is set up again for another owner. -/
def secondSetup : List TokenCall :=
  [{ op := .initializeToken (sampleHolder 1) "Token" "T" 100 },
    { op := .initializeToken (sampleHolder 2) "Token" "T" 100 }]

theorem self_payment_mints :
    (Along (tokenStep sampleKeccak ∅) (TokenSucceeds sampleKeccak ∅) sampleToken selfPayment ∧
      balanceHeld sampleKeccak ∅ (run (tokenStep sampleKeccak ∅) sampleToken selfPayment)
        (sampleHolder 1) = 150 ∧
      supplyOf ∅ (run (tokenStep sampleKeccak ∅) sampleToken selfPayment) = 100) ∧
    (Along (tokenStep sampleKeccak ∅) (TokenSucceeds sampleKeccak ∅) sampleToken secondSetup ∧
      balanceHeld sampleKeccak ∅ (run (tokenStep sampleKeccak ∅) sampleToken secondSetup)
        (sampleHolder 1) = 100 ∧
      balanceHeld sampleKeccak ∅ (run (tokenStep sampleKeccak ∅) sampleToken secondSetup)
        (sampleHolder 2) = 100 ∧
      supplyOf ∅ (run (tokenStep sampleKeccak ∅) sampleToken secondSetup) = 100) := by
  decide +kernel

end Savitri.Savitri20
