import Savitri.Savitri721
import Savitri.TokenSupply

/-!
Owners, approvals and balances of the tokens of savitri721.rs. The three families of slots
are read as one map from keys to values; a call that succeeds is one of four changes of
that map. Counting, authorisation and the clearing of approvals are read off the changes.
-/
namespace Savitri.Savitri721
open Contracts Fallible Transition
open LatticeTypes (toLeBytes)
open Savitri20 (Address CallFrame zeroAddress parseAddress decodeAddress ensureNonZeroAddress
  currentFrame callerOf named mem_named returns_decodeAddress requireRunning_sees getOwner_sees
  emitEvent_sees Deployed)

variable {address : Address} {db : ContractsCf} {before after : Execution} {tokenId : UInt64}
  {nothing : Unit}

inductive Key where
  | owner (tokenId : UInt64)
  | approval (tokenId : UInt64)
  | balance (holder : Address)
  deriving DecidableEq

abbrev Entries := Key → Value

structure Scope where
  tokens : Finset UInt64
  parties : Finset Address

def Scope.Tracks (scope : Scope) : Key → Prop
  | .owner tokenId => tokenId ∈ scope.tokens
  | .approval tokenId => tokenId ∈ scope.tokens
  | .balance holder => holder ∈ scope.parties

section
def addressIn (value : Value) : Option Address :=
  if isZero value then none
  else if sized : value.length = 32 then some ⟨value.toArray, sized⟩ else none

variable (entries : Entries)

def ownerIn (tokenId : UInt64) : Option Address := addressIn (entries (.owner tokenId))

def approvedIn (tokenId : UInt64) : Option Address := addressIn (entries (.approval tokenId))

def balanceIn (holder : Address) : Nat := (count (entries (.balance holder))).toNat

def owned (tokens : Finset UInt64) (entries : Entries) (holder : Address) : Nat :=
  (tokens.filter fun tokenId => ownerIn entries tokenId = some holder).card

def Counted (scope : Scope) (entries : Entries) : Prop :=
  ∀ holder ∈ scope.parties, balanceIn entries holder = owned scope.tokens entries holder

variable {tokens : Finset UInt64}

theorem isZero_toList : isZero address.toList = true ↔ address = zeroAddress := by
  constructor
  · intro zero
    have same := eq_zeroValue zero (by simp)
    apply Vector.toList_inj.mp
    rw [same]
    rfl
  · rintro rfl
    decide

@[simp]
theorem addressIn_toList :
    addressIn address.toList = if address = zeroAddress then none else some address := by
  unfold addressIn
  by_cases zero : address = zeroAddress
  · rw [if_pos (isZero_toList.mpr zero), if_pos zero]
  · rw [if_neg (mt isZero_toList.mp zero), if_neg zero, dif_pos (by simp)]
    rfl

@[simp]
theorem addressIn_zeroValue : addressIn zeroValue = none := by
  decide

@[simp]
theorem count_u64ToStorageValue {value : UInt64} : count (u64ToStorageValue value) = value := by
  have small : value.toNat < 256 ^ 8 := value.toNat_lt
  rw [count, u64ToStorageValue, List.take_left' (by simp), fromLeBytes_toLeBytes,
    Nat.mod_eq_of_lt small, UInt64.ofNat_toNat]

theorem owned_update (member : tokenId ∈ tokens) (value : Value) (holder : Address) :
    owned tokens (Function.update entries (.owner tokenId) value) holder +
        (if ownerIn entries tokenId = some holder then 1 else 0) =
      owned tokens entries holder + (if addressIn value = some holder then 1 else 0) := by
  unfold owned
  rw [Finset.card_filter, Finset.card_filter]
  have here : ownerIn (Function.update entries (.owner tokenId) value) tokenId =
      addressIn value := by
    rw [ownerIn, Function.update_self]
  rw [← here]
  apply MapTotal.sum_add_eq_of_agree tokens member
  intro other _ different
  rw [ownerIn, Function.update_of_ne (by simpa using different), ownerIn]

theorem owned_update_of_ne {entries : Entries} {key : Key}
    (other : ∀ tokenId, key ≠ .owner tokenId) (value : Value) (holder : Address) :
    owned tokens (Function.update entries key value) holder = owned tokens entries holder := by
  unfold owned
  congr 1
  apply Finset.filter_congr
  intro tokenId _
  rw [ownerIn, Function.update_of_ne (other tokenId).symm, ownerIn]

variable {before after : UInt64}

theorem checkedAdd_one (added : checkedAdd before 1 = some after) : after.toNat = before.toNat + 1 := by
  unfold checkedAdd at added
  split at added
  · next fits =>
      cases added
      have one : (1 : UInt64).toNat = 1 := rfl
      rw [UInt64.toNat_add, Nat.mod_eq_of_lt fits, one]
  · cases added

theorem checkedSub_one (taken : checkedSub before 1 = some after) : after.toNat + 1 = before.toNat := by
  unfold checkedSub at taken
  split at taken
  · next covered =>
      cases taken
      have one : (1 : UInt64).toNat = 1 := rfl
      rw [UInt64.toNat_sub_of_le _ _ covered, one]
      omega
  · cases taken

end

variable {scope : Scope}

section
variable (keccak256 : List UInt8 → Vector UInt8 32)

def Key.slot : Key → Slot
  | .owner tokenId => tokenOwnerSlot keccak256 tokenId
  | .approval tokenId => tokenApprovalSlot keccak256 tokenId
  | .balance holder => ownerBalanceSlot keccak256 holder

/-- Distinct keys have distinct slots, none of them reserved. -/
structure OwnSlots (scope : Scope) : Prop where
  distinct : ∀ one other, scope.Tracks one → scope.Tracks other →
    one.slot keccak256 = other.slot keccak256 → one = other
  unreserved : ∀ key, scope.Tracks key → isReservedSlot (key.slot keccak256) = false

def Shows (db : ContractsCf) (scope : Scope) (entries : Entries) (execution : Execution) : Prop :=
  ∃ view, Sees db view execution ∧ ∀ key, scope.Tracks key → view (key.slot keccak256) = entries key

variable {keccak256} {entries : Entries}
variable (shows : Shows keccak256 db scope entries before)
include shows

theorem Shows.sload (key : Key) (tracked : scope.Tracks key) (value : Value)
    (returned : Returns (sload db (key.slot keccak256)) before value after) :
    value = entries key ∧ Shows keccak256 db scope entries after := by
  obtain ⟨view, sees, agree⟩ := shows
  obtain ⟨rfl, sees⟩ := sees.sload _ value returned
  exact ⟨agree key tracked, view, sees, agree⟩

theorem Shows.sstore (slots : OwnSlots keccak256 scope) (key : Key) (tracked : scope.Tracks key)
    (value : Value) (returned : Returns (sstore db (key.slot keccak256) value) before nothing after) :
    Shows keccak256 db scope (Function.update entries key value) after := by
  obtain ⟨view, sees, agree⟩ := shows
  refine ⟨_, sees.sstore _ value returned, ?_⟩
  intro other isTracked
  by_cases same : other = key
  · subst same
    rw [Function.update_self, Function.update_self]
  · rw [Function.update_of_ne same, Function.update_of_ne, agree other isTracked]
    intro sameSlot
    exact same (slots.distinct other key isTracked tracked sameSlot)

theorem Shows.emitEvent (returned : Returns Savitri20.emitEvent before nothing after) :
    Shows keccak256 db scope entries after := by
  obtain ⟨view, sees, agree⟩ := shows
  exact ⟨view, emitEvent_sees sees returned, agree⟩

theorem Shows.requireRunning (returned : Returns (Savitri20.requireRunning db) before nothing after) :
    Shows keccak256 db scope entries after := by
  obtain ⟨view, sees, agree⟩ := shows
  exact ⟨view, requireRunning_sees sees returned, agree⟩

theorem Shows.getOwner (owner : Address)
    (returned : Returns (Savitri20.getOwner db) before owner after) :
    Shows keccak256 db scope entries after := by
  obtain ⟨view, sees, agree⟩ := shows
  exact ⟨view, getOwner_sees sees owner returned, agree⟩

omit shows in
theorem returns_storageValueToAddress {value : Value}
    (returned : Returns (storageValueToAddress value) before address after) :
    value = address.toList ∧ before = after := by
  unfold storageValueToAddress at returned
  split at returned
  · rw [returns_pure] at returned
    obtain ⟨rfl, rfl⟩ := returned
    exact ⟨by simp [Vector.toList], rfl⟩
  · exact absurd returned returns_fail

theorem Shows.existingOwner (tracked : tokenId ∈ scope.tokens) (owner : Address)
    (returned : Returns (existingOwner keccak256 db tokenId) before owner after) :
    ownerIn entries tokenId = some owner ∧ Shows keccak256 db scope entries after := by
  simp only [Savitri721.existingOwner, readTokenOwner, returns_bind, returns_withContext,
    returns_require] at returned
  obtain ⟨value, _, loaded, _, _, ⟨notZero, rfl⟩, read⟩ := returned
  obtain ⟨rfl, shows⟩ := shows.sload (.owner tokenId) tracked value loaded
  obtain ⟨same, rfl⟩ := returns_storageValueToAddress read
  refine ⟨?_, shows⟩
  have present : owner ≠ zeroAddress := by
    intro zero
    rw [same, isZero_toList.mpr zero] at notZero
    cases notZero
  rw [ownerIn, same, addressIn_toList, if_neg present]

omit shows in
theorem returns_approvedAddress {value : Value} {approved : Option Address}
    (returned : Returns (approvedAddress value) before approved after) :
    approved = addressIn value ∧ before = after := by
  unfold approvedAddress at returned
  split at returned
  · next zero =>
      rw [returns_pure] at returned
      obtain ⟨rfl, rfl⟩ := returned
      exact ⟨by rw [addressIn, if_pos zero], rfl⟩
  · next notZero =>
      simp only [returns_bind, returns_pure] at returned
      obtain ⟨address, _, read, rfl, rfl⟩ := returned
      obtain ⟨rfl, rfl⟩ := returns_storageValueToAddress read
      rw [addressIn_toList, if_neg (mt isZero_toList.mpr notZero)]
      exact ⟨rfl, rfl⟩

theorem Shows.changeBalance (slots : OwnSlots keccak256 scope) {holder : Address}
    (tracked : holder ∈ scope.parties) (who failure : String) (change : UInt64 → Option UInt64)
    (returned : Returns (changeBalance keccak256 db holder who change failure) before nothing after) :
    ∃ balance, change (count (entries (.balance holder))) = some balance ∧
      Shows keccak256 db scope
        (Function.update entries (.balance holder) (u64ToStorageValue balance)) after := by
  simp only [Savitri721.changeBalance, storageValueToU64, returns_bind, returns_withContext,
    returns_require, returns_present, returns_pure] at returned
  obtain ⟨value, _, loaded, _, _, ⟨_, _, ⟨_, rfl⟩, rfl, rfl⟩, balance, _, ⟨changed, rfl⟩,
    stored⟩ := returned
  obtain ⟨rfl, shows⟩ := shows.sload (.balance holder) tracked value loaded
  exact ⟨balance, changed, shows.sstore slots (.balance holder) tracked _ stored⟩

end

section Changes
/-- What a successful call does to the entries. A transfer to oneself is `idle`. -/
inductive Change (scope : Scope) (caller : Address) (entries : Entries) : Entries → Prop where
  | idle : Change scope caller entries entries
  | minted (tokenId : UInt64) (target : Address) (balance : UInt64)
      (isToken : tokenId ∈ scope.tokens) (isParty : target ∈ scope.parties)
      (present : target ≠ zeroAddress) (fresh : ownerIn entries tokenId = none)
      (added : checkedAdd (count (entries (.balance target))) 1 = some balance) :
      Change scope caller entries
        (Function.update (Function.update entries (.owner tokenId) target.toList)
          (.balance target) (u64ToStorageValue balance))
  | approved (tokenId : UInt64) (approved : Address)
      (byOwner : ownerIn entries tokenId = some caller) :
      Change scope caller entries (Function.update entries (.approval tokenId) approved.toList)
  | moved (tokenId : UInt64) (source target : Address) (less more : UInt64)
      (isToken : tokenId ∈ scope.tokens) (isSource : source ∈ scope.parties)
      (isTarget : target ∈ scope.parties) (different : source ≠ target)
      (present : target ≠ zeroAddress) (owner : ownerIn entries tokenId = some source)
      (allowed : caller = source ∨ approvedIn entries tokenId = some caller)
      (taken : checkedSub (count (entries (.balance source))) 1 = some less)
      (added : checkedAdd (count (entries (.balance target))) 1 = some more) :
      Change scope caller entries
        (Function.update (Function.update (Function.update (Function.update entries
          (.owner tokenId) target.toList) (.approval tokenId) zeroValue)
          (.balance source) (u64ToStorageValue less)) (.balance target) (u64ToStorageValue more))

variable {caller : Address} {entries entries' : Entries}

theorem Change.counted (change : Change scope caller entries entries')
    (counted : Counted scope entries) : Counted scope entries' := by
  intro holder isParty
  have now := counted holder isParty
  cases change with
  | idle => exact now
  | minted tokenId target balance isToken isTarget present fresh added =>
    have change := owned_update entries isToken target.toList holder
    rw [addressIn_toList, if_neg present, fresh] at change
    rw [owned_update_of_ne (by simp)]
    by_cases same : holder = target
    · subst same
      have more := checkedAdd_one added
      rw [balanceIn, Function.update_self, count_u64ToStorageValue, more]
      rw [balanceIn] at now
      simp only [reduceCtorEq, ↓reduceIte] at change
      omega
    · rw [balanceIn, Function.update_of_ne (by simpa using same), Function.update_of_ne (by simp)]
      rw [balanceIn] at now
      simp only [reduceCtorEq, ↓reduceIte, Option.some.injEq, Ne.symm same] at change
      omega
  | approved tokenId approved byOwner =>
    rw [owned_update_of_ne (by simp), balanceIn, Function.update_of_ne (by simp)]
    exact now
  | moved tokenId source target less more isToken isSource isTarget different present owner
      allowed taken added =>
      have change := owned_update entries isToken target.toList holder
      rw [addressIn_toList, if_neg present, owner] at change
      rw [owned_update_of_ne (by simp), owned_update_of_ne (by simp), owned_update_of_ne (by simp)]
      have lessOne := checkedSub_one taken
      have moreOne := checkedAdd_one added
      rw [balanceIn] at now ⊢
      -- The token passes from the count of the source to that of the target.
      by_cases isNew : holder = target
      · subst isNew
        rw [Function.update_self, count_u64ToStorageValue, moreOne]
        simp only [Option.some.injEq, different, ↓reduceIte] at change
        omega
      · rw [Function.update_of_ne (by simpa using isNew)]
        by_cases isOld : holder = source
        · subst isOld
          rw [Function.update_self, count_u64ToStorageValue]
          simp only [Option.some.injEq, ↓reduceIte, Ne.symm isNew] at change
          omega
        · rw [Function.update_of_ne (by simpa using isOld), Function.update_of_ne (by simp),
            Function.update_of_ne (by simp)]
          simp only [Option.some.injEq, Ne.symm isNew, Ne.symm isOld, ↓reduceIte] at change
          omega

theorem Change.authorised (change : Change scope caller entries entries') {owner : Address}
    (held : ownerIn entries tokenId = some owner) (lost : ownerIn entries' tokenId ≠ some owner) :
    caller = owner ∨ approvedIn entries tokenId = some caller := by
  cases change with
  | idle => exact absurd held lost
  | minted minted target balance isToken isTarget present fresh added =>
    by_cases same : tokenId = minted
    · subst same
      rw [held] at fresh
      cases fresh
    · rw [ownerIn, Function.update_of_ne (by simp), Function.update_of_ne (by simpa using same)]
        at lost
      exact absurd held lost
  | approved _ approved byOwner =>
    rw [ownerIn, Function.update_of_ne (by simp)] at lost
    exact absurd held lost
  | moved moved source target less more isToken isSource isTarget different present moves allowed
      taken added =>
      by_cases same : tokenId = moved
      · subst same
        rw [held] at moves
        cases moves
        exact allowed
      · rw [ownerIn, Function.update_of_ne (by simp), Function.update_of_ne (by simp),
          Function.update_of_ne (by simp), Function.update_of_ne (by simpa using same)] at lost
        exact absurd held lost

end Changes

section
variable {keccak256 : List UInt8 → Vector UInt8 32} {entries : Entries}

/-- A call of somebody that changed the entries as a call may. -/
def Changes (keccak256 : List UInt8 → Vector UInt8 32) (db : ContractsCf) (scope : Scope)
    (runtime : Option CallFrame) (entries entries' : Entries) (after : Execution) : Prop :=
  ∃ frame, runtime = some frame ∧ Change scope frame.caller entries entries' ∧
    Shows keccak256 db scope entries' after

variable (slots : OwnSlots keccak256 scope)
include slots
variable (shows : Shows keccak256 db scope entries before)
include shows
variable (runtime : Option CallFrame)
include runtime

theorem mint_changes (target : String) (isToken : tokenId ∈ scope.tokens)
    (isTarget : ∀ address ∈ named target, address ∈ scope.parties)
    (returned : Returns (mint keccak256 db runtime target tokenId) before nothing after) :
    ∃ entries', Changes keccak256 db scope runtime entries entries' after := by
  simp only [mint, currentFrame, ensureNonZeroAddress, readTokenOwner, returns_bind,
    returns_present, returns_require, returns_decodeAddress, returns_withContext] at returned
  obtain ⟨_, _, running, frame, _, ⟨rfl, rfl⟩, owner, _, gotOwner, _, _, ⟨_, rfl⟩, address, _,
    ⟨parsed, rfl⟩, _, _, ⟨present, rfl⟩, value, _, loaded, _, _, ⟨zero, rfl⟩, _, _, stored, _, _,
    changed, emitted⟩ := returned
  have isParty := isTarget address (mem_named.mpr parsed)
  have shows := (shows.requireRunning running).getOwner _ gotOwner
  obtain ⟨rfl, shows⟩ := shows.sload (.owner tokenId) isToken value loaded
  have shows := shows.sstore slots (.owner tokenId) isToken _ stored
  obtain ⟨balance, added, shows⟩ := shows.changeBalance slots isParty _ _ _ changed
  rw [Function.update_of_ne (by simp)] at added
  refine ⟨_, frame, rfl, Change.minted tokenId address balance isToken isParty ?_ ?_ added,
    shows.emitEvent emitted⟩
  · simpa using present
  · rw [ownerIn, addressIn, if_pos zero]

theorem approve_changes (target : String) (isToken : tokenId ∈ scope.tokens)
    (returned : Returns (approve keccak256 db runtime target tokenId) before nothing after) :
    ∃ entries', Changes keccak256 db scope runtime entries entries' after := by
  simp only [approve, currentFrame, returns_bind, returns_present, returns_require,
    returns_decodeAddress, returns_withContext] at returned
  obtain ⟨_, _, running, frame, _, ⟨rfl, rfl⟩, owner, _, read, _, _, ⟨byOwner, rfl⟩, address, _,
    ⟨_, rfl⟩, _, _, ⟨_, rfl⟩, _, _, stored, emitted⟩ := returned
  obtain ⟨held, shows⟩ := (shows.requireRunning running).existingOwner isToken owner read
  have shows := shows.sstore slots (.approval tokenId) isToken _ stored
  have caller : frame.caller = owner := by simpa using byOwner
  refine ⟨_, frame, rfl, Change.approved tokenId address ?_, shows.emitEvent emitted⟩
  rw [held, caller]

/-- The approval is gone afterwards unless there was one and the token was sent from an
address to itself. -/
theorem transferFrom_changes (source target : String) (isToken : tokenId ∈ scope.tokens)
    (isSource : ∀ address ∈ named source, address ∈ scope.parties)
    (isTarget : ∀ address ∈ named target, address ∈ scope.parties) (returned :
      Returns (transferFrom keccak256 db runtime source target tokenId) before nothing after) :
    ∃ entries', Changes keccak256 db scope runtime entries entries' after ∧
      (approvedIn entries' tokenId = none ↔
        parseAddress source ≠ parseAddress target ∨ approvedIn entries tokenId = none) := by
  simp only [transferFrom, currentFrame, ensureNonZeroAddress, readTokenApproval, returns_bind,
    returns_present, returns_require, returns_decodeAddress, returns_withContext] at returned
  obtain ⟨_, _, running, frame, _, ⟨rfl, rfl⟩, sourceBytes, _, ⟨parsedSource, rfl⟩, targetBytes,
    _, ⟨parsedTarget, rfl⟩, _, _, ⟨present, rfl⟩, owner, _, read, _, _, ⟨fromOwner, rfl⟩, value, _,
    loaded, approved, _, readApproved, _, _, ⟨allowed, rfl⟩, returned⟩ := returned
  obtain ⟨held, shows⟩ := (shows.requireRunning running).existingOwner isToken owner read
  obtain ⟨rfl, shows⟩ := shows.sload (.approval tokenId) isToken value loaded
  obtain ⟨rfl, rfl⟩ := returns_approvedAddress readApproved
  have sameOwner : owner = sourceBytes := by simpa using fromOwner
  subst sameOwner
  rw [parsedSource, parsedTarget]
  -- A token that is sent to its own holder stays as it is, its approval included.
  split at returned
  · next same =>
      subst same
      exact ⟨entries, ⟨frame, rfl, .idle, shows.emitEvent returned⟩, by simp⟩
  · next different =>
      simp only [moveToken, returns_bind, returns_withContext] at returned
      obtain ⟨_, _, ⟨_, _, storedOwner, _, _, cleared, _, _, taken, added⟩, emitted⟩ := returned
      have isOld := isSource owner (mem_named.mpr parsedSource)
      have isNew := isTarget targetBytes (mem_named.mpr parsedTarget)
      have shows := shows.sstore slots (.owner tokenId) isToken _ storedOwner
      have shows := shows.sstore slots (.approval tokenId) isToken _ cleared
      obtain ⟨less, taken, shows⟩ := shows.changeBalance slots isOld _ _ _ taken
      obtain ⟨more, added, shows⟩ := shows.changeBalance slots isNew _ _ _ added
      rw [Function.update_of_ne (by simp), Function.update_of_ne (by simp)] at taken
      rw [Function.update_of_ne (by simpa using Ne.symm different), Function.update_of_ne (by simp),
        Function.update_of_ne (by simp)] at added
      refine ⟨_, ⟨frame, rfl, Change.moved tokenId owner targetBytes less more isToken isOld isNew
        different ?_ held ?_ taken added, shows.emitEvent emitted⟩, ?_⟩
      · simpa using present
      · simpa [approvedIn] using allowed
      · rw [approvedIn, Function.update_of_ne (by simp), Function.update_of_ne (by simp),
          Function.update_self, addressIn_zeroValue]
        simp [different]

end

section
inductive NftOp where
  | mint (target : String) (tokenId : UInt64)
  | approve (target : String) (tokenId : UInt64)
  | transferFrom (source target : String) (tokenId : UInt64)

/-- Every call has its own caller and its own meter, or none. -/
structure NftCall where
  op : NftOp
  runtime : Option CallFrame := none
  gasMeter : Option GasMeter := none

variable (keccak256 : List UInt8 → Vector UInt8 32) (db : ContractsCf)
variable (call : NftCall)

def NftCall.exec : Action Execution Unit := do
  modify fun execution => { execution with gasMeter := call.gasMeter }
  match call.op with
  | .mint target tokenId => mint keccak256 db call.runtime target tokenId
  | .approve target tokenId => approve keccak256 db call.runtime target tokenId
  | .transferFrom source target tokenId =>
    transferFrom keccak256 db call.runtime source target tokenId

variable (execution : Execution)

def nftStep (call : NftCall) : Execution × Except Failure Unit :=
  perform (call.exec keccak256 db) execution

def NftSucceeds (call : NftCall) : Prop := (nftStep keccak256 db execution call).2.isOk = true

def NftCall.token : UInt64 :=
  match call.op with
  | .mint _ tokenId => tokenId
  | .approve _ tokenId => tokenId
  | .transferFrom _ _ tokenId => tokenId

def NftCall.holders : List Address :=
  match call.op with
  | .mint target _ => named target
  | .approve _ _ => []
  | .transferFrom source target _ => named source ++ named target

structure NftCall.Within (scope : Scope) (call : NftCall) : Prop where
  token : call.token ∈ scope.tokens
  holders : ∀ holder ∈ call.holders, holder ∈ scope.parties

def entriesOf : Entries :=
  fun key => execution.contractStorage.value db (key.slot keccak256)

def Authorised (scope : Scope) (before : Execution) (call : NftCall) : Prop :=
  ∀ tokenId ∈ scope.tokens, ∀ owner,
    ownerIn (entriesOf keccak256 db before) tokenId = some owner →
    ownerIn (entriesOf keccak256 db (nftStep keccak256 db before call).1) tokenId ≠ some owner →
      ∃ frame, call.runtime = some frame ∧
        (frame.caller = owner ∨
          approvedIn (entriesOf keccak256 db before) tokenId = some frame.caller)

/-- A transfer leaves no approved address exactly if it is between two addresses or there
was none before. -/
def ClearsApproval (before : Execution) (call : NftCall) : Prop :=
  ∀ source target tokenId, call.op = .transferFrom source target tokenId →
    (approvedIn (entriesOf keccak256 db (nftStep keccak256 db before call).1) tokenId = none ↔
      parseAddress source ≠ parseAddress target ∨
        approvedIn (entriesOf keccak256 db before) tokenId = none)

variable {keccak256 db} {entries : Entries}
variable (shows : Shows keccak256 db scope entries before)
include shows

theorem Shows.entriesOf_eq (key : Key) (tracked : scope.Tracks key) :
    entriesOf keccak256 db before key = entries key := by
  obtain ⟨view, sees, agree⟩ := shows
  rw [entriesOf, sees.values]
  exact agree key tracked

theorem Shows.refresh : Shows keccak256 db scope (entriesOf keccak256 db before) before := by
  obtain ⟨view, sees, _⟩ := shows
  refine ⟨view, sees, ?_⟩
  intro key _
  rw [entriesOf, sees.values]

theorem counted_iff : Counted scope (entriesOf keccak256 db before) ↔ Counted scope entries := by
  have balances : ∀ holder ∈ scope.parties,
      balanceIn (entriesOf keccak256 db before) holder = balanceIn entries holder := by
    intro holder isParty
    rw [balanceIn, shows.entriesOf_eq (.balance holder) isParty, balanceIn]
  have owners : ∀ holder, owned scope.tokens (entriesOf keccak256 db before) holder =
      owned scope.tokens entries holder := by
    intro holder
    unfold owned
    congr 1
    apply Finset.filter_congr
    intro tokenId isToken
    rw [ownerIn, shows.entriesOf_eq (.owner tokenId) isToken, ownerIn]
  refine forall₂_congr fun holder isParty => ?_
  rw [balances holder isParty, owners holder]

omit shows

variable (slots : OwnSlots keccak256 scope)
include slots

theorem exec_changes (shows : Shows keccak256 db scope entries before) (call : NftCall)
    (within : call.Within scope) (returned : Returns (call.exec keccak256 db) before nothing after) :
    ∃ entries', Changes keccak256 db scope call.runtime entries entries' after ∧
      ∀ source target tokenId, call.op = .transferFrom source target tokenId →
        (approvedIn entries' tokenId = none ↔
          parseAddress source ≠ parseAddress target ∨ approvedIn entries tokenId = none) := by
  obtain ⟨op, runtime, gasMeter⟩ := call
  obtain ⟨isToken, holders⟩ := within
  unfold NftCall.exec at returned
  simp only [returns_bind, returns_modify] at returned
  obtain ⟨_, _, rfl, returned⟩ := returned
  have started : Shows keccak256 db scope entries { before with gasMeter := gasMeter } := by
    obtain ⟨view, sees, agree⟩ := shows
    exact ⟨view, sees.of_storage rfl, agree⟩
  cases op with
  | mint target tokenId =>
    obtain ⟨entries', changes⟩ := mint_changes slots started runtime target isToken holders returned
    exact ⟨entries', changes, by simp⟩
  | approve target tokenId =>
    obtain ⟨entries', changes⟩ := approve_changes slots started runtime target isToken returned
    exact ⟨entries', changes, by simp⟩
  | transferFrom source target tokenId =>
    simp only [NftCall.holders, List.forall_mem_append] at holders
    obtain ⟨entries', changes, cleared⟩ := transferFrom_changes slots started runtime source
      target isToken holders.1 holders.2 returned
    refine ⟨entries', changes, ?_⟩
    rintro _ _ _ same
    cases same
    exact cleared

def Ledgered (keccak256 : List UInt8 → Vector UInt8 32) (db : ContractsCf) (scope : Scope)
    (execution : Execution) : Prop :=
  Shows keccak256 db scope (entriesOf keccak256 db execution) execution ∧
    Counted scope (entriesOf keccak256 db execution)

theorem step_ledgered (call : NftCall) (ledgered : Ledgered keccak256 db scope before)
    (succeeds : NftSucceeds keccak256 db before call) (within : call.Within scope) :
    Ledgered keccak256 db scope (nftStep keccak256 db before call).1 := by
  obtain ⟨_, returned⟩ := exists_returns succeeds
  obtain ⟨entries', ⟨frame, _, change, shows⟩, _⟩ :=
    exec_changes slots ledgered.1 call within returned
  exact ⟨shows.refresh, (counted_iff shows).mpr (change.counted ledgered.2)⟩

theorem step_authorised (call : NftCall) (ledgered : Ledgered keccak256 db scope before)
    (succeeds : NftSucceeds keccak256 db before call) (within : call.Within scope) :
    Authorised keccak256 db scope before call ∧ ClearsApproval keccak256 db before call := by
  obtain ⟨_, returned⟩ := exists_returns succeeds
  obtain ⟨entries', ⟨frame, calledBy, change, shows⟩, cleared⟩ :=
    exec_changes slots ledgered.1 call within returned
  constructor
  · intro tokenId isToken owner held lost
    have seen : ownerIn (entriesOf keccak256 db (nftStep keccak256 db before call).1) tokenId =
        ownerIn entries' tokenId := congrArg addressIn (shows.entriesOf_eq (.owner tokenId) isToken)
    rw [seen] at lost
    exact ⟨frame, calledBy, change.authorised held lost⟩
  · intro source target tokenId isTransfer
    have isToken : tokenId ∈ scope.tokens := by
      have token := within.token
      rwa [NftCall.token, isTransfer] at token
    have seen : approvedIn (entriesOf keccak256 db (nftStep keccak256 db before call).1) tokenId =
        approvedIn entries' tokenId :=
      congrArg addressIn (shows.entriesOf_eq (.approval tokenId) isToken)
    rw [seen]
    exact cleared source target tokenId isTransfer

theorem deployed_ledgered (deployed : Deployed db before) : Ledgered keccak256 db scope before := by
  have empty : ∀ key, scope.Tracks key → entriesOf keccak256 db before key = zeroValue := by
    intro key tracked
    rw [entriesOf, ContractStorage.value,
      deployed.unwritten _ (slots.unreserved key tracked), Option.getD_none, deployed.sees.dbValue_eq]
  refine ⟨⟨_, deployed.sees, fun _ _ => rfl⟩, ?_⟩
  intro holder isParty
  have nothing : owned scope.tokens (entriesOf keccak256 db before) holder = 0 := by
    rw [owned, Finset.card_eq_zero, Finset.filter_eq_empty_iff]
    intro tokenId isToken
    rw [ownerIn, empty (.owner tokenId) isToken, addressIn_zeroValue]
    simp
  rw [nothing, balanceIn, empty (.balance holder) isParty]
  decide

omit slots

end

section
open Savitri20 (sampleHolder sampleText sampleToken calledBy deployed_sampleToken)

instance (keccak256 : List UInt8 → Vector UInt8 32) (db : ContractsCf) (execution : Execution)
    (call : NftCall) : Decidable (NftSucceeds keccak256 db execution call) :=
  inferInstanceAs (Decidable (_ = true))

def sampleHash (bytes : List UInt8) : Vector UInt8 32 :=
  Vector.ofFn fun index =>
    if index.val = 0 then bytes.getD 0 0
    else if index.val = 1 then bytes.getD 8 0
    else if index.val = 2 then bytes.getD 32 0
    else if index.val = 3 then 1
    else 0

def sampleScope : Scope where
  tokens := {1}
  parties := {sampleHolder 1, sampleHolder 2}

theorem mem_sampleScope {key : Key} (tracked : sampleScope.Tracks key) :
    key ∈ [Key.owner 1, .approval 1, .balance (sampleHolder 1), .balance (sampleHolder 2)] := by
  cases key with
  | owner tokenId | approval tokenId =>
    have one : tokenId = 1 := by simpa [Scope.Tracks, sampleScope] using tracked
    simp [one]
  | balance holder =>
    have either : holder = sampleHolder 1 ∨ holder = sampleHolder 2 := by
      simpa [Scope.Tracks, sampleScope] using tracked
    simp [either]

theorem ownSlots_sampleScope : OwnSlots sampleHash sampleScope := by
  have slots : [Key.owner 1, .approval 1, .balance (sampleHolder 1),
      .balance (sampleHolder 2)].map (Key.slot sampleHash) =
        [16777572, 16777516, 29886721, 29886722] := by
    decide +kernel
  simp only [List.map_cons, List.map_nil, List.cons.injEq, and_true] at slots
  obtain ⟨owner, approval, first, second⟩ := slots
  constructor
  · intro one other isOne isOther same
    have one_mem := mem_sampleScope isOne
    have other_mem := mem_sampleScope isOther
    simp only [List.mem_cons, List.not_mem_nil, or_false] at one_mem other_mem
    rcases one_mem with rfl | rfl | rfl | rfl <;> rcases other_mem with rfl | rfl | rfl | rfl <;>
      first
        | rfl
        | (simp only [owner, approval, first, second] at same
           exact absurd same (by decide))
  · intro key tracked
    have member := mem_sampleScope tracked
    simp only [List.mem_cons, List.not_mem_nil, or_false] at member
    rcases member with rfl | rfl | rfl | rfl
    · rw [owner]
      decide
    · rw [approval]
      decide
    · rw [first]
      decide
    · rw [second]
      decide

def sampleTransfer : List NftCall :=
  [{ op := .mint (sampleText 1) 1, runtime := calledBy 1 },
    { op := .approve (sampleText 2) 1, runtime := calledBy 1 },
    { op := .transferFrom (sampleText 1) (sampleText 2) 1, runtime := calledBy 2 }]

theorem within_sampleTransfer : ∀ call ∈ sampleTransfer, call.Within sampleScope := by
  have checked : sampleTransfer.all (fun call => decide (call.token = 1) &&
      call.holders.all fun holder =>
        decide (holder = sampleHolder 1) || decide (holder = sampleHolder 2)) = true := by
    decide +kernel
  simp only [List.all_eq_true, Bool.and_eq_true, Bool.or_eq_true, decide_eq_true_eq] at checked
  intro call member
  obtain ⟨token, holders⟩ := checked call member
  exact ⟨by simp [sampleScope, token], fun holder held => by
    simpa [sampleScope] using holders holder held⟩

def selfTransfer : List NftCall :=
  [{ op := .mint (sampleText 1) 1, runtime := calledBy 1 },
    { op := .approve (sampleText 2) 1, runtime := calledBy 1 },
    { op := .transferFrom (sampleText 1) (sampleText 1) 1, runtime := calledBy 1 }]

end

end Savitri.Savitri721
