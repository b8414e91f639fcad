import Savitri.BlockExecution
import Savitri.ByteWords

/-!
The replay cache of mempool/replay_prevention.rs: the hashes of executed transactions
in a cache of bounded size, most recently used first, and for each sender the highest
nonce executed. Creation times, which nothing reads, are left out; block heights are
plain numbers. Before it, how the mempool reads an account from storage: the stored bytes
are taken for the `bincode` form first and for the raw form of `Account::encode` second.
-/
namespace Savitri.AccountReads
open BlockExecution LeBytes

/-- `StorageTrait::get_account`: a read fails, finds nothing, or finds bytes. -/
abbrev Storage := Address → Except String (Option (List UInt8))

def accountOf (balance nonce : List UInt8) : Account :=
  { balance := BitVec.ofNat 128 (fromLeBytes balance)
    nonce := UInt64.ofNat (fromLeBytes nonce) }

variable (bytes : List UInt8)

/-- `bincode::deserialize::<Account>`: two fixed-width integers, later bytes ignored. -/
def deserialize : Option Account :=
  if 24 ≤ bytes.length then some (accountOf (bytes.take 16) ((bytes.drop 16).take 8)) else none

/-- `Account::decode`, with the old form that has no nonce. -/
def decode : Except String Account :=
  if bytes.length = 24 then .ok (accountOf (bytes.take 16) (bytes.drop 16))
  else if bytes.length = 16 then .ok (accountOf bytes [])
  else .error ("invalid account length: " ++ toString bytes.length ++ " (expected 16 or 24 bytes)")

def decodeEither : Except String Account :=
  match deserialize bytes with
  | some account => .ok account
  | none => decode bytes

end Savitri.AccountReads

namespace Savitri.ReplayPrevention
open BlockExecution AccountReads Transition

abbrev TxHash := List UInt8

structure ReplayPreventionConfig where
  maxHashCacheSize : Nat := 100000
  cacheTtlBlocks : Nat := 1000
  cleanupIntervalBlocks : Nat := 100

structure ReplayEntry where
  blockHeight : Nat
  senderAddress : Address
  nonce : UInt64

structure NonceEntry where
  currentNonce : UInt64
  lastUpdated : Nat

inductive ReplayPreventionError where
  | nonceTooOld (accountNonce txNonce : UInt64)
  | nonceTooFar (accountNonce txNonce : UInt64)
  | storageError
  deriving DecidableEq

def ReplayPreventionError.text : ReplayPreventionError → String
  | .nonceTooOld accountNonce txNonce =>
    "Nonce " ++ toString txNonce.toNat ++ " is too old for account nonce " ++
      toString accountNonce.toNat
  | .nonceTooFar accountNonce txNonce =>
    "Nonce " ++ toString txNonce.toNat ++ " is too far ahead for account nonce " ++
      toString accountNonce.toNat
  | .storageError => "Storage access failed"

structure State where
  config : ReplayPreventionConfig
  hashCache : List (TxHash × ReplayEntry) := []
  nonceCache : Address → Option NonceEntry := fun _ => none
  currentBlockHeight : Nat := 0
  lastCleanupHeight : Nat := 0

section
variable {Entry : Type*}

/-- `LruCache::put`: the key moves to the front; a full cache gives up its last entry
for a new key. -/
def put (size : Nat) (cache : List (TxHash × Entry)) (key : TxHash) (entry : Entry) :
    List (TxHash × Entry) :=
  let others := cache.filter fun row => row.1 ≠ key
  if others.length = cache.length ∧ size ≤ cache.length then (key, entry) :: cache.dropLast
  else (key, entry) :: others

def contains (cache : List (TxHash × Entry)) (key : TxHash) : Bool :=
  cache.any fun row => row.1 == key

/-- `pop_lru` while the least recently used entry is older than the cutoff. -/
def trim (cutoff : Nat) (cache : List (TxHash × ReplayEntry)) : List (TxHash × ReplayEntry) :=
  (cache.reverse.dropWhile fun row => decide (row.2.blockHeight < cutoff)).reverse

end

variable (state : State)

def isReplayTransaction (txHash : TxHash) (senderAddress : Address) (nonce : UInt64) : Bool :=
  contains state.hashCache txHash ||
    match state.nonceCache senderAddress with
    | some entry => decide (nonce < entry.currentNonce)
    | none => false

def recordTransactionExecution (txHash : TxHash) (senderAddress : Address) (nonce : UInt64)
    (blockHeight : Nat) : State :=
  let currentHeight := max state.currentBlockHeight blockHeight
  let entry := (state.nonceCache senderAddress).getD
    { currentNonce := 0, lastUpdated := currentHeight }
  { state with
    currentBlockHeight := currentHeight
    hashCache := put state.config.maxHashCacheSize state.hashCache txHash
      { blockHeight, senderAddress, nonce }
    nonceCache := Function.update state.nonceCache senderAddress (some
      (if entry.currentNonce < nonce then { currentNonce := nonce, lastUpdated := currentHeight }
        else entry)) }

def cleanupExpiredEntries (currentHeight : Nat) : State :=
  let cutoffHeight := currentHeight - state.config.cacheTtlBlocks
  { state with
    hashCache := trim cutoffHeight state.hashCache
    nonceCache := fun address =>
      (state.nonceCache address).filter fun entry => decide (cutoffHeight ≤ entry.lastUpdated) }

def updateBlockHeight (newHeight : Nat) : State :=
  let state := { state with currentBlockHeight := newHeight }
  if state.lastCleanupHeight + state.config.cleanupIntervalBlocks ≤ newHeight then
    cleanupExpiredEntries { state with lastCleanupHeight := newHeight } newHeight
  else state

/-- `validate_transaction_nonce`; unlike admission it knows the raw account form only. -/
def validateTransactionNonce (storage : Storage) (senderAddress : Address) (txNonce : UInt64) :
    Except ReplayPreventionError Unit :=
  match storage senderAddress with
  | .error _ => .error .storageError
  | .ok none => if txNonce ≠ 0 then .error (.nonceTooFar 0 txNonce) else .ok ()
  | .ok (some bytes) =>
    match decode bytes with
    | .error _ => .error .storageError
    | .ok account =>
      if txNonce < account.nonce then .error (.nonceTooOld account.nonce txNonce)
      else if account.nonce + 4000 < txNonce then .error (.nonceTooFar account.nonce txNonce)
      else .ok ()

section
inductive Action where
  | recordTransactionExecution (txHash : TxHash) (senderAddress : Address) (nonce : UInt64)
      (blockHeight : Nat)
  | updateBlockHeight (newHeight : Nat)
  | clearCaches

variable (state : State)

def step : Action → State × Unit
  | .recordTransactionExecution txHash senderAddress nonce blockHeight =>
    (recordTransactionExecution state txHash senderAddress nonce blockHeight, ())
  | .updateBlockHeight newHeight => (updateBlockHeight state newHeight, ())
  | .clearCaches => ({ state with hashCache := [], nonceCache := fun _ => none }, ())

def KeepsNonces : Action → Prop
  | .recordTransactionExecution .. => True
  | .updateBlockHeight newHeight =>
    (updateBlockHeight state newHeight).nonceCache = state.nonceCache
  | .clearCaches => False

def executedNonces (sender : Address) (actions : List Action) : List UInt64 :=
  actions.filterMap fun
    | .recordTransactionExecution _ senderAddress nonce _ =>
      if senderAddress = sender then some nonce else none
    | _ => none

variable (executed : Address → List UInt64)

def Remembers : Prop :=
  ∀ sender nonce,
    (∃ entry, state.nonceCache sender = some entry ∧ nonce < entry.currentNonce) ↔
      ∃ other ∈ executed sender, nonce < other

variable {txHash : TxHash} {nonce : UInt64} {actions : List Action}

theorem remembers_record {state : State} {executed : Address → List UInt64} {address : Address}
    {blockHeight : Nat} (before : Remembers state executed) :
    Remembers (recordTransactionExecution state txHash address nonce blockHeight)
      (Function.update executed address (executed address ++ [nonce])) := by
  intro sender asked
  by_cases same : sender = address
  · subst sender
    have known := before address asked
    simp only [recordTransactionExecution, Function.update_self, Option.some.injEq,
      exists_eq_left', List.mem_append, List.mem_singleton, or_and_right, exists_or, exists_eq_left]
    rw [← known]
    cases state.nonceCache address with
    | none =>
      -- a sender without an entry starts at zero, below which there is no nonce
      simp only [Option.getD_none, reduceCtorEq, false_and, exists_false, false_or]
      by_cases positive : (0 : UInt64) < nonce
      · simp [positive]
      · simp only [positive, ↓reduceIte]
        constructor <;> exact fun below => absurd below (by grind)
    | some entry =>
      simp only [Option.getD_some, Option.some.injEq, exists_eq_left']
      by_cases higher : entry.currentNonce < nonce <;> simp only [higher, ↓reduceIte] <;> grind
  · simp only [recordTransactionExecution, Function.update_of_ne same]
    exact before sender asked

theorem remembers_run (before : Remembers state executed)
    (kept : Along step KeepsNonces state actions) :
    Remembers (run step state actions) fun sender =>
      executed sender ++ executedNonces sender actions := by
  induction actions generalizing state executed with
  | nil => simpa [executedNonces] using before
  | cons action rest ih =>
    cases action with
    | recordTransactionExecution txHash address nonce blockHeight =>
      have after := ih _ _ (remembers_record before) kept.2
      have joined : (fun sender =>
          Function.update executed address (executed address ++ [nonce]) sender ++
            executedNonces sender rest) = fun sender => executed sender ++ executedNonces
              sender (.recordTransactionExecution txHash address nonce blockHeight :: rest) := by
        funext sender
        by_cases same : address = sender
        · subst sender
          simp [executedNonces]
        · rw [Function.update_of_ne (Ne.symm same)]
          simp [executedNonces, same]
      rw [← joined]
      exact after
    | updateBlockHeight newHeight =>
      have same : (updateBlockHeight state newHeight).nonceCache = state.nonceCache := kept.1
      have next : Remembers (updateBlockHeight state newHeight) executed := by
        intro sender nonce
        rw [same]
        exact before sender nonce
      exact ih _ _ next kept.2
    | clearCaches => exact absurd kept.1 not_false

theorem isReplayTransaction_run {config : ReplayPreventionConfig}
    (kept : Along step KeepsNonces { config } actions) {sender : Address} :
    isReplayTransaction (run step { config } actions) txHash sender nonce = true ↔
      contains (run step { config } actions).hashCache txHash = true ∨
        ∃ executed ∈ executedNonces sender actions, nonce < executed := by
  have initial : Remembers { config } fun _ => [] := by simp [Remembers]
  have remembered := remembers_run { config } _ initial kept sender nonce
  simp only [List.nil_append] at remembered
  rw [isReplayTransaction, Bool.or_eq_true, ← remembered]
  cases (run step { config } actions).nonceCache sender with
  | none | some => simp

/-- The executed nonce itself is let through under another hash, as long as no higher
nonce of the sender was executed. -/
theorem executed_reported_iff (config : ReplayPreventionConfig) (actions : List Action)
    (kept : Along step KeepsNonces { config } actions) (sender : Address)
    (executed : UInt64) (recorded : executed ∈ executedNonces sender actions)
    (txHash : TxHash) (nonce : UInt64) (atMost : nonce ≤ executed) :
    isReplayTransaction (run step { config } actions) txHash sender nonce = true ↔
      nonce ≠ executed ∨ contains (run step { config } actions).hashCache txHash = true ∨
        ∃ later ∈ executedNonces sender actions, executed < later := by
  rw [isReplayTransaction_run kept]
  constructor
  · rintro (cached | ⟨other, member, below⟩)
    · exact Or.inr (Or.inl cached)
    · by_cases same : nonce = executed
      · exact Or.inr (Or.inr ⟨other, member, same ▸ below⟩)
      · exact Or.inl same
  · rintro (differs | cached | ⟨later, member, above⟩)
    · exact Or.inr ⟨executed, recorded, by grind⟩
    · exact Or.inl cached
    · exact Or.inr ⟨later, member, by grind⟩

def executedFive : List Action := [.recordTransactionExecution [1] [7] 5 1]

theorem executedFive_reports_four :
    isReplayTransaction (run step { config := {} } executedFive) [2] [7] 4 = true :=
  (executed_reported_iff {} executedFive ⟨trivial, trivial⟩ [7] 5 (by decide) [2] 4
    (by decide)).mpr (Or.inl (by decide))

theorem executedFive_misses_five :
    5 ∈ executedNonces [7] executedFive ∧
      isReplayTransaction (run step { config := {} } executedFive) [2] [7] 5 = false := by
  constructor <;> decide

end

end Savitri.ReplayPrevention
