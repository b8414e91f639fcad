import Savitri.ReplayPrevention

/-!
The transactions of mempool/types.rs, the limits of mempool/nonce_limits.rs and the
store of transaction bytes of mempool/prevalidation.rs. Sender ids and handles are
numbers, instants are nanoseconds; `duration_since` saturates, as subtraction of `Nat`
does. Fields of `MempoolTx` that no function here reads (signature hash, gas limit,
second fee, second time stamp) are left out.
-/
namespace Savitri.MempoolTypes
open BlockExecution AccountReads ReplayPrevention

abbrev SenderId := Nat
abbrev TxHandle := Nat
abbrev Instant := Nat

def seconds (count : Nat) : Nat := count * 1000000000

inductive TxClass where
  | financial
  | ioTData
  | federatedUpdate
  | system
  deriving DecidableEq

def TxClass.all : List TxClass := [.financial, .ioTData, .federatedUpdate, .system]

theorem TxClass.mem_all (txClass : TxClass) : txClass ∈ TxClass.all := by
  cases txClass <;> decide

structure PrevalidatedTx where
  senderId : SenderId
  senderAddress : Address
  nonce : UInt64
  maxFee : UInt64
  amount : UInt64
  txHandle : TxHandle
  txClass : TxClass := .financial
  streamNonce : Option UInt64 := none
  deriving DecidableEq

structure MempoolTx where
  senderId : SenderId
  nonce : UInt64
  fee : UInt64
  txHandle : TxHandle
  txClass : TxClass
  streamNonce : Option UInt64
  inserted : Instant
  txHash : Option TxHash
  senderAddress : Address
  rpcAccepted : Bool
  deriving DecidableEq

/-- `MempoolTx::from`, with the hash and the source that the caller fills in. -/
def MempoolTx.ofPrevalidated (pv : PrevalidatedTx) (now : Instant) (txHash : Option TxHash)
    (fromRpc : Bool) : MempoolTx :=
  { senderId := pv.senderId
    nonce := pv.nonce
    fee := pv.maxFee
    txHandle := pv.txHandle
    txClass := pv.txClass
    streamNonce := pv.streamNonce
    inserted := now
    txHash
    senderAddress := pv.senderAddress
    rpcAccepted := fromRpc }

def queuedPoolMaxNonceGap : UInt64 := 3000
def admissionMaxMainPoolNonceGap : UInt64 := 3000
def admissionMaxMainPoolNonceGapRpc : UInt64 := 100000

/-- What an operation sees besides the mempool: the clock, the storage handle of the
admission control, and the replay cache with its own storage. -/
structure Env where
  now : Instant
  storage : Option Storage := none
  replayPrevention : Option (ReplayPrevention.State × Storage) := none

section
/-- Transaction bytes by handle, and the handle of each hash seen. -/
structure TxStorage where
  storage : List (List UInt8) := []
  hashToHandle : TxHash → Option TxHandle := fun _ => none

variable (hashSignedTxBytes : List UInt8 → TxHash)

def TxStorage.store (store : TxStorage) (bytes : List UInt8) : TxStorage × TxHandle × Bool :=
  match store.hashToHandle (hashSignedTxBytes bytes) with
  | some handle => (store, handle, true)
  | none =>
    let handle := store.storage.length
    ({ storage := store.storage ++ [bytes]
       hashToHandle := Function.update store.hashToHandle (hashSignedTxBytes bytes) (some handle) },
      handle, false)

def TxStorage.get (store : TxStorage) (handle : TxHandle) : Option (List UInt8) :=
  store.storage[handle]?

end

end Savitri.MempoolTypes
