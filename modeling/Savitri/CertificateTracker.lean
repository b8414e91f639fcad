import Savitri.ConflictKeys
import Savitri.PairOrder
import Savitri.Reordering
import Savitri.SecondaryIndex

/-!
The blocks that wait for a certificate, p2p/certificate.rs: a table by block hash
and two indexes into it, by height and group and by height, group and transactions
root. Registering a block first evicts what timed out and, above the capacity, the
oldest blocks; a block leaves by its hash or through an index.
-/
namespace Savitri.CertificateTracker
open Std Reordering PairOrder SecondaryIndex

abbrev BlockHash := Vector UInt8 64
abbrev TxRoot := Vector UInt8 32

/-- A reading of the monotonic clock, in nanoseconds. -/
abbrev Instant := Nat

/-- Of the block only the root of its transactions is read; the rest of it and the signed
transactions are carried along. -/
structure PendingBlockData (Body : Type) where
  txRoot : TxRoot
  body : Body

structure CertificatePendingEntry (Body : Type) where
  pendingData : PendingBlockData Body
  height : UInt64
  createdAt : Instant
  sourcePeer : String

instance ordGroupRoot : Ord (String × TxRoot) := ⟨pairCompare⟩

instance transGroupRoot : TransOrd (String × TxRoot) :=
  inferInstanceAs (TransCmp (@pairCompare String TxRoot _ _))

instance lawfulGroupRoot : LawfulEqOrd (String × TxRoot) :=
  inferInstanceAs (LawfulEqCmp (@pairCompare String TxRoot _ _))

/-- The height, group and transactions root that a block is registered under. -/
abbrev Origin := UInt64 × String × TxRoot

structure CertificatePendingBlocks (Body : Type) where
  entries : ExtTreeMap BlockHash (CertificatePendingEntry Body) := ∅
  byHeightGroup : ExtTreeMap (UInt64 × String) BlockHash pairCompare := ∅
  byHeightGroupTxRoot : ExtTreeMap Origin BlockHash pairCompare := ∅
  committed : ExtTreeMap BlockHash Instant := ∅
  evictionCallback : Bool := false

def maxPendingBlocks : Nat := 100000

def pendingBlockTimeout : Nat := 900 * 10 ^ 9

variable {Body : Type}

/-- What a registration reads from outside: the clock when it evicts and when it registers, and
the order in which the table of entries is walked. -/
structure Moment (Body : Type) where
  evictedAt : Instant
  registeredAt : Instant
  order : Shuffle (BlockHash × CertificatePendingEntry Body)

namespace CertificatePendingBlocks

def forget (tracker : CertificatePendingBlocks Body) (hash : BlockHash) :
    CertificatePendingBlocks Body :=
  { tracker with
    entries := tracker.entries.erase hash
    byHeightGroup := SecondaryIndex.forget tracker.byHeightGroup hash
    byHeightGroupTxRoot := SecondaryIndex.forget tracker.byHeightGroupTxRoot hash }

variable (tracker : CertificatePendingBlocks Body) (moment : Moment Body)

def timedOut : List BlockHash :=
  ((moment.order.order tracker.entries.toList).filter fun entry =>
    pendingBlockTimeout < moment.evictedAt - entry.2.createdAt).map Prod.fst

variable (hash : BlockHash)

def evictTimedOut : CertificatePendingBlocks Body :=
  if hash ∈ tracker.entries then tracker.forget hash else tracker

/-- The hashes of the oldest entries above the capacity. -/
def surplus : List BlockHash :=
  (((moment.order.order tracker.entries.toList).insertionSort fun first second =>
    first.2.createdAt ≤ second.2.createdAt).take
      (tracker.entries.size - maxPendingBlocks)).map Prod.fst

/-- The tracker without its stale entries, and the hashes that the callback is told of: the
timed-out ones, not those above the capacity. -/
def evictStaleEntries : CertificatePendingBlocks Body × List BlockHash :=
  let timedOut := tracker.timedOut moment
  let fresh := timedOut.foldl evictTimedOut tracker
  let notified := if tracker.evictionCallback then timedOut else []
  if maxPendingBlocks < fresh.entries.size then
    ((fresh.surplus moment).foldl CertificatePendingBlocks.forget fresh, notified)
  else (fresh, notified)

def insert (tracker : CertificatePendingBlocks Body) (hash : BlockHash) (groupId : String)
    (entry : CertificatePendingEntry Body) : CertificatePendingBlocks Body :=
  { tracker with
    entries := tracker.entries.insert hash entry
    byHeightGroup := tracker.byHeightGroup.insert (entry.height, groupId) hash
    byHeightGroupTxRoot :=
      tracker.byHeightGroupTxRoot.insert (entry.height, groupId, entry.pendingData.txRoot) hash }

def admits : Bool := hash ∉ tracker.committed && hash ∉ tracker.entries

variable (height : UInt64) (groupId : String) (pendingData : PendingBlockData Body)

def registerPendingWithGroup (sourcePeer : String) (moment : Moment Body) :
    CertificatePendingBlocks Body × List BlockHash :=
  let evicted := tracker.evictStaleEntries moment
  if evicted.1.admits hash then
    (evicted.1.insert hash groupId
      { pendingData, height, createdAt := moment.registeredAt, sourcePeer }, evicted.2)
  else evicted

def registerPending (sourcePeer : String) (moment : Moment Body) :
    CertificatePendingBlocks Body × List BlockHash :=
  tracker.registerPendingWithGroup hash height "" pendingData sourcePeer moment

def takePending : CertificatePendingBlocks Body × Option (CertificatePendingEntry Body) :=
  match tracker.entries[hash]? with
  | some entry => (tracker.forget hash, some entry)
  | none => (tracker, none)

def takePendingByHeightGroupTxRoot (txRoot : TxRoot) :
    CertificatePendingBlocks Body × Option (CertificatePendingEntry Body) :=
  match tracker.byHeightGroupTxRoot[(height, groupId, txRoot)]? with
  | none => (tracker, none)
  | some hash =>
    let unlisted := { tracker with
      byHeightGroupTxRoot := tracker.byHeightGroupTxRoot.erase (height, groupId, txRoot) }
    match tracker.entries[hash]? with
    | some entry => (unlisted.forget hash, some entry)
    | none => (unlisted, none)

/-- One lookup by height and group: the key goes, and with it the block, here without a scan of
the index the key stood in. -/
def takeByHeightGroup (hash : BlockHash) :
    CertificatePendingBlocks Body × Option (CertificatePendingEntry Body) :=
  let unlisted := { tracker with
    byHeightGroup := tracker.byHeightGroup.erase (height, groupId) }
  match tracker.entries[hash]? with
  | some entry =>
    ({ unlisted with
        entries := tracker.entries.erase hash
        byHeightGroupTxRoot := SecondaryIndex.forget tracker.byHeightGroupTxRoot hash },
      some entry)
  | none => (unlisted, none)

def takePendingByHeightGroup : CertificatePendingBlocks Body × Option (CertificatePendingEntry Body) :=
  match tracker.byHeightGroup[(height, groupId)]? with
  | none => (tracker, none)
  | some hash =>
    let taken := tracker.takeByHeightGroup height groupId hash
    match taken.2 with
    | some entry => (taken.1, some entry)
    | none =>
      -- a key without its block falls back on the registrations without a group
      match taken.1.byHeightGroup[(height, "")]? with
      | some legacyHash => taken.1.takeByHeightGroup height "" legacyHash
      | none => (taken.1, none)

/-- The clock is read for the new entry, and again for each one whose age is asked. -/
def markCommitted (now : Instant) (askedAt : BlockHash → Instant) : CertificatePendingBlocks Body :=
  let committed := tracker.committed.insert hash now
  if 1000 < committed.size then
    { tracker with
      committed := committed.filter fun other time => askedAt other - time ≤ 300 * 10 ^ 9 }
  else { tracker with committed }

end CertificatePendingBlocks

inductive Call (Body : Type) where
  | registerPendingWithGroup (hash : BlockHash) (height : UInt64) (groupId : String)
      (pendingData : PendingBlockData Body) (sourcePeer : String) (moment : Moment Body)
  | takePending (hash : BlockHash)
  | takePendingByHeightGroupTxRoot (height : UInt64) (groupId : String) (txRoot : TxRoot)
  | takePendingByHeightGroup (height : UInt64) (groupId : String)
  | markCommitted (hash : BlockHash) (now : Instant) (askedAt : BlockHash → Instant)
  | setEvictionCallback

inductive Reply (Body : Type) where
  | registered (notified : List BlockHash)
  | taken (entry : Option (CertificatePendingEntry Body))
  | done

def step (tracker : CertificatePendingBlocks Body) :
    Call Body → CertificatePendingBlocks Body × Reply Body
  | .registerPendingWithGroup hash height groupId pendingData sourcePeer moment =>
    let after := tracker.registerPendingWithGroup hash height groupId pendingData sourcePeer moment
    (after.1, .registered after.2)
  | .takePending hash =>
    let after := tracker.takePending hash
    (after.1, .taken after.2)
  | .takePendingByHeightGroupTxRoot height groupId txRoot =>
    let after := tracker.takePendingByHeightGroupTxRoot height groupId txRoot
    (after.1, .taken after.2)
  | .takePendingByHeightGroup height groupId =>
    let after := tracker.takePendingByHeightGroup height groupId
    (after.1, .taken after.2)
  | .markCommitted hash now askedAt => (tracker.markCommitted hash now askedAt, .done)
  | .setEvictionCallback => ({ tracker with evictionCallback := true }, .done)

end Savitri.CertificateTracker
