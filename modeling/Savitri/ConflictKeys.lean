import Savitri.BlockExecution

/-!
The data of p2p/conflict_keys.rs: conflict keys and their extraction, the
status of a block, nonce cursors, and the order by which a conflict set picks
its winner. Heights, ranks and scores are kept as `Nat`. The hash of a
serialised transaction enters as a function.
-/
namespace Savitri.ConflictKeys
open Std BlockExecution

abbrev BlockHash := Vector UInt8 64

instance blockHashTransOrd : TransOrd BlockHash := inferInstance
instance blockHashLawfulEqOrd : LawfulEqOrd BlockHash := inferInstance

inductive ConflictKey where
  | txHash (hash : Vector UInt8 32)
  | accountNonce (sender : Vector UInt8 32) (nonce : UInt64)
  | storageSlot (contract slot : Vector UInt8 32)
  | resource (account : Vector UInt8 32) (resourceType : UInt16)
  deriving DecidableEq

inductive BlockStatus where
  | pending
  | accepted
  | conflicting
  | resolvedWinner
  | resolvedLoser
  | committed
  | rejected
  | deferred
  deriving DecidableEq

def BlockStatus.closed : BlockStatus → Bool
  | .committed | .rejected | .resolvedLoser => true
  | _ => false

structure ConflictSet where
  id : Nat
  key : ConflictKey
  members : List BlockHash
  resolved : Bool := false
  winner : Option BlockHash := none

/-- The fields of an executed block that the scheduler reads. -/
structure ExecutedBlockMeta where
  blockHash : BlockHash
  height : Nat
  status : BlockStatus := .pending
  conflictKeys : List ConflictKey
  stateDiff : Accounts
  topoRank : Nat
  pouScore : Nat
  signedTxs : List SignedTx

/-- The `White_Space` property of Unicode, which `str::trim` goes by. -/
def isWhitespace (c : Char) : Bool :=
  let code := c.toNat
  (9 ≤ code && code ≤ 13) || code == 32 || code == 0x85 || code == 0xa0 || code == 0x1680 ||
    (0x2000 ≤ code && code ≤ 0x200a) || code == 0x2028 || code == 0x2029 || code == 0x202f ||
    code == 0x205f || code == 0x3000

def trim (text : String) : String :=
  String.ofList ((text.toList.dropWhile isWhitespace).reverse.dropWhile isWhitespace).reverse

def normalizeAddressBytes (address : String) : Address :=
  let trimmed := trim address
  let noPrefix := match trimmed.toList with
    | '0' :: 'x' :: rest => String.ofList rest
    | '0' :: 'X' :: rest => String.ofList rest
    | _ => trimmed
  match HexCodec.decode noPrefix with
  | .ok bytes => bytes
  | .error _ => trimmed.toUTF8.toList

def padded (bytes : List UInt8) : Vector UInt8 32 := Vector.ofFn fun index => bytes.getD index.val 0

def extractConflictKeys (txHash : SignedTx → Vector UInt8 32) (txs : List SignedTx) :
    List ConflictKey :=
  txs.flatMap fun tx =>
    -- A sender that does not decode is keyed as the zero address.
    let sender := match HexCodec.decode tx.sender with
      | .ok bytes => bytes
      | .error _ => []
    [.txHash (txHash tx), .accountNonce (padded sender) tx.nonce]

abbrev Cursors := ExtTreeMap Address UInt64

inductive TxCommitCheck where
  | ok
  | deferred
  | reject
  deriving DecidableEq

def advance (cursors : Cursors) (account : Address) (newNonce : UInt64) : Cursors :=
  let entry := (cursors[account]?).getD 0
  cursors.insert account (if entry < newNonce then newNonce else entry)

def expectedNonce (storage : Accounts) (cursors : Cursors) (account : Address) : UInt64 :=
  (cursors[account]?).getD (((storage[account]?).map Account.nonce).getD 0)

def checkTxNonce (storage : Accounts) (cursors : Cursors) (sender : Address)
    (nonce : UInt64) : TxCommitCheck :=
  let expected := expectedNonce storage cursors sender
  if nonce = expected then .ok
  else if expected < nonce then .deferred
  else .reject

structure BlockMeta where
  blockHash : BlockHash
  topoRank : Nat
  pouScore : Nat
  height : Nat

def compareMeta : BlockMeta → BlockMeta → Ordering :=
  compareLex (compareOn BlockMeta.topoRank)
    (compareLex (fun left right => compareOn BlockMeta.pouScore right left)
      (compareLex (compareOn BlockMeta.height) (compareOn BlockMeta.blockHash)))

instance : TransCmp compareMeta := by
  unfold compareMeta
  infer_instance

/-- `min_by`: the first of the smallest. -/
def chooseWinner : List BlockMeta → Option BlockHash
  | [] => none
  | first :: rest =>
    let best := rest.foldl (fun best candidate =>
      if compareMeta best candidate = .gt then candidate else best) first
    some best.blockHash

end Savitri.ConflictKeys
