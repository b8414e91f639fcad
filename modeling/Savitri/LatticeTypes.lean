import Savitri.PairOrder
import Savitri.QuorumThresholds

/-!
Cells, attestations, certificates and cycles of types/lattice.rs. Rounds and
cycle indices are `u64` values kept as `Nat`; the operations that can reach
the bound say so where they do. Blake3 and Ed25519 live outside the
repository and enter as the two fields of `Crypto`. A key that does not parse
verifies nothing, so parsing is part of `verify`.
-/
namespace Savitri.LatticeTypes
open PairOrder

abbrev CellId := Vector UInt8 32
abbrev BatchRoot := Vector UInt8 32
abbrev PublicKey := Vector UInt8 32
abbrev Signature := Vector UInt8 64

instance cellIdTransOrd : Std.TransOrd CellId := inferInstance

abbrev CellKey := Nat × String

theorem pairCompare_key_lt {left right : CellKey} :
    pairCompare left right = .lt ↔ Prod.Lex (· < ·) (· < ·) left right := by
  rw [Prod.lex_def]
  simp [pairCompare, compareLex, compareOn, Ordering.then_eq_lt, compare_lt_iff_lt]

structure Crypto where
  blake3 : List UInt8 → CellId
  verify : PublicKey → List UInt8 → Signature → Bool

def toLeBytes (width value : Nat) : List UInt8 :=
  (List.range width).map fun index => UInt8.ofNat (value / 256 ^ index)

variable {width : Nat}

@[simp] theorem length_toLeBytes {value : Nat} : (toLeBytes width value).length = width := by
  simp [toLeBytes]

/-- The bytes of a value are its digits to the base 256, as many as there are bytes. -/
theorem toLeBytes_injective {left right : Nat}
    (same : toLeBytes width left = toLeBytes width right) :
    left % 256 ^ width = right % 256 ^ width := by
  induction width with
  | zero => simp [Nat.mod_one]
  | succ width ih =>
    simp only [toLeBytes, List.range_succ, List.map_append] at same
    have parts := List.append_inj same (by simp)
    have last : left / 256 ^ width % 256 = right / 256 ^ width % 256 := by
      have byte := congrArg UInt8.toNat (List.singleton_inj.mp parts.2)
      simpa using byte
    rw [Nat.mod_pow_succ, Nat.mod_pow_succ, ih parts.1, last]

structure LatticeCell where
  round : Nat
  groupId : String
  author : String
  authorPubkey : PublicKey
  parents : List CellId
  batchRoot : BatchRoot
  authorSignature : Signature
  deriving DecidableEq

def LatticeCell.key (cell : LatticeCell) : CellKey := (cell.round, cell.author)

/-- The separators are plain bytes and neither string is length-prefixed, so
a `|` inside `groupId` or `author` is not told apart from a separator. -/
def LatticeCell.signableBytes (cell : LatticeCell) : List UInt8 :=
  "savitri-lattice-cell-v1|".toUTF8.toList ++ toLeBytes 8 cell.round ++
    124 :: cell.groupId.toUTF8.toList ++
    124 :: cell.author.toUTF8.toList ++
    124 :: cell.authorPubkey.toList ++
    124 :: cell.parents.flatMap (·.toList) ++
    124 :: cell.batchRoot.toList

def LatticeCell.cellId (crypto : Crypto) (cell : LatticeCell) : CellId :=
  crypto.blake3 cell.signableBytes

def LatticeCell.verifyAuthorSignature (crypto : Crypto) (cell : LatticeCell) : Bool :=
  crypto.verify cell.authorPubkey cell.signableBytes cell.authorSignature

structure CellAttestation where
  signer : String
  signerPubkey : PublicKey
  signature : Signature
  deriving DecidableEq

structure CellCertificate where
  cell : LatticeCell
  attestations : List CellAttestation
  deriving DecidableEq

def CellCertificate.cellId (crypto : Crypto) (cert : CellCertificate) : CellId :=
  cert.cell.cellId crypto

structure Cycle where
  index : Nat
  groupId : String
  pivot : String
  pivotCell : CellId
  committedCells : List CellId
  deriving DecidableEq

/-! A small instance of `Crypto` on which runs can be evaluated. The digest is
a rolling checksum and a signature repeats the digest of key and message, so
messages and signers stay apart on the inputs it is used with. -/
def sampleDigest (bytes : List UInt8) : UInt8 :=
  UInt8.ofNat (bytes.foldl (fun digest byte => (31 * digest + byte.toNat) % 251) 1)

def sampleSign (key : PublicKey) (message : List UInt8) : Signature :=
  Vector.replicate 64 (sampleDigest (key.toList ++ message))

def sampleCrypto : Crypto where
  blake3 bytes := Vector.replicate 32 (sampleDigest bytes)
  verify key message signature := signature[0] == sampleDigest (key.toList ++ message)

def sampleKey (byte : UInt8) : PublicKey := Vector.replicate 32 byte

def LatticeCell.signedBySample (cell : LatticeCell) : LatticeCell :=
  { cell with authorSignature := sampleSign cell.authorPubkey cell.signableBytes }

def sampleCell (round : Nat) (author : String) (parents : List CellId)
    (batch : UInt8) : LatticeCell :=
  LatticeCell.signedBySample
    { round, groupId := "group_1_0_1", author, authorPubkey := sampleKey 1, parents,
      batchRoot := Vector.replicate 32 batch, authorSignature := Vector.replicate 64 0 }

def sampleAttestation (signer : String) (key : UInt8) (cell : LatticeCell) : CellAttestation :=
  { signer, signerPubkey := sampleKey key,
    signature := sampleSign (sampleKey key) cell.signableBytes }

end Savitri.LatticeTypes
