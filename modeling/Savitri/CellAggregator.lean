import Savitri.HexCodec
import Savitri.LatticeTypes
import Savitri.Transition

/-!
The cell aggregator of lattice/aggregator.rs: raw cells wait in `pending`,
attestations collect under the self-declared signer name, and the quorum
crossing moves a cell to the `certified` table. Hash tables are kept as
ordered tables; the one place that walks a hash table (the attestation
vector of a certificate) sorts the result, so no iteration order leaks.
-/
namespace Savitri.CellAggregator
open Std LatticeTypes PairOrder QuorumThresholds

structure AggregatorConfig where
  groupSize : Nat := 5
  retentionRounds : Nat := 64
  maxAttestationsPerCell : Nat := 256
  deriving DecidableEq

inductive AggregatorError where
  | badCellSignature
  | badAttestationSignature
  | unknownCell (id : String)
  | attestationCapReached
  deriving DecidableEq

inductive AttestationOutcome where
  | pending (signerCount quorum : Nat)
  | certified (cert : CellCertificate)
  | alreadyCertified
  | rejected (error : AggregatorError)
  deriving DecidableEq

structure PendingCell where
  cell : LatticeCell
  attestations : ExtTreeMap String CellAttestation

structure LatticeAggregator where
  config : AggregatorConfig
  pending : ExtTreeMap CellId PendingCell
  certified : ExtTreeMap CellKey CellCertificate pairCompare
  highWaterRound : Nat

def new (config : AggregatorConfig) : LatticeAggregator :=
  { config, pending := ∅, certified := ∅, highWaterRound := 0 }

variable (agg : LatticeAggregator)

def setGroupSize (groupSize : Nat) : LatticeAggregator :=
  { agg with config := { agg.config with groupSize } }

def quorum : Nat := latticeQuorum agg.config.groupSize

variable (crypto : Crypto)

def observeCell (agg : LatticeAggregator) (cell : LatticeCell) :
    LatticeAggregator × Except AggregatorError CellId :=
  if cell.verifyAuthorSignature crypto then
    let cellId := cell.cellId crypto
    -- Every signed cell moves the high-water mark, also one that is dropped below.
    let agg := { agg with highWaterRound := max agg.highWaterRound cell.round }
    if agg.certified.contains cell.key then (agg, .ok cellId)
    else
      ({ agg with pending := agg.pending.insertIfNew cellId { cell, attestations := ∅ } },
        .ok cellId)
  else (agg, .error .badCellSignature)

def verifyAttestationAgainstCell (att : CellAttestation) (cell : LatticeCell) : Bool :=
  crypto.verify att.signerPubkey cell.signableBytes att.signature

def sortBySigner (attestations : ExtTreeMap String CellAttestation) : List CellAttestation :=
  (attestations.toList.map Prod.snd).insertionSort fun left right => left.signer ≤ right.signer

def observeAttestation (agg : LatticeAggregator) (cellId : CellId) (att : CellAttestation) :
    LatticeAggregator × AttestationOutcome :=
  match agg.pending[cellId]? with
  | none =>
    -- The table is keyed by `(round, author)`, so an id has to be searched for.
    if agg.certified.toList.any (fun entry => entry.2.cellId crypto == cellId) then
      (agg, .alreadyCertified)
    else (agg, .rejected (.unknownCell (HexCodec.encode cellId.toList)))
  | some waiting =>
    if verifyAttestationAgainstCell crypto att waiting.cell then
      if agg.config.maxAttestationsPerCell ≤ waiting.attestations.size ∧
          ¬ waiting.attestations.contains att.signer then
        (agg, .rejected .attestationCapReached)
      else
        -- The name is the attestation's own word: nothing ties it to the key that signed.
        let attestations := waiting.attestations.insert att.signer att
        let signerCount := attestations.size
        let quorum := latticeQuorum agg.config.groupSize
        if quorum ≤ signerCount then
          let cert : CellCertificate :=
            { cell := waiting.cell, attestations := sortBySigner attestations }
          -- Nothing asks whether the key is taken: an older certificate is replaced.
          ({ agg with
              pending := agg.pending.erase cellId
              certified := agg.certified.insert waiting.cell.key cert },
            .certified cert)
        else
          ({ agg with pending := agg.pending.insert cellId { waiting with attestations } },
            .pending signerCount quorum)
    else (agg, .rejected .badAttestationSignature)

/-- The cutoff saturates at zero, as `Nat` subtraction does. -/
def gcOldCells : LatticeAggregator × Nat :=
  let cutoff := agg.highWaterRound - agg.config.retentionRounds
  ({ agg with
      pending := agg.pending.filter fun _ waiting => cutoff ≤ waiting.cell.round
      certified := agg.certified.filter fun key _ => cutoff ≤ key.1 },
    agg.pending.toList.countP (fun entry => entry.2.cell.round < cutoff) +
      agg.certified.toList.countP (fun entry => entry.1.1 < cutoff))

/-! One aggregator behind its lock is a deterministic machine. Observations are
the two gossip inputs; the runtime adds garbage collection and group rotation. -/

inductive Observation where
  | cell (cell : LatticeCell)
  | attestation (cellId : CellId) (att : CellAttestation)
  deriving DecidableEq

inductive Reply where
  | cell (result : Except AggregatorError CellId)
  | attestation (outcome : AttestationOutcome)

def observe (agg : LatticeAggregator) : Observation → LatticeAggregator × Reply
  | .cell cell =>
    let result := observeCell crypto agg cell
    (result.1, .cell result.2)
  | .attestation cellId att =>
    let result := observeAttestation crypto agg cellId att
    (result.1, .attestation result.2)

inductive Call where
  | observe (observation : Observation)
  | gcOldCells
  | setGroupSize (groupSize : Nat)
  deriving DecidableEq

inductive Response where
  | reply (reply : Reply)
  | evicted (count : Nat)
  | done

def call (agg : LatticeAggregator) : Call → LatticeAggregator × Response
  | .observe observation =>
    let result := observe crypto agg observation
    (result.1, .reply result.2)
  | .gcOldCells =>
    let result := gcOldCells agg
    (result.1, .evicted result.2)
  | .setGroupSize groupSize => (setGroupSize agg groupSize, .done)

structure Joins (crypto : Crypto) (agg : LatticeAggregator) (cellId : CellId)
    (att : CellAttestation) (waiting : PendingCell) : Prop where
  present : agg.pending[cellId]? = some waiting
  verified : verifyAttestationAgainstCell crypto att waiting.cell = true
  admitted : waiting.attestations.size < agg.config.maxAttestationsPerCell ∨
    waiting.attestations.contains att.signer = true

variable (waiting : PendingCell)

def PendingCell.join (att : CellAttestation) : PendingCell :=
  { waiting with attestations := waiting.attestations.insert att.signer att }

def PendingCell.certificate : CellCertificate :=
  { cell := waiting.cell, attestations := sortBySigner waiting.attestations }

variable (crypto : Crypto) (agg : LatticeAggregator) (cellId : CellId) (att : CellAttestation)
  (cell : LatticeCell) (config : AggregatorConfig) (waiting : PendingCell)

theorem joins_iff (other : PendingCell) (present : agg.pending[cellId]? = some waiting) :
    Joins crypto agg cellId att other ↔
      other = waiting ∧ verifyAttestationAgainstCell crypto att waiting.cell = true ∧
        ¬ (agg.config.maxAttestationsPerCell ≤ waiting.attestations.size ∧
          ¬ waiting.attestations.contains att.signer = true) := by
  constructor
  · intro joins
    have same := Option.some.inj (joins.present.symm.trans present)
    subst other
    refine ⟨rfl, joins.verified, fun capped => ?_⟩
    rcases joins.admitted with below | known
    · omega
    · exact capped.2 known
  · rintro ⟨rfl, verified, room⟩
    refine ⟨present, verified, ?_⟩
    by_cases known : other.attestations.contains att.signer = true
    · exact Or.inr known
    · exact Or.inl (Nat.lt_of_not_le fun full => room ⟨full, known⟩)

theorem observeAttestation_cases :
    ((observeAttestation crypto agg cellId att).1 = agg ∧
      (∀ cert, (observeAttestation crypto agg cellId att).2 ≠ .certified cert) ∧
      ¬ ∃ waiting, Joins crypto agg cellId att waiting) ∨
    (∃ waiting, Joins crypto agg cellId att waiting ∧
      (waiting.join att).attestations.size < quorum agg ∧ observeAttestation crypto agg cellId att =
        ({ agg with pending := agg.pending.insert cellId (waiting.join att) },
          .pending (waiting.join att).attestations.size (quorum agg))) ∨
    (∃ waiting, Joins crypto agg cellId att waiting ∧
      quorum agg ≤ (waiting.join att).attestations.size ∧ observeAttestation crypto agg cellId att =
        ({ agg with
            pending := agg.pending.erase cellId
            certified := agg.certified.insert waiting.cell.key (waiting.join att).certificate },
          .certified (waiting.join att).certificate)) := by
  cases present : agg.pending[cellId]? with
  | none =>
    left
    have refused : ¬ ∃ waiting, Joins crypto agg cellId att waiting := by
      rintro ⟨waiting, joins⟩
      simp [joins.present] at present
    simp only [observeAttestation, present]
    split <;> simp [refused]
  | some waiting =>
    have accepts := fun other => joins_iff crypto agg cellId att waiting other present
    by_cases verified : verifyAttestationAgainstCell crypto att waiting.cell = true
    · by_cases capped : agg.config.maxAttestationsPerCell ≤ waiting.attestations.size ∧
          ¬ waiting.attestations.contains att.signer = true
      · left
        simp only [observeAttestation, present, verified, capped, ↓reduceIte]
        refine ⟨rfl, by simp, ?_⟩
        rintro ⟨other, joins⟩
        exact ((accepts other).mp joins).2.2 capped
      · have joins := (accepts waiting).mpr ⟨rfl, verified, capped⟩
        right
        by_cases reached : quorum agg ≤ (waiting.join att).attestations.size
        · right
          refine ⟨waiting, joins, reached, ?_⟩
          simp only [quorum, PendingCell.join] at reached
          simp only [observeAttestation, present, verified, capped, reached, ↓reduceIte,
            PendingCell.join, PendingCell.certificate]
        · left
          refine ⟨waiting, joins, by omega, ?_⟩
          simp only [quorum, PendingCell.join] at reached
          simp only [observeAttestation, present, verified, capped, reached, ↓reduceIte,
            PendingCell.join, quorum]
    · left
      simp only [observeAttestation, present, verified]
      refine ⟨rfl, by simp, ?_⟩
      rintro ⟨other, joins⟩
      exact verified ((accepts other).mp joins).2.1

theorem observeCell_cases :
    (cell.verifyAuthorSignature crypto = false ∧
      observeCell crypto agg cell = (agg, .error .badCellSignature)) ∨
    (cell.verifyAuthorSignature crypto = true ∧ agg.certified.contains cell.key = true ∧
      observeCell crypto agg cell = ({ agg with highWaterRound := max agg.highWaterRound cell.round },
          .ok (cell.cellId crypto))) ∨
    (cell.verifyAuthorSignature crypto = true ∧ agg.certified.contains cell.key = false ∧
      observeCell crypto agg cell = ({ agg with
            highWaterRound := max agg.highWaterRound cell.round
            pending := agg.pending.insertIfNew (cell.cellId crypto) { cell, attestations := ∅ } },
          .ok (cell.cellId crypto))) := by
  cases verified : cell.verifyAuthorSignature crypto with
  | false => simp [observeCell, verified]
  | true =>
    cases known : agg.certified.contains cell.key with
    | true | false => simp [observeCell, verified, known]

variable {crypto} {agg}

theorem observeCell_certified : (observeCell crypto agg cell).1.certified = agg.certified := by
  rcases observeCell_cases crypto agg cell with
    ⟨_, result⟩ | ⟨_, _, result⟩ | ⟨_, _, result⟩ <;> rw [result]

/-- What a waiting cell carries: its own id, its author's signature, and
verified attestations filed under the names they declare. -/
structure PendingCell.Valid (crypto : Crypto) (cellId : CellId) (waiting : PendingCell) :
    Prop where
  identified : waiting.cell.cellId crypto = cellId
  signed : waiting.cell.verifyAuthorSignature crypto = true
  named : ∀ name att, waiting.attestations[name]? = some att →
    att.signer = name ∧ verifyAttestationAgainstCell crypto att waiting.cell = true

structure Valid (crypto : Crypto) (agg : LatticeAggregator) : Prop where
  pending : ∀ (cellId : CellId) (waiting : PendingCell), agg.pending[cellId]? = some waiting →
    waiting.Valid crypto cellId ∧ waiting.cell.round ≤ agg.highWaterRound
  certified : ∀ (key : CellKey) (cert : CellCertificate), agg.certified[key]? = some cert →
    cert.cell.key = key ∧ key.1 ≤ agg.highWaterRound

theorem new_valid : Valid crypto (new config) := by
  constructor <;> simp [new]

theorem PendingCell.join_valid {crypto : Crypto} {agg : LatticeAggregator} {cellId : CellId}
    {att : CellAttestation} {waiting : PendingCell}
    (joins : Joins crypto agg cellId att waiting) (valid : waiting.Valid crypto cellId) :
    (waiting.join att).Valid crypto cellId := by
  refine ⟨valid.identified, valid.signed, ?_⟩
  intro name other found
  simp only [PendingCell.join, ExtTreeMap.getElem?_insert, LawfulEqCmp.compare_eq_iff_eq] at found
  split at found
  · rename_i same
    cases found
    exact ⟨same, joins.verified⟩
  · exact valid.named name other found

theorem observeCell_valid (valid : Valid crypto agg) :
    Valid crypto (observeCell crypto agg cell).1 := by
  have raised : ∀ round, round ≤ agg.highWaterRound →
      round ≤ max agg.highWaterRound cell.round := fun _ bound => le_max_of_le_left bound
  rcases observeCell_cases crypto agg cell with
    ⟨_, result⟩ | ⟨_, _, result⟩ | ⟨verified, _, result⟩
  · rw [result]
    exact valid
  · rw [result]
    constructor
    · intro cellId waiting found
      have old := valid.pending cellId waiting found
      exact ⟨old.1, raised _ old.2⟩
    · intro key cert found
      have old := valid.certified key cert found
      exact ⟨old.1, raised _ old.2⟩
  · rw [result]
    constructor
    · intro cellId waiting found
      simp only [ExtTreeMap.getElem?_insertIfNew, LawfulEqCmp.compare_eq_iff_eq] at found
      split at found
      · rename_i fresh
        cases found
        exact ⟨⟨fresh.1, verified, by simp⟩, le_max_right _ _⟩
      · have old := valid.pending cellId waiting found
        exact ⟨old.1, raised _ old.2⟩
    · intro key cert found
      have old := valid.certified key cert found
      exact ⟨old.1, raised _ old.2⟩

theorem observeAttestation_valid (valid : Valid crypto agg) :
    Valid crypto (observeAttestation crypto agg cellId att).1 := by
  rcases observeAttestation_cases crypto agg cellId att with
    ⟨same, _⟩ | ⟨waiting, joins, _, result⟩ | ⟨waiting, joins, _, result⟩
  · rw [same]
    exact valid
  · have old := valid.pending cellId waiting joins.present
    rw [result]
    refine ⟨?_, valid.certified⟩
    intro other entry found
    simp only [ExtTreeMap.getElem?_insert, LawfulEqCmp.compare_eq_iff_eq] at found
    split at found
    · rename_i same
      cases found
      rw [← same]
      exact ⟨PendingCell.join_valid joins old.1, old.2⟩
    · exact valid.pending other entry found
  · have old := valid.pending cellId waiting joins.present
    rw [result]
    constructor
    · intro other entry found
      simp only [ExtTreeMap.getElem?_erase, LawfulEqCmp.compare_eq_iff_eq] at found
      split at found
      · cases found
      · exact valid.pending other entry found
    · intro key cert found
      simp only [ExtTreeMap.getElem?_insert, LawfulEqCmp.compare_eq_iff_eq] at found
      split at found
      · rename_i same
        cases found
        rw [← same]
        exact ⟨rfl, old.2⟩
      · exact valid.certified key cert found

theorem gcOldCells_pending_iff :
    (gcOldCells agg).1.pending[cellId]? = some waiting ↔
      agg.pending[cellId]? = some waiting ∧
        agg.highWaterRound - agg.config.retentionRounds ≤ waiting.cell.round := by
  simp [gcOldCells]

theorem gcOldCells_certified_iff {key : CellKey} {cert : CellCertificate} :
    (gcOldCells agg).1.certified[key]? = some cert ↔
      agg.certified[key]? = some cert ∧
        agg.highWaterRound - agg.config.retentionRounds ≤ key.1 := by
  simp [gcOldCells]

theorem gcOldCells_valid (valid : Valid crypto agg) : Valid crypto (gcOldCells agg).1 := by
  constructor
  · intro cellId waiting found
    exact valid.pending cellId waiting ((gcOldCells_pending_iff cellId waiting).mp found).1
  · intro key cert found
    exact valid.certified key cert (gcOldCells_certified_iff.mp found).1

variable (agg)

theorem observe_valid (observation : Observation) (valid : Valid crypto agg) :
    Valid crypto (observe crypto agg observation).1 := by
  cases observation with
  | cell cell => exact observeCell_valid cell valid
  | attestation cellId att => exact observeAttestation_valid cellId att valid

theorem call_valid (input : Call) (valid : Valid crypto agg) :
    Valid crypto (call crypto agg input).1 := by
  cases input with
  | observe observation => exact observe_valid agg observation valid
  | gcOldCells => exact gcOldCells_valid valid
  | setGroupSize groupSize => exact ⟨valid.pending, valid.certified⟩

variable (crypto)

theorem run_call_valid (calls : List Call) :
    Valid crypto (Transition.run (call crypto) (new config) calls) :=
  Transition.run_invariant (call crypto) (Valid crypto) call_valid
    (new config) calls (new_valid config)

theorem run_observe_valid (observations : List Observation) (valid : Valid crypto agg) :
    Valid crypto (Transition.run (observe crypto) agg observations) :=
  Transition.run_invariant (observe crypto) (Valid crypto) observe_valid
    agg observations valid

def attestCall (cell : LatticeCell) (signer : String) (key : UInt8) : Call :=
  .observe (.attestation (cell.cellId sampleCrypto) (sampleAttestation signer key cell))

def soloConfig : AggregatorConfig := { groupSize := 1 }

def soloCertify (cells : List LatticeCell) : List Call :=
  cells.flatMap fun cell => [.observe (.cell cell), attestCall cell "bob" 2]

end Savitri.CellAggregator
