import Savitri.CellAggregator

/-!
Arrival orders of one set of cells and attestations. What an aggregator holds
after a prefix of an order is a function of the prefix: the first cell seen
under an id owns it, its signers are the names of the attestations that verify
over it, and it is certified as soon as they fill the quorum. Two orders can
only differ in which cell owns an id.
-/
namespace Savitri.CellConfluence
open Std LatticeTypes QuorumThresholds CellAggregator Transition
variable {config : AggregatorConfig} {att : CellAttestation} {otherId cellId : CellId}
  {crypto : Crypto} {agg : LatticeAggregator} {cell : LatticeCell}
  {order front messages : List Observation}

/-- The attestation names the cell's id and verifies over its bytes. -/
def Attests (crypto : Crypto) (cellId : CellId) (att : CellAttestation) (cell : LatticeCell) : Prop :=
  cell.cellId crypto = cellId ∧ verifyAttestationAgainstCell crypto att cell = true

instance (crypto : Crypto) (cellId : CellId) (att : CellAttestation) (cell : LatticeCell) :
    Decidable (Attests crypto cellId att cell) :=
  inferInstanceAs (Decidable (_ ∧ _))

def signerOf (crypto : Crypto) (cell : LatticeCell) : Observation → Option String
  | .cell _ => none
  | .attestation cellId att => if Attests crypto cellId att cell then some att.signer else none

def signers (crypto : Crypto) (messages : List Observation) (cell : LatticeCell) : Finset String :=
  (messages.filterMap (signerOf crypto cell)).toFinset

/-- The first attestation is needed even where the quorum is zero. -/
def needed (config : AggregatorConfig) : Nat := max 1 (latticeQuorum config.groupSize)

/-- Enough names attest the cell, and the cap admits attestations at all. -/
def Supported (crypto : Crypto) (config : AggregatorConfig) (messages : List Observation)
    (cell : LatticeCell) : Prop :=
  0 < config.maxAttestationsPerCell ∧ needed config ≤ (signers crypto messages cell).card

def cellWithId (crypto : Crypto) (cellId : CellId) : Observation → Option LatticeCell
  | .cell cell => if cell.cellId crypto = cellId then some cell else none
  | .attestation _ _ => none

def firstCell (crypto : Crypto) (messages : List Observation) (cellId : CellId) : Option LatticeCell :=
  messages.findSome? (cellWithId crypto cellId)

def Holds (agg : LatticeAggregator) (cell : LatticeCell) : Prop :=
  ∃ (key : CellKey) (cert : CellCertificate), agg.certified[key]? = some cert ∧ cert.cell = cell

def announces (cell : LatticeCell) : Reply → Bool
  | .attestation (.certified cert) => cert.cell == cell
  | _ => false

def certifiedOutcomes (crypto : Crypto) (config : AggregatorConfig)
    (order : List Observation) (cell : LatticeCell) : Nat :=
  (outputs (observe crypto) (new config) order).countP (announces cell)

/-- Validly signed cells with pairwise distinct `(round, author)`, and
attestations that verify over a cell of the set. -/
structure MessageSet (crypto : Crypto) (messages : List Observation) : Prop where
  signed : ∀ cell, .cell cell ∈ messages → cell.verifyAuthorSignature crypto = true
  attested : ∀ cellId att, .attestation cellId att ∈ messages →
    ∃ cell, .cell cell ∈ messages ∧ Attests crypto cellId att cell
  distinct : ∀ first second, .cell first ∈ messages → .cell second ∈ messages →
    first.key = second.key → first = second

/-- The same messages, repetitions allowed, each attestation after its cell. -/
structure ArrivalOrder (crypto : Crypto) (messages order : List Observation) : Prop where
  same : ∀ message, message ∈ order ↔ message ∈ messages
  preceded : ∀ front cellId att back, order = front ++ .attestation cellId att :: back →
    ∃ cell, .cell cell ∈ front ∧ Attests crypto cellId att cell

/-- All arrival orders certify the same cells, each with one `Certified` outcome. -/
def Confluent (crypto : Crypto) (config : AggregatorConfig) (messages : List Observation) : Prop :=
  ∀ first second, ArrivalOrder crypto messages first → ArrivalOrder crypto messages second →
    (∀ cell, Holds (run (observe crypto) (new config) first) cell ↔
      Holds (run (observe crypto) (new config) second) cell) ∧
    ∀ cell, Holds (run (observe crypto) (new config) first) cell →
      certifiedOutcomes crypto config first cell = 1

variable {message : Observation}

section Prefixes
variable {name : String}

theorem mem_signers :
    name ∈ signers crypto messages cell ↔
      ∃ cellId att, .attestation cellId att ∈ messages ∧ Attests crypto cellId att cell ∧
        att.signer = name := by
  simp only [signers, List.mem_toFinset, List.mem_filterMap]
  constructor
  · rintro ⟨message, member, signed⟩
    cases message with
    | cell other => simp [signerOf] at signed
    | attestation cellId att =>
      simp only [signerOf, Option.ite_none_right_eq_some, Option.some.injEq] at signed
      exact ⟨cellId, att, member, signed⟩
  · rintro ⟨cellId, att, member, signed⟩
    exact ⟨.attestation cellId att, member, by simp [signerOf, signed]⟩

theorem signers_concat_cell {other : LatticeCell} :
    signers crypto (front ++ [.cell cell]) other = signers crypto front other := by
  ext name
  simp [mem_signers]

theorem signers_concat_attestation :
    name ∈ signers crypto (front ++ [.attestation cellId att]) cell ↔
      name ∈ signers crypto front cell ∨ Attests crypto cellId att cell ∧ att.signer = name := by
  simp only [mem_signers, List.mem_append, List.mem_singleton, Observation.attestation.injEq]
  constructor
  · rintro ⟨otherId, other, member | ⟨rfl, rfl⟩, attests⟩
    · exact Or.inl ⟨otherId, other, member, attests⟩
    · exact Or.inr attests
  · rintro (⟨otherId, other, member, attests⟩ | attests)
    · exact ⟨otherId, other, Or.inl member, attests⟩
    · exact ⟨cellId, att, Or.inr ⟨rfl, rfl⟩, attests⟩

theorem signers_concat_foreign (foreign : ¬ Attests crypto cellId att cell) :
    signers crypto (front ++ [.attestation cellId att]) cell = signers crypto front cell := by
  ext name
  simp [signers_concat_attestation, foreign]

theorem supported_mono {fewer more : List Observation} (within : ∀ message ∈ fewer, message ∈ more)
    (supported : Supported crypto config fewer cell) : Supported crypto config more cell := by
  refine ⟨supported.1, supported.2.trans (Finset.card_le_card ?_)⟩
  intro name member
  rw [mem_signers] at member ⊢
  obtain ⟨cellId, att, inside, attests⟩ := member
  exact ⟨cellId, att, within _ inside, attests⟩

theorem firstCell_some (first : firstCell crypto messages cellId = some cell) :
    .cell cell ∈ messages ∧ cell.cellId crypto = cellId := by
  obtain ⟨message, member, matched⟩ := List.exists_of_findSome?_eq_some first
  cases message with
  | attestation otherId att => simp [cellWithId] at matched
  | cell other =>
    simp only [cellWithId, Option.ite_none_right_eq_some, Option.some.injEq] at matched
    obtain ⟨identified, rfl⟩ := matched
    exact ⟨member, identified⟩

theorem firstCell_isSome (member : .cell cell ∈ messages) :
    (firstCell crypto messages (cell.cellId crypto)).isSome = true := by
  rw [firstCell, List.findSome?_isSome_iff]
  exact ⟨.cell cell, member, by simp [cellWithId]⟩

theorem firstCell_concat_attestation :
    firstCell crypto (front ++ [.attestation otherId att]) cellId =
      firstCell crypto front cellId := by
  simp [firstCell, List.findSome?_append, cellWithId]

theorem firstCell_concat_of_some
    (first : firstCell crypto front cellId = some cell) :
    firstCell crypto (front ++ [message]) cellId = some cell := by
  unfold firstCell at first ⊢
  rw [List.findSome?_append, first]
  rfl

theorem firstCell_concat_of_none (unseen : firstCell crypto front cellId = none) :
    firstCell crypto (front ++ [.cell cell]) cellId =
      if cell.cellId crypto = cellId then some cell else none := by
  unfold firstCell at unseen ⊢
  rw [List.findSome?_append, unseen]
  simp [cellWithId]

theorem signers_unseen (grounded : ∀ cellId att, .attestation cellId att ∈ front →
      (firstCell crypto front cellId).isSome = true)
    (unseen : firstCell crypto front (cell.cellId crypto) = none) : signers crypto front cell = ∅ := by
  rw [Finset.eq_empty_iff_forall_notMem]
  intro name member
  rcases mem_signers.mp member with ⟨cellId, att, inside, attests, _⟩
  have ground := grounded cellId att inside
  rw [← attests.1, unseen] at ground
  cases ground

theorem size_eq_card {attestations : ExtTreeMap String CellAttestation} {names : Finset String}
    (same : ∀ name, attestations.contains name = true ↔ name ∈ names) :
    attestations.size = names.card := by
  have keys : attestations.keys.toFinset = names := by
    ext name
    rw [List.mem_toFinset, ExtTreeMap.mem_keys, ← ExtTreeMap.contains_iff_mem, same]
  have distinct : attestations.keys.Nodup := by
    apply attestations.distinct_keys.imp
    intro left right differ same
    exact differ (LawfulEqCmp.compare_eq_iff_eq.mpr same)
  rw [← keys, List.toFinset_card_of_nodup distinct, ExtTreeMap.length_keys]

end Prefixes

section
/-- What the aggregator holds is the function of the arrived messages that the
specification says; `held` is the converse of the first clauses. -/
structure Placed (crypto : Crypto) (config : AggregatorConfig) (front : List Observation)
    (agg : LatticeAggregator) : Prop where
  configured : agg.config = config
  pending : ∀ (cellId : CellId) (waiting : PendingCell), agg.pending[cellId]? = some waiting →
    firstCell crypto front cellId = some waiting.cell ∧
    (∀ name, waiting.attestations.contains name = true ↔
      0 < config.maxAttestationsPerCell ∧ name ∈ signers crypto front waiting.cell) ∧
    waiting.attestations.size < needed config
  certified : ∀ (key : CellKey) (cert : CellCertificate), agg.certified[key]? = some cert →
    cert.cell.key = key ∧ firstCell crypto front (cert.cellId crypto) = some cert.cell ∧
    Supported crypto config front cert.cell ∧ agg.pending[cert.cellId crypto]? = none
  held : ∀ cellId : CellId, (firstCell crypto front cellId).isSome = true →
    (agg.pending[cellId]?).isSome = true ∨
    ∃ (key : CellKey) (cert : CellCertificate), agg.certified[key]? = some cert ∧
      cert.cellId crypto = cellId

theorem new_placed : Placed crypto config [] (new config) := by
  constructor <;> simp [new, firstCell]

variable {key : CellKey} {cert : CellCertificate} {waiting : PendingCell} {round : Nat}
variable (placed : Placed crypto config front agg)
include placed

theorem Placed.certified_concat (stored : agg.certified[key]? = some cert) :
    cert.cell.key = key ∧
      firstCell crypto (front ++ [message]) (cert.cellId crypto) = some cert.cell ∧
      Supported crypto config (front ++ [message]) cert.cell := by
  rcases placed.certified key cert stored with ⟨keyed, first, supported, _⟩
  exact ⟨keyed, firstCell_concat_of_some first,
    supported_mono (fun _ => List.mem_append_left _) supported⟩

variable (present : agg.pending[cellId]? = some waiting)
include present

-- A zero cap keeps every name out, so there the arriving signer does not matter.
theorem Placed.pending_concat (stays : 0 < config.maxAttestationsPerCell →
      signers crypto (front ++ [message]) waiting.cell = signers crypto front waiting.cell) :
    firstCell crypto (front ++ [message]) cellId = some waiting.cell ∧
      (∀ name, waiting.attestations.contains name = true ↔ 0 < config.maxAttestationsPerCell ∧
          name ∈ signers crypto (front ++ [message]) waiting.cell) ∧
      waiting.attestations.size < needed config := by
  rcases placed.pending cellId waiting present with ⟨first, names, few⟩
  refine ⟨firstCell_concat_of_some first, ?_, few⟩
  intro name
  rw [names]
  apply and_congr_right
  intro admits
  rw [stays admits]

theorem Placed.pending_id : .cell waiting.cell ∈ front ∧ waiting.cell.cellId crypto = cellId :=
  firstCell_some (placed.pending cellId waiting present).1

theorem Placed.certified_id_ne (stored : agg.certified[key]? = some cert) :
    cert.cellId crypto ≠ cellId := by
  intro same
  have absent := (placed.certified key cert stored).2.2.2
  rw [same, present] at absent
  cases absent

omit present

theorem Placed.certified_key_ne
    (distinct : ∀ first second, .cell first ∈ front → .cell second ∈ front →
      first.key = second.key → first = second) (present : agg.pending[cellId]? = some waiting)
    (key : CellKey) (cert : CellCertificate) (stored : agg.certified[key]? = some cert) :
    waiting.cell.key ≠ key := by
  intro same
  rcases placed.pending_id present with ⟨member, identified⟩
  rcases placed.certified key cert stored with ⟨keyed, first, _⟩
  have sameCell := distinct cert.cell waiting.cell (firstCell_some first).1
    member (keyed.trans same.symm)
  apply placed.certified_id_ne present stored
  rw [CellCertificate.cellId, sameCell, identified]

/-- No certified cell has the id of an arriving cell that is still to be certified. -/
def IdFree (crypto : Crypto) (agg : LatticeAggregator) (cell : LatticeCell) : Prop :=
  agg.certified.contains cell.key = false → ∀ (key : CellKey) (cert : CellCertificate),
    agg.certified[key]? = some cert → cert.cellId crypto ≠ cell.cellId crypto

theorem Placed.known_cell
    (distinct : ∀ other, .cell other ∈ front → other.key = cell.key → other = cell)
    (known : agg.certified.contains cell.key = true) :
    Placed crypto config (front ++ [.cell cell]) { agg with highWaterRound := round } := by
  refine ⟨placed.configured, ?_, ?_, ?_⟩
  · intro cellId waiting present
    exact placed.pending_concat present (fun _ => signers_concat_cell)
  · intro key cert stored
    rcases placed.certified_concat stored with ⟨keyed, first, supported⟩
    exact ⟨keyed, first, supported, (placed.certified key cert stored).2.2.2⟩
  · intro cellId seen
    cases before : firstCell crypto front cellId with
    | some owner => exact placed.held cellId (by simp [before])
    | none =>
      rw [firstCell_concat_of_none before] at seen
      simp only [Option.isSome_ite] at seen
      rcases Option.isSome_iff_exists.mp
        (by simpa using known : (agg.certified[cell.key]?).isSome = true) with ⟨cert, stored⟩
      rcases placed.certified _ cert stored with ⟨keyed, first, _⟩
      have same := distinct cert.cell (firstCell_some first).1 keyed
      exact Or.inr ⟨_, cert, stored, by rw [CellCertificate.cellId, same]; exact seen⟩

theorem Placed.unseen (cellId : CellId) (absent : agg.pending[cellId]? = none)
    (uncertified : ∀ (key : CellKey) (cert : CellCertificate),
      agg.certified[key]? = some cert → cert.cellId crypto ≠ cellId) :
    firstCell crypto front cellId = none := by
  by_contra seen
  rcases placed.held cellId (Option.isSome_iff_ne_none.mpr seen) with
    waits | ⟨key, cert, stored, same⟩
  · simp [absent] at waits
  · exact uncertified key cert stored same

-- `insertIfNew` leaves an older owner of the id in place, as the source's entry call does.
theorem Placed.new_cell (grounded : ∀ cellId att, .attestation cellId att ∈ front →
      (firstCell crypto front cellId).isSome = true)
    (uncertified : ∀ (key : CellKey) (cert : CellCertificate),
      agg.certified[key]? = some cert → cert.cellId crypto ≠ cell.cellId crypto) :
    Placed crypto config (front ++ [.cell cell])
      { agg with
        highWaterRound := round
        pending := agg.pending.insertIfNew (cell.cellId crypto) { cell, attestations := ∅ } } := by
  refine ⟨placed.configured, ?_, ?_, ?_⟩
  · intro cellId waiting present
    simp only [ExtTreeMap.getElem?_insertIfNew, LawfulEqCmp.compare_eq_iff_eq] at present
    split at present
    · rename_i inserted
      rcases inserted with ⟨rfl, absent⟩
      rw [ExtTreeMap.mem_iff_isSome_getElem?, Option.not_isSome_iff_eq_none] at absent
      cases present
      have first := placed.unseen (cell.cellId crypto) absent uncertified
      refine ⟨?_, ?_, ?_⟩
      · rw [firstCell_concat_of_none first, if_pos rfl]
      · intro name
        simp [signers_concat_cell, signers_unseen grounded first]
      · exact Nat.lt_of_lt_of_le Nat.one_pos (Nat.le_max_left _ _)
    · exact placed.pending_concat present (fun _ => signers_concat_cell)
  · intro key cert stored
    rcases placed.certified_concat stored with ⟨keyed, first, supported⟩
    refine ⟨keyed, first, supported, ?_⟩
    have apart := uncertified key cert stored
    simp only [ExtTreeMap.getElem?_insertIfNew, LawfulEqCmp.compare_eq_iff_eq]
    rw [if_neg (fun both => apart both.1.symm)]
    exact (placed.certified key cert stored).2.2.2
  · intro cellId seen
    by_cases here : cell.cellId crypto = cellId
    · left
      subst here
      simp only [ExtTreeMap.getElem?_insertIfNew, LawfulEqCmp.compare_eq_iff_eq, true_and]
      split
      · rfl
      · rename_i present
        rw [not_not, ExtTreeMap.mem_iff_isSome_getElem?] at present
        exact present
    · cases before : firstCell crypto front cellId with
      | none =>
        rw [firstCell_concat_of_none before, if_neg here] at seen
        cases seen
      | some owner =>
        rcases placed.held cellId (by simp [before]) with waits | certified
        · left
          simp only [ExtTreeMap.getElem?_insertIfNew, LawfulEqCmp.compare_eq_iff_eq, here,
            false_and, ↓reduceIte]
          exact waits
        · exact Or.inr certified

theorem observeCell_placed (signed : cell.verifyAuthorSignature crypto = true)
    (distinct : ∀ other, .cell other ∈ front → other.key = cell.key → other = cell)
    (grounded : ∀ cellId att, .attestation cellId att ∈ front →
      (firstCell crypto front cellId).isSome = true) (free : IdFree crypto agg cell) :
    Placed crypto config (front ++ [.cell cell]) (observeCell crypto agg cell).1 := by
  rcases observeCell_cases crypto agg cell with ⟨unsigned, _⟩ | ⟨_, known, result⟩ |
    ⟨_, unknown, result⟩
  · simp [signed] at unsigned
  · rw [result]
    exact placed.known_cell distinct known
  · rw [result]
    exact placed.new_cell grounded (free unknown)

omit placed in
/-- Below the cap nothing that verifies is turned away: a waiting cell has fewer
names than the quorum, so fewer than the cap admits. -/
theorem placed_joins (capped : latticeQuorum config.groupSize ≤ config.maxAttestationsPerCell)
    (placed : Placed crypto config front agg) (present : agg.pending[cellId]? = some waiting)
    (attests : Attests crypto cellId att waiting.cell)
    (admits : 0 < config.maxAttestationsPerCell) : Joins crypto agg cellId att waiting := by
  refine ⟨present, attests.2, Or.inl ?_⟩
  have few := (placed.pending cellId waiting present).2.2
  rw [placed.configured]
  simp only [needed] at few
  omega

theorem join_names (joins : Joins crypto agg cellId att waiting) :
    0 < config.maxAttestationsPerCell ∧
    (∀ name, (waiting.join att).attestations.contains name = true ↔ 0 < config.maxAttestationsPerCell ∧
        name ∈ signers crypto (front ++ [.attestation cellId att]) waiting.cell) ∧
    (waiting.join att).attestations.size =
      (signers crypto (front ++ [.attestation cellId att]) waiting.cell).card := by
  rcases placed.pending cellId waiting joins.present with ⟨first, names, _⟩
  have attests : Attests crypto cellId att waiting.cell :=
    ⟨(firstCell_some first).2, joins.verified⟩
  have admits : 0 < config.maxAttestationsPerCell := by
    rcases joins.admitted with below | known
    · rw [placed.configured] at below
      omega
    · exact ((names att.signer).mp known).1
  have exactly : ∀ name, (waiting.join att).attestations.contains name = true ↔
      name ∈ signers crypto (front ++ [.attestation cellId att]) waiting.cell := by
    intro name
    simp only [PendingCell.join, ExtTreeMap.contains_insert, Bool.or_eq_true, beq_iff_eq,
      LawfulEqCmp.compare_eq_iff_eq, names, admits, true_and, signers_concat_attestation, attests]
    exact or_comm
  refine ⟨admits, ?_, size_eq_card exactly⟩
  intro name
  simp only [exactly, admits, true_and]

theorem Placed.signers_elsewhere {other : PendingCell}
    (present : agg.pending[otherId]? = some other) (differs : cellId ≠ otherId) :
    signers crypto (front ++ [.attestation cellId att]) other.cell =
      signers crypto front other.cell := by
  apply signers_concat_foreign
  intro attests
  exact differs (attests.1.symm.trans (placed.pending_id present).2)

theorem Placed.held_concat (otherId : CellId)
    (seen : (firstCell crypto (front ++ [.attestation cellId att]) otherId).isSome = true) :
    (agg.pending[otherId]?).isSome = true ∨
      ∃ (key : CellKey) (cert : CellCertificate), agg.certified[key]? = some cert ∧
        cert.cellId crypto = otherId := by
  rw [firstCell_concat_attestation] at seen
  exact placed.held otherId seen

theorem Placed.refused_attestation
    (capped : latticeQuorum config.groupSize ≤ config.maxAttestationsPerCell)
    (refused : ¬ ∃ waiting, Joins crypto agg cellId att waiting) :
    Placed crypto config (front ++ [.attestation cellId att]) agg := by
  refine ⟨placed.configured, ?_, ?_, placed.held_concat⟩
  · intro otherId waiting present
    apply placed.pending_concat present
    intro admits
    apply signers_concat_foreign
    intro attests
    have same : otherId = cellId := (placed.pending_id present).2.symm.trans attests.1
    subst same
    exact refused ⟨waiting, placed_joins capped placed present attests admits⟩
  · intro key cert stored
    rcases placed.certified_concat stored with
      ⟨keyed, first, supported⟩
    exact ⟨keyed, first, supported, (placed.certified key cert stored).2.2.2⟩

theorem Placed.joined_attestation (joins : Joins crypto agg cellId att waiting)
    (few : (waiting.join att).attestations.size < quorum agg) :
    Placed crypto config (front ++ [.attestation cellId att])
      { agg with pending := agg.pending.insert cellId (waiting.join att) } := by
  rcases join_names placed joins with
    ⟨_, names, _⟩
  refine ⟨placed.configured, ?_, ?_, ?_⟩
  · intro otherId other present
    simp only [ExtTreeMap.getElem?_insert, LawfulEqCmp.compare_eq_iff_eq] at present
    split at present
    · rename_i same
      subst otherId
      cases present
      refine ⟨?_, names, ?_⟩
      · exact firstCell_concat_of_some (placed.pending cellId waiting joins.present).1
      · rw [quorum, placed.configured] at few
        exact few.trans_le (Nat.le_max_right _ _)
    · rename_i differs
      exact placed.pending_concat present (fun _ => placed.signers_elsewhere present differs)
  · intro key cert stored
    rcases placed.certified_concat stored with
      ⟨keyed, first, supported⟩
    refine ⟨keyed, first, supported, ?_⟩
    have apart := placed.certified_id_ne joins.present stored
    simp only [ExtTreeMap.getElem?_insert, LawfulEqCmp.compare_eq_iff_eq, apart.symm, ↓reduceIte]
    exact (placed.certified key cert stored).2.2.2
  · intro otherId seen
    simp only [ExtTreeMap.getElem?_insert, LawfulEqCmp.compare_eq_iff_eq]
    split
    · exact Or.inl rfl
    · exact placed.held_concat otherId seen

omit placed in
/-- A joining attestation that fills the quorum supports the cell it joins, also where
the quorum is zero: the joining name itself is the one that is needed there. -/
theorem join_supports (crypto : Crypto) (config : AggregatorConfig) (front : List Observation)
    (agg : LatticeAggregator) (placed : Placed crypto config front agg) (cellId : CellId)
    (att : CellAttestation) (waiting : PendingCell)
    (joins : Joins crypto agg cellId att waiting)
    (reached : quorum agg ≤ (waiting.join att).attestations.size) :
    Supported crypto config (front ++ [.attestation cellId att]) waiting.cell := by
  rcases join_names placed joins with
    ⟨admits, _, size⟩
  refine ⟨admits, ?_⟩
  rw [quorum, placed.configured, size] at reached
  have filed : att.signer ∈
      signers crypto (front ++ [.attestation cellId att]) waiting.cell :=
    signers_concat_attestation.mpr
      (Or.inr ⟨⟨(placed.pending_id joins.present).2, joins.verified⟩, rfl⟩)
  have some := Finset.card_pos.mpr ⟨_, filed⟩
  simp only [needed]
  omega

theorem Placed.promoted_attestation
    (distinct : ∀ first second, .cell first ∈ front → .cell second ∈ front →
      first.key = second.key → first = second) (joins : Joins crypto agg cellId att waiting)
    (reached : quorum agg ≤ (waiting.join att).attestations.size) :
    Placed crypto config (front ++ [.attestation cellId att])
      { agg with
        pending := agg.pending.erase cellId
        certified := agg.certified.insert waiting.cell.key (waiting.join att).certificate } := by
  have identified := (placed.pending_id joins.present).2
  refine ⟨placed.configured, ?_, ?_, ?_⟩
  · intro otherId other present
    simp only [ExtTreeMap.getElem?_erase, LawfulEqCmp.compare_eq_iff_eq] at present
    split at present
    · cases present
    · rename_i differs
      exact placed.pending_concat present (fun _ => placed.signers_elsewhere present differs)
  · intro key cert stored
    simp only [ExtTreeMap.getElem?_insert, LawfulEqCmp.compare_eq_iff_eq] at stored
    simp only [ExtTreeMap.getElem?_erase, LawfulEqCmp.compare_eq_iff_eq]
    split at stored
    · rename_i same
      subst key
      cases stored
      refine ⟨rfl, ?_, join_supports crypto config front agg placed cellId att waiting joins
        reached, if_pos identified.symm⟩
      change firstCell _ _ (waiting.cell.cellId crypto) = some waiting.cell
      rw [identified]
      exact firstCell_concat_of_some (placed.pending cellId waiting joins.present).1
    · rcases placed.certified_concat stored with
        ⟨keyed, first, supported⟩
      refine ⟨keyed, first, supported, ?_⟩
      have absent := (placed.certified key cert stored).2.2.2
      split
      · rfl
      · exact absent
  · intro otherId seen
    by_cases here : cellId = otherId
    · right
      exact ⟨waiting.cell.key, (waiting.join att).certificate, by simp, identified.trans here⟩
    · rcases placed.held_concat otherId seen with waits | ⟨key, cert, stored, certId⟩
      · left
        simp only [ExtTreeMap.getElem?_erase, LawfulEqCmp.compare_eq_iff_eq, here, ↓reduceIte]
        exact waits
      · right
        refine ⟨key, cert, ?_, certId⟩
        have other := placed.certified_key_ne distinct joins.present key cert stored
        simp only [ExtTreeMap.getElem?_insert, LawfulEqCmp.compare_eq_iff_eq, other, ↓reduceIte]
        exact stored

omit placed in
theorem observeAttestation_placed
    (capped : latticeQuorum config.groupSize ≤ config.maxAttestationsPerCell)
    (placed : Placed crypto config front agg)
    (distinct : ∀ first second, .cell first ∈ front → .cell second ∈ front →
      first.key = second.key → first = second) :
    Placed crypto config (front ++ [.attestation cellId att])
      (observeAttestation crypto agg cellId att).1 := by
  rcases observeAttestation_cases crypto agg cellId att with
    ⟨unchanged, _, refused⟩ | ⟨waiting, joins, few, result⟩ | ⟨waiting, joins, reached, result⟩
  · rw [unchanged]
    exact placed.refused_attestation capped refused
  · rw [result]
    exact placed.joined_attestation joins few
  · rw [result]
    exact placed.promoted_attestation distinct joins reached

theorem observe_announces (distinct : ∀ first second, .cell first ∈ front → .cell second ∈ front →
      first.key = second.key → first = second) :
    (Holds (observe crypto agg message).1 cell ↔
      Holds agg cell ∨ announces cell (observe crypto agg message).2 = true) ∧
    ¬ (Holds agg cell ∧ announces cell (observe crypto agg message).2 = true) := by
  cases message with
  | cell other => simp [observe, Holds, observeCell_certified, announces]
  | attestation cellId att =>
    simp only [observe]
    rcases observeAttestation_cases crypto agg cellId att with
      ⟨unchanged, silent, _⟩ | ⟨waiting, joins, _, result⟩ | ⟨waiting, joins, _, result⟩
    · have quiet : announces cell (.attestation (observeAttestation crypto agg cellId att).2) =
          false := by
        unfold announces
        split
        · rename_i cert same
          exact absurd (Reply.attestation.inj same) (silent cert)
        · rfl
      simp [unchanged, quiet]
    · simp [result, Holds, announces]
    · have unheld := placed.certified_key_ne distinct joins.present
      have announced :
          announces cell (.attestation (observeAttestation crypto agg cellId att).2) = true ↔
            waiting.cell = cell := by
        simp [result, announces, PendingCell.certificate, PendingCell.join]
      rw [announced, result]
      constructor
      · constructor
        · rintro ⟨key, cert, stored, same⟩
          simp only [ExtTreeMap.getElem?_insert, LawfulEqCmp.compare_eq_iff_eq] at stored
          split at stored
          · cases stored
            exact Or.inr same
          · exact Or.inl ⟨key, cert, stored, same⟩
        · rintro (⟨key, cert, stored, same⟩ | same)
          · refine ⟨key, cert, ?_, same⟩
            simp only [ExtTreeMap.getElem?_insert, LawfulEqCmp.compare_eq_iff_eq,
              unheld key cert stored, ↓reduceIte]
            exact stored
          · exact ⟨waiting.cell.key, (waiting.join att).certificate, by simp, same⟩
      · rintro ⟨⟨key, cert, stored, same⟩, promoted⟩
        apply unheld key cert stored
        rw [promoted, ← same]
        exact (placed.certified key cert stored).1

end

section
variable {owner : LatticeCell}

theorem grounded_of_preceded (arrival : ArrivalOrder crypto messages order)
    (within : front <+: order) (cellId : CellId) (att : CellAttestation)
    (member : .attestation cellId att ∈ front) : (firstCell crypto front cellId).isSome = true := by
  obtain ⟨before, after, split⟩ := List.append_of_mem member
  obtain ⟨rest, whole⟩ := within
  obtain ⟨cell, inside, attests⟩ := arrival.preceded before cellId att (after ++ rest)
    (by rw [← whole, split]; simp)
  rw [← attests.1]
  apply firstCell_isSome
  rw [split]
  exact List.mem_append_left _ inside

theorem certifiedOutcomes_concat :
    certifiedOutcomes crypto config (front ++ [message]) cell =
      certifiedOutcomes crypto config front cell +
        if announces cell (observe crypto (run (observe crypto) (new config) front) message).2
        then 1 else 0 := by
  simp [certifiedOutcomes, outputs_append, outputs, List.countP_cons]

/-- Along an order in which no arriving cell meets a certified owner of its id,
every prefix is placed, and certified cells have been announced once. -/
theorem run_placed (capped : latticeQuorum config.groupSize ≤ config.maxAttestationsPerCell)
    (well : MessageSet crypto messages) (arrival : ArrivalOrder crypto messages order)
    (free : ∀ front cell, front ++ [.cell cell] <+: order →
      Placed crypto config front (run (observe crypto) (new config) front) →
      IdFree crypto (run (observe crypto) (new config) front) cell) (within : front <+: order) :
    Placed crypto config front (run (observe crypto) (new config) front) ∧
      ∀ cell, (Holds (run (observe crypto) (new config) front) cell →
          certifiedOutcomes crypto config front cell = 1) ∧
        (¬ Holds (run (observe crypto) (new config) front) cell →
          certifiedOutcomes crypto config front cell = 0) := by
  induction front using List.reverseRecOn with
  | nil =>
    refine ⟨new_placed, ?_⟩
    intro cell
    simp [Holds, new, certifiedOutcomes, outputs]
  | append_singleton front message ih =>
    have shorter : front <+: order := (List.prefix_append front [message]).trans within
    obtain ⟨placed, counted⟩ := ih shorter
    have inSet : ∀ other, other ∈ front ++ [message] → other ∈ messages := by
      intro other member
      exact (arrival.same other).mp (within.subset member)
    have inFront : ∀ other, other ∈ front → other ∈ messages := fun other member =>
      inSet other (List.mem_append_left _ member)
    have distinct : ∀ first second, .cell first ∈ front → .cell second ∈ front →
        first.key = second.key → first = second := fun first second firstIn secondIn =>
      well.distinct first second (inFront _ firstIn) (inFront _ secondIn)
    rw [run_concat]
    -- The state after the message is placed; the count follows from what it announces.
    constructor
    · cases message with
      | cell cell =>
        apply observeCell_placed placed
        · exact well.signed cell (inSet _ (by simp))
        · intro other member
          exact well.distinct other cell (inFront _ member) (inSet _ (by simp))
        · exact grounded_of_preceded arrival shorter
        · exact free front cell within placed
      | attestation cellId att =>
        exact observeAttestation_placed capped placed distinct
    · intro cell
      obtain ⟨gains, once⟩ := observe_announces placed distinct
      rw [certifiedOutcomes_concat, gains]
      by_cases announced : announces cell
          (observe crypto (run (observe crypto) (new config) front) message).2 = true
      · have unheld : ¬ Holds (run (observe crypto) (new config) front) cell :=
          fun held => once ⟨held, announced⟩
        simp [announced, (counted cell).2 unheld]
      · simpa [announced] using counted cell

theorem holds_iff (placed : Placed crypto config order agg) :
    Holds agg cell ↔
      firstCell crypto order (cell.cellId crypto) = some cell ∧
        Supported crypto config order cell := by
  constructor
  · rintro ⟨key, cert, stored, rfl⟩
    obtain ⟨_, first, supported, _⟩ := placed.certified key cert stored
    exact ⟨first, supported⟩
  · rintro ⟨first, supported⟩
    rcases placed.held (cell.cellId crypto) (by simp [first]) with waits | ⟨key, cert, stored, same⟩
    · -- A supported cell cannot still be waiting: its names would fill the quorum.
      obtain ⟨waiting, present⟩ := Option.isSome_iff_exists.mp waits
      obtain ⟨owner, names, few⟩ := placed.pending _ waiting present
      have sameCell : cell = waiting.cell := Option.some.inj (first.symm.trans owner)
      rw [← sameCell] at names
      have size := size_eq_card (by simpa [supported.1] using names)
      have enough := supported.2
      omega
    · obtain ⟨_, owner, _⟩ := placed.certified key cert stored
      rw [same, first] at owner
      exact ⟨key, cert, stored, (Option.some.inj owner).symm⟩

/-- No cell that can be certified shares its id with another cell of the set. -/
def Unambiguous (crypto : Crypto) (config : AggregatorConfig) (messages : List Observation) : Prop :=
  ∀ first second, .cell first ∈ messages → .cell second ∈ messages →
    first.cellId crypto = second.cellId crypto → Supported crypto config messages first →
    first = second

theorem unambiguous_free (arrival : ArrivalOrder crypto messages order)
    (unambiguous : Unambiguous crypto config messages) (front : List Observation)
    (cell : LatticeCell) (within : front ++ [.cell cell] <+: order)
    (placed : Placed crypto config front (run (observe crypto) (new config) front)) :
    IdFree crypto (run (observe crypto) (new config) front) cell := by
  intro unknown key cert stored same
  have inSet : ∀ other, other ∈ front ++ [.cell cell] → other ∈ messages := fun other member =>
    (arrival.same other).mp (within.subset member)
  obtain ⟨keyed, first, supported, _⟩ := placed.certified key cert stored
  have certIn := (firstCell_some first).1
  have wholly := supported_mono
    (fun other member => inSet other (List.mem_append_left _ member)) supported
  have sameCell := unambiguous cert.cell cell (inSet _ (List.mem_append_left _ certIn))
    (inSet _ (by simp)) same wholly
  rw [← keyed, sameCell] at stored
  rw [ExtTreeMap.contains_eq_isSome_getElem?, stored] at unknown
  cases unknown

def isCell : Observation → Bool
  | .cell _ => true
  | .attestation _ _ => false

/-- The order in which `owner` arrives first and the attestations last. -/
def cellsFirst (owner : LatticeCell) (messages : List Observation) : List Observation :=
  (.cell owner :: messages.filter isCell) ++ messages.filter (fun message => !isCell message)

theorem cellsFirst_split {back : List Observation}
    (split : cellsFirst owner messages = front ++ .attestation cellId att :: back) :
    ∃ between, front = .cell owner :: messages.filter isCell ++ between := by
  rcases List.append_eq_append_iff.mp split with ⟨between, split, _⟩ | ⟨tail, split, rest⟩
  · exact ⟨between, split⟩
  · cases tail with
    | nil => exact ⟨[], by simpa using split.symm⟩
    | cons head tail =>
      rw [List.cons_append, List.cons.injEq] at rest
      have inside : Observation.attestation cellId att ∈
          .cell owner :: messages.filter isCell := by
        rw [split, ← rest.1]
        simp
      simp [isCell] at inside

theorem cellsFirst_arrival (well : MessageSet crypto messages) (member : .cell owner ∈ messages) :
    ArrivalOrder crypto messages (cellsFirst owner messages) where
  same := by
    intro message
    simp only [cellsFirst, List.mem_append, List.mem_cons, List.mem_filter]
    constructor
    · rintro ((rfl | inside) | inside)
      · exact member
      · exact inside.1
      · exact inside.1
    · intro inside
      cases kind : isCell message with
      | true => exact Or.inl (Or.inr ⟨inside, rfl⟩)
      | false => exact Or.inr ⟨inside, rfl⟩
  preceded := by
    intro front cellId att back split
    have inside : Observation.attestation cellId att ∈ messages := by
      have whole : Observation.attestation cellId att ∈ cellsFirst owner messages := by
        rw [split]
        simp
      simpa [cellsFirst, isCell] using whole
    obtain ⟨cell, cellIn, attests⟩ := well.attested cellId att inside
    obtain ⟨between, fronted⟩ := cellsFirst_split split
    refine ⟨cell, ?_, attests⟩
    rw [fronted]
    simp [cellIn, isCell]

theorem cellsFirst_free (front : List Observation) (cell : LatticeCell)
    (within : front ++ [.cell cell] <+: cellsFirst owner messages)
    (placed : Placed crypto config front (run (observe crypto) (new config) front)) :
    IdFree crypto (run (observe crypto) (new config) front) cell := by
  intro _ key cert stored
  obtain ⟨_, _, supported, _⟩ := placed.certified key cert stored
  -- A certificate needs a signer, and attestations come after every cell.
  have some : 0 < (signers crypto front cert.cell).card :=
    Nat.lt_of_lt_of_le (Nat.lt_of_lt_of_le Nat.one_pos (Nat.le_max_left _ _)) supported.2
  obtain ⟨name, signs⟩ := Finset.card_pos.mp some
  obtain ⟨cellId, att, inside, _⟩ := mem_signers.mp signs
  obtain ⟨before, after, split⟩ := List.append_of_mem inside
  obtain ⟨rest, whole⟩ := within
  have ordered : cellsFirst owner messages =
      before ++ .attestation cellId att :: (after ++ .cell cell :: rest) := by
    rw [← whole, split]
    simp
  obtain ⟨between, fronted⟩ := cellsFirst_split ordered
  have late : Observation.cell cell ∈ messages.filter (fun message => !isCell message) := by
    have same : between ++ .attestation cellId att :: (after ++ .cell cell :: rest) =
        messages.filter (fun message => !isCell message) := by
      rw [cellsFirst, fronted, List.append_assoc] at ordered
      exact (List.append_cancel_left ordered).symm
    rw [← same]
    simp
  simp [isCell] at late

end

theorem unambiguous_holds_iff (arrival : ArrivalOrder crypto messages order)
    (unambiguous : Unambiguous crypto config messages)
    (placed : Placed crypto config order (run (observe crypto) (new config) order))
    (cell : LatticeCell) :
    Holds (run (observe crypto) (new config) order) cell ↔
      .cell cell ∈ messages ∧ Supported crypto config messages cell := by
  have forward := fun message => (arrival.same message).mp
  have backward := fun message => (arrival.same message).mpr
  rw [holds_iff placed]
  constructor
  · rintro ⟨first, supported⟩
    exact ⟨forward _ (firstCell_some first).1, supported_mono forward supported⟩
  · rintro ⟨member, supported⟩
    refine ⟨?_, supported_mono backward supported⟩
    obtain ⟨owner, first⟩ := Option.isSome_iff_exists.mp (firstCell_isSome (backward _ member))
    obtain ⟨ownerIn, same⟩ := firstCell_some first
    rw [first, unambiguous cell owner member (forward _ ownerIn) same.symm supported]

theorem confluent_iff_unambiguous (crypto : Crypto) (config : AggregatorConfig)
    (messages : List Observation) (well : MessageSet crypto messages)
    (capped : latticeQuorum config.groupSize ≤ config.maxAttestationsPerCell) :
    Confluent crypto config messages ↔ Unambiguous crypto config messages := by
  constructor
  · intro confluent first second firstIn secondIn sameId supported
    -- Each of two owners of one id can arrive first, and the first one keeps the id.
    have placedBy : ∀ owner, .cell owner ∈ messages → Placed crypto config
        (cellsFirst owner messages)
        (run (observe crypto) (new config) (cellsFirst owner messages)) := by
      intro owner member
      exact (run_placed capped well (cellsFirst_arrival well member) cellsFirst_free List.prefix_rfl).1
    have owned : ∀ owner, firstCell crypto (cellsFirst owner messages) (owner.cellId crypto) =
        some owner := by
      intro owner
      simp [firstCell, cellsFirst, cellWithId]
    have firstArrival := cellsFirst_arrival well firstIn
    have secondArrival := cellsFirst_arrival well secondIn
    have holdsFirst : Holds (run (observe crypto) (new config) (cellsFirst first messages))
        first := by
      apply (holds_iff (placedBy first firstIn)).mpr
      refine ⟨owned first, supported_mono ?_ supported⟩
      exact fun message => (firstArrival.same message).mpr
    have holdsSecond := ((confluent _ _ firstArrival secondArrival).1 first).mp holdsFirst
    have owns := ((holds_iff (placedBy second secondIn)).mp holdsSecond).1
    rw [sameId, owned second] at owns
    exact (Option.some.inj owns).symm
  · intro unambiguous first second firstArrival secondArrival
    have settled : ∀ order, ArrivalOrder crypto messages order → _ := fun order arrival =>
      run_placed capped well arrival
        (unambiguous_free arrival unambiguous)
        List.prefix_rfl
    obtain ⟨firstPlaced, counted⟩ := settled first firstArrival
    have secondPlaced := (settled second secondArrival).1
    refine ⟨?_, fun cell => (counted cell).1⟩
    intro cell
    rw [unambiguous_holds_iff firstArrival unambiguous firstPlaced,
      unambiguous_holds_iff secondArrival unambiguous secondPlaced]

def pairMessages : List Observation :=
  let first := sampleCell 7 "alice" [] 1
  let second := sampleCell 7 "carol" [] 2
  [.cell first, .attestation (first.cellId sampleCrypto) (sampleAttestation "bob" 2 first),
    .cell second, .attestation (second.cellId sampleCrypto) (sampleAttestation "bob" 2 second)]

theorem pairMessages_well : MessageSet sampleCrypto pairMessages := by
  constructor
  · intro cell member
    simp only [pairMessages, List.mem_cons, Observation.cell.injEq, reduceCtorEq, List.not_mem_nil,
      or_false, false_or] at member
    rcases member with rfl | rfl <;> decide +kernel
  · intro cellId att member
    simp only [pairMessages, List.mem_cons, Observation.attestation.injEq, reduceCtorEq,
      List.not_mem_nil, or_false, false_or] at member
    rcases member with ⟨rfl, rfl⟩ | ⟨rfl, rfl⟩
    · exact ⟨_, List.mem_cons_self, rfl, by decide +kernel⟩
    · exact ⟨_, by simp [pairMessages], rfl, by decide +kernel⟩
  · intro first second firstIn secondIn sameKey
    simp only [pairMessages, List.mem_cons, Observation.cell.injEq, reduceCtorEq, List.not_mem_nil,
      or_false, false_or] at firstIn secondIn
    have apart : (sampleCell 7 "alice" [] 1).key ≠ (sampleCell 7 "carol" [] 2).key := by
      decide +kernel
    rcases firstIn with rfl | rfl <;> rcases secondIn with rfl | rfl
    · rfl
    · exact absurd sameKey apart
    · exact absurd sameKey.symm apart
    · rfl

theorem pairMessages_confluent_iff :
    MessageSet sampleCrypto pairMessages ∧
      (Confluent sampleCrypto soloConfig pairMessages ↔
        Unambiguous sampleCrypto soloConfig pairMessages) :=
  ⟨pairMessages_well, confluent_iff_unambiguous sampleCrypto soloConfig pairMessages
    pairMessages_well (by decide)⟩

def shiftedCell (author : String) (authorPubkey : PublicKey) (parents : List CellId) : LatticeCell :=
  LatticeCell.signedBySample
    { round := 7, groupId := "group_1_0_1", author, authorPubkey, parents,
      batchRoot := Vector.replicate 32 0, authorSignature := Vector.replicate 64 0 }

/-- Its key is text that ends in `|`, and so does its parent. -/
def leftCell : LatticeCell :=
  shiftedCell "c" ((Vector.replicate 31 107).push 124) [(Vector.replicate 31 5).push 124]

/-- The separators read 32 bytes later: the author takes the key in, and the key the parent. -/
def rightCell : LatticeCell :=
  shiftedCell "c|kkkkkkkkkkkkkkkkkkkkkkkkkkkkkkk"
    (Vector.append (Vector.replicate 1 124) (Vector.replicate 31 5)) []

def sharedAttestation : Observation :=
  .attestation (leftCell.cellId sampleCrypto) (sampleAttestation "bob" 2 leftCell)

theorem shifted_arrival {first second : LatticeCell}
    (either : first = leftCell ∧ second = rightCell ∨ first = rightCell ∧ second = leftCell) :
    ArrivalOrder sampleCrypto [.cell leftCell, .cell rightCell, sharedAttestation]
      [.cell first, .cell second, sharedAttestation] where
  same := by
    intro message
    rcases either with ⟨rfl, rfl⟩ | ⟨rfl, rfl⟩
    · rfl
    · simp only [List.mem_cons]
      tauto
  preceded := by
    intro front cellId att back split
    have attests : Attests sampleCrypto (leftCell.cellId sampleCrypto)
        (sampleAttestation "bob" 2 leftCell) leftCell := ⟨rfl, by decide +kernel⟩
    match front, split with
    | [_, _], split =>
      simp only [List.cons_append, List.nil_append, List.cons.injEq, sharedAttestation,
        Observation.attestation.injEq] at split
      obtain ⟨rfl, rfl, ⟨rfl, rfl⟩, _⟩ := split
      refine ⟨leftCell, ?_, attests⟩
      rcases either with ⟨rfl, rfl⟩ | ⟨rfl, rfl⟩ <;> simp
    | [], split | [_], split | _ :: _ :: _ :: _, split => simp at split

theorem shifted_cells_diverge :
    leftCell.groupId = rightCell.groupId ∧ leftCell.signableBytes = rightCell.signableBytes ∧
      MessageSet sampleCrypto [.cell leftCell, .cell rightCell, sharedAttestation] ∧
      latticeQuorum soloConfig.groupSize ≤ soloConfig.maxAttestationsPerCell ∧
      ¬ Confluent sampleCrypto soloConfig [.cell leftCell, .cell rightCell, sharedAttestation] := by
  refine ⟨rfl, by decide +kernel, ⟨?_, ?_, ?_⟩, by decide, ?_⟩
  · intro cell member
    simp only [sharedAttestation, List.mem_cons, Observation.cell.injEq, reduceCtorEq,
      List.not_mem_nil, or_false] at member
    rcases member with rfl | rfl <;> decide +kernel
  · intro cellId att member
    simp only [sharedAttestation, List.mem_cons, Observation.attestation.injEq, reduceCtorEq,
      List.not_mem_nil, or_false, false_or] at member
    obtain ⟨rfl, rfl⟩ := member
    exact ⟨leftCell, List.mem_cons_self, rfl, by decide +kernel⟩
  · intro first second firstIn secondIn sameKey
    simp only [sharedAttestation, List.mem_cons, Observation.cell.injEq, reduceCtorEq,
      List.not_mem_nil, or_false] at firstIn secondIn
    have apart : leftCell.key ≠ rightCell.key := by decide +kernel
    rcases firstIn with rfl | rfl <;> rcases secondIn with rfl | rfl
    · rfl
    · exact absurd sameKey apart
    · exact absurd sameKey.symm apart
    · rfl
  · intro confluent
    have same := (confluent _ _ (shifted_arrival (Or.inl ⟨rfl, rfl⟩))
      (shifted_arrival (Or.inr ⟨rfl, rfl⟩))).1 leftCell
    have holds : ((run (observe sampleCrypto) (new soloConfig)
        [.cell leftCell, .cell rightCell, sharedAttestation]).certified[leftCell.key]?).map
          CellCertificate.cell = some leftCell := by
      decide +kernel
    have lacks : (run (observe sampleCrypto) (new soloConfig)
        [.cell rightCell, .cell leftCell, sharedAttestation]).certified.toList.all
          (fun entry => entry.2.cell != leftCell) = true := by
      decide +kernel
    obtain ⟨cert, stored, sameCell⟩ := Option.map_eq_some_iff.mp holds
    obtain ⟨key, other, otherStored, otherCell⟩ := same.mp ⟨_, cert, stored, sameCell⟩
    have apart := List.all_eq_true.mp lacks (key, other)
      (ExtTreeMap.mem_toList_iff_getElem?_eq_some.mpr otherStored)
    simp [otherCell] at apart

end Savitri.CellConfluence
