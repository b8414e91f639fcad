import Savitri.CellAggregator

/-!
What the certified table guarantees over whole runs. The only guard against a
second cell for the same `(round, author)` sits in `observeCell`; promotion in
`observeAttestation` overwrites. Attestations are counted by signer name, and
the retention cutoff follows the highest signed round, certified or not.
-/
namespace Savitri.CellCertification
open Std LatticeTypes QuorumThresholds CellAggregator Transition
variable {input : Call} {crypto : Crypto}

section Stability
variable (crypto)

/-- Later states keep a certificate of the same cell under every certified key. -/
def KeepsCertified (before after : LatticeAggregator) : Prop :=
  ∀ (key : CellKey) (cert : CellCertificate), before.certified[key]? = some cert →
    ∃ later : CellCertificate, after.certified[key]? = some later ∧
      later.cellId crypto = cert.cellId crypto

/-- Between any two points of the observation sequence no certificate is
replaced by a certificate of a cell with another id. -/
def CertifiedStable (start : LatticeAggregator) (observations : List Observation) : Prop :=
  ∀ front middle back, observations = front ++ middle ++ back →
    KeepsCertified crypto (run (observe crypto) start front)
      (run (observe crypto) start (front ++ middle))

/-- The observation does not complete the quorum of a waiting cell whose
`(round, author)` is already held by a certificate of another cell. -/
def ConflictFree (agg : LatticeAggregator) : Observation → Prop
  | .cell _ => True
  | .attestation cellId att =>
    ∀ waiting : PendingCell, Joins crypto agg cellId att waiting →
      quorum agg ≤ (waiting.join att).attestations.size →
      ∀ cert : CellCertificate, agg.certified[waiting.cell.key]? = some cert →
        cert.cellId crypto = cellId

variable (agg : LatticeAggregator)
variable {crypto}

theorem keepsCertified_refl : KeepsCertified crypto agg agg :=
  fun _ cert found => ⟨cert, found, rfl⟩

theorem keepsCertified_trans (first second third : LatticeAggregator)
    (early : KeepsCertified crypto first second) (late : KeepsCertified crypto second third) :
    KeepsCertified crypto first third := by
  intro key cert found
  obtain ⟨middle, middleFound, middleId⟩ := early key cert found
  obtain ⟨last, lastFound, lastId⟩ := late key middle middleFound
  exact ⟨last, lastFound, lastId.trans middleId⟩

theorem observe_keeps_iff {observation : Observation} (valid : Valid crypto agg) :
    KeepsCertified crypto agg (observe crypto agg observation).1 ↔
      ConflictFree crypto agg observation := by
  cases observation with
  | cell cell =>
    simp only [observe, ConflictFree, iff_true]
    intro key cert found
    exact ⟨cert, by rw [observeCell_certified, found], rfl⟩
  | attestation cellId att =>
    simp only [observe, ConflictFree]
    rcases observeAttestation_cases crypto agg cellId att with
      ⟨same, _, refused⟩ | ⟨waiting, joins, below, result⟩ | ⟨waiting, joins, reached, result⟩
    · rw [same]
      constructor
      · intro _ waiting joins
        exact False.elim (refused ⟨waiting, joins⟩)
      · intro _
        exact keepsCertified_refl agg
    · rw [result]
      constructor
      · intro _ other otherJoins otherReached
        have same := Option.some.inj (otherJoins.present.symm.trans joins.present)
        subst other
        exact False.elim (Nat.not_le_of_gt below otherReached)
      · intro _ key cert found
        exact ⟨cert, found, rfl⟩
    · -- The promotion writes one key: the table is kept iff that entry had this id.
      have waitingId := (valid.pending cellId waiting joins.present).1.identified
      rw [result]
      constructor
      · intro keeps other otherJoins _ cert found
        have same := Option.some.inj (otherJoins.present.symm.trans joins.present)
        subst other
        obtain ⟨later, laterFound, laterId⟩ := keeps _ cert found
        simp only [ExtTreeMap.getElem?_insert_self, Option.some.injEq] at laterFound
        rw [← laterId, ← laterFound]
        exact waitingId
      · intro free key cert found
        by_cases hit : waiting.cell.key = key
        · subst key
          refine ⟨(waiting.join att).certificate, by simp, ?_⟩
          exact waitingId.trans (free waiting joins reached cert found).symm
        · exact ⟨cert, by simpa [ExtTreeMap.getElem?_insert, hit] using found, rfl⟩

/-- A run of observations never swaps a certificate for one of another cell if
and only if every one of its steps is free of conflicts. -/
theorem certified_stable_iff (crypto : Crypto) (config : AggregatorConfig)
    (history : List Call) (observations : List Observation) :
    CertifiedStable crypto (run (call crypto) (new config) history) observations ↔
      Along (observe crypto) (ConflictFree crypto)
        (run (call crypto) (new config) history) observations := by
  have valid := run_call_valid crypto config history
  constructor
  · intro stable
    apply (along_iff_split _ _ _ _).mpr
    intro front observation back split
    have step := stable front [observation] back (by simp [split])
    rw [run_concat] at step
    exact (observe_keeps_iff _ (run_observe_valid crypto _ front valid)).mp step
  · intro free front middle back split
    rw [split, along_append, along_append] at free
    rw [run_append]
    have middleValid := run_observe_valid crypto _ front valid
    apply run_relates (observe crypto) (KeepsCertified crypto)
      keepsCertified_refl keepsCertified_trans
    apply (along_iff_split _ _ _ _).mpr
    intro before observation after inner
    have step := (along_iff_split _ _ _ _).mp free.1.2 before observation after inner
    exact (observe_keeps_iff _ (run_observe_valid crypto _ before middleValid)).mpr step

/-- One author signs two cells for round 7. Both reach three attestations, and
the second promotion takes over the table entry of the first one. -/
def equivocation : List Observation :=
  let left := sampleCell 7 "alice" [] 1
  let right := sampleCell 7 "alice" [] 2
  let attest (signer : String) (key : UInt8) (cell : LatticeCell) : Observation :=
    .attestation (cell.cellId sampleCrypto) (sampleAttestation signer key cell)
  [.cell left, .cell right,
    attest "bob" 2 left, attest "carol" 3 left, attest "dave" 4 left,
    attest "bob" 2 right, attest "carol" 3 right, attest "dave" 4 right]

theorem equivocation_replaces_certificate : ¬ CertifiedStable sampleCrypto (new {}) equivocation := by
  intro stable
  have keeps := stable (equivocation.take 5) (equivocation.drop 5) [] (by simp)
  have first : ((run (observe sampleCrypto) (new {}) (equivocation.take 5)).certified[
      ((7, "alice") : CellKey)]?).map (·.cell) = some (sampleCell 7 "alice" [] 1) := by
    decide +kernel
  have second : ((run (observe sampleCrypto) (new {})
      (equivocation.take 5 ++ equivocation.drop 5)).certified[
        ((7, "alice") : CellKey)]?).map (·.cell) = some (sampleCell 7 "alice" [] 2) := by
    decide +kernel
  obtain ⟨cert, found, certCell⟩ := Option.map_eq_some_iff.mp first
  obtain ⟨later, laterFound, sameId⟩ := keeps _ cert found
  rw [laterFound, Option.map_some, Option.some.injEq] at second
  simp only [CellCertificate.cellId, certCell, second] at sameId
  exact absurd sameId (by decide +kernel)

end Stability

section DistinctKeys
def verifyingKeys (crypto : Crypto) (cert : CellCertificate) : Finset PublicKey :=
  ((cert.attestations.filter fun att =>
    verifyAttestationAgainstCell crypto att cert.cell).map (·.signerPubkey)).toFinset

/-- The call does not file an attestation whose key already stands in the same
waiting cell under another signer name. -/
def KeyUnderOneName (crypto : Crypto) (agg : LatticeAggregator) : Call → Prop
  | .observe (.attestation cellId att) =>
    ∀ waiting ∈ agg.pending[cellId]?,
      verifyAttestationAgainstCell crypto att waiting.cell = true →
      ∀ entry ∈ waiting.attestations.toList,
        entry.2.signerPubkey = att.signerPubkey → entry.1 = att.signer
  | _ => True

instance (crypto : Crypto) (agg : LatticeAggregator) (input : Call) :
    Decidable (KeyUnderOneName crypto agg input) := by
  unfold KeyUnderOneName
  split <;> infer_instance

def PendingCell.OneNamePerKey (waiting : PendingCell) : Prop :=
  ∀ (left right : String) (first second : CellAttestation),
    waiting.attestations[left]? = some first → waiting.attestations[right]? = some second →
      first.signerPubkey = second.signerPubkey → left = right

def OneNamePerKey (agg : LatticeAggregator) : Prop :=
  ∀ (cellId : CellId) (waiting : PendingCell), agg.pending[cellId]? = some waiting →
    PendingCell.OneNamePerKey waiting

variable {waiting : PendingCell}

theorem join_oneNamePerKey {att : CellAttestation} (apart : PendingCell.OneNamePerKey waiting)
    (fresh : ∀ entry ∈ waiting.attestations.toList,
      entry.2.signerPubkey = att.signerPubkey → entry.1 = att.signer) :
    PendingCell.OneNamePerKey (waiting.join att) := by
  have stored : ∀ (name : String) (other : CellAttestation),
      waiting.attestations[name]? = some other → other.signerPubkey = att.signerPubkey →
        name = att.signer := by
    intro name other found sameKey
    exact fresh (name, other) (ExtTreeMap.mem_toList_iff_getElem?_eq_some.mpr found) sameKey
  intro left right first second leftFound rightFound sameKey
  simp only [PendingCell.join, ExtTreeMap.getElem?_insert,
    LawfulEqCmp.compare_eq_iff_eq] at leftFound rightFound
  -- Two names with one key: both new, one of them new (twice), or both from before.
  split at leftFound <;> split at rightFound
  · rename_i leftName rightName
    exact leftName.symm.trans rightName
  · rename_i leftName _
    cases leftFound
    exact leftName.symm.trans (stored right second rightFound sameKey.symm).symm
  · rename_i _ rightName
    cases rightFound
    exact (stored left first leftFound sameKey).trans rightName
  · exact apart left right first second leftFound rightFound sameKey

theorem call_oneNamePerKey {agg : LatticeAggregator} (apart : OneNamePerKey agg)
    (fresh : KeyUnderOneName crypto agg input) : OneNamePerKey (call crypto agg input).1 := by
  cases input with
  | observe observation =>
    cases observation with
    | cell cell =>
      simp only [call, observe]
      rcases observeCell_cases crypto agg cell with
        ⟨_, result⟩ | ⟨_, _, result⟩ | ⟨_, _, result⟩ <;> rw [result]
      · exact apart
      · exact apart
      · intro cellId waiting found
        simp only [ExtTreeMap.getElem?_insertIfNew] at found
        split at found
        · cases found
          intro left right first second leftFound
          simp at leftFound
        · exact apart cellId waiting found
    | attestation cellId att =>
      simp only [call, observe]
      rcases observeAttestation_cases crypto agg cellId att with
        ⟨same, _⟩ | ⟨waiting, joins, _, result⟩ | ⟨waiting, joins, _, result⟩
      · rw [same]
        exact apart
      · rw [result]
        intro other entry found
        simp only [ExtTreeMap.getElem?_insert] at found
        split at found
        · cases found
          exact join_oneNamePerKey (apart cellId waiting joins.present)
            (fresh waiting joins.present joins.verified)
        · exact apart other entry found
      · rw [result]
        intro other entry found
        simp only [ExtTreeMap.getElem?_erase] at found
        split at found
        · cases found
        · exact apart other entry found
  | gcOldCells =>
    intro cellId waiting found
    exact apart cellId waiting ((gcOldCells_pending_iff cellId waiting).mp found).1
  | setGroupSize groupSize => exact apart

theorem sortBySigner_perm {attestations : ExtTreeMap String CellAttestation} :
    (sortBySigner attestations).Perm (attestations.toList.map Prod.snd) :=
  List.perm_insertionSort _ _

theorem certificate_keys_card {cellId : CellId} (valid : waiting.Valid crypto cellId)
    (apart : PendingCell.OneNamePerKey waiting) :
    (verifyingKeys crypto waiting.certificate).card = waiting.attestations.size := by
  have allVerify : ∀ att ∈ sortBySigner waiting.attestations,
      verifyAttestationAgainstCell crypto att waiting.cell = true := by
    intro att member
    obtain ⟨entry, stored, same⟩ := List.mem_map.mp (sortBySigner_perm.mem_iff.mp member)
    rw [← same]
    exact (valid.named entry.1 entry.2 (ExtTreeMap.mem_toList_iff_getElem?_eq_some.mp stored)).2
  have keysDistinct : ((sortBySigner waiting.attestations).map (·.signerPubkey)).Nodup := by
    rw [(sortBySigner_perm.map (·.signerPubkey)).nodup_iff, List.map_map]
    change (waiting.attestations.toList.map _).Pairwise (· ≠ ·)
    rw [List.pairwise_map]
    apply List.Pairwise.imp_of_mem _ waiting.attestations.distinct_keys_toList
    intro left right leftIn rightIn differ sameKey
    apply differ
    rw [LawfulEqCmp.compare_eq_iff_eq]
    exact apart left.1 right.1 left.2 right.2
      (ExtTreeMap.mem_toList_iff_getElem?_eq_some.mp leftIn)
      (ExtTreeMap.mem_toList_iff_getElem?_eq_some.mp rightIn) sameKey
  rw [verifyingKeys, PendingCell.certificate, List.filter_eq_self.mpr allVerify,
    List.toFinset_card_of_nodup keysDistinct, List.length_map,
    sortBySigner_perm.length_eq, List.length_map, ExtTreeMap.length_toList]

theorem certified_placed {config : AggregatorConfig} {calls : List Call} {key : CellKey}
    {cert : CellCertificate}
    (found : (run (call crypto) (new config) calls).certified[key]? = some cert) :
    ∃ front cellId att back, calls = front ++ .observe (.attestation cellId att) :: back ∧
      (observeAttestation crypto (run (call crypto) (new config) front) cellId att).2 =
        .certified cert := by
  -- By the last call: either it placed the entry, or the entry was there before it.
  induction calls using List.reverseRecOn with
  | nil => simp [new] at found
  | append_singleton before input ih =>
    have earlier : (run (call crypto) (new config) before).certified[key]? = some cert →
        ∃ front cellId att back,
          before ++ [input] = front ++ .observe (.attestation cellId att) :: back ∧
          (observeAttestation crypto (run (call crypto) (new config) front) cellId att).2 =
            .certified cert := by
      intro old
      obtain ⟨front, cellId, att, back, split, placed⟩ := ih old
      exact ⟨front, cellId, att, back ++ [input], by simp [split], placed⟩
    rw [run_concat] at found
    cases input with
    | observe observation =>
      cases observation with
      | cell cell =>
        simp only [call, observe, observeCell_certified] at found
        exact earlier found
      | attestation cellId att =>
        simp only [call, observe] at found
        rcases observeAttestation_cases crypto (run (call crypto) (new config) before)
          cellId att with ⟨same, _⟩ | ⟨waiting, _, _, result⟩ | ⟨waiting, _, _, result⟩
        · rw [same] at found
          exact earlier found
        · rw [result] at found
          exact earlier found
        · rw [result] at found
          simp only [ExtTreeMap.getElem?_insert] at found
          split at found
          · cases found
            exact ⟨before, cellId, att, [], rfl, by rw [result]⟩
          · exact earlier found
    | gcOldCells => exact earlier (gcOldCells_certified_iff.mp found).1
    | setGroupSize groupSize => exact earlier found

/-- Each certificate of the table was placed by a call at which its attestations
verified over the cell under a quorum of pairwise distinct keys. -/
def CertifiedByKeyQuorum (crypto : Crypto) (config : AggregatorConfig)
    (calls : List Call) : Prop :=
  ∀ (key : CellKey) (cert : CellCertificate),
    (run (call crypto) (new config) calls).certified[key]? = some cert →
    ∃ front cellId att back, calls = front ++ .observe (.attestation cellId att) :: back ∧
      (observeAttestation crypto (run (call crypto) (new config) front) cellId att).2 =
        .certified cert ∧
      latticeQuorum (run (call crypto) (new config) front).config.groupSize ≤
        (verifyingKeys crypto cert).card

/-- Counting names is counting keys in every run where no key attests one
waiting cell under two names. -/
theorem certified_key_quorum (crypto : Crypto) (config : AggregatorConfig)
    (calls : List Call)
    (fresh : Along (call crypto) (KeyUnderOneName crypto) (new config) calls) :
    CertifiedByKeyQuorum crypto config calls := by
  intro key cert found
  obtain ⟨front, cellId, att, back, split, placed⟩ := certified_placed found
  refine ⟨front, cellId, att, back, split, placed, ?_⟩
  rw [split, along_append] at fresh
  have valid := run_call_valid crypto config front
  have apart : OneNamePerKey (run (call crypto) (new config) front) :=
    run_invariant_along (call crypto) (KeyUnderOneName crypto) OneNamePerKey
      (fun agg input => call_oneNamePerKey) (new config) front
      (by intro cellId waiting absent; simp [new] at absent) fresh.1
  rcases observeAttestation_cases crypto (run (call crypto) (new config) front) cellId att with
    ⟨_, never, _⟩ | ⟨waiting, _, _, result⟩ | ⟨waiting, joins, reached, result⟩
  · exact False.elim (never cert placed)
  · rw [result] at placed
    cases placed
  · rw [result] at placed
    cases placed
    have waitingValid := (valid.pending cellId waiting joins.present).1
    rw [certificate_keys_card (PendingCell.join_valid joins waitingValid)
      (join_oneNamePerKey (apart cellId waiting joins.present)
        (fresh.2.1 waiting joins.present joins.verified))]
    exact reached

def honestQuorum : List Call :=
  let cell := sampleCell 7 "alice" [] 1
  [.observe (.cell cell), attestCall cell "bob" 2, attestCall cell "carol" 3,
    attestCall cell "dave" 4]

theorem honestQuorum_by_keys :
    Along (call sampleCrypto) (KeyUnderOneName sampleCrypto) (new {}) honestQuorum ∧
      (run (call sampleCrypto) (new {}) honestQuorum).certified.size = 1 ∧
      CertifiedByKeyQuorum sampleCrypto {} honestQuorum := by
  have fresh : Along (call sampleCrypto) (KeyUnderOneName sampleCrypto) (new {})
      honestQuorum := by
    simp only [honestQuorum, Along]
    decide +kernel
  exact ⟨fresh, by decide +kernel, certified_key_quorum sampleCrypto {} honestQuorum fresh⟩

/-- One key under three names fills the quorum of three. -/
def namesOfOneKey : List Call :=
  let cell := sampleCell 7 "alice" [] 1
  [.observe (.cell cell), attestCall cell "bob" 2, attestCall cell "carol" 2,
    attestCall cell "dave" 2]

theorem namesOfOneKey_certify : ¬ CertifiedByKeyQuorum sampleCrypto {} namesOfOneKey := by
  intro held
  have oneKey : ((run (call sampleCrypto) (new {}) namesOfOneKey).certified[
      ((7, "alice") : CellKey)]?).map (fun cert => (verifyingKeys sampleCrypto cert).card) =
        some 1 := by
    decide +kernel
  obtain ⟨cert, found, keys⟩ := Option.map_eq_some_iff.mp oneKey
  obtain ⟨front, cellId, att, back, split, _, bound⟩ := held _ cert found
  -- Wherever the certificate was placed, the threshold there was three.
  have prefixed : front = namesOfOneKey.take front.length := by simp [split]
  have short : front.length < 4 := by
    have length := congrArg List.length split
    simp [namesOfOneKey] at length
    omega
  have threshold : ∀ count < 4, latticeQuorum (run (call sampleCrypto) (new {})
      (namesOfOneKey.take count)).config.groupSize = 3 := by
    decide +kernel
  rw [prefixed, threshold front.length short, keys] at bound
  omega

end DistinctKeys

section Retention
def signedCells (crypto : Crypto) (calls : List Call) : List LatticeCell :=
  calls.filterMap fun input => match input with
    | .observe (.cell cell) => if cell.verifyAuthorSignature crypto then some cell else none
    | _ => none

variable (crypto : Crypto) (agg : LatticeAggregator) (calls : List Call)

theorem call_retention :
    (call crypto agg input).1.config.retentionRounds = agg.config.retentionRounds := by
  cases input with
  | observe observation =>
    cases observation with
    | cell cell =>
      rcases observeCell_cases crypto agg cell with
        ⟨_, result⟩ | ⟨_, _, result⟩ | ⟨_, _, result⟩ <;> simp [call, observe, result]
    | attestation cellId att =>
      rcases observeAttestation_cases crypto agg cellId att with
        ⟨same, _⟩ | ⟨_, _, _, result⟩ | ⟨_, _, _, result⟩
      · simp [call, observe, same]
      · simp [call, observe, result]
      · simp [call, observe, result]
  | gcOldCells | setGroupSize => rfl

theorem run_retention :
    (run (call crypto) agg calls).config.retentionRounds = agg.config.retentionRounds := by
  apply run_invariant (call crypto)
    (fun state => state.config.retentionRounds = agg.config.retentionRounds)
  · intro state input same
    rw [call_retention, same]
  · rfl

theorem call_highWater_le_iff {bound : Nat} :
    (call crypto agg input).1.highWaterRound ≤ bound ↔
      agg.highWaterRound ≤ bound ∧ ∀ cell ∈ signedCells crypto [input], cell.round ≤ bound := by
  cases input with
  | observe observation =>
    cases observation with
    | cell cell =>
      rcases observeCell_cases crypto agg cell with
        ⟨verified, result⟩ | ⟨verified, _, result⟩ | ⟨verified, _, result⟩ <;>
        simp [call, observe, result, signedCells, verified]
    | attestation cellId att =>
      rcases observeAttestation_cases crypto agg cellId att with
        ⟨same, _⟩ | ⟨_, _, _, result⟩ | ⟨_, _, _, result⟩
      · simp [call, observe, same, signedCells]
      · simp [call, observe, result, signedCells]
      · simp [call, observe, result, signedCells]
  | gcOldCells => simp [call, gcOldCells, signedCells]
  | setGroupSize groupSize => simp [call, setGroupSize, signedCells]

theorem run_highWater_le_iff (bound : Nat) :
    (run (call crypto) agg calls).highWaterRound ≤ bound ↔
      agg.highWaterRound ≤ bound ∧ ∀ cell ∈ signedCells crypto calls, cell.round ≤ bound := by
  induction calls generalizing agg with
  | nil => simp [signedCells]
  | cons input rest ih =>
    have parts : signedCells crypto (input :: rest) =
        signedCells crypto [input] ++ signedCells crypto rest := by
      rw [signedCells, ← List.singleton_append, List.filterMap_append]
      rfl
    rw [run_cons, ih, call_highWater_le_iff, parts]
    simp only [List.mem_append, or_imp, forall_and, and_assoc]

/-- Collection keeps a certified cell exactly when no signed cell of the run,
certified or not, is more than `retentionRounds` ahead of it. -/
theorem gc_keeps_certified_iff (crypto : Crypto) (config : AggregatorConfig)
    (calls : List Call) (key : CellKey) (cert : CellCertificate)
    (found : (run (call crypto) (new config) calls).certified[key]? = some cert) :
    (gcOldCells (run (call crypto) (new config) calls)).1.certified[key]? = some cert ↔
      ∀ cell ∈ signedCells crypto calls, cell.round ≤ key.1 + config.retentionRounds := by
  rw [gcOldCells_certified_iff, run_retention]
  have mark := run_highWater_le_iff crypto (new config) calls (key.1 + config.retentionRounds)
  simp only [new, Nat.zero_le, true_and] at mark
  rw [← mark]
  constructor
  · rintro ⟨_, within⟩
    exact Nat.sub_le_iff_le_add.mp within
  · intro within
    exact ⟨found, Nat.sub_le_iff_le_add.mpr within⟩

theorem gc_keeps_honest_certificate :
    ∃ cert, (run (call sampleCrypto) (new {}) honestQuorum).certified[
        ((7, "alice") : CellKey)]? = some cert ∧
      (gcOldCells (run (call sampleCrypto) (new {}) honestQuorum)).1.certified[
        ((7, "alice") : CellKey)]? = some cert := by
  have present : ((run (call sampleCrypto) (new {}) honestQuorum).certified[
      ((7, "alice") : CellKey)]?).isSome = true := by
    decide +kernel
  obtain ⟨cert, found⟩ := Option.isSome_iff_exists.mp present
  refine ⟨cert, found, (gc_keeps_certified_iff sampleCrypto {} honestQuorum _ cert found).mpr ?_⟩
  decide +kernel

/-- A single signed cell far ahead, never certified, evicts the only certified
cell although it stands at the highest certified round. -/
theorem uncertified_cell_evicts_certified :
    ¬ ∀ (key : CellKey) (cert : CellCertificate),
      (run (call sampleCrypto) (new {})
        (honestQuorum ++ [.observe (.cell (sampleCell 1000 "mallory" [] 9))])).certified[key]? =
          some cert →
      (∀ other ∈ (run (call sampleCrypto) (new {})
        (honestQuorum ++ [.observe (.cell (sampleCell 1000 "mallory" [] 9))])).certified.keys,
          other.1 ≤ key.1 + 64) →
      (gcOldCells (run (call sampleCrypto) (new {}) (honestQuorum ++
          [.observe (.cell (sampleCell 1000 "mallory" [] 9))]))).1.certified[key]? =
          some cert := by
  intro kept
  have present : ((run (call sampleCrypto) (new {})
      (honestQuorum ++ [.observe (.cell (sampleCell 1000 "mallory" [] 9))])).certified[
        ((7, "alice") : CellKey)]?).isSome = true := by
    decide +kernel
  obtain ⟨cert, found⟩ := Option.isSome_iff_exists.mp present
  have survives := kept _ cert found (by decide +kernel)
  have evicted : (gcOldCells (run (call sampleCrypto) (new {}) (honestQuorum ++
        [.observe (.cell (sampleCell 1000 "mallory" [] 9))]))).1.certified[
          ((7, "alice") : CellKey)]? = none := by
    decide +kernel
  rw [evicted] at survives
  cases survives

end Retention

end Savitri.CellCertification
