import Savitri.ByteWords
import Savitri.Proposals

/-!
Election certificates of light-node groups, as a masternode checks them before it
takes a proposal: `verify_proposal_group_and_certificate` of
savitri-masternode/src/proposal_validator.rs. The attesters sign the id of the
elected proposer. Neither the proposer's key nor the key that belongs to an
attester's id is tied to anything, and an attester that occurs twice counts twice.
-/
namespace Savitri.ElectionCertificates
open LatticeTypes MachineInt Proposals
variable {groupMembers : List String}

/-- The escapes of `serde_json`; bytes above 127 are kept, as UTF-8 is. -/
def escapeByte (byte : UInt8) : List UInt8 :=
  if byte = 34 then [92, 34]
  else if byte = 92 then [92, 92]
  else if byte = 8 then [92, 98]
  else if byte = 9 then [92, 116]
  else if byte = 10 then [92, 110]
  else if byte = 12 then [92, 102]
  else if byte = 13 then [92, 114]
  else if byte < 32 then [92, 117, 48, 48] ++ (HexCodec.encode [byte]).toUTF8.toList
  else [byte]

def text (content : String) : List UInt8 := content.toUTF8.toList

def jsonString (content : String) : List UInt8 := 34 :: (text content).flatMap escapeByte ++ [34]

def jsonNat (value : Nat) : List UInt8 := text (toString value)

def jsonCandidate (candidate : String × UInt32 × UInt32) : List UInt8 :=
  text "[" ++ jsonString candidate.1 ++ text "," ++ jsonNat candidate.2.1.toNat ++ text "," ++
    jsonNat candidate.2.2.toNat ++ text "]"

def jsonCandidates (candidates : List (String × UInt32 × UInt32)) : List UInt8 :=
  text "[" ++ ((candidates.map jsonCandidate).intersperse (text ",")).flatten ++ text "]"

variable (cert : ElectionCertificate)

/-- `Signable`: neither the proposer's key nor the time is among its fields. -/
def signable (sender : String) : List UInt8 :=
  text "\x7b\"round\":" ++ jsonNat cert.electionRound.toNat ++
    text ",\"elected_proposer\":" ++ jsonString cert.electedProposerPeerId ++
    text ",\"proposer_pou_score\":" ++ jsonNat cert.proposerPouScore.toNat ++
    text ",\"sender\":" ++ jsonString sender ++
    text ",\"group_id\":" ++ jsonString cert.groupId ++
    text ",\"candidates\":" ++ jsonCandidates cert.candidates ++
    text ",\"tenure_start_height\":" ++ jsonNat cert.tenureStartHeight.toNat ++ text "\x7d"

def payload (sender : String) : List UInt8 :=
  text "savitri-intragroup-v1|" ++ text "election_result" ++ text "|" ++ text cert.groupId ++
    text "|" ++ signable cert sender

def proposerTenureBlocks : Nat := 100
def minFloorAttestations : Nat := 3

variable (scheme : Scheme)

/-- An attester outside the roster is logged and its signature checked all the same. -/
def attestationVerifies (cert : ElectionCertificate) (attestation : ElectionAttestation) : Bool :=
  scheme.parses attestation.signerPubkey &&
    scheme.verifyStrict attestation.signerPubkey (payload cert attestation.signerPeerId)
      attestation.signature

def inTenure (height : UInt64) : Bool :=
  decide (cert.tenureStartHeight ≤ height) &&
    decide (height.toNat < saturatingAdd u64Max cert.tenureStartHeight.toNat proposerTenureBlocks)

def validSigners (groupMembers : List String) (cert : ElectionCertificate) : Nat :=
  cert.attestations.countP fun attestation => groupMembers.contains attestation.signerPeerId

def attestationQuorum (groupSize : Nat) : Nat := 2 * ((groupSize - 1) / 3) + 1

/-- `SAVITRI_FALLA3_DISABLE` is on unless it is set to `0` or `false`. -/
def verifyProposalGroupAndCertificate (falla3Disabled : Bool) (proposal : LightnodeProposal)
    (groupMembers : List String) : Bool :=
  if proposal.proposerGroupId.isEmpty then false
  else
    match proposal.electionCertificate with
    | none => false
    | some cert =>
      if !falla3Disabled && !inTenure cert proposal.height then false
      else if cert.groupId != proposal.proposerGroupId then false
      else if cert.electedProposerPubkey != proposal.proposerPubkey then false
      else if !cert.attestations.all (attestationVerifies scheme cert) then false
      else if cert.attestations.isEmpty then false
      else if groupMembers.isEmpty then
        decide (minFloorAttestations ≤ cert.attestations.length)
      else decide (attestationQuorum groupMembers.length ≤ validSigners groupMembers cert)

section
-- Which key belongs to a peer.
variable (keyOf : String → PublicKey)

def AttestedBy (signer : String) : Prop :=
  ∃ attestation ∈ cert.attestations, attestation.signerPeerId = signer ∧
    scheme.verifyStrict (keyOf signer) (payload cert signer) attestation.signature = true

instance (signer : String) : Decidable (AttestedBy cert scheme keyOf signer) :=
  inferInstanceAs (Decidable (∃ attestation ∈ cert.attestations, _ ∧ _))

/-- What the signer signs says which key was elected: for another key it is another text. -/
def NamesKey (signer : String) : Prop :=
  ∀ key, payload { cert with electedProposerPubkey := key } signer = payload cert signer →
    key = cert.electedProposerPubkey

/-- A quorum of distinct roster members attested, each under its own key, to the elected
proposer and its key. -/
def Attested (groupMembers : List String) : Prop :=
  ∃ signers ⊆ groupMembers.toFinset, attestationQuorum groupMembers.length ≤ signers.card ∧
    ∀ signer ∈ signers, AttestedBy cert scheme keyOf signer ∧ NamesKey cert signer

variable {cert scheme keyOf}

theorem Attested.signer (attested : Attested cert scheme keyOf groupMembers) :
    ∃ signer ∈ groupMembers, AttestedBy cert scheme keyOf signer ∧ NamesKey cert signer := by
  obtain ⟨signers, roster, enough, each⟩ := attested
  have some : 0 < signers.card := by
    unfold attestationQuorum at enough
    omega
  obtain ⟨signer, member⟩ := Finset.card_pos.mp some
  exact ⟨signer, List.mem_toFinset.mp (roster member), each signer member⟩

theorem not_namesKey {signer : String} : ¬ NamesKey cert signer := by
  intro names
  have zero := names (Vector.replicate 32 0) rfl
  have one := names (Vector.replicate 32 1) rfl
  exact absurd (zero.trans one.symm) (by decide)

end

def rekeyed (proposal : LightnodeProposal) (key : PublicKey) : LightnodeProposal :=
  { proposal with
    proposerPubkey := key
    electionCertificate := proposal.electionCertificate.map fun cert =>
      { cert with electedProposerPubkey := key } }

theorem verify_rekeyed {falla3Disabled : Bool} {proposal : LightnodeProposal} {key : PublicKey}
    (accepts : verifyProposalGroupAndCertificate scheme falla3Disabled proposal groupMembers = true) :
    verifyProposalGroupAndCertificate scheme falla3Disabled (rekeyed proposal key) groupMembers =
      true := by
  cases carried : proposal.electionCertificate with
  | none => simp [verifyProposalGroupAndCertificate, carried] at accepts
  | some cert =>
    have sameCheck : attestationVerifies scheme { cert with electedProposerPubkey := key } =
        attestationVerifies scheme cert := rfl
    have sameTenure : inTenure { cert with electedProposerPubkey := key } = inTenure cert := rfl
    have sameCount : validSigners groupMembers { cert with electedProposerPubkey := key } =
        validSigners groupMembers cert := rfl
    simp only [verifyProposalGroupAndCertificate, carried] at accepts
    simp only [verifyProposalGroupAndCertificate, rekeyed, carried, Option.map_some, sameCheck,
      sameTenure, sameCount, bne_self_eq_false]
    grind

def directory (peer : String) : PublicKey :=
  if peer = "a" then sampleKey 1 else if peer = "b" then sampleKey 2
  else if peer = "c" then sampleKey 3 else if peer = "d" then sampleKey 4 else sampleKey 99

def sampleElection : ElectionCertificate :=
  { groupId := "group_1_0_1", electionRound := 3, electedProposerPeerId := "d",
    electedProposerPubkey := directory "d", proposerPouScore := 10, timestamp := 0,
    candidates := [("d", 10, 20)], attestations := [], tenureStartHeight := 0 }

def attestBy (key : PublicKey) (peer : String) : ElectionAttestation :=
  { signerPeerId := peer, signerPubkey := key,
    signature := sampleSign key (payload sampleElection peer) }

def electing (attestations : List ElectionAttestation) : LightnodeProposal :=
  { sampleProposal with
    proposerPubkey := directory "d", proposerGroupId := "group_1_0_1",
    electionCertificate := some { sampleElection with attestations } }

def honestAttestations : List ElectionAttestation :=
  ["a", "b", "c"].map fun peer => attestBy (directory peer) peer

def Misattested (groupMembers : List String) (proposal : LightnodeProposal) : Prop :=
  verifyProposalGroupAndCertificate sampleScheme true proposal groupMembers = true ∧
    ∃ cert, proposal.electionCertificate = some cert ∧
      ¬ Attested cert sampleScheme directory groupMembers

end Savitri.ElectionCertificates
