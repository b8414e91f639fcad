import Savitri.HexCodec
import Savitri.Votes

/-!
Block proposals of light nodes as a masternode validates and votes on them, from
savitri-masternode/src/proposal_validator.rs. A proposal carries a signature of
its proposer or, from older light nodes, a digest in its place, which is computed
from public fields alone and so binds the proposer to nothing.
Inline transactions are left out: no check reads them.
-/
namespace Savitri.Proposals
open LatticeTypes Votes
variable {now later : UInt64}

structure Scheme extends Crypto where
  parses : PublicKey → Bool
  verifyStrict : PublicKey → List UInt8 → Signature → Bool
  sha256 : List UInt8 → Vector UInt8 32

structure ElectionAttestation where
  signerPeerId : String
  signerPubkey : PublicKey
  signature : Signature
  deriving DecidableEq

structure ElectionCertificate where
  groupId : String
  electionRound : UInt64
  electedProposerPeerId : String
  electedProposerPubkey : PublicKey
  proposerPouScore : UInt32
  timestamp : UInt64
  candidates : List (String × UInt32 × UInt32)
  attestations : List ElectionAttestation
  tenureStartHeight : UInt64
  deriving DecidableEq

structure LightnodeProposal where
  roundId : UInt64
  height : UInt64
  timestamp : UInt64
  proposerPubkey : PublicKey
  blockHash : Digest
  txCount : UInt32
  signature : Signature
  parentHash : Digest
  stateRoot : Digest
  txRoot : Digest
  proposerGroupId : String
  electionCertificate : Option ElectionCertificate
  deriving DecidableEq

def zeroDigest : Digest := Vector.replicate 64 0
def zeroPubkey : PublicKey := Vector.replicate 32 0

variable (scheme : Scheme)
variable (proposal : LightnodeProposal)

def proposalSignableBytes : List UInt8 :=
  toLeBytes 8 proposal.roundId.toNat ++ toLeBytes 8 proposal.height.toNat ++
    toLeBytes 8 proposal.timestamp.toNat ++ proposal.proposerPubkey.toList ++
    proposal.blockHash.toList ++ toLeBytes 4 proposal.txCount.toNat

def legacyData : List UInt8 :=
  toLeBytes 8 proposal.roundId.toNat ++ toLeBytes 8 proposal.height.toNat ++
    toLeBytes 8 proposal.timestamp.toNat ++ proposal.proposerPubkey.toList ++
    proposal.parentHash.toList ++ proposal.stateRoot.toList ++ proposal.txRoot.toList

/-- What the fallback compares the signature with. No key enters but the public one. -/
def legacySignature : Signature :=
  let proposerHex := HexCodec.encode proposal.proposerPubkey.toList
  scheme.sha256 (legacyData proposal) ++ scheme.sha256 proposerHex.toUTF8.toList

/-- The fallback is tried if one of the three optional fields is set. -/
def legacyTried : Bool :=
  proposal.parentHash != zeroDigest || proposal.stateRoot != zeroDigest ||
    proposal.txRoot != zeroDigest

/-- The Ed25519 check, the first of the two. -/
def signatureVerifies : Bool :=
  scheme.verify proposal.proposerPubkey (proposalSignableBytes proposal) proposal.signature

def verifyProposalSignature : Bool :=
  if scheme.parses proposal.proposerPubkey then
    if signatureVerifies scheme proposal then true
    else if legacyTried proposal then legacySignature scheme proposal == proposal.signature
    else false
  else false

theorem verifyProposalSignature_iff {proposal : LightnodeProposal} :
    verifyProposalSignature scheme proposal = true ↔
      scheme.parses proposal.proposerPubkey = true ∧
        (signatureVerifies scheme proposal = true ∨
          legacyTried proposal = true ∧ proposal.signature = legacySignature scheme proposal) := by
  unfold verifyProposalSignature
  by_cases parses : scheme.parses proposal.proposerPubkey = true
  · by_cases verifies : signatureVerifies scheme proposal = true
    · simp [parses, verifies]
    · by_cases tried : legacyTried proposal = true
      · rw [if_pos parses, if_neg verifies, if_pos tried, beq_iff_eq]
        simp only [parses, verifies, tried, true_and]
        simp [eq_comm (a := proposal.signature)]
      · simp [parses, verifies, tried]
  · simp [parses]

/-- The signature is in neither of the two texts that are checked against it. -/
def withSignature (signature : Signature) : LightnodeProposal := { proposal with signature }

/-- Only the first 32 bytes of each root enter the hash. -/
def computeBlockHash (parentHash stateRoot txRoot : Digest) (height : UInt64) : Digest :=
  let padding := List.replicate 32 0
  scheme.sha256 (parentHash.toList ++ (stateRoot.toList.take 32 ++ padding) ++
    (txRoot.toList.take 32 ++ padding) ++ toLeBytes 8 height.toNat) ++ zeroPubkey

/-- The block hash is checked only if all three optional fields are set. -/
def hashMatches : Bool :=
  if proposal.parentHash != zeroDigest && proposal.stateRoot != zeroDigest &&
      proposal.txRoot != zeroDigest then
    proposal.blockHash ==
      computeBlockHash scheme proposal.parentHash proposal.stateRoot proposal.txRoot proposal.height
  else true

/-- The clock is read in seconds, and its sums wrap as `u64` does in a release build. -/
def validateProposal (now : UInt64) (proposal : LightnodeProposal) : Bool :=
  if proposal.height == 0 then false
  else if proposal.txCount > 10000 then false
  else if proposal.timestamp > now + 300 then false
  else if proposal.timestamp < now - 3600 then false
  else if proposal.proposerPubkey == zeroPubkey then false
  else if proposal.blockHash == zeroDigest then false
  else if !hashMatches scheme proposal then false
  else verifyProposalSignature scheme proposal

structure ProposalValidator where
  localPubkey : PublicKey
  sign : List UInt8 → Signature

variable (validator : ProposalValidator)

/-- The signed bytes are those `verify_vote_signature` rebuilds from the vote. -/
def ProposalValidator.approval (proposal : LightnodeProposal) : MasternodeVote :=
  let vote : MasternodeVote :=
    { roundId := proposal.roundId.toNat, height := proposal.height.toNat,
      blockHash := proposal.blockHash, voterPubkey := validator.localPubkey,
      voteType := .approve, signature := zeroDigest, groupId := proposal.proposerGroupId,
      stateRoot := proposal.stateRoot, txRoot := proposal.txRoot,
      parentHash := proposal.parentHash }
  { vote with signature := validator.sign vote.voteData }

/-- The clock is read once by the validation and once more for the vote. Nothing is
remembered of a proposal that was voted on. -/
def voteOnProposal (now later : UInt64) (proposal : LightnodeProposal) : Option MasternodeVote :=
  if validateProposal scheme now proposal then
    if proposal.timestamp > later - 600 && proposal.timestamp < later + 60 then
      some (validator.approval proposal)
    else none
  else none

theorem voteOnProposal_some {validator : ProposalValidator} {proposal : LightnodeProposal}
    {vote : MasternodeVote}
    (voted : voteOnProposal scheme validator now later proposal = some vote) :
    validateProposal scheme now proposal = true ∧ vote = validator.approval proposal := by
  unfold voteOnProposal at voted
  split at voted
  next valid =>
    split at voted
    · exact ⟨valid, (Option.some.inj voted).symm⟩
    · cases voted
  next => cases voted

/-- Acceptance means the proposer signed, whatever the signature field holds, exactly
where the fallback is not tried or its digest is itself a signature of the proposer. -/
theorem accepted_signed_iff (proposal : LightnodeProposal) :
    (∀ signature, verifyProposalSignature scheme (withSignature proposal signature) = true →
        signatureVerifies scheme (withSignature proposal signature) = true) ↔
      (scheme.parses proposal.proposerPubkey = true → legacyTried proposal = true →
        signatureVerifies scheme
          (withSignature proposal (legacySignature scheme proposal)) = true) := by
  constructor
  · intro signed parses tried
    apply signed
    rw [verifyProposalSignature_iff]
    exact ⟨parses, Or.inr ⟨tried, rfl⟩⟩
  · intro digestSigned signature accepted
    rw [verifyProposalSignature_iff] at accepted
    rcases accepted with ⟨parses, verifies | ⟨tried, same⟩⟩
    · exact verifies
    · have isDigest : signature = legacySignature scheme proposal := same
      rw [isDigest]
      exact digestSigned parses tried

def sampleScheme : Scheme where
  toCrypto := sampleCrypto
  parses _ := true
  verifyStrict := sampleCrypto.verify
  sha256 bytes := Vector.replicate 32 (sampleDigest bytes)

def sampleValidator (byte : UInt8) : ProposalValidator where
  localPubkey := sampleKey byte
  sign := sampleSign (sampleKey byte)

/-- A proposal for height 7 with a parent hash and no roots, not signed by anyone. -/
def sampleProposal : LightnodeProposal :=
  { roundId := 1, height := 7, timestamp := 10000, proposerPubkey := sampleKey 9,
    blockHash := Vector.replicate 64 5, txCount := 0, signature := zeroDigest,
    parentHash := Vector.replicate 64 4, stateRoot := zeroDigest, txRoot := zeroDigest,
    proposerGroupId := "", electionCertificate := none }

def forgedProposal : LightnodeProposal :=
  withSignature sampleProposal (legacySignature sampleScheme sampleProposal)

/-- The digest of public fields is accepted and voted for, and it is no signature. -/
theorem forged_proposal_voted :
    verifyProposalSignature sampleScheme forgedProposal = true ∧
      (voteOnProposal sampleScheme (sampleValidator 1) 10000 10000 forgedProposal).isSome = true ∧
      signatureVerifies sampleScheme forgedProposal = false := by
  refine ⟨?_, ?_, ?_⟩ <;> decide +kernel

end Savitri.Proposals
