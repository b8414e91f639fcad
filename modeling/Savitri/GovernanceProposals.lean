import Savitri.ByteWords
import Savitri.HexCodec

/-!
The proposals of governance/proposals.rs and the form in which the storage keeps them.
Addresses are hexadecimal text on one side and bytes on the other, so each conversion can
fail. Times are seconds of the clock, which cannot overflow when a period is added.
-/
namespace Savitri.Governance
abbrev Bytes := List UInt8

def maxDeserializeSize : Nat := 4 * 1024 * 1024
def reviewPeriodSeconds : Nat := 24 * 60 * 60
def votingPeriodSeconds : Nat := 7 * 24 * 60 * 60

inductive ProposalStatus where
  | pending
  | activeVoting
  | approved
  | rejected
  deriving DecidableEq

inductive StorageProposalStatus where
  | pending
  | activeVoting
  | approved
  | rejected
  | executed
  deriving DecidableEq

def ProposalStatus.debug : ProposalStatus → String
  | .pending => "Pending"
  | .activeVoting => "ActiveVoting"
  | .approved => "Approved"
  | .rejected => "Rejected"

def StorageProposalStatus.debug : StorageProposalStatus → String
  | .pending => "Pending"
  | .activeVoting => "ActiveVoting"
  | .approved => "Approved"
  | .rejected => "Rejected"
  | .executed => "Executed"

structure ConnectorConfig where
  maxIngestPerMinute : UInt64
  maxPayloadSize : UInt64
  rateLimitWindowSecs : UInt64

inductive ProposalAction where
  | feeVariation (newBaseFee newMaxFee : Option Nat)
  | projectSelection (projectAddress : String) (amount : Nat)
  | standards (standardName standardVersion : String)
  | nonCore (description : String)
  | contractUpgrade (contractAddress newCodeHash : Bytes) (description : String)
  | slashingParamsUpdate (newMinBondAmount : Option Nat) (newSlashPctEquivocation
      newSlashPctDoubleVote newSlashPctInvalidAttestation : Option UInt16)
  | setFlPolicy (feeTreasuryBps : UInt16) (maxModels : UInt32) (whitelistAggregators : List String)
  | approveFlModel (modelId : String)
  | abortFlRound (modelId : String) (roundId : UInt64)
  | addConnector (connectorId : String) (pubkey : Bytes) (config : ConnectorConfig)
  | removeConnector (connectorId : String)

inductive StorageProposalAction where
  | feeVariation (newBaseFee newMaxFee : Option Nat)
  | projectSelection (projectAddress : Bytes) (amount : Nat)
  | standards (standardName standardVersion : String)
  | contractUpgrade (contractAddress newCodeHash : Bytes) (description : String)
  | nonCore (description : String)
  | setFlPolicy (feeTreasuryBps : UInt16) (maxModels : UInt32) (whitelistAggregators : List Bytes)
  | approveFlModel (modelId : Bytes)
  | abortFlRound (modelId : Bytes) (roundId : UInt64)
  | setBondParams (minBond maxBond : Option Nat)
  | setSlashParams (equivocationPct doubleVotePct invalidAttestationPct : Option UInt16)
  | addConnector (connectorId : String) (pubkey config : Bytes)
  | removeConnector (connectorId : String)
  | slashingParamsUpdate (newMinBondAmount : Option Nat) (newSlashPctEquivocation
      newSlashPctDoubleVote newSlashPctInvalidAttestation : Option UInt16)

structure Proposal where
  id : UInt64
  creator : String
  deposit : Nat
  description : String
  action : ProposalAction
  status : ProposalStatus
  createdAt : Nat
  reviewEnd : Nat
  votingEnd : Nat
  yesVotes : Nat := 0
  noVotes : Nat := 0
  abstainVotes : Nat := 0

structure StorageProposal where
  id : UInt64
  creator : Bytes
  deposit : Nat
  description : String
  action : StorageProposalAction
  status : StorageProposalStatus
  createdAt : Nat
  reviewEnd : Nat
  votingEnd : Nat
  yesVotes : Nat
  noVotes : Nat
  abstainVotes : Nat

/-- `new_with_timestamp`; `new` is the same at the time of the clock. -/
def Proposal.newWithTimestamp (id : UInt64) (creator : String) (deposit : Nat)
    (description : String) (action : ProposalAction) (createdAt : Nat) : Proposal where
  id := id
  creator := creator
  deposit := deposit
  description := description
  action := action
  status := .pending
  createdAt := createdAt
  reviewEnd := createdAt + reviewPeriodSeconds
  votingEnd := createdAt + reviewPeriodSeconds + votingPeriodSeconds

/-- The new proposal, and whether its state changed. -/
def Proposal.transitionStateWithTimestamp (proposal : Proposal) (currentTimestamp : Nat) :
    Proposal × Bool :=
  match proposal.status with
  | .pending =>
    if proposal.reviewEnd ≤ currentTimestamp then
      ({ proposal with status := .activeVoting }, true)
    else (proposal, false)
  | .activeVoting =>
    if proposal.votingEnd ≤ currentTimestamp then
      ({ proposal with status := .rejected }, true)
    else (proposal, false)
  | .approved => (proposal, false)
  | .rejected => (proposal, false)

/-- What other crates do here: the texts of their errors and the encoding of a connector. -/
structure Codec where
  hexError : HexCodec.FromHexError → String
  serializeConfig : ConnectorConfig → Except String Bytes
  deserializeConfig : Bytes → Except String ConnectorConfig

section Conversion
variable (codec : Codec)

def decodeHex (context : String) (digits : Bytes) : Except String Bytes :=
  (HexCodec.decodeBytes digits).mapError fun error => context ++ ": " ++ codec.hexError error

def decodeHexText (context text : String) : Except String Bytes :=
  decodeHex codec context text.toUTF8.toList

def decodeConfig (config : Bytes) : Except String ConnectorConfig :=
  if maxDeserializeSize < config.length then
    .error ("Connector config data too large: " ++ toString config.length ++ " bytes (max " ++
      toString maxDeserializeSize ++ ")")
  else (codec.deserializeConfig config).mapError ("Failed to deserialize config: " ++ ·)

/-- An option that is stored as zero when it is absent. -/
def orZero {Number : Type} [OfNat Number 0] (value : Option Number) : Option Number :=
  some (value.getD 0)

def storageActionToGovernanceAction : StorageProposalAction → Except String ProposalAction
  | .feeVariation newBaseFee newMaxFee =>
    .ok (.feeVariation (orZero newBaseFee) (orZero newMaxFee))
  | .projectSelection projectAddress amount =>
    .ok (.projectSelection (HexCodec.encode projectAddress) amount)
  | .standards standardName standardVersion => .ok (.standards standardName standardVersion)
  | .nonCore description => .ok (.nonCore description)
  | .contractUpgrade contractAddress newCodeHash description => do
    let contractAddress ← decodeHex codec "Invalid contract address" contractAddress
    let newCodeHash ← decodeHex codec "Invalid new_code_hash" newCodeHash
    return .contractUpgrade contractAddress newCodeHash description
  | .slashingParamsUpdate newMinBondAmount equivocation doubleVote invalidAttestation =>
    .ok (.slashingParamsUpdate (orZero newMinBondAmount) (orZero equivocation)
      (orZero doubleVote) (orZero invalidAttestation))
  | .setFlPolicy feeTreasuryBps maxModels whitelistAggregators =>
    .ok (.setFlPolicy feeTreasuryBps maxModels (whitelistAggregators.map HexCodec.encode))
  | .approveFlModel modelId => .ok (.approveFlModel (HexCodec.encode modelId))
  | .abortFlRound modelId roundId => .ok (.abortFlRound (HexCodec.encode modelId) roundId)
  | .addConnector connectorId pubkey config => do
    let config ← decodeConfig codec config
    return .addConnector connectorId pubkey config
  | .removeConnector connectorId => .ok (.removeConnector connectorId)
  | .setBondParams _ _ => .ok (.nonCore "Unknown action type")
  | .setSlashParams _ _ _ => .ok (.nonCore "Unknown action type")

/-- The conversion inside `process_expired_proposals`, which copies addresses of contracts
as they are and knows two more actions. -/
def expiredAction : StorageProposalAction → Except String ProposalAction
  | .contractUpgrade contractAddress newCodeHash description =>
    .ok (.contractUpgrade contractAddress newCodeHash description)
  | .setBondParams minBond maxBond =>
    .ok (.slashingParamsUpdate (orZero (minBond.or maxBond)) none none none)
  | .setSlashParams equivocation doubleVote invalidAttestation =>
    .ok (.slashingParamsUpdate none (orZero equivocation) (orZero doubleVote)
      (orZero invalidAttestation))
  | action => storageActionToGovernanceAction codec action

def governanceActionToStorageAction : ProposalAction → Except String StorageProposalAction
  | .feeVariation newBaseFee newMaxFee =>
    .ok (.feeVariation (orZero newBaseFee) (orZero newMaxFee))
  | .projectSelection projectAddress amount => do
    let projectAddress ← decodeHexText codec "Invalid project address" projectAddress
    return .projectSelection projectAddress amount
  | .standards standardName standardVersion => .ok (.standards standardName standardVersion)
  | .nonCore description => .ok (.nonCore description)
  | .contractUpgrade contractAddress newCodeHash description => do
    let contractAddress ← decodeHex codec "Invalid contract address" contractAddress
    let newCodeHash ← decodeHex codec "Invalid new_code_hash" newCodeHash
    return .contractUpgrade contractAddress newCodeHash description
  | .slashingParamsUpdate newMinBondAmount equivocation doubleVote invalidAttestation =>
    .ok (.slashingParamsUpdate (orZero newMinBondAmount) (orZero equivocation)
      (orZero doubleVote) (orZero invalidAttestation))
  | .setFlPolicy feeTreasuryBps maxModels whitelistAggregators =>
    -- An aggregator that is no hexadecimal text becomes the empty address.
    .ok (.setFlPolicy feeTreasuryBps maxModels (whitelistAggregators.map fun address =>
      (HexCodec.decode address).toOption.getD []))
  | .approveFlModel modelId => do
    let modelId ← decodeHexText codec "Invalid model_id" modelId
    return .approveFlModel modelId
  | .abortFlRound modelId roundId => do
    let modelId ← decodeHexText codec "Invalid model_id" modelId
    return .abortFlRound modelId roundId
  | .addConnector connectorId pubkey config => do
    let config ← (codec.serializeConfig config).mapError ("Failed to serialize config: " ++ ·)
    return .addConnector connectorId pubkey config
  | .removeConnector connectorId => .ok (.removeConnector connectorId)

/-- An executed proposal counts as approved here. -/
def StorageProposalStatus.toGovernance : StorageProposalStatus → ProposalStatus
  | .pending => .pending
  | .activeVoting => .activeVoting
  | .approved => .approved
  | .rejected => .rejected
  | .executed => .approved

def ProposalStatus.toStorage : ProposalStatus → StorageProposalStatus
  | .pending => .pending
  | .activeVoting => .activeVoting
  | .approved => .approved
  | .rejected => .rejected

def storageProposalToGovernanceProposal (stored : StorageProposal) : Except String Proposal := do
  let action ← storageActionToGovernanceAction codec stored.action
  return {
    id := stored.id
    creator := HexCodec.encode stored.creator
    deposit := stored.deposit
    description := stored.description
    action
    status := stored.status.toGovernance
    createdAt := stored.createdAt
    reviewEnd := stored.reviewEnd
    votingEnd := stored.votingEnd
    yesVotes := stored.yesVotes
    noVotes := stored.noVotes
    abstainVotes := stored.abstainVotes }

def governanceProposalToStorageProposal (proposal : Proposal) : Except String StorageProposal := do
  let creator ← decodeHexText codec "Invalid creator" proposal.creator
  let action ← governanceActionToStorageAction codec proposal.action
  return {
    id := proposal.id
    creator
    deposit := proposal.deposit
    description := proposal.description
    action
    status := proposal.status.toStorage
    createdAt := proposal.createdAt
    reviewEnd := proposal.reviewEnd
    votingEnd := proposal.votingEnd
    yesVotes := proposal.yesVotes
    noVotes := proposal.noVotes
    abstainVotes := proposal.abstainVotes }

end Conversion

section
variable {codec : Codec}
variable {proposal : Proposal}

theorem governanceProposalToStorageProposal_keeps {stored : StorageProposal}
    (converted : governanceProposalToStorageProposal codec proposal = .ok stored) :
    stored.id = proposal.id ∧ stored.deposit = proposal.deposit ∧
      stored.status = proposal.status.toStorage := by
  unfold governanceProposalToStorageProposal at converted
  cases creator : decodeHexText codec "Invalid creator" proposal.creator with
  | error text => simp [creator, bind, Except.bind] at converted
  | ok bytes =>
    cases action : governanceActionToStorageAction codec proposal.action with
    | error text => simp [creator, action, bind, Except.bind] at converted
    | ok action =>
      simp only [creator, action, bind, Except.bind, pure, Except.pure, Except.ok.injEq]
        at converted
      subst converted
      exact ⟨rfl, rfl, rfl⟩

theorem storageProposalToGovernanceProposal_keeps {stored : StorageProposal}
    (converted : storageProposalToGovernanceProposal codec stored = .ok proposal) :
    proposal.id = stored.id ∧ proposal.deposit = stored.deposit ∧
      proposal.status = stored.status.toGovernance ∧ proposal.votingEnd = stored.votingEnd := by
  unfold storageProposalToGovernanceProposal at converted
  cases action : storageActionToGovernanceAction codec stored.action with
  | error text => simp [action, bind, Except.bind] at converted
  | ok action =>
    simp only [action, bind, Except.bind, pure, Except.pure, Except.ok.injEq] at converted
    subst converted
    exact ⟨rfl, rfl, rfl, rfl⟩

end

end Savitri.Governance
