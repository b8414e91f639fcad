import Savitri.Proposals

/-!
The group consensus of savitri-masternode/src/group_consensus.rs: masternodes propose
groups of light nodes, vote, and mark a proposal approved. Votes reach a proposal's list
by two doors, the node's own vote and the votes of others, and only the second asks
whether the voter is in the list. What the group manager and the clock answer enters with
each call. The leader election, fields that no check reads, and the log are left out.
-/
namespace Savitri.GroupConsensus
open Std (ExtTreeMap)
open Reordering LatticeTypes

inductive GroupStatus where
  | forming
  | active
  | inactive
  | dissolving
  deriving DecidableEq

inductive NodeAssignmentStatus where
  | free
  | assigned (groupId : String)
  deriving DecidableEq

structure LightNodeInfo where
  nodeId : String
  pouScore : Float
  assignment : NodeAssignmentStatus

structure P2PGroup where
  groupId : String
  members : List String
  createdAt : UInt64
  status : GroupStatus
  deriving DecidableEq

structure GroupProposal where
  proposalId : String
  epoch : UInt64
  groups : List P2PGroup
  proposerMasternode : String
  usedLightnodes : List String
  timestamp : UInt64
  signature : Signature
  deriving DecidableEq

inductive GroupVoteType where
  | approve
  | reject
  deriving DecidableEq

structure GroupVote where
  proposalId : String
  voterMasternode : String
  voteType : GroupVoteType
  timestamp : UInt64
  signature : Signature
  deriving DecidableEq

structure GroupApprovalCertificate where
  proposal : GroupProposal
  votes : List GroupVote
  approved : Bool
  approvalTimestamp : UInt64
  masternodeSignatures : List Signature
  deriving DecidableEq

structure BftGroupConfig where
  minMasternodes : Nat := 3
  totalMasternodes : Nat := 3
  voteTimeoutMs : UInt64 := 10000
  minGroupSize : Nat := 5
  maxGroupSize : Nat := 8
  approvalThreshold : Float := 0.67

structure GroupConsensusManager where
  localMasternodeId : String
  bftConfig : BftGroupConfig
  activeProposals : ExtTreeMap String GroupProposal := ∅
  proposalVotes : ExtTreeMap String (List GroupVote) := ∅
  approvedCertificates : ExtTreeMap UInt64 GroupApprovalCertificate := ∅
  availableLightnodes : ExtTreeMap String LightNodeInfo := ∅
  activeMasternodesCount : Nat

def new (localMasternodeId : String) (bftConfig : BftGroupConfig) : GroupConsensusManager :=
  { localMasternodeId, bftConfig, activeMasternodesCount := bftConfig.totalMasternodes }

section
/-- Signing keys are seeds of 32 bytes. -/
structure KeyScheme extends Proposals.Scheme where
  sha512 : List UInt8 → Vector UInt8 64
  verifyingKey : Vector UInt8 32 → PublicKey
  signWith : Vector UInt8 32 → List UInt8 → Signature

variable (scheme : KeyScheme)

/-- The key of a masternode follows from its public id and the epoch. -/
def deriveSigningKey (masternodeId : String) (epoch : UInt64) : Vector UInt8 32 :=
  (scheme.sha512 ("MASTERNODE-KEY".toUTF8.toList ++ masternodeId.toUTF8.toList ++
    toLeBytes 8 epoch.toNat)).take 32

def getMasternodePubkey (masternodeId : String) (epoch : UInt64) : PublicKey :=
  scheme.verifyingKey (deriveSigningKey scheme masternodeId epoch)

def proposalMessage (proposalId : String) (epoch : UInt64) : List UInt8 :=
  (scheme.sha256 (proposalId.toUTF8.toList ++ toLeBytes 8 epoch.toNat)).toList

def voteByte : GroupVoteType → UInt8
  | .approve => 1
  | .reject => 0

def voteMessage (vote : GroupVote) : List UInt8 :=
  (scheme.sha256 (vote.proposalId.toUTF8.toList ++ vote.voterMasternode.toUTF8.toList ++
    voteByte vote.voteType :: toLeBytes 8 vote.timestamp.toNat)).toList

variable (proposal : GroupProposal)

def signGroupProposal (masternodeId : String) : Signature :=
  scheme.signWith (deriveSigningKey scheme masternodeId proposal.epoch)
    (proposalMessage scheme proposal.proposalId proposal.epoch)

def signGroupVote (vote : GroupVote) (epoch : UInt64) : Signature :=
  scheme.signWith (deriveSigningKey scheme vote.voterMasternode epoch) (voteMessage scheme vote)

def verifyEd25519Signature (message : List UInt8) (key : PublicKey) (signature : Signature) : Bool :=
  scheme.parses key && scheme.verify key message signature

/-- One vote of the loop, with the signatures and the voters collected so far. -/
def collectVote (epoch : UInt64) (collected : List Signature × List String) (vote : GroupVote) :
    List Signature × List String :=
  if vote.voteType ≠ .approve then collected
  else if collected.2.contains vote.voterMasternode then collected
  else if verifyEd25519Signature scheme (voteMessage scheme vote)
      (getMasternodePubkey scheme vote.voterMasternode epoch) vote.signature then
    (collected.1 ++ [vote.signature], vote.voterMasternode :: collected.2)
  else collected

def collectMasternodeSignatures (votes : List GroupVote) : List Signature :=
  let proposer := if verifyEd25519Signature scheme
      (proposalMessage scheme proposal.proposalId proposal.epoch)
      (getMasternodePubkey scheme proposal.proposerMasternode proposal.epoch)
      proposal.signature
    then ([proposal.signature], [proposal.proposerMasternode]) else ([], [])
  (votes.foldl (collectVote scheme proposal.epoch) proposer).1

end

/-- `f64::ceil` and the cast to `usize`: the whole part, one more where something is cut
off. The cast takes a NaN and what is negative to zero and stops at the greatest value. -/
def ceilAsUsize (value : Float) : Nat :=
  let whole := value.toUInt64
  if whole.toFloat < value then min (whole.toNat + 1) (2 ^ 64 - 1) else whole.toNat

variable (manager : GroupConsensusManager)

def updateActiveMasternodesCount (connectedPeers : Nat) : GroupConsensusManager :=
  { manager with
    activeMasternodesCount :=
      min (max (connectedPeers + 1) manager.bftConfig.minMasternodes)
        manager.bftConfig.totalMasternodes }

def calculateDynamicQuorum : Option (Nat × Nat) :=
  let active := manager.activeMasternodesCount
  let config := manager.bftConfig
  if active < config.minMasternodes then none
  else
    some (max (ceilAsUsize (active.toFloat * config.approvalThreshold)) config.minMasternodes,
      active)

def approvals (votes : List GroupVote) : List GroupVote :=
  votes.filter fun vote => vote.voteType = .approve

/-- The share of the approving votes among the votes that came, not among the
masternodes. -/
def approved (config : BftGroupConfig) (votes : List GroupVote) : Bool :=
  (approvals votes).length.toFloat / votes.length.toFloat ≥ config.approvalThreshold

section
variable (scheme : KeyScheme)

structure View where
  epoch : UInt64
  activeGroups : List P2PGroup := []

variable (manager : GroupConsensusManager)

def avgPouScore (members : List String) : Float :=
  if members.isEmpty then 0
  else
    ((members.filterMap fun member => manager.availableLightnodes[member]?).foldl
      (fun total info => total + info.pouScore) 0) / members.length.toFloat

def overlapRatio (proposed existing : List String) : Float :=
  let proposedSet := proposed.dedup
  (proposedSet.filter existing.contains).length.toFloat / (max proposedSet.length 1).toFloat

def contestHash (groupId : String) (time : UInt64) : List UInt8 :=
  (scheme.sha256 (groupId ++ "|" ++ toString time.toNat).toUTF8.toList).toList

variable (proposal : GroupProposal)

/-- More than a fifth in common is a conflict, won by the greater average score and in a
tie by the smaller hash. -/
def withstands (proposed existing : P2PGroup) : Bool :=
  if overlapRatio proposed.members existing.members > 0.20 then
    let proposedPou := avgPouScore manager proposed.members
    let existingPou := avgPouScore manager existing.members
    if proposedPou > existingPou then true
    else if proposedPou < existingPou then false
    else contestHash scheme proposed.groupId proposal.timestamp <
      contestHash scheme existing.groupId existing.createdAt
  else true

def missingCount : Nat :=
  (proposal.usedLightnodes.filter fun node => !manager.availableLightnodes.contains node).length

def validateProposal (view : View) (manager : GroupConsensusManager) (proposal : GroupProposal) :
    Bool :=
  let config := manager.bftConfig
  let missing := missingCount manager proposal
  if proposal.epoch != view.epoch then false
  else if proposal.groups.any fun group =>
      group.members.length < config.minGroupSize || group.members.length > config.maxGroupSize then
    false
  else if missing > 0 &&
      missing.toFloat / (max proposal.usedLightnodes.length 1).toFloat > 0.10 then false
  else
    proposal.groups.all fun proposed =>
      view.activeGroups.all fun existing => withstands scheme manager proposal proposed existing

end

section
variable (scheme : KeyScheme)
variable (manager : GroupConsensusManager)

def initializeAvailableLightnodes (registered : List LightNodeInfo) : GroupConsensusManager :=
  { manager with
    availableLightnodes := registered.foldl (fun available node =>
      if node.assignment = .free then available.insert node.nodeId node else available)
      manager.availableLightnodes }

def initializeAvailableLightnodesBatch (newNodes : List LightNodeInfo) : GroupConsensusManager :=
  { manager with
    availableLightnodes := newNodes.foldl (fun available node =>
      if available.contains node.nodeId then available else available.insert node.nodeId node)
      manager.availableLightnodes }

def withoutLightnodes (used : List String) : GroupConsensusManager :=
  { manager with availableLightnodes := used.foldl ExtTreeMap.erase manager.availableLightnodes }

def insertProposal (proposal : GroupProposal) : GroupConsensusManager :=
  { manager with
    activeProposals := manager.activeProposals.insert proposal.proposalId proposal }

/-- What `create_and_propose_groups` is answered: the groups there are, the groups that
can be formed, two readings of the clock, and the order of a hash set. -/
structure Formation where
  existing : List P2PGroup
  epoch : UInt64
  formed : Except String (List P2PGroup)
  namedAt : UInt64
  stampedAt : UInt64
  order : Shuffle String

def allHealthy (existing : List P2PGroup) : Bool :=
  existing.all fun group => group.status == .active && decide (5 ≤ group.members.length)

/-- The proposal is stored and no vote is. -/
def createAndProposeGroups (answers : Formation) (manager : GroupConsensusManager) :
    GroupConsensusManager × Except String (Option GroupProposal) :=
  if manager.availableLightnodes.size < manager.bftConfig.minGroupSize then (manager, .ok none)
  else if !answers.existing.isEmpty && allHealthy answers.existing then (manager, .ok none)
  else match answers.formed with
    | .error reason => (manager, .error reason)
    | .ok groups =>
      let used := answers.order.order (groups.flatMap P2PGroup.members).dedup
      if groups.isEmpty || decide (used.length < manager.bftConfig.minGroupSize) then
        (manager, .ok none)
      else
        let proposal : GroupProposal :=
          { proposalId := "group_proposal_" ++ toString answers.epoch.toNat ++ "_" ++
              manager.localMasternodeId ++ "_" ++ toString answers.namedAt.toNat
            epoch := answers.epoch, groups, proposerMasternode := manager.localMasternodeId
            usedLightnodes := used, timestamp := answers.stampedAt
            signature := Vector.replicate 64 0 }
        let signed := { proposal with
          signature := signGroupProposal scheme proposal manager.localMasternodeId }
        (withoutLightnodes (insertProposal manager signed) used, .ok (some signed))

/-- The node's own vote is appended whatever the list holds. -/
def pushVote (vote : GroupVote) : GroupConsensusManager :=
  { manager with
    proposalVotes := manager.proposalVotes.insert vote.proposalId
      ((manager.proposalVotes[vote.proposalId]?.getD []) ++ [vote]) }

def hasVoted (proposalId voter : String) : Bool :=
  (manager.proposalVotes[proposalId]?.getD []).any fun vote => vote.voterMasternode == voter

/-- The vote of another node is appended if the list has none under that name. -/
def storeVote (vote : GroupVote) : GroupConsensusManager :=
  if hasVoted manager vote.proposalId vote.voterMasternode then manager
  else pushVote manager vote

def closeProposal (proposalId : String) : GroupConsensusManager :=
  { manager with
    activeProposals := manager.activeProposals.erase proposalId
    proposalVotes := manager.proposalVotes.erase proposalId }

variable (certificate : GroupApprovalCertificate)

def insertCertificate : GroupConsensusManager :=
  { manager with
    approvedCertificates :=
      manager.approvedCertificates.insert certificate.proposal.epoch certificate }

def expired (config : BftGroupConfig) (now : UInt64) (proposal : GroupProposal) : Bool :=
  config.voteTimeoutMs.toNat / 1000 * 2 < now.toNat - proposal.timestamp.toNat

variable (now : UInt64)

/-- All votes are compared with the required number, and the share of the approving ones
among them with the threshold. -/
def checkProposalConsensus (manager : GroupConsensusManager) (proposalId : String) :
    GroupConsensusManager × Option GroupApprovalCertificate :=
  match manager.activeProposals[proposalId]?, manager.proposalVotes[proposalId]? with
  | some proposal, some votes =>
    match calculateDynamicQuorum manager with
    | none => (manager, none)
    | some (required, _) =>
      if required ≤ votes.length then
        if approved manager.bftConfig votes then
          let certificate : GroupApprovalCertificate :=
            { proposal, votes, approved := true, approvalTimestamp := now
              masternodeSignatures := collectMasternodeSignatures scheme proposal votes }
          (closeProposal (insertCertificate manager certificate) proposalId, some certificate)
        else (manager, none)
      else if expired manager.bftConfig now proposal then
        (closeProposal manager proposalId, none)
      else (manager, none)
  | _, _ => (manager, none)

/-- A certificate is stored on its own word, and the groups it names are handed to the
group manager as active. -/
def processApprovalCertificate : GroupConsensusManager × List P2PGroup :=
  if certificate.approved then
    (withoutLightnodes (insertCertificate manager certificate)
        certificate.proposal.usedLightnodes,
      certificate.proposal.groups.map fun group => { group with status := .active })
  else (manager, [])

/-- What a call returns, the certificate it marked, and the groups it made active. -/
structure Reply where
  proposal : Except String (Option GroupProposal) := .ok none
  vote : Option (Except String GroupVote) := none
  certificate : Option GroupApprovalCertificate := none
  activated : List P2PGroup := []

/-- What one `process_proposal` is answered: the three validations, the registered light
nodes between the first two, the clock at the vote and at the check, and what the group
manager and the distributor make of the approved groups. -/
structure Answers where
  first : View
  registered : List LightNodeInfo
  second : View
  third : View
  votedAt : UInt64
  checkedAt : UInt64
  handover : Except String Unit := .ok ()

def localVote (proposal : GroupProposal) (approve : Bool) : GroupVote :=
  let vote : GroupVote :=
    { proposalId := proposal.proposalId, voterMasternode := manager.localMasternodeId
      voteType := if approve then .approve else .reject
      timestamp := now, signature := Vector.replicate 64 0 }
  { vote with signature := signGroupVote scheme vote proposal.epoch }

variable (answers : Answers)

def voteOnProposal (manager : GroupConsensusManager) (proposal : GroupProposal) (approve : Bool) :
    GroupConsensusManager × Reply :=
  if validateProposal scheme answers.third manager proposal then
    let vote := localVote scheme manager answers.votedAt proposal approve
    let checked := checkProposalConsensus scheme answers.checkedAt (pushVote manager vote)
      proposal.proposalId
    match checked.2 with
    | some certificate =>
      let processed := processApprovalCertificate checked.1 certificate
      (processed.1,
        { vote := some (answers.handover.map fun _ => vote), certificate := some certificate
          activated := processed.2 })
    | none => (checked.1, { vote := some (.ok vote) })
  else (manager, { vote := some (.error "Invalid proposal") })

/-- The manager as it votes, and whether the vote approves. A proposal that fails the
first validation is looked at again with a fresh list of light nodes. -/
def review (manager : GroupConsensusManager) (proposal : GroupProposal) :
    GroupConsensusManager × Bool :=
  let manager := insertProposal manager proposal
  if validateProposal scheme answers.first manager proposal then (manager, true)
  else
    let refreshed := initializeAvailableLightnodes manager answers.registered
    (refreshed, validateProposal scheme answers.second refreshed proposal)

def processProposal (manager : GroupConsensusManager) (proposal : GroupProposal) :
    GroupConsensusManager × Reply :=
  let reviewed := review scheme answers manager proposal
  voteOnProposal scheme answers reviewed.1 proposal reviewed.2

def processVote (manager : GroupConsensusManager) (vote : GroupVote) : GroupConsensusManager × Reply :=
  let checked := checkProposalConsensus scheme now (storeVote manager vote) vote.proposalId
  (checked.1, { certificate := checked.2 })

inductive Call where
  | processProposal (answers : Answers) (proposal : GroupProposal)
  | processVote (now : UInt64) (vote : GroupVote)
  | processApprovalCertificate (certificate : GroupApprovalCertificate)
  | createAndProposeGroups (answers : Formation)
  | updateActiveMasternodesCount (connectedPeers : Nat)
  | initializeAvailableLightnodes (registered : List LightNodeInfo)
  | initializeAvailableLightnodesBatch (newNodes : List LightNodeInfo)

def step : Call → GroupConsensusManager × Reply
  | .processProposal answers proposal => processProposal scheme answers manager proposal
  | .processVote now vote => processVote scheme now manager vote
  | .processApprovalCertificate certificate =>
    let processed := processApprovalCertificate manager certificate
    (processed.1, { activated := processed.2 })
  | .createAndProposeGroups answers =>
    let created := createAndProposeGroups scheme answers manager
    (created.1, { proposal := created.2 })
  | .updateActiveMasternodesCount connectedPeers =>
    (updateActiveMasternodesCount manager connectedPeers, {})
  | .initializeAvailableLightnodes registered =>
    (initializeAvailableLightnodes manager registered, {})
  | .initializeAvailableLightnodesBatch newNodes =>
    (initializeAvailableLightnodesBatch manager newNodes, {})

end

end Savitri.GroupConsensus
