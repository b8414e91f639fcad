import Savitri.FaultyStore
import Savitri.GovernanceProposals
import Savitri.PairOrder

/-!
Voting of governance/voting.rs, the deposits of governance/deposit.rs and the part of the
storage they work on. Tokens are locked by taking them off a balance, and the status of a
proposal is written last: `unlock_vote_tokens` still finds the old one.
`next_proposal_id` only reads the counter. Metrics are left out.
-/
namespace Savitri.Governance
open Std (ExtTreeMap)
open Fallible FaultyStore MachineInt PairOrder

abbrev Address := Vector UInt8 32

inductive VoteType where
  | yes
  | no
  | abstain

instance voteKeyTransCmp : Std.TransCmp (@pairCompare Bytes UInt64 _ _) := inferInstance

structure Vote where
  proposalId : UInt64
  voter : Bytes
  voteType : VoteType
  voteAmount : Nat
  timestamp : Nat

structure Storage where
  voteTokens : ExtTreeMap Bytes Nat := ∅
  totalVoteTokens : Nat := 0
  nextId : Option UInt64 := none
  proposals : ExtTreeMap UInt64 StorageProposal := ∅
  votes : ExtTreeMap (Bytes × UInt64) Vote pairCompare := ∅
  lockedTokens : ExtTreeMap Bytes Nat := ∅

def Storage.balance (storage : Storage) (address : Bytes) : Nat :=
  storage.voteTokens[address]?.getD 0

abbrev Governed (Out : Type) := Action (World Storage) Out

variable (address : Bytes)

def getVoteTokenBalance : Governed Nat := read (·.balance address)

def incrementVoteTokenBalance (amount : Nat) : Governed Unit := do
  let current ← getVoteTokenBalance address
  write fun storage => { storage with
    voteTokens := storage.voteTokens.insert address (saturatingAdd u128Max current amount) }

def decrementVoteTokenBalance (amount : Nat) : Governed Unit := do
  let current ← getVoteTokenBalance address
  write fun storage => { storage with
    voteTokens := storage.voteTokens.insert address (current - amount) }

def getTotalVoteTokens : Governed Nat := read (·.totalVoteTokens)

def nextProposalId : Governed UInt64 := read (·.nextId.getD 1)

variable (proposalId : UInt64) (proposal : StorageProposal)

def putProposal : Governed Unit :=
  write fun storage => { storage with proposals := storage.proposals.insert proposalId proposal }

def getProposal : Governed (Option StorageProposal) := read (·.proposals[proposalId]?)

def getVote (voter : Bytes) (proposalId : UInt64) : Governed (Option Vote) :=
  read (·.votes[(voter, proposalId)]?)

def putVote (voter : Bytes) (proposalId : UInt64) (vote : Vote) : Governed Unit :=
  write fun storage => { storage with votes := storage.votes.insert (voter, proposalId) vote }

def getAvailableVoteTokens : Governed Nat := getVoteTokenBalance address

def getLockedVoteTokens : Governed Nat := read fun storage => storage.lockedTokens[address]?.getD 0

def getProposalVotes : Governed (List Vote) :=
  read fun storage => (storage.votes.toList.filter fun entry => entry.1.2 == proposalId).map Prod.snd

def getAllProposals : Governed (List UInt64) := read (·.proposals.keys)

structure Env extends Codec where
  proposalSize : StorageProposal → Nat
  voteSize : Vote → Nat

def checkedAdd (left right : Nat) : Option Nat :=
  if left + right ≤ u128Max then some (left + right) else none

def checkedMul (left right : Nat) : Option Nat :=
  if left * right ≤ u128Max then some (left * right) else none

def calculateQuorum (totalVoteTokens : Nat) : Nat := totalVoteTokens / 5

def isQuorumReached (totalVotes totalVoteTokens : Nat) : Bool :=
  totalVoteTokens != 0 && calculateQuorum totalVoteTokens ≤ totalVotes

def calculateApprovalThreshold (totalValidVotes : Nat) : Nat :=
  ((checkedMul totalValidVotes 65).map (· / 100)).getD u128Max

def isApprovalReached (yesVotes noVotes : Nat) : Bool :=
  let totalValidVotes := (checkedAdd yesVotes noVotes).getD u128Max
  totalValidVotes != 0 && calculateApprovalThreshold totalValidVotes ≤ yesVotes

def totalVotes : Except String Nat :=
  match (checkedAdd proposal.yesVotes proposal.noVotes).bind (checkedAdd · proposal.abstainVotes) with
  | some total => .ok total
  | none => .error "total votes overflow"

def proposalResult (totalVotes totalVoteTokens : Nat) : ProposalStatus :=
  if !isQuorumReached totalVotes totalVoteTokens then .rejected
  else if isApprovalReached proposal.yesVotes proposal.noVotes then .approved
  else .rejected

section
variable (env : Env)
variable (proposalId : UInt64)

def loadProposal : Governed StorageProposal := do
  let data ← getProposal proposalId
  let proposal ← present data ("Proposta " ++ toString proposalId ++ " non trovata")
  require (env.proposalSize proposal ≤ maxDeserializeSize)
    ("Proposal data too large: " ++ toString (env.proposalSize proposal) ++ " bytes (max " ++
      toString maxDeserializeSize ++ ")")
  return proposal

def calculateMinDeposit (totalVoteTokens : Nat) : Nat :=
  ((checkedMul totalVoteTokens 5).map (· / 100)).getD u128Max

def isDepositSufficient (deposit totalVoteTokens : Nat) : Bool :=
  totalVoteTokens != 0 && calculateMinDeposit totalVoteTokens ≤ deposit

/-- The deposit is taken before the proposal is converted and stored. -/
def createProposal (creator : Address) (deposit : Nat) (description : String)
    (action : ProposalAction) (now : Nat) : Governed Proposal := do
  let totalVoteTokens ← getTotalVoteTokens
  require (isDepositSufficient deposit totalVoteTokens)
    ("Deposit insufficiente: richiesto almeno " ++ toString (calculateMinDeposit totalVoteTokens) ++
      " vote token (5% di " ++ toString totalVoteTokens ++ "), forniti " ++ toString deposit)
  let creatorBalance ← getVoteTokenBalance creator.toList
  require (deposit ≤ creatorBalance)
    ("Balance insufficiente: creator ha " ++ toString creatorBalance ++
      " vote token, richiesti " ++ toString deposit)
  decrementVoteTokenBalance creator.toList deposit
  let proposalId ← nextProposalId
  let proposal := Proposal.newWithTimestamp proposalId (HexCodec.encode creator.toList) deposit
    description action now
  let stored ← lift (governanceProposalToStorageProposal env.toCodec proposal)
  putProposal stored.id stored
  return proposal

def refuseVote (voter : Address) (availableTokens voteAmount : Nat) : Governed Unit := do
  let locked ← getLockedVoteTokens voter.toList
  let totalBalance ← getVoteTokenBalance voter.toList
  fail ("Vote token disponibili insufficienti: voter ha " ++ toString totalBalance ++
    " vote token totali (" ++ toString locked ++ " locked in altre proposte), disponibili " ++
    toString availableTokens ++ ", richiesti " ++ toString voteAmount)

variable (proposal : StorageProposal)

def addVote (voteType : VoteType) (voteAmount : Nat) : Except String StorageProposal :=
  match voteType with
  | .yes =>
    match checkedAdd proposal.yesVotes voteAmount with
    | some yesVotes => .ok { proposal with yesVotes }
    | none => .error "yes_votes overflow"
  | .no =>
    match checkedAdd proposal.noVotes voteAmount with
    | some noVotes => .ok { proposal with noVotes }
    | none => .error "no_votes overflow"
  | .abstain =>
    match checkedAdd proposal.abstainVotes voteAmount with
    | some abstainVotes => .ok { proposal with abstainVotes }
    | none => .error "abstain_votes overflow"

def vote (voter : Address) (voteType : VoteType) (voteAmount now : Nat) : Governed Unit := do
  require (voteAmount != 0) "Vote amount deve essere maggiore di zero"
  let proposal ← loadProposal env proposalId
  require (proposal.status = .activeVoting)
    ("Proposta non in votazione attiva: stato corrente è " ++ proposal.status.debug)
  require (now < proposal.votingEnd) "Proposta scaduta: voting period terminato"
  let earlier ← getVote voter.toList proposalId
  require earlier.isNone "Voter ha già votato su questa proposta"
  let availableTokens ← getAvailableVoteTokens voter.toList
  if availableTokens < voteAmount then
    refuseVote voter availableTokens voteAmount
  else
    decrementVoteTokenBalance voter.toList voteAmount
    putVote voter.toList proposalId
      { proposalId, voter := voter.toList, voteType, voteAmount, timestamp := now }
    let updated ← lift (addVote proposal voteType voteAmount)
    putProposal proposalId updated

def checkVoteSizes : List Vote → Governed Unit
  | [] => pure ()
  | vote :: rest => do
    require (env.voteSize vote ≤ maxDeserializeSize)
      ("Vote data too large: " ++ toString (env.voteSize vote) ++ " bytes (max " ++
        toString maxDeserializeSize ++ ")")
    checkVoteSizes rest

def returnVotes : List Vote → Governed Unit
  | [] => pure ()
  | vote :: rest => do
    incrementVoteTokenBalance vote.voter vote.voteAmount
    returnVotes rest

def unlockVoteTokens : Governed Unit := do
  let proposal ← loadProposal env proposalId
  require (proposal.status = .approved || proposal.status = .rejected)
    ("Proposta non finalizzata: stato corrente è " ++ proposal.status.debug)
  let votes ← getProposalVotes proposalId
  checkVoteSizes env votes
  returnVotes votes

def unlockDeposit (proposal : Proposal) : Governed Unit := do
  require (proposal.status = .approved)
    ("Non è possibile sbloccare il deposit: proposta non è in the stato Approved (stato attuale: " ++
      proposal.status.debug ++ ")")
  if proposal.deposit = 0 then pure ()
  else
    let creator ← withContext
      "Errore nel parsing of the address of the creator (non è un hex valido)"
      (lift ((HexCodec.decode proposal.creator).mapError env.hexError))
    require (creator.length = 32)
      ("Invalid creator address: length " ++ toString creator.length ++ " instead of 32 bytes")
    withContext "Errore durante l'unlock of the deposit"
      (incrementVoteTokenBalance creator proposal.deposit)

/-- Nothing moves: the deposit left the balance when the proposal was made. -/
def burnDeposit (proposal : Proposal) : Governed Unit :=
  require (proposal.status = .rejected)
    ("Non è possibile bruciare il deposit: proposta non è in the stato Rejected (stato attuale: " ++
      proposal.status.debug ++ ")")

def calculateProposalResultFromStorage : Governed ProposalStatus := do
  let proposal ← loadProposal env proposalId
  let votes ← lift (totalVotes proposal)
  let totalVoteTokens ← getTotalVoteTokens
  return proposalResult proposal votes totalVoteTokens

def settleDeposit (result : ProposalStatus) (proposal : Proposal) : Governed Unit :=
  match result with
  | .approved => do
    unlockDeposit env proposal
    unlockVoteTokens env proposal.id
  | .rejected => do
    burnDeposit proposal
    unlockVoteTokens env proposal.id
  | _ => pure ()

def StorageProposal.governed (action : ProposalAction) (result : ProposalStatus) : Proposal :=
  { Proposal.newWithTimestamp proposal.id (HexCodec.encode proposal.creator) proposal.deposit
      proposal.description action proposal.createdAt with
    status := if result = .approved || result = .rejected then result else .pending }

def finishProposal : Governed Unit := do
  let result ← calculateProposalResultFromStorage env proposal.id
  let status : StorageProposalStatus := if result = .approved then .approved else .rejected
  let action ← lift (expiredAction env.toCodec proposal.action)
  settleDeposit env result (proposal.governed action result)
  putProposal proposal.id { proposal with status }

variable (currentTimestamp : Nat)

def processProposal (proposalId : UInt64) : Governed Nat := do
  let proposal ← loadProposal env proposalId
  let started : Bool := proposal.status = .pending && proposal.reviewEnd ≤ currentTimestamp
  let proposal := if started then { proposal with status := .activeVoting } else proposal
  if proposal.status = .activeVoting ∧ proposal.votingEnd ≤ currentTimestamp then
    finishProposal env proposal
    return 1
  else if started then
    putProposal proposal.id proposal
    return 0
  else return 0

def processProposals (currentTimestamp : Nat) : List UInt64 → Nat → Governed Nat
  | [], count => pure count
  | proposalId :: rest, count => do
    let processed ← processProposal env currentTimestamp proposalId
    processProposals currentTimestamp rest (count + processed)

def maxProposalsPerBatch : Nat := 100

def processExpiredProposals : Governed Nat := do
  let all ← getAllProposals
  processProposals env currentTimestamp (all.take maxProposalsPerBatch) 0

def updateProposalState : Governed Bool := do
  let stored ← loadProposal env proposalId
  let proposal ← lift (storageProposalToGovernanceProposal env.toCodec stored)
  let (proposal, changed) := proposal.transitionStateWithTimestamp currentTimestamp
  if changed then
    let updated ← lift (governanceProposalToStorageProposal env.toCodec proposal)
    putProposal updated.id updated
    return true
  else return false

inductive Call where
  | createProposal (creator : Address) (deposit : Nat) (description : String)
      (action : ProposalAction) (now : Nat)
  | vote (proposalId : UInt64) (voter : Address) (voteType : VoteType) (voteAmount now : Nat)
  | processExpiredProposals (currentTimestamp : Nat)
  | updateProposalState (proposalId : UInt64) (currentTimestamp : Nat)

def Call.exec : Call → Governed Unit
  | .createProposal creator deposit description action now => do
    let _ ← Governance.createProposal env creator deposit description action now
  | .vote proposalId voter voteType voteAmount now =>
    Governance.vote env proposalId voter voteType voteAmount now
  | .processExpiredProposals currentTimestamp => do
    let _ ← Governance.processExpiredProposals env currentTimestamp
  | .updateProposalState proposalId currentTimestamp => do
    let _ ← Governance.updateProposalState env proposalId currentTimestamp

structure Event where
  call : Call
  faults : List (Option String) := []

def step (storage : Storage) (event : Event) : Storage × Except Failure Unit :=
  let (after, result) := perform (event.call.exec env) { store := storage, faults := event.faults }
  (after.store, result)

end

section Result
variable (proposal : Proposal) (totalVoteTokens : Nat)

def Proposal.totalVotes : Nat :=
  ((checkedAdd proposal.yesVotes proposal.noVotes).bind
    (checkedAdd · proposal.abstainVotes)).getD u128Max

/-- The supply of tokens is read from the storage. -/
def calculateProposalResult : ProposalStatus :=
  if !isQuorumReached proposal.totalVotes totalVoteTokens then .rejected
  else if isApprovalReached proposal.yesVotes proposal.noVotes then .approved
  else .rejected

/-- A fifth of the supply has voted, and 65 in a hundred of the valid votes are a yes. -/
def Carried : Prop :=
  0 < totalVoteTokens ∧
    totalVoteTokens ≤ 5 * (proposal.yesVotes + proposal.noVotes + proposal.abstainVotes) ∧
    0 < proposal.yesVotes ∧ 65 * (proposal.yesVotes + proposal.noVotes) ≤ 100 * proposal.yesVotes

/-- Both thresholds are met when rounded down and one is missed exactly; where 65 times the
valid votes do not fit a `u128`, the votes carry the proposal and are not all there can be, or
they are and do not carry it. -/
def Misjudged : Prop :=
  let valid := proposal.yesVotes + proposal.noVotes
  let votes := valid + proposal.abstainVotes
  0 < totalVoteTokens ∧
    if 65 * valid ≤ u128Max then
      totalVoteTokens < 5 * votes + 5 ∧ 0 < valid ∧ 65 * valid < 100 * proposal.yesVotes + 100 ∧
        (5 * votes < totalVoteTokens ∨ 100 * proposal.yesVotes < 65 * valid)
    else if proposal.yesVotes = u128Max then 100 * proposal.yesVotes < 65 * valid
    else totalVoteTokens ≤ 5 * votes ∧ 65 * valid ≤ 100 * proposal.yesVotes

theorem getD_checkedAdd {left right : Nat} :
    (checkedAdd left right).getD u128Max = min (left + right) u128Max := by
  unfold checkedAdd
  split
  · rw [Option.getD_some]
    omega
  · rw [Option.getD_none]
    omega

theorem isQuorumReached_totalVotes (tokens : totalVoteTokens ≤ u128Max) :
    isQuorumReached proposal.totalVotes totalVoteTokens = true ↔ 0 < totalVoteTokens ∧
      totalVoteTokens <
        5 * (proposal.yesVotes + proposal.noVotes + proposal.abstainVotes) + 5 := by
  -- A supply that fits a `u128` makes no difference to a sum that does not.
  have votes : proposal.totalVotes =
      min (proposal.yesVotes + proposal.noVotes + proposal.abstainVotes) u128Max := by
    unfold Proposal.totalVotes
    rw [checkedAdd]
    split
    · exact getD_checkedAdd
    · rw [Option.bind_none, Option.getD_none]
      omega
  rw [votes, isQuorumReached, calculateQuorum, Bool.and_eq_true, bne_iff_ne, decide_eq_true_iff]
  omega

theorem isApprovalReached_iff {yesVotes noVotes : Nat} (yes : yesVotes ≤ u128Max) :
    isApprovalReached yesVotes noVotes = true ↔
      if 65 * (yesVotes + noVotes) ≤ u128Max then
        0 < yesVotes + noVotes ∧ 65 * (yesVotes + noVotes) < 100 * yesVotes + 100
      else yesVotes = u128Max := by
  have threshold (valid : Nat) : calculateApprovalThreshold valid =
      if valid * 65 ≤ u128Max then valid * 65 / 100 else u128Max := by
    unfold calculateApprovalThreshold checkedMul
    split <;> rfl
  simp only [isApprovalReached, getD_checkedAdd, threshold, Bool.and_eq_true, bne_iff_ne,
    decide_eq_true_iff]
  unfold u128Max at yes ⊢
  split_ifs <;> omega

/-- The two percentages are rounded down, and a product that overflows counts as `u128::MAX`,
so the result is the exact one only where neither makes the difference. -/
theorem approved_exactly_iff (yes : proposal.yesVotes ≤ u128Max)
    (tokens : totalVoteTokens ≤ u128Max) :
    (calculateProposalResult proposal totalVoteTokens = .approved ↔ Carried proposal totalVoteTokens) ↔
      ¬ Misjudged proposal totalVoteTokens := by
  have approved : calculateProposalResult proposal totalVoteTokens = .approved ↔
      isQuorumReached proposal.totalVotes totalVoteTokens = true ∧
        isApprovalReached proposal.yesVotes proposal.noVotes = true := by
    unfold calculateProposalResult
    split_ifs with quorum approval <;> simp_all
  rw [approved, isQuorumReached_totalVotes proposal totalVoteTokens tokens, isApprovalReached_iff yes]
  unfold Carried Misjudged
  dsimp only
  unfold u128Max at yes tokens ⊢
  -- Both sides split on whether the product overflows; within a branch all is linear.
  by_cases fits : 65 * (proposal.yesVotes + proposal.noVotes) ≤ 2 ^ 128 - 1
  · rw [if_pos fits, if_pos fits]
    omega
  · rw [if_neg fits, if_neg fits]
    split_ifs <;> omega

def sampleBallot (yesVotes noVotes : Nat) : Proposal :=
  { Proposal.newWithTimestamp 1 "" 0 "" (.nonCore "") 0 with yesVotes, noVotes }

theorem nobody_in_favour_approved : Misjudged (sampleBallot 0 1) 1 ∧
    calculateProposalResult (sampleBallot 0 1) 1 = .approved ∧ ¬ Carried (sampleBallot 0 1) 1 := by
  simp [Misjudged, Carried, sampleBallot, Proposal.newWithTimestamp, calculateProposalResult,
    isQuorumReached, isApprovalReached, calculateQuorum, calculateApprovalThreshold,
    Proposal.totalVotes, checkedAdd, checkedMul, u128Max]

theorem full_ballot_judged :
    calculateProposalResult (sampleBallot 65 35) 500 = .approved ↔
      Carried (sampleBallot 65 35) 500 := by
  apply (approved_exactly_iff (sampleBallot 65 35) 500 (by decide) (by decide)).mpr
  simp [Misjudged, sampleBallot, Proposal.newWithTimestamp, u128Max]

end Result

end Savitri.Governance
