import Savitri.LatticeTypes
import Savitri.LockedCalls

/-!
`BftConsensus` of protocols/bft.rs, with the locks that its calls take. Each field
stands under a lock of its own; a guard that is bound to a name lives to the end of
its scope, one that is not goes at the end of its statement. So `vote` still holds
the votes and the statistics when it calls `check_consensus`, which asks for both
again. The getters and `set_signing_key` write nothing that is shared and are left out.
-/
namespace Savitri.BftConsensus
open Std LatticeTypes LockedCalls

inductive ValidatorStatus where
  | active
  | inactive
  | slashed
  | jailed
  | pending
  deriving DecidableEq

/-- Stake, score and the rest of the record are not read by the engine. -/
structure ValidatorInfo where
  validatorId : String
  publicKey : PublicKey
  status : ValidatorStatus
  deriving DecidableEq

structure BftConfig where
  maxFaulty : UInt64 := 1
  totalValidators : UInt64 := 4

inductive BftState where
  | initial
  | proposing
  | voting
  | committed
  | timeout
  deriving DecidableEq

structure BftProposal where
  proposalId : String
  round : UInt64
  blockData : List UInt8
  proposerId : String
  timestamp : UInt64
  signature : Signature
  deriving DecidableEq

structure BftVote where
  voteId : String
  round : UInt64
  proposalId : String
  voterId : String
  vote : Bool
  timestamp : UInt64
  signature : Signature
  deriving DecidableEq

/-- The average time and the count of timeouts are never written. -/
structure BftStats where
  totalRounds : UInt64 := 0
  successfulRounds : UInt64 := 0
  failedRounds : UInt64 := 0
  totalProposals : UInt64 := 0
  totalVotes : UInt64 := 0
  fastPathAgreements : UInt64 := 0

/-- What the calls share. The counter of ids is atomic and needs no lock. -/
structure Shared where
  validators : ExtTreeMap String ValidatorInfo := ∅
  currentRound : UInt64 := 0
  proposals : ExtTreeMap UInt64 BftProposal := ∅
  votes : ExtTreeMap UInt64 (ExtTreeMap String BftVote) := ∅
  state : BftState := .initial
  stats : BftStats := {}
  idCounter : UInt64 := 0

inductive Lock where
  | validators
  | currentRound
  | proposals
  | votes
  | state
  | stats
  deriving DecidableEq

/-- What the engine is built with, and what it asks of the signature crates: signing fails on a
key that does not parse, and such a key verifies nothing. -/
structure Engine where
  config : BftConfig := {}
  localSigningKey : Option (Vector UInt8 32)
  blake3 : List UInt8 → Vector UInt8 32
  signMessage : List UInt8 → Vector UInt8 32 → Option Signature
  verifySignature : List UInt8 → Signature → PublicKey → Bool
  overflowChecks : Bool

inductive ConsensusError where
  | validationFailed (reason : String)
  | invalidSignature (reason : String)
  deriving DecidableEq

inductive Reply where
  | done
  | proposed (proposal : BftProposal)
  | voted (vote : BftVote)
  | failed (error : ConsensusError)
  | panicked
  deriving DecidableEq

abbrev Program := Prog Lock Shared Reply

variable (engine : Engine)

/-- The length is cast to `u32`. -/
def textBytes (text : String) : List UInt8 := toLeBytes 4 text.utf8ByteSize ++ text.toUTF8.toList

variable (round : UInt64)

def buildProposalMessage (proposerId : String) (blockData : List UInt8) (timestamp : UInt64) :
    List UInt8 :=
  "BFT-PROP".toUTF8.toList ++ toLeBytes 8 round.toNat ++ textBytes proposerId ++
    (engine.blake3 blockData).toList ++ toLeBytes 8 timestamp.toNat

def buildVoteMessage (proposalId voterId : String) (vote : Bool) (timestamp : UInt64) : List UInt8 :=
  "BFT-VOTE".toUTF8.toList ++ toLeBytes 8 round.toNat ++ textBytes proposalId ++
    textBytes voterId ++ [if vote then 1 else 0] ++ toLeBytes 8 timestamp.toNat

def zeroSignature : Signature := Vector.replicate 64 0

/-- Without a key, and where signing fails, the signature is zero. -/
def sign (message : List UInt8) : Signature :=
  (engine.localSigningKey.bind (engine.signMessage message)).getD zeroSignature

def verifyVoteSignature (vote : BftVote) (publicKey : PublicKey) : Bool :=
  engine.verifySignature
    (buildVoteMessage vote.round vote.proposalId vote.voterId vote.vote vote.timestamp)
    vote.signature publicKey

def isFull (value : UInt64) : Bool := engine.overflowChecks && value.toNat + 1 = 2 ^ 64

/-- `+= 1` on a counter; what follows sees the data from before. -/
def increment (read : Shared → UInt64) (write : UInt64 → Shared → Shared)
    (rest : Shared → Program) : Program :=
  .access (fun data => if isFull engine (read data) then data else write (read data + 1) data)
    fun data => if isFull engine (read data) then .done .panicked else rest data

def count (read : BftStats → UInt64) (write : UInt64 → BftStats → BftStats) (rest : Program) :
    Program :=
  increment engine (fun data => read data.stats)
    (fun value data => { data with stats := write value data.stats }) fun _ => rest

def setState (state : BftState) (rest : Program) : Program :=
  .poke .state (fun data => { data with state }) rest

def addValidator (validator : ValidatorInfo) : Program :=
  .poke .validators
    (fun data =>
      { data with validators := data.validators.insert validator.validatorId validator })
    (.done .done)

def removeValidator (validatorId : String) : Program :=
  .poke .validators
    (fun data => { data with validators := data.validators.erase validatorId }) (.done .done)

variable (data : Shared)

/-- An unknown proposer is let through. -/
def refuseProposer (proposerId : String) : Option ConsensusError :=
  match data.validators[proposerId]?.map ValidatorInfo.status with
  | some .slashed =>
    some (.validationFailed
      s!"Proposer {proposerId} has status Slashed and cannot create proposals")
  | some .jailed =>
    some (.validationFailed s!"Proposer {proposerId} has status Jailed and cannot create proposals")
  | _ => none

def signedProposal (seq : UInt64) (blockData : List UInt8) (proposerId : String)
    (timestamp : UInt64) : BftProposal where
  proposalId := s!"{proposerId}-{round}-{seq}"
  round := round
  blockData := blockData
  proposerId := proposerId
  timestamp := timestamp
  signature := sign engine (buildProposalMessage engine round proposerId blockData timestamp)

variable (proposal : BftProposal)

def equivocates : Bool :=
  match data.proposals[proposal.round]? with
  | some existing =>
    existing.proposerId ≠ proposal.proposerId || existing.proposalId ≠ proposal.proposalId
  | none => false

def storeProposal : Program :=
  .acquire .proposals .exclusive
    (.access
      (fun data =>
        if equivocates data proposal then data
        else { data with proposals := data.proposals.insert proposal.round proposal })
      fun data =>
        if equivocates data proposal then
          .done (.failed (.validationFailed
            s!"Equivocation: round {proposal.round} already has a proposal"))
        else
          setState .proposing
            (.acquire .stats .exclusive
              (count engine (·.totalProposals)
                (fun value stats => { stats with totalProposals := value })
                (.done (.proposed proposal)))))

def createProposal (blockData : List UInt8) (proposerId : String) (timestamp : UInt64) : Program :=
  .peek .validators fun data =>
    match refuseProposer data proposerId with
    | some error => .done (.failed error)
    | none =>
      .peek .currentRound fun data =>
        let round := data.currentRound
        .access (fun data => { data with idCounter := data.idCounter + 1 }) fun data =>
          let proposal := signedProposal engine round data.idCounter blockData proposerId timestamp
          if proposal.signature = zeroSignature then
            .done (.failed (.invalidSignature
              s!"Proposal from {proposerId} has zero signature — signing key required"))
          else storeProposal engine proposal

inductive Verdict where
  | undecided
  | commits
  | rejects
  | panics
  deriving DecidableEq

def isActive (voterId : String) : Bool :=
  data.validators[voterId]?.map ValidatorInfo.status = some .active

def validVotes (round : UInt64) : List BftVote :=
  ((data.votes[round]?.getD ∅).toList.map Prod.snd).filter fun vote => isActive data vote.voterId

def yesVotes (round : UInt64) : Nat := (validVotes data round).countP fun vote => vote.vote

def noVotes (round : UInt64) : Nat := (validVotes data round).countP fun vote => !vote.vote

/-- The thresholds are `usize` sums, which a build without overflow checks lets wrap. -/
def verdict (round : UInt64) : Verdict :=
  let config := engine.config
  if data.votes[round]?.isNone then .undecided
  else if engine.overflowChecks && config.totalValidators < config.maxFaulty then .panics
  else if (config.totalValidators - config.maxFaulty).toNat ≤
      yesVotes data round + noVotes data round then
    if engine.overflowChecks && 2 ^ 64 ≤ 2 * config.maxFaulty.toNat + 1 then .panics
    else if (2 * config.maxFaulty + 1).toNat ≤ yesVotes data round then .commits
    else if (2 * config.maxFaulty + 1).toNat ≤ noVotes data round then .rejects
    else .undecided
  else .undecided

/-- Its result is not used by `vote`. -/
def checkConsensus (rest : Program) : Program :=
  .acquire .votes .shared
    (.acquire .validators .shared
      (.access id fun data =>
        match verdict engine data round with
        | .undecided => rest
        | .panics => .done .panicked
        | .commits =>
          setState .committed
            (.acquire .stats .exclusive
              (count engine (·.successfulRounds)
                (fun value stats => { stats with successfulRounds := value })
                (count engine (·.fastPathAgreements)
                  (fun value stats => { stats with fastPathAgreements := value }) rest)))
        | .rejects =>
          setState .timeout
            (.acquire .stats .exclusive
              (count engine (·.failedRounds)
                (fun value stats => { stats with failedRounds := value }) rest))))

def refuseVoter (voterId : String) : Option ConsensusError :=
  match data.validators[voterId]?.map ValidatorInfo.status with
  | none => some (.validationFailed s!"Unknown validator {voterId} cannot vote")
  | some .slashed => some (.validationFailed s!"Slashed validator {voterId} cannot vote")
  | some .jailed => some (.validationFailed s!"Jailed validator {voterId} cannot vote")
  | some .inactive => some (.validationFailed s!"Inactive validator {voterId} cannot vote")
  | some .active => none
  | some .pending => none

def signedVote (seq : UInt64) (proposalId voterId : String) (vote : Bool) (timestamp : UInt64) :
    BftVote where
  voteId := s!"{voterId}-{proposalId}-{seq}"
  round := round
  proposalId := proposalId
  voterId := voterId
  vote := vote
  timestamp := timestamp
  signature := sign engine (buildVoteMessage round proposalId voterId vote timestamp)

/-- A voter that is no longer known is not checked. -/
def isVerified (vote : BftVote) : Bool :=
  match data.validators[vote.voterId]? with
  | some validator => verifyVoteSignature engine vote validator.publicKey
  | none => true

def roundVotes (round : UInt64) : ExtTreeMap String BftVote := data.votes[round]?.getD ∅

def hasVoted (vote : BftVote) : Bool := vote.voterId ∈ roundVotes data vote.round

def storeVote (vote : BftVote) : Program :=
  .acquire .votes .exclusive
    (.access
      (fun data =>
        if hasVoted data vote then data
        else
          { data with
            votes := data.votes.insert vote.round
              ((roundVotes data vote.round).insert vote.voterId vote) })
      fun data =>
        if hasVoted data vote then
          .done (.failed (.validationFailed
            s!"Double-vote detected: voter {vote.voterId} already voted in round {vote.round}"))
        else
          setState .voting
            (.acquire .stats .exclusive
              (count engine (·.totalVotes) (fun value stats => { stats with totalVotes := value })
                (checkConsensus engine vote.round (.done (.voted vote))))))

def castVote (vote : BftVote) : Program :=
  if vote.signature = zeroSignature then
    .done (.failed (.invalidSignature
      s!"Vote from {vote.voterId} has zero signature — signing key required"))
  else
    .peek .validators fun data =>
      if isVerified engine data vote then storeVote engine vote
      else
        .done (.failed (.invalidSignature
          s!"Vote signature verification failed for voter {vote.voterId}"))

def vote (proposalId voterId : String) (vote : Bool) (timestamp : UInt64) : Program :=
  .peek .currentRound fun data =>
    let round := data.currentRound
    .access (fun data => { data with idCounter := data.idCounter + 1 }) fun data =>
      let seq := data.idCounter
      .peek .validators fun data =>
        match refuseVoter data voterId with
        | some error => .done (.failed error)
        | none => castVote engine (signedVote engine round seq proposalId voterId vote timestamp)

def stateName : BftState → String
  | .initial => "Initial"
  | .proposing => "Proposing"
  | .voting => "Voting"
  | .committed => "Committed"
  | .timeout => "Timeout"

/-- The data of the round that ends and of those more than ten rounds back goes. -/
def clearRounds (previous : UInt64) (data : Shared) : Shared :=
  let minKeep := UInt64.ofNat (data.currentRound.toNat - 10)
  { data with
    proposals := (data.proposals.erase previous).filter fun round _ => minKeep ≤ round
    votes := (data.votes.erase previous).filter fun round _ => minKeep ≤ round }

def nextRound : Program :=
  .peek .state fun data =>
    if data.state = .committed ∨ data.state = .timeout then
      .acquire .currentRound .exclusive
        (increment engine (·.currentRound) (fun value data => { data with currentRound := value })
          fun before =>
            .acquire .proposals .exclusive
              (.acquire .votes .exclusive
                (.access (clearRounds before.currentRound) fun _ =>
                  setState .initial
                    (.acquire .stats .exclusive
                      (count engine (·.totalRounds)
                        (fun value stats => { stats with totalRounds := value })
                        (.done .done))))))
    else
      .done (.failed (.validationFailed
        s!"Cannot advance round: current state is {stateName data.state}, expected Committed or Timeout"))

inductive Call where
  | addValidator (validator : ValidatorInfo)
  | removeValidator (validatorId : String)
  | createProposal (blockData : List UInt8) (proposerId : String) (timestamp : UInt64)
  | vote (proposalId voterId : String) (vote : Bool) (timestamp : UInt64)
  | nextRound
  deriving DecidableEq

def program : Call → Program
  | .addValidator validator => addValidator validator
  | .removeValidator validatorId => removeValidator validatorId
  | .createProposal blockData proposerId timestamp =>
    createProposal engine blockData proposerId timestamp
  | .vote proposalId voterId choice timestamp => vote engine proposalId voterId choice timestamp
  | .nextRound => nextRound engine

end Savitri.BftConsensus
