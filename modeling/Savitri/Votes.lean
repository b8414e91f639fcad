import Savitri.ByteWords
import Savitri.LatticeTypes
import Savitri.Reordering

/-!
The vote aggregator of savitri-masternode/src/vote_aggregator.rs, cut along the
locks it takes: the check of the issued certificates, the lookup of the quorum,
the tally under the lock of the votes, and the mark. Heights and rounds are `u64`
values kept as `Nat`. The votes and the issued keys are never walked, so they are a
function and a list. The clock enters as an argument; the counters of `get_stats` are
left out.
-/
namespace Savitri.Votes
open Std Transition Reordering LatticeTypes QuorumThresholds
variable {now : Nat}

abbrev Digest := Vector UInt8 64

inductive VoteType where
  | approve
  | reject
  deriving DecidableEq

structure ProposalKey where
  height : Nat
  roundId : Nat
  blockHash : Digest
  groupId : String
  deriving DecidableEq

structure MasternodeVote where
  roundId : Nat
  height : Nat
  blockHash : Digest
  voterPubkey : PublicKey
  voteType : VoteType
  signature : Signature
  groupId : String
  stateRoot : Digest
  txRoot : Digest
  parentHash : Digest
  deriving DecidableEq

variable (vote : MasternodeVote)

def MasternodeVote.key : ProposalKey :=
  { height := vote.height, roundId := vote.roundId, blockHash := vote.blockHash,
    groupId := vote.groupId }

structure BlockCertificate where
  roundId : Nat
  height : Nat
  blockHash : Digest
  votes : List MasternodeVote
  timestamp : Nat
  groupId : String
  stateRoot : Digest
  txRoot : Digest
  parentHash : Digest
  rewardRecipients : List PublicKey
  deriving DecidableEq

def BlockCertificate.key (cert : BlockCertificate) : ProposalKey :=
  { height := cert.height, roundId := cert.roundId, blockHash := cert.blockHash,
    groupId := cert.groupId }

structure ProposalVotes where
  approveVotes : List MasternodeVote := []
  rejectVotes : List MasternodeVote := []

/-- A second vote of the same kind by the same key is dropped. -/
def pushNew (votes : List MasternodeVote) (vote : MasternodeVote) : List MasternodeVote :=
  if votes.any fun earlier => earlier.voterPubkey == vote.voterPubkey then votes
  else votes ++ [vote]

def ProposalVotes.addVote (bucket : ProposalVotes) (vote : MasternodeVote) : ProposalVotes :=
  match vote.voteType with
  | .approve => { bucket with approveVotes := pushNew bucket.approveVotes vote }
  | .reject => { bucket with rejectVotes := pushNew bucket.rejectVotes vote }

def voteTypeByte : VoteType → UInt8
  | .approve => 1
  | .reject => 0

def MasternodeVote.voteData : List UInt8 :=
  toLeBytes 8 vote.roundId ++ toLeBytes 8 vote.height ++ vote.blockHash.toList ++
    vote.voterPubkey.toList ++ voteTypeByte vote.voteType :: vote.groupId.toUTF8.toList

theorem voteData_injective {left right : MasternodeVote}
    (same : left.voteData = right.voteData) :
    left.roundId % 2 ^ 64 = right.roundId % 2 ^ 64 ∧ left.height % 2 ^ 64 = right.height % 2 ^ 64 ∧
      left.blockHash = right.blockHash ∧ left.voterPubkey = right.voterPubkey ∧
      left.voteType = right.voteType ∧ left.groupId = right.groupId := by
  unfold MasternodeVote.voteData at same
  have outer := List.append_inj same (by simp)
  have kind : left.voteType = right.voteType := by
    have byte := (List.cons.inj outer.2).1
    cases one : left.voteType <;> cases two : right.voteType <;> simp_all [voteTypeByte]
  have keys := List.append_inj outer.1 (by simp)
  have hashes := List.append_inj keys.1 (by simp)
  have numbers := List.append_inj hashes.1 (by simp)
  exact ⟨toLeBytes_injective numbers.1, toLeBytes_injective numbers.2,
    Vector.toList_inj.mp hashes.2, Vector.toList_inj.mp keys.2, kind,
    Utf8.toUTF8_injective (List.cons.inj outer.2).2⟩

def verifyVoteSignature (crypto : Crypto) (vote : MasternodeVote) : Bool :=
  crypto.verify vote.voterPubkey vote.voteData vote.signature

/-- `str::parse::<usize>`: an optional plus sign, then at least one digit. -/
def parseUsize (text : List Char) : Option Nat :=
  let digits := match text with
    | '+' :: rest => rest
    | _ => text
  if digits.isEmpty then none
  else
    (digits.foldlM (fun (value : Nat) (digit : Char) =>
      if digit.isDigit then some (10 * value + (digit.toNat - 48)) else none) 0).filter
      (· < 2 ^ 64)

/-- The third part of the id. The source tells `singleton` ids apart and then reads
the same part. -/
def groupIndexFromId (groupId : String) : Option Nat :=
  match groupId.toList.splitOn '_' with
  | first :: _ :: third :: _ => if first = "group".toList then parseUsize third else none
  | _ => none

def indexAliasKey (index : Nat) : String := "#idx:" ++ toString index

structure VoteAggregator where
  votes : ProposalKey → Option ProposalVotes := fun _ => none
  groupMnSizes : ExtTreeMap String Nat := ∅
  issuedCerts : List ProposalKey := []
  fallbackVoters : Nat

def new (totalVoters : Nat) : VoteAggregator := { fallbackVoters := totalVoters }

/-- Where two groups share an index, the one that is walked last has the alias. -/
def setGroupMnSizes (order : Shuffle (String × Nat)) (aggregator : VoteAggregator)
    (sizes : ExtTreeMap String Nat) : VoteAggregator :=
  { aggregator with
    groupMnSizes := (order.order sizes.toList).foldl (fun table entry =>
      let table := match groupIndexFromId entry.1 with
        | some index => table.insert (indexAliasKey index) entry.2
        | none => table
      table.insert entry.1 entry.2) ∅ }

def quorumForGroup (aggregator : VoteAggregator) (groupId : String) : Nat :=
  match aggregator.groupMnSizes[groupId]? with
  | some n => quorumForVoters n
  | none =>
    match (groupIndexFromId groupId).bind fun index =>
        aggregator.groupMnSizes[indexAliasKey index]? with
    | some n => quorumForVoters n
    | none => quorumForVoters aggregator.fallbackVoters

section Sections
variable (aggregator : VoteAggregator)

def isIssued (key : ProposalKey) : Bool := aggregator.issuedCerts.contains key

def setBucket (key : ProposalKey) (bucket : Option ProposalVotes) : VoteAggregator :=
  { aggregator with
    votes := fun other => if other = key then bucket else aggregator.votes other }

def certificate (now : Nat) (key : ProposalKey) (bucket : ProposalVotes) : BlockCertificate :=
  let zeros : Digest := Vector.replicate 64 0
  let roots := match bucket.approveVotes.head? with
    | some vote => (vote.stateRoot, vote.txRoot, vote.parentHash)
    | none => (zeros, zeros, zeros)
  { roundId := key.roundId, height := key.height, blockHash := key.blockHash,
    votes := bucket.approveVotes, timestamp := now, groupId := key.groupId,
    stateRoot := roots.1, txRoot := roots.2.1, parentHash := roots.2.2, rewardRecipients := [] }

/-- What `add_vote` does under the lock of the votes. -/
def tallyVote (now : Nat) (aggregator : VoteAggregator) (vote : MasternodeVote) (quorum : Nat) :
    VoteAggregator × Option BlockCertificate :=
  let bucket := ((aggregator.votes vote.key).getD {}).addVote vote
  if quorum ≤ bucket.approveVotes.length then
    (setBucket aggregator vote.key none, some (certificate now vote.key bucket))
  else (setBucket aggregator vote.key (some bucket), none)

theorem tallyVote_key (now : Nat) (aggregator : VoteAggregator) (vote : MasternodeVote)
    (quorum : Nat) (cert : BlockCertificate)
    (issued : (tallyVote now aggregator vote quorum).2 = some cert) : cert.key = vote.key := by
  unfold tallyVote at issued
  simp only at issued
  split at issued
  · rw [← Option.some.inj issued]
    rfl
  · cases issued

variable {aggregator}

theorem tallyVote_issuedCerts {vote : MasternodeVote} {quorum : Nat} :
    (tallyVote now aggregator vote quorum).1.issuedCerts = aggregator.issuedCerts := by
  unfold tallyVote
  simp only
  split <;> rfl

def markIssued (aggregator : VoteAggregator) (key : ProposalKey) : VoteAggregator :=
  { aggregator with issuedCerts := aggregator.issuedCerts.insert key }

def addVote (crypto : Crypto) (now : Nat) (aggregator : VoteAggregator) (vote : MasternodeVote) :
    VoteAggregator × Option BlockCertificate :=
  if verifyVoteSignature crypto vote then
    if isIssued aggregator vote.key then (aggregator, none)
    else
      let quorum := quorumForGroup aggregator vote.groupId
      let tallied := tallyVote now aggregator vote quorum
      match tallied.2 with
      | some cert => (markIssued tallied.1 vote.key, some cert)
      | none => (tallied.1, none)
  else (aggregator, none)

theorem addVote_of_tallyVote (crypto : Crypto) (now : Nat) (vote : MasternodeVote)
    {kept : VoteAggregator → Prop} (given : BlockCertificate → Prop) (before : kept aggregator)
    (marked : ∀ other key, kept other → kept (markIssued other key))
    (tallied : verifyVoteSignature crypto vote = true →
      kept (tallyVote now aggregator vote (quorumForGroup aggregator vote.groupId)).1 ∧
        ∀ cert, (tallyVote now aggregator vote (quorumForGroup aggregator vote.groupId)).2 =
          some cert → given cert) :
    kept (addVote crypto now aggregator vote).1 ∧
      ∀ cert, (addVote crypto now aggregator vote).2 = some cert → given cert := by
  unfold addVote
  split
  next verified =>
    rcases tallied verified with ⟨after, certified⟩
    split
    · exact ⟨before, by simp⟩
    · simp only
      split
      next cert issued =>
        refine ⟨marked _ _ after, ?_⟩
        intro other same
        rw [← Option.some.inj same]
        exact certified cert issued
      next => exact ⟨after, by simp⟩
  next => exact ⟨before, by simp⟩

/-- `saturating_sub` stops at zero, as the subtraction of `Nat` does. -/
def cleanupFloor (maxHeight : Nat) : Nat := maxHeight - 10

variable (aggregator)

def cleanupVotes (floor : Nat) : VoteAggregator :=
  { aggregator with
    votes := fun key => if floor ≤ key.height then aggregator.votes key else none }

def cleanupIssued (floor : Nat) : VoteAggregator :=
  { aggregator with
    issuedCerts := aggregator.issuedCerts.filter fun key => decide (floor ≤ key.height) }

def cleanupOldVotes (maxHeight : Nat) : VoteAggregator :=
  let floor := cleanupFloor maxHeight
  cleanupIssued (cleanupVotes aggregator floor) floor

end Sections

inductive Call where
  | addVote (now : Nat) (vote : MasternodeVote)
  | setGroupMnSizes (order : Shuffle (String × Nat)) (sizes : ExtTreeMap String Nat)
  | cleanupOldVotes (maxHeight : Nat)

def step (crypto : Crypto) (aggregator : VoteAggregator) :
    Call → VoteAggregator × Option BlockCertificate
  | .addVote now vote => addVote crypto now aggregator vote
  | .setGroupMnSizes order sizes => (setGroupMnSizes order aggregator sizes, none)
  | .cleanupOldVotes maxHeight => (cleanupOldVotes aggregator maxHeight, none)

section Filing
/-- The approving votes of a bucket: verified, for its key, one for each voter. -/
structure Filed (crypto : Crypto) (key : ProposalKey) (bucket : ProposalVotes) : Prop where
  approve : ∀ vote ∈ bucket.approveVotes, vote.voteType = .approve
  verified : ∀ vote ∈ bucket.approveVotes, verifyVoteSignature crypto vote = true
  keyed : ∀ vote ∈ bucket.approveVotes, vote.key = key
  voters : (bucket.approveVotes.map MasternodeVote.voterPubkey).Nodup

def AllFiled (crypto : Crypto) (aggregator : VoteAggregator) : Prop :=
  ∀ key bucket, aggregator.votes key = some bucket → Filed crypto key bucket

structure Backed (crypto : Crypto) (quorum : Nat) (cert : BlockCertificate) : Prop where
  quorum : quorum ≤ cert.votes.length
  approve : ∀ vote ∈ cert.votes, vote.voteType = .approve
  verified : ∀ vote ∈ cert.votes, verifyVoteSignature crypto vote = true
  keyed : ∀ vote ∈ cert.votes, vote.key = cert.key
  voters : (cert.votes.map MasternodeVote.voterPubkey).Nodup

variable (crypto : Crypto)
variable (aggregator : VoteAggregator) (key : ProposalKey) (votes : List MasternodeVote) {vote}

theorem mem_pushNew {other : MasternodeVote} (member : other ∈ pushNew votes vote) :
    other ∈ votes ∨ other = vote := by
  unfold pushNew at member
  split at member
  · exact Or.inl member
  · rw [List.mem_append, List.mem_singleton] at member
    exact member

theorem pushNew_voters (distinct : (votes.map MasternodeVote.voterPubkey).Nodup) :
    ((pushNew votes vote).map MasternodeVote.voterPubkey).Nodup := by
  unfold pushNew
  split
  · exact distinct
  next fresh =>
    rw [List.map_append, List.map_singleton, ← List.concat_eq_append]
    apply List.Nodup.concat _ distinct
    intro member
    rcases List.mem_map.mp member with ⟨other, inVotes, same⟩
    exact fresh (List.any_eq_true.mpr ⟨other, inVotes, by simp [same]⟩)

theorem empty_filed : Filed crypto key {} := by
  constructor <;> simp

theorem addVote_filed {bucket : ProposalVotes} (filed : Filed crypto key bucket)
    (verified : verifyVoteSignature crypto vote = true) (keyed : vote.key = key) :
    Filed crypto key (bucket.addVote vote) := by
  unfold ProposalVotes.addVote
  cases kind : vote.voteType with
  | reject => exact ⟨filed.approve, filed.verified, filed.keyed, filed.voters⟩
  | approve =>
    constructor
    · intro other member
      rcases mem_pushNew _ member with earlier | rfl
      · exact filed.approve other earlier
      · exact kind
    · intro other member
      rcases mem_pushNew _ member with earlier | rfl
      · exact filed.verified other earlier
      · exact verified
    · intro other member
      rcases mem_pushNew _ member with earlier | rfl
      · exact filed.keyed other earlier
      · exact keyed
    · exact pushNew_voters _ filed.voters

theorem setBucket_filed (bucket : Option ProposalVotes) (filed : AllFiled crypto aggregator)
    (new : ∀ votes, bucket = some votes → Filed crypto key votes) :
    AllFiled crypto (setBucket aggregator key bucket) := by
  intro other votes found
  simp only [setBucket] at found
  by_cases here : other = key
  · rw [if_pos here] at found
    exact here ▸ new votes found
  · rw [if_neg here] at found
    exact filed other votes found

theorem tallyVote_filed (now : Nat) {aggregator : VoteAggregator} (quorum : Nat)
    (filed : AllFiled crypto aggregator) (verified : verifyVoteSignature crypto vote = true) :
    AllFiled crypto (tallyVote now aggregator vote quorum).1 ∧
      ∀ cert, (tallyVote now aggregator vote quorum).2 = some cert → Backed crypto quorum cert := by
  have before : Filed crypto vote.key ((aggregator.votes vote.key).getD {}) := by
    cases found : aggregator.votes vote.key with
    | none => exact empty_filed crypto vote.key
    | some bucket => exact filed vote.key bucket found
  have after := addVote_filed crypto vote.key before verified rfl
  unfold tallyVote
  simp only
  split
  next reached =>
    refine ⟨setBucket_filed crypto aggregator vote.key none filed (by simp), ?_⟩
    intro cert issued
    rw [Option.some.injEq] at issued
    subst issued
    exact ⟨reached, after.approve, after.verified, after.keyed, after.voters⟩
  next =>
    refine ⟨setBucket_filed crypto aggregator vote.key _ filed ?_, by simp⟩
    intro votes same
    rw [Option.some.injEq] at same
    exact same ▸ after

theorem cleanupVotes_filed {floor : Nat} (filed : AllFiled crypto aggregator) :
    AllFiled crypto (cleanupVotes aggregator floor) := by
  intro key bucket found
  simp only [cleanupVotes] at found
  split at found
  · exact filed key bucket found
  · cases found

theorem addVote_backed (now : Nat) {aggregator : VoteAggregator} (vote : MasternodeVote)
    (filed : AllFiled crypto aggregator) :
    AllFiled crypto (addVote crypto now aggregator vote).1 ∧
      ∀ cert, (addVote crypto now aggregator vote).2 = some cert →
        cert.key = vote.key ∧ Backed crypto (quorumForGroup aggregator vote.groupId) cert := by
  apply addVote_of_tallyVote crypto now vote _ filed
  · exact fun _ _ kept => kept
  · intro verified
    have tallied := tallyVote_filed crypto now
      (quorumForGroup aggregator vote.groupId) filed verified
    exact ⟨tallied.1, fun cert issued =>
      ⟨tallyVote_key now aggregator vote _ cert issued, tallied.2 cert issued⟩⟩

theorem step_filed (call : Call) (filed : AllFiled crypto aggregator) :
    AllFiled crypto (step crypto aggregator call).1 := by
  cases call with
  | addVote now vote => exact (addVote_backed crypto now vote filed).1
  | setGroupMnSizes order sizes => exact filed
  | cleanupOldVotes maxHeight => exact cleanupVotes_filed crypto aggregator filed

theorem new_filed (totalVoters : Nat) : AllFiled crypto (new totalVoters) := by
  intro key bucket found
  cases found

/-- Whatever calls came before, a certificate that `add_vote` returns carries the
quorum of its group at that call in verified approving votes of distinct voters for
its own proposal. -/
theorem certificates_backed (totalVoters : Nat) (calls : List Call) (now : Nat)
    (vote : MasternodeVote) (cert : BlockCertificate)
    (issued : (addVote crypto now (run (step crypto) (new totalVoters) calls) vote).2 = some cert) :
    Backed crypto
      (quorumForGroup (run (step crypto) (new totalVoters) calls) cert.groupId) cert := by
  have filed := run_invariant (step crypto) (AllFiled crypto) (step_filed crypto)
    (new totalVoters) calls (new_filed crypto totalVoters)
  rcases (addVote_backed crypto now vote filed).2 cert issued with ⟨keyed, backed⟩
  have group : cert.groupId = vote.groupId := congrArg ProposalKey.groupId keyed
  rw [group]
  exact backed

end Filing

section
def AllVotes (holds : MasternodeVote → Prop) (aggregator : VoteAggregator) : Prop :=
  ∀ key bucket, aggregator.votes key = some bucket → ∀ vote ∈ bucket.approveVotes, holds vote

variable {crypto : Crypto} {holds : MasternodeVote → Prop}
variable {aggregator : VoteAggregator}

theorem tallyVote_allVotes {vote : MasternodeVote} {quorum : Nat} (all : AllVotes holds aggregator)
    (incoming : holds vote) :
    AllVotes holds (tallyVote now aggregator vote quorum).1 ∧
      ∀ cert, (tallyVote now aggregator vote quorum).2 = some cert →
        ∀ carried ∈ cert.votes, holds carried := by
  have after : ∀ other ∈ (((aggregator.votes vote.key).getD {}).addVote vote).approveVotes,
      holds other := by
    have before : ∀ other ∈ ((aggregator.votes vote.key).getD {}).approveVotes, holds other := by
      cases found : aggregator.votes vote.key with
      | none => simp
      | some bucket => exact all vote.key bucket found
    unfold ProposalVotes.addVote
    cases vote.voteType with
    | reject => exact before
    | approve =>
      intro other member
      rcases mem_pushNew _ member with earlier | rfl
      · exact before other earlier
      · exact incoming
  unfold tallyVote
  simp only
  split
  · refine ⟨fun key bucket found => ?_, fun cert issued => ?_⟩
    · simp only [setBucket] at found
      split at found
      · cases found
      · exact all key bucket found
    · rw [← Option.some.inj issued]
      exact after
  · refine ⟨fun key bucket found => ?_, fun cert issued => by cases issued⟩
    simp only [setBucket] at found
    split at found
    · rw [← Option.some.inj found]
      exact after
    · exact all key bucket found

theorem step_allVotes {call : Call} (all : AllVotes holds aggregator)
    (incoming : ∀ now vote, call = .addVote now vote → verifyVoteSignature crypto vote = true →
      holds vote) :
    AllVotes holds (step crypto aggregator call).1 ∧
      ∀ cert, (step crypto aggregator call).2 = some cert →
        ∀ carried ∈ cert.votes, holds carried := by
  cases call with
  | addVote now vote =>
    apply addVote_of_tallyVote crypto now vote _ all
    · exact fun _ _ kept => kept
    · exact fun verified => tallyVote_allVotes all (incoming now vote rfl verified)
  | setGroupMnSizes order sizes => exact ⟨all, by simp [step]⟩
  | cleanupOldVotes maxHeight =>
    refine ⟨fun key bucket found => ?_, by simp [step]⟩
    simp only [step, cleanupOldVotes, cleanupIssued, cleanupVotes] at found
    split at found
    · exact all key bucket found
    · cases found

end

def sampleVote (voter : UInt8) : MasternodeVote :=
  let vote : MasternodeVote :=
    { roundId := 1, height := 5, blockHash := Vector.replicate 64 7,
      voterPubkey := sampleKey voter, voteType := .approve, signature := Vector.replicate 64 0,
      groupId := "group_9_0_9", stateRoot := Vector.replicate 64 1,
      txRoot := Vector.replicate 64 2, parentHash := Vector.replicate 64 3 }
  { vote with signature := sampleSign vote.voterPubkey vote.voteData }

/-- The group is known under an older epoch, so the quorum comes from its index. -/
def sampleCalls : List Call :=
  [.setGroupMnSizes .plain ((∅ : ExtTreeMap String Nat).insert "group_8_0_8" 2),
    .addVote 0 (sampleVote 1), .addVote 0 (sampleVote 1)]

theorem sampleCalls_backed :
    ∃ cert, (addVote sampleCrypto 0 (run (step sampleCrypto) (new 100) sampleCalls)
        (sampleVote 2)).2 = some cert ∧
      quorumForGroup (run (step sampleCrypto) (new 100) sampleCalls) cert.groupId = 2 ∧
      Backed sampleCrypto
        (quorumForGroup (run (step sampleCrypto) (new 100) sampleCalls) cert.groupId) cert := by
  have issued : ((addVote sampleCrypto 0 (run (step sampleCrypto) (new 100) sampleCalls)
      (sampleVote 2)).2.map fun cert =>
        quorumForGroup (run (step sampleCrypto) (new 100) sampleCalls) cert.groupId) = some 2 := by
    decide +kernel
  rcases Option.map_eq_some_iff.mp issued with ⟨cert, found, quorum⟩
  exact ⟨cert, found, quorum,
    certificates_backed sampleCrypto 100 sampleCalls 0 (sampleVote 2) cert found⟩

end Savitri.Votes
