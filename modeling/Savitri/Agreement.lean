import Savitri.ElectionCertificates

/-!
The masternodes as one system: every node votes on the proposals that reach it, its
votes travel to the aggregators of all nodes, and each aggregator certifies on its
own. Votes are delivered in any order, any number of times, and faulty nodes send what
they like. A node keeps no record of what it approved and an aggregator does not ask
whether a voter is a masternode, so agreement on one block for each group and height
rests on two conditions on the run that no line enforces.
-/
namespace Savitri.Agreement
open Std Transition Reordering QuorumOverlap QuorumThresholds LatticeTypes Votes Proposals
open ElectionCertificates
variable {aggregator : VoteAggregator}

structure Network where
  aggregators : PublicKey → VoteAggregator
  cast : List MasternodeVote

inductive Event where
  | propose (node : PublicKey) (now later : UInt64) (falla3Disabled : Bool)
      (groupMembers : List String) (proposal : LightnodeProposal)
  | deliver (node : PublicKey) (now : Nat) (vote : MasternodeVote)
  | refresh (node : PublicKey) (order : Shuffle (String × Nat)) (groups : List String)
  | cleanup (node : PublicKey) (maxHeight : Nat)

variable (scheme : Scheme) (sign : PublicKey → List UInt8 → Signature)

/-- A proposal without a group needs no election certificate. -/
def handleLightnodeProposal (falla3Disabled : Bool) (groupMembers : List String)
    (proposal : LightnodeProposal) : Bool :=
  proposal.proposerGroupId.isEmpty ||
    verifyProposalGroupAndCertificate scheme falla3Disabled proposal groupMembers

def castBy : Event → Option MasternodeVote
  | .propose node now later falla3Disabled groupMembers proposal =>
    if handleLightnodeProposal scheme falla3Disabled groupMembers proposal then
      voteOnProposal scheme { localPubkey := node, sign := sign node } now later proposal
    else none
  | _ => none

variable (total : Nat)

def committeeSizes (groups : List String) : ExtTreeMap String Nat :=
  groups.foldl (fun sizes group => sizes.insert group (max total 1)) ∅

def callAt (network : Network) (node : PublicKey) (call : Call) : Network × Option BlockCertificate :=
  let called := Votes.step scheme.toCrypto (network.aggregators node) call
  ({ network with
      aggregators := fun other => if other = node then called.1 else network.aggregators other },
    called.2)

def step (network : Network) (event : Event) : Network × Option BlockCertificate :=
  match event with
  | .propose .. =>
    ({ network with cast := network.cast ++ (castBy scheme sign event).toList }, none)
  | .deliver node now vote => callAt scheme network node (.addVote now vote)
  | .refresh node order groups =>
    if groups.isEmpty then (network, none)
    else callAt scheme network node (.setGroupMnSizes order (committeeSizes total groups))
  | .cleanup node maxHeight => callAt scheme network node (.cleanupOldVotes maxHeight)

def start : Network := { aggregators := fun _ => new total, cast := [] }

section
variable (masternodes faulty : Finset PublicKey)

/-- What Ed25519 gives: a vote that verifies under the key of a correct masternode has
the signed bytes of a vote that node made. -/
def Unforged (network : Network) : Event → Prop
  | .deliver _ _ vote => verifyVoteSignature scheme.toCrypto vote = true →
      vote.voterPubkey ∈ masternodes → vote.voterPubkey ∉ faulty →
        ∃ earlier ∈ network.cast, earlier.voteData = vote.voteData
  | _ => True

def FromMasternodes (_ : Network) : Event → Prop
  | .deliver _ _ vote => verifyVoteSignature scheme.toCrypto vote = true →
      vote.voterPubkey ∈ masternodes
  | _ => True

/-- A correct masternode that votes again for a group and height votes for the same
block. -/
def VotesOnce (network : Network) (event : Event) : Prop :=
  ∀ vote ∈ castBy scheme sign event, vote.voterPubkey ∈ masternodes →
    vote.voterPubkey ∉ faulty → ∀ earlier ∈ network.cast,
      earlier.voterPubkey = vote.voterPubkey → earlier.groupId = vote.groupId →
        earlier.height = vote.height → earlier.blockHash = vote.blockHash

instance decidableUnforged (network : Network) :
    ∀ event, Decidable (Unforged scheme masternodes faulty network event)
  | .deliver _ _ vote => inferInstanceAs (Decidable
      (verifyVoteSignature scheme.toCrypto vote = true → vote.voterPubkey ∈ masternodes →
        vote.voterPubkey ∉ faulty → ∃ earlier ∈ network.cast, earlier.voteData = vote.voteData))
  | .propose .. => isTrue trivial
  | .refresh .. => isTrue trivial
  | .cleanup .. => isTrue trivial

instance decidableFromMasternodes (network : Network) :
    ∀ event, Decidable (FromMasternodes scheme masternodes network event)
  | .deliver _ _ vote => inferInstanceAs (Decidable
      (verifyVoteSignature scheme.toCrypto vote = true → vote.voterPubkey ∈ masternodes))
  | .propose .. => isTrue trivial
  | .refresh .. => isTrue trivial
  | .cleanup .. => isTrue trivial

instance decidableVotesOnce (network : Network) (event : Event) :
    Decidable (VotesOnce scheme sign masternodes faulty network event) :=
  inferInstanceAs (Decidable (∀ vote ∈ castBy scheme sign event,
    vote.voterPubkey ∈ masternodes → vote.voterPubkey ∉ faulty → ∀ earlier ∈ network.cast,
      earlier.voterPubkey = vote.voterPubkey → earlier.groupId = vote.groupId →
        earlier.height = vote.height → earlier.blockHash = vote.blockHash))

end

section
def Uniform (size : Nat) (table : ExtTreeMap String Nat) : Prop :=
  ∀ (group : String) (found : Nat), table[group]? = some found → found = size

def Sized (total : Nat) (aggregator : VoteAggregator) : Prop :=
  aggregator.fallbackVoters = total ∧ Uniform (max total 1) aggregator.groupMnSizes

variable {total}

theorem quorumForVoters_max : quorumForVoters total ≤ quorumForVoters (max total 1) := by
  unfold quorumForVoters
  split <;> split <;> omega

variable {group : String} {size : Nat}

theorem le_quorumForGroup (sized : Sized total aggregator) :
    quorumForVoters total ≤ quorumForGroup aggregator group := by
  unfold quorumForGroup
  split
  next size found =>
    rw [sized.2 _ _ found]
    exact quorumForVoters_max
  next =>
    split
    next size found =>
      rcases Option.bind_eq_some_iff.mp found with ⟨index, _, aliased⟩
      rw [sized.2 _ _ aliased]
      exact quorumForVoters_max
    next => rw [sized.1]

theorem uniform_empty : Uniform size ∅ := by
  intro group found present
  simp at present

theorem uniform_insert {table : ExtTreeMap String Nat} (uniform : Uniform size table) :
    Uniform size (table.insert group size) := by
  intro other found present
  rw [ExtTreeMap.getElem?_insert] at present
  split at present
  · exact (Option.some.inj present).symm
  · exact uniform other found present

theorem committeeSizes_uniform {groups : List String} :
    Uniform (max total 1) (committeeSizes total groups) := by
  unfold committeeSizes
  apply List.foldlRecOn groups _ uniform_empty
  intro table uniform group _
  exact uniform_insert uniform

theorem setGroupMnSizes_sized (order : Shuffle (String × Nat)) (groups : List String)
    (sized : Sized total aggregator) :
    Sized total (setGroupMnSizes order aggregator (committeeSizes total groups)) := by
  refine ⟨sized.1, ?_⟩
  unfold setGroupMnSizes
  apply List.foldlRecOn (order.order (committeeSizes total groups).toList) _ uniform_empty
  intro table uniform entry member
  have listed := (order.perm _).mem_iff.mp member
  have size : entry.2 = max total 1 := committeeSizes_uniform entry.1 entry.2
    (ExtTreeMap.mem_toList_iff_getElem?_eq_some.mp listed)
  simp only [size]
  cases groupIndexFromId entry.1 with
  | none => exact uniform_insert uniform
  | some index =>
    exact uniform_insert (uniform_insert uniform)

end

section
variable (masternodes faulty : Finset PublicKey)

/-- A counted vote is a masternode's and, if that one is correct, has the bytes of a
vote it made. -/
def Endorsed (cast : List MasternodeVote) (vote : MasternodeVote) : Prop :=
  vote.voterPubkey ∈ masternodes ∧
    (vote.voterPubkey ∉ faulty → ∃ earlier ∈ cast, earlier.voteData = vote.voteData)

structure Consistent (cast : List MasternodeVote) : Prop where
  bounded : ∀ vote ∈ cast, vote.height < 2 ^ 64
  single : ∀ one ∈ cast, ∀ two ∈ cast, one.voterPubkey ∈ masternodes →
    one.voterPubkey ∉ faulty → one.voterPubkey = two.voterPubkey → one.groupId = two.groupId →
      one.height = two.height → one.blockHash = two.blockHash

structure Sound (network : Network) : Prop where
  filed : ∀ node, AllFiled scheme.toCrypto (network.aggregators node)
  sized : ∀ node, Sized masternodes.card (network.aggregators node)
  endorsed : ∀ node, AllVotes (Endorsed masternodes faulty network.cast) (network.aggregators node)
  consistent : Consistent masternodes faulty network.cast

structure Supported (cast : List MasternodeVote) (cert : BlockCertificate) : Prop where
  members : masternodes.Nonempty
  quorum : quorumForVoters masternodes.card ≤ cert.votes.length
  keyed : ∀ vote ∈ cert.votes, vote.key = cert.key
  voters : (cert.votes.map MasternodeVote.voterPubkey).Nodup
  endorsed : ∀ vote ∈ cert.votes, Endorsed masternodes faulty cast vote

variable {masternodes faulty}
variable {cast : List MasternodeVote} {cert : BlockCertificate} {vote : MasternodeVote}
  (network : Network)

theorem Endorsed.append (endorsed : Endorsed masternodes faulty cast vote)
    (more : List MasternodeVote) : Endorsed masternodes faulty (cast ++ more) vote := by
  refine ⟨endorsed.1, fun correct => ?_⟩
  rcases endorsed.2 correct with ⟨earlier, member, same⟩
  exact ⟨earlier, List.mem_append_left more member, same⟩

variable (supported : Supported masternodes faulty cast cert)
include supported

theorem Supported.append (more : List MasternodeVote) :
    Supported masternodes faulty (cast ++ more) cert :=
  { supported with endorsed := fun vote member => (supported.endorsed vote member).append more }

theorem Supported.voters_card :
    quorumForVoters masternodes.card ≤
      (cert.votes.map MasternodeVote.voterPubkey).toFinset.card := by
  rw [List.toFinset_card_of_nodup supported.voters, List.length_map]
  exact supported.quorum

theorem Supported.voters_subset :
    (cert.votes.map MasternodeVote.voterPubkey).toFinset ⊆ masternodes := by
  intro voter member
  rcases List.mem_map.mp (List.mem_toFinset.mp member) with ⟨vote, inCert, rfl⟩
  exact (supported.endorsed vote inCert).1

theorem Supported.made (consistent : Consistent masternodes faulty cast) {voter : PublicKey}
    (member : voter ∈ (cert.votes.map MasternodeVote.voterPubkey).toFinset)
    (correct : voter ∉ faulty) :
    ∃ made ∈ cast, made.voterPubkey = voter ∧ made.groupId = cert.groupId ∧
      made.height = cert.height % 2 ^ 64 ∧ made.blockHash = cert.blockHash := by
  rcases List.mem_map.mp (List.mem_toFinset.mp member) with ⟨vote, inCert, rfl⟩
  rcases (supported.endorsed vote inCert).2 correct with ⟨made, inCast, sameData⟩
  rcases voteData_injective sameData with ⟨_, height, hash, sameVoter, _, group⟩
  have keyed := supported.keyed vote inCert
  have voteHeight : vote.height = cert.height := congrArg ProposalKey.height keyed
  rw [voteHeight, Nat.mod_eq_of_lt (consistent.bounded made inCast)] at height
  exact ⟨made, inCast, sameVoter, group.trans (congrArg ProposalKey.groupId keyed), height,
    hash.trans (congrArg ProposalKey.blockHash keyed)⟩

omit supported

/-- Two quorums share a correct masternode, and what it signed for both certificates it
signed as votes of its own. -/
theorem supported_agree (few : faulty.card ≤ faultBound masternodes.card)
    (consistent : Consistent masternodes faulty cast) {one two : BlockCertificate}
    (first : Supported masternodes faulty cast one)
    (second : Supported masternodes faulty cast two) (group : one.groupId = two.groupId)
    (height : one.height = two.height) : one.blockHash = two.blockHash := by
  have outnumber := quorumForVoters_outnumbers masternodes.card (Finset.card_pos.mpr first.members)
  have firstQuorum := first.voters_card
  have secondQuorum := second.voters_card
  rcases exists_common_correct faulty first.voters_subset second.voters_subset
    (by omega) with ⟨voter, inOne, inTwo, correct⟩
  rcases first.made consistent inOne correct with
    ⟨made, madeIn, rfl, madeGroup, madeHeight, madeHash⟩
  rcases second.made consistent inTwo correct with
    ⟨again, againIn, sameVoter, againGroup, againHeight, againHash⟩
  have same : made.blockHash = again.blockHash :=
    consistent.single made madeIn again againIn (first.voters_subset inOne) correct
      sameVoter.symm (by rw [madeGroup, againGroup, group])
      (by rw [madeHeight, againHeight, height])
  rw [← madeHash, ← againHash, same]

theorem addVote_verified {crypto : Crypto} {now : Nat}
    (issued : (addVote crypto now aggregator vote).2 = some cert) :
    verifyVoteSignature crypto vote = true := by
  unfold addVote at issued
  split at issued
  next verified => exact verified
  next => cases issued

theorem addVote_sized (crypto : Crypto) {total : Nat} (now : Nat) (vote : MasternodeVote)
    (sized : Sized total aggregator) : Sized total (addVote crypto now aggregator vote).1 := by
  have kept := addVote_of_tallyVote crypto now vote (fun _ => True) sized
    (fun _ _ sized => sized) (by
      intro _
      unfold tallyVote
      simp only
      split <;> exact ⟨sized, fun _ _ => trivial⟩)
  exact kept.1

theorem callAt_sound (node : PublicKey) (call : Call)
    (sound : Sound scheme masternodes faulty network) (sized : Sized masternodes.card
      (Votes.step scheme.toCrypto (network.aggregators node) call).1)
    (incoming : ∀ now vote, call = .addVote now vote → verifyVoteSignature scheme.toCrypto vote = true →
        Endorsed masternodes faulty network.cast vote) :
    Sound scheme masternodes faulty (callAt scheme network node call).1 ∧
      ∀ cert, (callAt scheme network node call).2 = some cert →
        Supported masternodes faulty network.cast cert := by
  have counted := step_allVotes (sound.endorsed node) incoming
  have filed := step_filed scheme.toCrypto (network.aggregators node) call (sound.filed node)
  constructor
  · constructor
    · intro other
      simp only [callAt]
      split
      · exact filed
      · exact sound.filed other
    · intro other
      simp only [callAt]
      split
      · exact sized
      · exact sound.sized other
    · intro other
      simp only [callAt]
      split
      · exact counted.1
      · exact sound.endorsed other
    · exact sound.consistent
  · intro cert issued
    cases call with
    | addVote now vote =>
      have verified := addVote_verified issued
      have backed := ((addVote_backed scheme.toCrypto now vote (sound.filed node)).2 cert issued).2
      exact
        { members := ⟨vote.voterPubkey, (incoming now vote rfl verified).1⟩
          quorum := (le_quorumForGroup (sound.sized node)).trans backed.quorum
          keyed := backed.keyed
          voters := backed.voters
          endorsed := counted.2 cert issued }
    | setGroupMnSizes | cleanupOldVotes => cases issued

theorem castBy_bounded (event : Event) (vote : MasternodeVote)
    (cast : castBy scheme sign event = some vote) : vote.height < 2 ^ 64 := by
  cases event with
  | propose node now later falla3Disabled groupMembers proposal =>
    simp only [castBy] at cast
    split at cast
    · rw [(voteOnProposal_some scheme cast).2]
      exact proposal.height.toNat_lt
    · cases cast
  | deliver | refresh | cleanup => cases cast

theorem consistent_append (consistent : Consistent masternodes faulty cast)
    (bounded : vote.height < 2 ^ 64)
    (once : vote.voterPubkey ∈ masternodes → vote.voterPubkey ∉ faulty → ∀ earlier ∈ cast,
      earlier.voterPubkey = vote.voterPubkey → earlier.groupId = vote.groupId →
        earlier.height = vote.height → earlier.blockHash = vote.blockHash) :
    Consistent masternodes faulty (cast ++ [vote]) := by
  constructor
  · intro other member
    rcases List.mem_append.mp member with earlier | new
    · exact consistent.bounded other earlier
    · rw [List.mem_singleton.mp new]
      exact bounded
  · intro one first two second inNodes correct voter group height
    rw [List.mem_append, List.mem_singleton] at first second
    rcases first with before | rfl
    · rcases second with other | rfl
      · exact consistent.single one before two other inNodes correct voter group height
      · exact once (voter ▸ inNodes) (voter ▸ correct) one before voter group height
    · rcases second with other | rfl
      · exact (once inNodes correct two other voter.symm group.symm height.symm).symm
      · rfl

variable (masternodes faulty)

def Lawful (network : Network) (event : Event) : Prop :=
  Unforged scheme masternodes faulty network event ∧
    FromMasternodes scheme masternodes network event ∧
      VotesOnce scheme sign masternodes faulty network event

variable {masternodes faulty}

theorem step_sound (event : Event) (sound : Sound scheme masternodes faulty network)
    (lawful : Lawful scheme sign masternodes faulty network event) :
    Sound scheme masternodes faulty (step scheme sign masternodes.card network event).1 ∧
      (∀ cert, (step scheme sign masternodes.card network event).2 = some cert →
        Supported masternodes faulty network.cast cert) ∧
      ∃ more, (step scheme sign masternodes.card network event).1.cast = network.cast ++ more := by
  cases event with
  | propose node now later falla3Disabled groupMembers proposal =>
    refine ⟨⟨sound.filed, sound.sized, ?_, ?_⟩, by simp [step], _, rfl⟩
    · intro other key bucket found vote member
      exact (sound.endorsed other key bucket found vote member).append _
    · cases made : castBy scheme sign
          (.propose node now later falla3Disabled groupMembers proposal) with
      | none => simpa [step, made] using sound.consistent
      | some vote =>
        simp only [step, made]
        exact consistent_append sound.consistent (castBy_bounded scheme sign _ vote made)
          (lawful.2.2 vote made)
  | deliver node now vote =>
    have called := callAt_sound scheme network node (.addVote now vote) sound
      (addVote_sized scheme.toCrypto now vote (sound.sized node)) (by
        intro time other same verified
        cases same
        exact ⟨lawful.2.1 verified, lawful.1 verified (lawful.2.1 verified)⟩)
    exact ⟨called.1, called.2, [], (List.append_nil _).symm⟩
  | refresh node order groups =>
    simp only [step]
    split
    · exact ⟨sound, by simp, [], (List.append_nil _).symm⟩
    · have called := callAt_sound scheme network node
        (.setGroupMnSizes order (committeeSizes masternodes.card groups)) sound
        (setGroupMnSizes_sized order groups (sound.sized node)) (by simp)
      exact ⟨called.1, called.2, [], (List.append_nil _).symm⟩
  | cleanup node maxHeight =>
    have called := callAt_sound scheme network node (.cleanupOldVotes maxHeight) sound
      (sound.sized node) (by simp)
    exact ⟨called.1, called.2, [], (List.append_nil _).symm⟩

theorem start_sound : Sound scheme masternodes faulty (start masternodes.card) := by
  constructor
  · exact fun _ => new_filed scheme.toCrypto _
  · exact fun _ => ⟨rfl, uniform_empty⟩
  · intro node key bucket found
    cases found
  · constructor <;> simp [start]

variable (masternodes faulty)

/-- In every run in which only masternodes' votes are counted and no correct masternode
approves two blocks for one group and height, all certificates for a group and height
are for one block. -/
theorem certificates_agree (few : faulty.card ≤ faultBound masternodes.card)
    (events : List Event)
    (unforged : Along (step scheme sign masternodes.card) (Unforged scheme masternodes faulty)
      (start masternodes.card) events)
    (fromMasternodes : Along (step scheme sign masternodes.card)
      (FromMasternodes scheme masternodes) (start masternodes.card) events)
    (votesOnce : Along (step scheme sign masternodes.card)
      (VotesOnce scheme sign masternodes faulty) (start masternodes.card) events) :
    ∀ one two, some one ∈ outputs (step scheme sign masternodes.card) (start masternodes.card)
        events →
      some two ∈ outputs (step scheme sign masternodes.card) (start masternodes.card) events →
        one.groupId = two.groupId → one.height = two.height → one.blockHash = two.blockHash := by
  have lawful : Along (step scheme sign masternodes.card)
      (Lawful scheme sign masternodes faulty) (start masternodes.card) events :=
    along_and _ _ _ _ _ unforged (along_and _ _ _ _ _ fromMasternodes votesOnce)
  have ends := run_invariant_along (step scheme sign masternodes.card)
    (Lawful scheme sign masternodes faulty) (Sound scheme masternodes faulty)
    (fun network event sound ok => (step_sound scheme sign network event sound ok).1)
    (start masternodes.card) events (start_sound scheme) lawful
  -- Votes are only added, so the support of a certificate outlives the step that issued it.
  have supported := outputs_sound_along (step scheme sign masternodes.card)
    (Lawful scheme sign masternodes faulty) (Sound scheme masternodes faulty)
    (fun network output => ∀ cert, output = some cert → Supported masternodes faulty network.cast cert)
    (fun network event sound ok => (step_sound scheme sign network event sound ok).1)
    (by
      intro network event sound ok cert issued
      rcases step_sound scheme sign network event sound ok with ⟨_, certified, more, cast⟩
      rw [cast]
      exact (certified cert issued).append more)
    (by
      intro network event output sound ok holds cert issued
      rcases step_sound scheme sign network event sound ok with ⟨_, _, more, cast⟩
      rw [cast]
      exact (holds cert issued).append more)
    (start masternodes.card) (start_sound scheme) lawful
  intro one two first second group height
  exact supported_agree few ends.consistent (supported _ first one rfl)
    (supported _ second two rfl) group height

theorem step_cast {total : Nat} (event : Event) : (step scheme sign total network event).1.cast =
    network.cast ++ (castBy scheme sign event).toList := by
  cases event with
  | propose => rfl
  | deliver | cleanup => exact (List.append_nil _).symm
  | refresh =>
    simp only [step, castBy, Option.toList_none, List.append_nil]
    split <;> rfl

/-- More correct masternodes than can be faulty have voted for the block of the certificate, on
proposals that passed their checks. -/
def Certifies (network : Network) (event : Event) : Prop :=
  ∀ cert, (step scheme sign masternodes.card network event).2 = some cert →
    ∃ voters ⊆ masternodes \ faulty, faultBound masternodes.card < voters.card ∧
      ∀ voter ∈ voters, ∃ vote ∈ network.cast, (∃ proposed, castBy scheme sign proposed = some vote) ∧
        vote.voterPubkey = voter ∧ vote.groupId = cert.groupId ∧ vote.blockHash = cert.blockHash

theorem certificates_vetted (few : faulty.card ≤ faultBound masternodes.card) (events : List Event)
    (lawful : Along (step scheme sign masternodes.card) (Lawful scheme sign masternodes faulty)
      (start masternodes.card) events) :
    Along (step scheme sign masternodes.card) (Certifies scheme sign masternodes faulty)
      (start masternodes.card) events := by
  refine along_of_invariant _ _ _ (fun network => Sound scheme masternodes faulty network ∧
    ∀ vote ∈ network.cast, ∃ proposed, castBy scheme sign proposed = some vote) ?_ ?_ _ events
    ⟨start_sound scheme, by simp [start]⟩ lawful
  · intro network event before ok
    refine ⟨(step_sound scheme sign network event before.1 ok).1, fun vote member => ?_⟩
    rw [step_cast, List.mem_append, Option.mem_toList] at member
    exact member.elim (before.2 vote) fun made => ⟨event, made⟩
  · intro network event before ok cert issued
    have supported := (step_sound scheme sign network event before.1 ok).2.1 cert issued
    have outnumber := quorumForVoters_outnumbers _ (Finset.card_pos.mpr supported.members)
    have quorum := supported.voters_card
    have remain := Finset.le_card_sdiff faulty (cert.votes.map MasternodeVote.voterPubkey).toFinset
    refine ⟨_, Finset.sdiff_subset_sdiff supported.voters_subset subset_rfl, ?_, ?_⟩
    · unfold faultBound at *
      omega
    · intro voter member
      obtain ⟨counted, correct⟩ := Finset.mem_sdiff.mp member
      obtain ⟨made, cast, own, group, -, hash⟩ := supported.made before.1.consistent counted correct
      exact ⟨made, cast, before.2 made cast, own, group, hash⟩

end

def committee : Finset PublicKey := {sampleKey 1, sampleKey 2, sampleKey 3, sampleKey 4}

def signedBlock (hash : UInt8) : LightnodeProposal :=
  let proposal := { electing honestAttestations with
    blockHash := Vector.replicate 64 hash, parentHash := zeroDigest }
  withSignature proposal (sampleSign proposal.proposerPubkey (proposalSignableBytes proposal))

variable (voters : List UInt8) (proposal : LightnodeProposal)

def proposeTo : List Event :=
  voters.map fun voter =>
    .propose (sampleKey voter) 10000 10000 true ["a", "b", "c", "d"] proposal

def deliverFrom : List Event :=
  voters.map fun voter => .deliver (sampleKey 1) 0 ((sampleValidator voter).approval proposal)

def sampleStep : Network → Event → Network × Option BlockCertificate :=
  step sampleScheme sampleSign committee.card

def certified (events : List Event) : List (String × Nat × Digest) :=
  (outputs sampleStep (start committee.card) events).filterMap
    (Option.map fun cert => (cert.groupId, cert.height, cert.blockHash))

def oneBlock : List Event :=
  proposeTo [1, 2, 3] (signedBlock 5) ++ deliverFrom [1, 2, 3] (signedBlock 5)

theorem oneBlock_agrees :
    certified oneBlock = [("group_1_0_1", 7, Vector.replicate 64 5)] ∧
      ∀ one two, some one ∈ outputs sampleStep (start committee.card) oneBlock →
        some two ∈ outputs sampleStep (start committee.card) oneBlock →
          one.groupId = two.groupId → one.height = two.height → one.blockHash = two.blockHash := by
  refine ⟨by decide +kernel, ?_⟩
  apply certificates_agree sampleScheme sampleSign committee ∅ (by decide +kernel) oneBlock
  · decide +kernel
  · decide +kernel
  · decide +kernel

theorem oneBlock_vetted : Along sampleStep (Certifies sampleScheme sampleSign committee ∅)
    (start committee.card) oneBlock :=
  certificates_vetted sampleScheme sampleSign committee ∅ (by decide +kernel) oneBlock
    (along_and _ _ _ _ _ (by decide +kernel)
      (along_and _ _ _ _ _ (by decide +kernel) (by decide +kernel)))

/-- All four masternodes are correct and every vote is one that its voter made, yet the
committee certifies two blocks, because its members approve every valid proposal. -/
def twoBlocks : List Event :=
  proposeTo [1, 2, 3] (signedBlock 5) ++ proposeTo [2, 3, 4] (signedBlock 6) ++
    deliverFrom [1, 2, 3] (signedBlock 5) ++ deliverFrom [2, 3, 4] (signedBlock 6)

/-- No masternode votes for a second block, yet keys of no masternode certify one. -/
def strangers : List Event := oneBlock ++ deliverFrom [5, 6, 7] (signedBlock 6)

theorem certified_twice :
    (certified twoBlocks =
        [("group_1_0_1", 7, Vector.replicate 64 5), ("group_1_0_1", 7, Vector.replicate 64 6)] ∧
      Along sampleStep (Unforged sampleScheme committee ∅) (start committee.card) twoBlocks ∧
      Along sampleStep (FromMasternodes sampleScheme committee) (start committee.card) twoBlocks) ∧
    (certified strangers =
        [("group_1_0_1", 7, Vector.replicate 64 5), ("group_1_0_1", 7, Vector.replicate 64 6)] ∧
      Along sampleStep (Unforged sampleScheme committee ∅) (start committee.card) strangers ∧
      Along sampleStep (VotesOnce sampleScheme sampleSign committee ∅) (start committee.card)
        strangers) := by
  refine ⟨⟨?_, ?_, ?_⟩, ?_, ?_, ?_⟩ <;> decide +kernel

end Savitri.Agreement
