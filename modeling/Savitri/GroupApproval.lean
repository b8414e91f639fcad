import Savitri.GroupConsensus

/-!
What stands behind a certificate that a masternode marks approved: the required number
of distinct masternodes that approved. The list must hold one vote under each name,
which the own vote does not look after; the names must be masternodes', which nothing
checks; and approving votes must reach the number, where the code counts all votes and
then takes a share of them.
-/
namespace Savitri.GroupConsensus
open Std (ExtTreeMap)
open Transition LatticeTypes
variable {manager : GroupConsensusManager} {own proposalId : String}

section
variable (scheme : KeyScheme) (masternodes : Finset String) (cast : GroupVote → Prop)

def OwnVoteOnce (manager : GroupConsensusManager) : Call → Prop
  | .processProposal answers proposal =>
    validateProposal scheme answers.third (review scheme answers manager proposal).1 proposal →
      hasVoted manager proposal.proposalId manager.localMasternodeId = false
  | _ => True

def FromMasternodes (_ : GroupConsensusManager) : Call → Prop
  | .processVote _ vote => vote.voterMasternode ∈ masternodes ∧ cast vote
  | _ => True

instance decidableOwnVoteOnce (manager : GroupConsensusManager) :
    ∀ call, Decidable (OwnVoteOnce scheme manager call)
  | .processProposal answers proposal => inferInstanceAs (Decidable
      (validateProposal scheme answers.third (review scheme answers manager proposal).1 proposal →
        hasVoted manager proposal.proposalId manager.localMasternodeId = false))
  | .processVote .. => isTrue trivial
  | .processApprovalCertificate .. => isTrue trivial
  | .createAndProposeGroups .. => isTrue trivial
  | .updateActiveMasternodesCount .. => isTrue trivial
  | .initializeAvailableLightnodes .. => isTrue trivial
  | .initializeAvailableLightnodesBatch .. => isTrue trivial

instance decidableFromMasternodes [DecidablePred cast] (manager : GroupConsensusManager) :
    ∀ call, Decidable (FromMasternodes masternodes cast manager call)
  | .processVote _ vote =>
    inferInstanceAs (Decidable (vote.voterMasternode ∈ masternodes ∧ cast vote))
  | .processProposal .. => isTrue trivial
  | .processApprovalCertificate .. => isTrue trivial
  | .createAndProposeGroups .. => isTrue trivial
  | .updateActiveMasternodesCount .. => isTrue trivial
  | .initializeAvailableLightnodes .. => isTrue trivial
  | .initializeAvailableLightnodesBatch .. => isTrue trivial

def voters (votes : List GroupVote) : List String := votes.map GroupVote.voterMasternode

def approvers (certificate : GroupApprovalCertificate) : Finset String :=
  (voters ((approvals certificate.votes).filter fun vote =>
    vote.proposalId = certificate.proposal.proposalId)).toFinset

/-- The required number of masternodes approved, and every vote under another name than
the node's own was cast. -/
structure Backed (manager : GroupConsensusManager) (certificate : GroupApprovalCertificate) :
    Prop where
  quorum : ∃ required active, calculateDynamicQuorum manager = some (required, active) ∧
    required ≤ (approvers certificate).card
  members : approvers certificate ⊆ masternodes
  genuine : ∀ vote ∈ certificate.votes, vote.voterMasternode = manager.localMasternodeId ∨ cast vote

/-- If the votes are as many as required, so are the approving ones alone. -/
def reaches (manager : GroupConsensusManager) (votes : List GroupVote) : Bool :=
  (calculateDynamicQuorum manager).all fun quorum =>
    decide (quorum.1 ≤ votes.length → quorum.1 ≤ (approvals votes).length)

/-- The stored votes of the proposal reach the required number with the one that is added only
if the approving ones among them do. -/
def approvalsReach (manager : GroupConsensusManager) : Call → Bool
  | .processProposal answers proposal =>
    let reviewed := review scheme answers manager proposal
    reaches manager (manager.proposalVotes[proposal.proposalId]?.getD [] ++
      [localVote scheme reviewed.1 answers.votedAt proposal reviewed.2])
  | .processVote _ vote =>
    reaches manager ((storeVote manager vote).proposalVotes[vote.proposalId]?.getD [])
  | _ => true

def Marks (property : GroupConsensusManager → GroupApprovalCertificate → Prop)
    (manager : GroupConsensusManager) (call : Call) : Prop :=
  ∀ certificate ∈ (step scheme manager call).2.certificate, property manager certificate

end

variable {certificate : GroupApprovalCertificate} {vote : GroupVote}

section Tallies
variable (masternodes : Finset String) (cast : GroupVote → Prop)

structure Tallied (own proposalId : String) (votes : List GroupVote) : Prop where
  distinct : (voters votes).Nodup
  keyed : ∀ vote ∈ votes, vote.proposalId = proposalId
  members : ∀ vote ∈ votes, vote.voterMasternode ∈ masternodes
  genuine : ∀ vote ∈ votes, vote.voterMasternode = own ∨ cast vote

structure Sound (manager : GroupConsensusManager) : Prop where
  member : manager.localMasternodeId ∈ masternodes
  tallied : ∀ (proposalId : String) (votes : List GroupVote),
    manager.proposalVotes[proposalId]? = some votes →
      Tallied masternodes cast manager.localMasternodeId proposalId votes
  keyed : ∀ (proposalId : String) (proposal : GroupProposal),
    manager.activeProposals[proposalId]? = some proposal → proposal.proposalId = proposalId

variable {masternodes cast}

theorem Tallied.push {votes : List GroupVote}
    (tallied : Tallied masternodes cast own proposalId votes)
    (fresh : vote.voterMasternode ∉ voters votes) (keyed : vote.proposalId = proposalId)
    (member : vote.voterMasternode ∈ masternodes) (genuine : vote.voterMasternode = own ∨ cast vote) :
    Tallied masternodes cast own proposalId (votes ++ [vote]) := by
  constructor
  · unfold voters
    rw [List.map_append, List.map_singleton, ← List.concat_eq_append]
    exact List.Nodup.concat fresh tallied.distinct
  all_goals
    intro other inVotes
    rw [List.mem_append, List.mem_singleton] at inVotes
    rcases inVotes with earlier | rfl
  · exact tallied.keyed other earlier
  · exact keyed
  · exact tallied.members other earlier
  · exact member
  · exact tallied.genuine other earlier
  · exact genuine

variable (tallied : Tallied masternodes cast own certificate.proposal.proposalId certificate.votes)
include tallied

theorem card_approvers : (approvers certificate).card = (approvals certificate.votes).length := by
  have keyed : (approvals certificate.votes).filter (fun vote =>
      vote.proposalId = certificate.proposal.proposalId) = approvals certificate.votes := by
    rw [List.filter_eq_self]
    intro vote member
    exact decide_eq_true (tallied.keyed vote (List.mem_of_mem_filter member))
  have distinct : (voters (approvals certificate.votes)).Nodup :=
    tallied.distinct.sublist (List.filter_sublist.map _)
  unfold approvers
  rw [keyed, List.toFinset_card_of_nodup distinct]
  exact List.length_map _

theorem approvers_subset : approvers certificate ⊆ masternodes := by
  intro name member
  rcases List.mem_map.mp (List.mem_toFinset.mp member) with ⟨vote, counted, rfl⟩
  exact tallied.members vote (List.mem_of_mem_filter (List.mem_of_mem_filter counted))

omit tallied

theorem not_mem_voters {voter : String} (fresh : hasVoted manager proposalId voter = false) :
    voter ∉ voters (manager.proposalVotes[proposalId]?.getD []) := by
  intro member
  rcases List.mem_map.mp member with ⟨vote, inVotes, rfl⟩
  unfold hasVoted at fresh
  rw [List.any_eq_false] at fresh
  exact fresh vote inVotes (beq_self_eq_true _)

theorem pushVote_sound (sound : Sound masternodes cast manager)
    (fresh : hasVoted manager vote.proposalId vote.voterMasternode = false)
    (member : vote.voterMasternode ∈ masternodes)
    (genuine : vote.voterMasternode = manager.localMasternodeId ∨ cast vote) :
    Sound masternodes cast (pushVote manager vote) := by
  refine ⟨sound.member, ?_, sound.keyed⟩
  have before : Tallied masternodes cast manager.localMasternodeId vote.proposalId
      (manager.proposalVotes[vote.proposalId]?.getD []) := by
    cases found : manager.proposalVotes[vote.proposalId]? with
    | none => constructor <;> simp [voters]
    | some votes => exact sound.tallied _ votes found
  intro proposalId votes found
  simp only [pushVote, ExtTreeMap.getElem?_insert] at found
  split at found
  next same =>
    rw [← Option.some.inj found, ← compare_eq_iff_eq.mp same]
    exact before.push (not_mem_voters fresh) rfl member genuine
  next => exact sound.tallied proposalId votes found

theorem insertProposal_sound (proposal : GroupProposal) (sound : Sound masternodes cast manager) :
    Sound masternodes cast (insertProposal manager proposal) := by
  refine ⟨sound.member, sound.tallied, ?_⟩
  intro proposalId stored found
  simp only [insertProposal, ExtTreeMap.getElem?_insert] at found
  split at found
  next same =>
    rw [← Option.some.inj found]
    exact compare_eq_iff_eq.mp same
  next => exact sound.keyed proposalId stored found

theorem closeProposal_sound (closed : String) (sound : Sound masternodes cast manager) :
    Sound masternodes cast (closeProposal manager closed) := by
  refine ⟨sound.member, fun proposalId votes found => sound.tallied proposalId votes ?_,
    fun proposalId proposal found => sound.keyed proposalId proposal ?_⟩
  all_goals
    simp only [closeProposal, ExtTreeMap.getElem?_erase] at found
    split at found
    · cases found
    · exact found

end Tallies

section
variable (scheme : KeyScheme) {masternodes : Finset String} {cast : GroupVote → Prop}
variable {answers : Answers} (now : UInt64)

/-- A check leaves the manager alone, closes the proposal, or marks a certificate with
all the votes of the list and closes it. -/
theorem checkProposalConsensus_cases :
    checkProposalConsensus scheme now manager proposalId = (manager, none) ∨
      checkProposalConsensus scheme now manager proposalId =
        (closeProposal manager proposalId, none) ∨
      ∃ certificate required active,
        checkProposalConsensus scheme now manager proposalId =
          (closeProposal (insertCertificate manager certificate) proposalId, some certificate) ∧
        manager.activeProposals[proposalId]? = some certificate.proposal ∧
        manager.proposalVotes[proposalId]? = some certificate.votes ∧
        calculateDynamicQuorum manager = some (required, active) ∧
        required ≤ certificate.votes.length := by
  unfold checkProposalConsensus
  split
  next proposal votes proposed found =>
    split
    · exact Or.inl rfl
    next required active quorum =>
      split
      next reached =>
        split
        · exact Or.inr (Or.inr ⟨_, required, active, rfl, proposed, found, quorum, reached⟩)
        · exact Or.inl rfl
      next =>
        split
        · exact Or.inr (Or.inl rfl)
        · exact Or.inl rfl
  next => exact Or.inl rfl

/-- What a marked certificate carries: the tallied votes for its own proposal, as many as
required, whichever way they go. -/
def Carries (masternodes : Finset String) (cast : GroupVote → Prop)
    (manager : GroupConsensusManager) (certificate : GroupApprovalCertificate) : Prop :=
  (∃ required active, calculateDynamicQuorum manager = some (required, active) ∧
      required ≤ certificate.votes.length) ∧
    Tallied masternodes cast manager.localMasternodeId certificate.proposal.proposalId
      certificate.votes

theorem checkProposalConsensus_sound (proposalId : String)
    (sound : Sound masternodes cast manager) :
    Sound masternodes cast (checkProposalConsensus scheme now manager proposalId).1 ∧
      ∀ certificate ∈ (checkProposalConsensus scheme now manager proposalId).2,
        Carries masternodes cast manager certificate := by
  rcases checkProposalConsensus_cases scheme now with
    same | closed | ⟨marked, required, active, shape, proposed, found, quorum⟩
  · rw [same]
    exact ⟨sound, by simp⟩
  · rw [closed]
    exact ⟨closeProposal_sound proposalId sound, by simp⟩
  · rw [shape]
    refine ⟨closeProposal_sound proposalId ⟨sound.member, sound.tallied, sound.keyed⟩, ?_⟩
    intro certificate member
    rw [← Option.some.inj (Option.mem_def.mp member)]
    refine ⟨⟨required, active, quorum⟩, ?_⟩
    rw [sound.keyed proposalId _ proposed]
    exact sound.tallied proposalId _ found

variable {proposal : GroupProposal}
variable (sound : Sound masternodes cast manager)
include sound
variable {scheme}

theorem review_sound : Sound masternodes cast (review scheme answers manager proposal).1 := by
  have inserted := insertProposal_sound proposal sound
  unfold review
  simp only
  split
  · exact inserted
  · exact ⟨inserted.member, inserted.tallied, inserted.keyed⟩

omit sound in
theorem review_frame (manager : GroupConsensusManager) (proposal : GroupProposal) :
    (review scheme answers manager proposal).1.proposalVotes = manager.proposalVotes ∧
      (review scheme answers manager proposal).1.localMasternodeId = manager.localMasternodeId ∧
      calculateDynamicQuorum (review scheme answers manager proposal).1 =
        calculateDynamicQuorum manager := by
  unfold review
  simp only
  split <;> exact ⟨rfl, rfl, rfl⟩

theorem processApprovalCertificate_sound :
    Sound masternodes cast (processApprovalCertificate manager certificate).1 := by
  unfold processApprovalCertificate
  split
  · exact ⟨sound.member, sound.tallied, sound.keyed⟩
  · exact sound

theorem createAndProposeGroups_sound {answers : Formation} :
    Sound masternodes cast (createAndProposeGroups scheme answers manager).1 := by
  unfold createAndProposeGroups
  split
  · exact sound
  · split
    · exact sound
    · split
      · exact sound
      · simp only
        split
        · exact sound
        · exact ⟨sound.member, sound.tallied, (insertProposal_sound _ sound).keyed⟩

omit sound in
theorem voteOnProposal_sound (approve : Bool) (sound : Sound masternodes cast manager)
    (once : validateProposal scheme answers.third manager proposal →
      hasVoted manager proposal.proposalId manager.localMasternodeId = false) :
    Sound masternodes cast (voteOnProposal scheme answers manager proposal approve).1 ∧
      ∀ certificate ∈ (voteOnProposal scheme answers manager proposal approve).2.certificate,
        Carries masternodes cast manager certificate := by
  unfold voteOnProposal
  split
  next valid =>
    have pushed : Sound masternodes cast
        (pushVote manager (localVote scheme manager answers.votedAt proposal approve)) :=
      pushVote_sound sound (once valid) sound.member (Or.inl rfl)
    have checked := checkProposalConsensus_sound scheme answers.checkedAt proposal.proposalId pushed
    simp only
    split
    next certificate marked =>
      refine ⟨processApprovalCertificate_sound checked.1, ?_⟩
      intro other member
      rw [← Option.some.inj (Option.mem_def.mp member)]
      exact checked.2 certificate marked
    next => exact ⟨checked.1, by simp⟩
  next => exact ⟨sound, by simp⟩

theorem processProposal_sound {proposal : GroupProposal}
    (once : OwnVoteOnce scheme manager (.processProposal answers proposal)) :
    Sound masternodes cast (processProposal scheme answers manager proposal).1 ∧
      ∀ certificate ∈ (processProposal scheme answers manager proposal).2.certificate,
        Carries masternodes cast manager certificate := by
  rcases review_frame manager proposal with ⟨votes, own, quorum⟩
  have voted := voteOnProposal_sound
    (review scheme answers manager proposal).2 (review_sound sound) (by
      intro valid
      unfold hasVoted
      rw [votes, own]
      exact once valid)
  refine ⟨voted.1, ?_⟩
  intro certificate member
  have carries := voted.2 certificate member
  unfold Carries at carries ⊢
  rw [own, quorum] at carries
  exact carries

theorem processVote_sound
    (genuine : FromMasternodes masternodes cast manager (.processVote now vote)) :
    Sound masternodes cast (processVote scheme now manager vote).1 ∧
      ∀ certificate ∈ (processVote scheme now manager vote).2.certificate,
        Carries masternodes cast manager certificate := by
  unfold processVote storeVote
  by_cases voted : hasVoted manager vote.proposalId vote.voterMasternode = true
  · rw [if_pos voted]
    exact checkProposalConsensus_sound scheme now vote.proposalId sound
  · rw [if_neg voted]
    exact checkProposalConsensus_sound scheme now vote.proposalId
      (pushVote_sound sound (Bool.not_eq_true _ ▸ voted) genuine.1 (Or.inr genuine.2))

omit sound

variable (scheme)

theorem step_sound (manager : GroupConsensusManager) (call : Call)
    (sound : Sound masternodes cast manager) (once : OwnVoteOnce scheme manager call)
    (genuine : FromMasternodes masternodes cast manager call) :
    Sound masternodes cast (step scheme manager call).1 ∧
      Marks scheme (Carries masternodes cast) manager call := by
  cases call with
  | processProposal answers proposal =>
    exact processProposal_sound sound once
  | processVote now vote => exact processVote_sound now sound genuine
  | processApprovalCertificate certificate =>
    exact ⟨processApprovalCertificate_sound sound, by simp [Marks, step]⟩
  | createAndProposeGroups answers =>
    exact ⟨createAndProposeGroups_sound sound, by simp [Marks, step]⟩
  | updateActiveMasternodesCount | initializeAvailableLightnodes
  | initializeAvailableLightnodesBatch =>
    exact ⟨⟨sound.member, sound.tallied, sound.keyed⟩, by simp [Marks, step]⟩

variable {scheme now} in
theorem checkProposalConsensus_votes
    (marked : certificate ∈ (checkProposalConsensus scheme now manager proposalId).2) :
    certificate.votes = manager.proposalVotes[proposalId]?.getD [] := by
  rcases @checkProposalConsensus_cases manager proposalId scheme now with
    same | closed | ⟨other, required, active, shape, _, found, _⟩
  · simp [same] at marked
  · simp [closed] at marked
  · rw [shape, Option.mem_def, Option.some.injEq] at marked
    rw [found, Option.getD_some, marked]

theorem step_reaches (manager : GroupConsensusManager) (call : Call)
    (reach : approvalsReach scheme manager call = true) :
    Marks scheme (fun manager certificate => reaches manager certificate.votes = true)
      manager call := by
  intro certificate marked
  cases call with
  | processProposal answers proposal =>
    simp only [step, processProposal, voteOnProposal] at marked
    split at marked
    · split at marked
      next other found =>
        rw [Option.mem_def, Option.some.injEq] at marked
        subst marked
        have votes := checkProposalConsensus_votes found
        simp only [pushVote, localVote, ExtTreeMap.getElem?_insert_self, Option.getD_some,
          (review_frame manager proposal).1] at votes
        rw [votes]
        exact reach
      next => cases marked
    · cases marked
  | processVote now vote =>
    rw [checkProposalConsensus_votes marked]
    exact reach
  | processApprovalCertificate | createAndProposeGroups | updateActiveMasternodesCount
  | initializeAvailableLightnodes | initializeAvailableLightnodesBatch => cases marked

theorem Carries.backed (carries : Carries masternodes cast manager certificate)
    (reach : reaches manager certificate.votes = true) :
    Backed masternodes cast manager certificate := by
  rcases carries with ⟨⟨required, active, quorum, reached⟩, tallied⟩
  refine ⟨⟨required, active, quorum, ?_⟩, approvers_subset tallied, tallied.genuine⟩
  rw [reaches, quorum, Option.all_some, decide_eq_true_eq] at reach
  rw [card_approvers tallied]
  exact reach reached

variable {config : BftGroupConfig}

theorem new_sound (member : own ∈ masternodes) : Sound masternodes cast (new own config) := by
  refine ⟨member, ?_, ?_⟩ <;> simp [new]

theorem run_carries {calls : List Call} (member : own ∈ masternodes)
    (once : Along (step scheme) (OwnVoteOnce scheme) (new own config) calls)
    (genuine : Along (step scheme) (FromMasternodes masternodes cast) (new own config) calls) :
    Along (step scheme) (Marks scheme (Carries masternodes cast)) (new own config) calls := by
  apply along_of_invariant (step scheme) _ _ (Sound masternodes cast) _ _ _ calls
    (new_sound member) (along_and (step scheme) _ _ _ calls once genuine)
  · intro manager call sound lawful
    exact (step_sound scheme manager call sound lawful.1 lawful.2).1
  · intro manager call sound lawful
    exact (step_sound scheme manager call sound lawful.1 lawful.2).2

/-- Where a node votes on a proposal once, the votes it receives were cast by masternodes, and
the votes of a proposal never reach the required number by rejecting ones, all certificates
it marks are backed by that number of distinct masternodes. -/
theorem approved_backed (masternodes : Finset String) (cast : GroupVote → Prop)
    (own : String) (config : BftGroupConfig) (calls : List Call) (member : own ∈ masternodes)
    (once : Along (step scheme) (OwnVoteOnce scheme) (new own config) calls)
    (genuine : Along (step scheme) (FromMasternodes masternodes cast) (new own config) calls)
    (reach : Along (step scheme) (fun manager call => approvalsReach scheme manager call = true)
      (new own config) calls) :
    Along (step scheme) (Marks scheme (Backed masternodes cast)) (new own config) calls := by
  have both := along_and (step scheme) _ _ _ _ (run_carries scheme member once genuine) reach
  refine along_of_invariant (step scheme) _ _ (fun _ => True) (fun _ _ _ _ => trivial) ?_ _ _
    trivial both
  intro manager call _ ⟨carries, reach⟩ certificate marked
  exact (carries certificate marked).backed (step_reaches scheme manager call reach _ marked)

end

section
variable (scheme : KeyScheme) (masternodes : Finset String)

/-- The call marks a certificate approved by fewer masternodes than required. -/
def undercounted (manager : GroupConsensusManager) (call : Call) : Bool :=
  (step scheme manager call).2.certificate.any fun certificate =>
    (calculateDynamicQuorum manager).any fun quorum =>
      (approvers certificate ∩ masternodes).card < quorum.1

variable {scheme}

theorem not_backed_of_undercounted (cast : GroupVote → Prop) (manager : GroupConsensusManager)
    (front : List Call) (call : Call)
    (short : undercounted scheme masternodes (run (step scheme) manager front) call = true) :
    ¬ Along (step scheme) (Marks scheme (Backed masternodes cast)) manager (front ++ [call]) := by
  intro along
  rw [along_append] at along
  rcases (Option.any_eq_true _ _).mp short with ⟨certificate, marked, few⟩
  rcases (Option.any_eq_true _ _).mp few with ⟨quorum, found, less⟩
  rcases along.2.1 certificate marked with ⟨⟨required, active, same, reached⟩, members, _⟩
  rw [Finset.inter_eq_left.mpr members] at less
  rw [same] at found
  rw [← Option.some.inj found] at less
  exact absurd reached (Nat.not_le.mpr (of_decide_eq_true less))

def sampleKeys : KeyScheme where
  toScheme := Proposals.sampleScheme
  sha512 bytes := Vector.replicate 64 (sampleDigest bytes)
  verifyingKey seed := seed
  signWith := sampleSign

def sampleMembers : List String := ["a", "b", "c", "d", "e"]

def groupProposal : GroupProposal :=
  { proposalId := "p", epoch := 1
    groups := [{ groupId := "g", members := sampleMembers, createdAt := 10, status := .forming }]
    proposerMasternode := "m2", usedLightnodes := sampleMembers, timestamp := 100
    signature := Vector.replicate 64 0 }

def proposalArrives : Call :=
  let nodes := sampleMembers.map fun node =>
    { nodeId := node, pouScore := 0.5, assignment := .free }
  .processProposal
    { first := { epoch := 1 }, registered := nodes, second := { epoch := 1 },
      third := { epoch := 1 }, votedAt := 101, checkedAt := 101 } groupProposal

def voteArrives (voteType : GroupVoteType) (voter : String) : Call :=
  .processVote 102
    { proposalId := "p", voterMasternode := voter, voteType := voteType, timestamp := 102
      signature := Vector.replicate 64 0 }

def threeNodes : Finset String := {"m1", "m2", "m3"}
def tenNodes : Finset String := {"m1", "m2", "m3", "m4", "m5", "m6", "m7", "m8", "m9", "m10"}

def threeApprove : List Call := proposalArrives :: ["m2", "m3"].map (voteArrives .approve)

/-- One vote each of the three masternodes of the default configuration. -/
theorem threeApprove_backed :
    ((outputs (step sampleKeys) (new "m1" {}) threeApprove).map fun reply =>
        reply.certificate.map fun certificate => (approvers certificate).card) =
      [none, none, some 3] ∧
    Along (step sampleKeys) (Marks sampleKeys (Backed threeNodes fun vote =>
      vote.voterMasternode ∈ threeNodes)) (new "m1" {}) threeApprove := by
  constructor
  · decide +kernel
  · apply approved_backed sampleKeys threeNodes _ "m1" {} threeApprove <;> decide +kernel

/-- Three times the same proposal and it is approved by the one node that received it;
five of seven votes are enough where seven approvals are required; and any two names
that no masternode bears complete a quorum. -/
theorem approved_not_backed :
    (¬ Along (step sampleKeys) (Marks sampleKeys (Backed threeNodes fun _ => True))
      (new "m1" {}) [proposalArrives, proposalArrives, proposalArrives]) ∧
    (¬ Along (step sampleKeys) (Marks sampleKeys (Backed tenNodes fun _ => True))
      (new "m1" { totalMasternodes := 10 })
      (proposalArrives :: (["m2", "m3"].map (voteArrives .reject) ++
        ["m4", "m5", "m6", "m7"].map (voteArrives .approve)))) ∧
    (¬ Along (step sampleKeys) (Marks sampleKeys (Backed threeNodes fun _ => True))
      (new "m1" {}) (proposalArrives :: ["x", "y"].map (voteArrives .approve))) := by
  refine ⟨?_, ?_, ?_⟩
  · exact not_backed_of_undercounted threeNodes _ _
      [proposalArrives, proposalArrives] proposalArrives (by decide +kernel)
  · exact not_backed_of_undercounted tenNodes _ _
      (proposalArrives :: (["m2", "m3"].map (voteArrives .reject) ++
        ["m4", "m5", "m6"].map (voteArrives .approve))) (voteArrives .approve "m7")
      (by decide +kernel)
  · exact not_backed_of_undercounted threeNodes _ _
      [proposalArrives, voteArrives .approve "x"] (voteArrives .approve "y")
      (by decide +kernel)

end

end Savitri.GroupConsensus
