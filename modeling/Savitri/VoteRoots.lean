import Savitri.Votes

/-!
The roots in a block certificate. A vote carries a state root, a transaction root
and a parent hash beside its signed bytes, not among them, and the certificate
takes the three from the vote that was counted first. So its roots are those of
every vote it carries only if the voters name the same roots of their own accord.
-/
namespace Savitri.VoteRoots
open Std Transition LatticeTypes Votes
variable {key : ProposalKey}
variable (vote : MasternodeVote)

def voteRoots : Digest × Digest × Digest := (vote.stateRoot, vote.txRoot, vote.parentHash)

def certificateRoots (cert : BlockCertificate) : Digest × Digest × Digest :=
  (cert.stateRoot, cert.txRoot, cert.parentHash)

/-- Votes with other roots have the same signed bytes. -/
def withRoots (roots : Digest × Digest × Digest) : MasternodeVote :=
  { vote with stateRoot := roots.1, txRoot := roots.2.1, parentHash := roots.2.2 }

def Agreed (key : ProposalKey) (aggregator : VoteAggregator) : Prop :=
  ∀ bucket, aggregator.votes key = some bucket →
    ∀ one ∈ bucket.approveVotes, ∀ two ∈ bucket.approveVotes, voteRoots one = voteRoots two

def Concurs (crypto : Crypto) (key : ProposalKey) (aggregator : VoteAggregator) : Call → Prop
  | .addVote _ vote => verifyVoteSignature crypto vote = true → vote.voteType = .approve →
      vote.key = key → ∀ bucket, aggregator.votes key = some bucket →
        (∀ earlier ∈ bucket.approveVotes, earlier.voterPubkey ≠ vote.voterPubkey) →
          ∀ earlier ∈ bucket.approveVotes, voteRoots earlier = voteRoots vote
  | _ => True

section
variable {now : Nat} {bucket : ProposalVotes} {aggregator : VoteAggregator}
variable (agreed : ∀ one ∈ bucket.approveVotes, ∀ two ∈ bucket.approveVotes,
  voteRoots one = voteRoots two)
include agreed

theorem certificateRoots_of_agreed :
    ∀ vote ∈ (certificate now key bucket).votes,
      voteRoots vote = certificateRoots (certificate now key bucket) := by
  intro vote member
  cases listed : bucket.approveVotes with
  | nil =>
    have inBucket : vote ∈ bucket.approveVotes := member
    rw [listed] at inBucket
    cases inBucket
  | cons first rest =>
    have same := agreed vote member first (by rw [listed]; exact List.mem_cons_self)
    rw [same]
    simp [certificateRoots, voteRoots, certificate, listed]

theorem addVote_agreed {vote : MasternodeVote} (concurs : vote.voteType = .approve →
      (∀ earlier ∈ bucket.approveVotes, earlier.voterPubkey ≠ vote.voterPubkey) →
        ∀ earlier ∈ bucket.approveVotes, voteRoots earlier = voteRoots vote) :
    ∀ one ∈ (bucket.addVote vote).approveVotes, ∀ two ∈ (bucket.addVote vote).approveVotes,
      voteRoots one = voteRoots two := by
  unfold ProposalVotes.addVote
  cases kind : vote.voteType with
  | reject => exact agreed
  | approve =>
    simp only [pushNew]
    split
    · exact agreed
    next fresh =>
      have new : ∀ earlier ∈ bucket.approveVotes, earlier.voterPubkey ≠ vote.voterPubkey := by
        intro earlier member same
        exact fresh (List.any_eq_true.mpr ⟨earlier, member, by simp [same]⟩)
      have joins := concurs kind new
      intro one first two second
      rw [List.mem_append, List.mem_singleton] at first second
      rcases first with earlier | rfl
      · rcases second with other | rfl
        · exact agreed one earlier two other
        · exact joins one earlier
      · rcases second with other | rfl
        · exact (joins two other).symm
        · rfl

omit agreed

variable (crypto : Crypto)

theorem tallyVote_agreed {vote : MasternodeVote} {quorum : Nat} (agreed : Agreed key aggregator)
    (verified : verifyVoteSignature crypto vote = true)
    (concurs : Concurs crypto key aggregator (.addVote now vote)) :
    Agreed key (tallyVote now aggregator vote quorum).1 ∧
      ∀ cert, (tallyVote now aggregator vote quorum).2 = some cert → cert.key = key →
        ∀ carried ∈ cert.votes, voteRoots carried = certificateRoots cert := by
  by_cases own : vote.key = key
  · subst own
    have after : ∀ one ∈ (((aggregator.votes vote.key).getD {}).addVote vote).approveVotes,
        ∀ two ∈ (((aggregator.votes vote.key).getD {}).addVote vote).approveVotes,
          voteRoots one = voteRoots two := by
      cases found : aggregator.votes vote.key with
      | none => exact addVote_agreed (by simp) (by simp)
      | some bucket =>
        exact addVote_agreed (agreed bucket found) fun approves =>
          concurs verified approves rfl bucket found
    unfold tallyVote
    simp only
    split
    · refine ⟨fun bucket found => ?_, fun cert issued _ => ?_⟩
      · simp [setBucket] at found
      · rw [← Option.some.inj issued]
        exact certificateRoots_of_agreed after
    · refine ⟨fun bucket found => ?_, fun cert issued => ?_⟩
      · simp only [setBucket, if_true, Option.some.injEq] at found
        exact found ▸ after
      · cases issued
  · have elsewhere : (tallyVote now aggregator vote quorum).1.votes key = aggregator.votes key := by
      unfold tallyVote
      simp only
      split <;> simp [setBucket, Ne.symm own]
    refine ⟨fun bucket found => agreed bucket (elsewhere ▸ found), fun cert issued keyed => ?_⟩
    exact absurd ((tallyVote_key now aggregator vote quorum cert issued).symm.trans keyed) own

theorem addVote_roots {vote : MasternodeVote} (agreed : Agreed key aggregator)
    (concurs : Concurs crypto key aggregator (.addVote now vote)) :
    Agreed key (addVote crypto now aggregator vote).1 ∧
      ∀ cert, (addVote crypto now aggregator vote).2 = some cert → cert.key = key →
        ∀ carried ∈ cert.votes, voteRoots carried = certificateRoots cert := by
  apply addVote_of_tallyVote crypto now vote _ agreed
  · exact fun _ _ kept => kept
  · exact fun verified => tallyVote_agreed crypto agreed verified concurs

theorem step_agreed (aggregator : VoteAggregator) (call : Call) (agreed : Agreed key aggregator)
    (concurs : Concurs crypto key aggregator call) : Agreed key (step crypto aggregator call).1 := by
  cases call with
  | addVote now vote => exact (addVote_roots crypto agreed concurs).1
  | setGroupMnSizes order sizes => exact agreed
  | cleanupOldVotes maxHeight =>
    intro bucket found
    simp only [step, cleanupOldVotes, cleanupIssued, cleanupVotes] at found
    split at found
    · exact agreed bucket found
    · cases found

/-- In every run whose counted votes for the certified proposal concur, the
certificate has the roots of every vote it carries. -/
theorem certificate_carries_roots (totalVoters : Nat) (calls : List Call) (now : Nat)
    (vote : MasternodeVote) (cert : BlockCertificate)
    (issued : (addVote crypto now (run (step crypto) (new totalVoters) calls) vote).2 = some cert)
    (concur : Along (step crypto) (Concurs crypto cert.key) (new totalVoters)
      (calls ++ [.addVote now vote])) :
    ∀ carried ∈ cert.votes, voteRoots carried = certificateRoots cert := by
  rw [along_append] at concur
  have start : Agreed cert.key (new totalVoters) := by
    intro bucket found
    cases found
  have agreed := run_invariant_along (step crypto) (Concurs crypto cert.key) (Agreed cert.key)
    (step_agreed crypto) (new totalVoters) calls start concur.1
  exact (addVote_roots crypto agreed concur.2.1).2 cert issued rfl

end

def certifiedAfter (first : MasternodeVote) : Option BlockCertificate :=
  (addVote sampleCrypto 0 (run (step sampleCrypto) (new 2) [.addVote 0 first]) (sampleVote 2)).2

theorem sampleVotes_agree :
    ∃ cert, certifiedAfter (sampleVote 1) = some cert ∧
      ∀ carried ∈ cert.votes, voteRoots carried = certificateRoots cert := by
  have issues : (certifiedAfter (sampleVote 1)).isSome = true := by decide +kernel
  rcases Option.isSome_iff_exists.mp issues with ⟨cert, issued⟩
  refine ⟨cert, issued, ?_⟩
  apply certificate_carries_roots sampleCrypto 2 [.addVote 0 (sampleVote 1)] 0 (sampleVote 2)
    cert issued
  refine ⟨fun _ _ _ bucket found => ?_, fun _ _ keyed bucket found _ earlier member => ?_, trivial⟩
  · cases found
  · have filed : ((run (step sampleCrypto) (new 2) [.addVote 0 (sampleVote 1)]).votes
        (sampleVote 2).key).map ProposalVotes.approveVotes = some [sampleVote 1] := by
      decide +kernel
    rw [keyed] at filed
    have same := (congrArg (Option.map ProposalVotes.approveVotes) found).symm.trans filed
    rw [Option.map_some, Option.some.injEq] at same
    rw [same, List.mem_singleton] at member
    rw [member]
    rfl

def sampleRoots : Digest × Digest × Digest := voteRoots (sampleVote 2)
def otherRoots : Digest × Digest × Digest := (Vector.replicate 64 9, sampleRoots.2)

/-- Whichever roots the first voter puts beside its signed bytes become those of
the certificate; the second voter's vote is the same in both runs. -/
theorem first_voter_sets_roots :
    (certifiedAfter (sampleVote 1)).map (fun cert =>
        (certificateRoots cert, cert.votes.map voteRoots)) =
      some (sampleRoots, [sampleRoots, sampleRoots]) ∧
    (certifiedAfter (withRoots (sampleVote 1) otherRoots)).map (fun cert =>
        (certificateRoots cert, cert.votes.map voteRoots)) =
      some (otherRoots, [otherRoots, sampleRoots]) ∧
    otherRoots ≠ sampleRoots := by
  refine ⟨?_, ?_, ?_⟩ <;> decide +kernel

end Savitri.VoteRoots
