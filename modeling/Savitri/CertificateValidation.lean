import Savitri.DistinctVotes
import Savitri.LatticeTypes

/-!
`validate_certificate` of p2p/certificate.rs: a light node accepts a certificate
whose one signature verifies under enough of the keys listed as its voters. Each
entry of the list counts, also a repeated key. `usize` is 64 bits wide; the size of the
committee is doubled in it, which wraps in a release build and panics in a debug build.
-/
namespace Savitri.CertificateValidation
open LatticeTypes DistinctVotes

/-- What the validation asks of the Ed25519 crate: the error of a key that does not parse, and
whether the bytes of a signature verify. -/
structure Ed25519 where
  keyError : PublicKey → Option String
  verify : PublicKey → List UInt8 → List UInt8 → Bool

/-- The group and the transactions root of a certificate are not read here. -/
structure ConsensusCertificate where
  blockHash : Vector UInt8 64
  height : UInt64
  epochId : UInt64
  committeeId : UInt64
  round : UInt32
  voters : List PublicKey
  aggregatedSignature : List UInt8
  timestamp : UInt64
  /-- No vector of keys is longer: it has at most `isize::MAX` bytes. -/
  votersFit : voters.length < 2 ^ 58

inductive Failure where
  | rejected (reason : String)
  | panicked
  deriving DecidableEq

variable (overflowChecks : Bool) (sha256 : List UInt8 → Vector UInt8 32) (ed25519 : Ed25519)

def ensure (holds : Bool) (reason : String) : Except Failure Unit :=
  if holds then .ok () else .error (.rejected reason)

/-- A sum in 64 bits: its wrapped value, unless the build checks for overflow and there is one. -/
def unlessOverflow (sum : Nat) (wrapped : UInt64) : Except Failure UInt64 :=
  if overflowChecks && 2 ^ 64 ≤ sum then .error .panicked else .ok wrapped

def requiredVotes (committeeSize : UInt64) : Except Failure UInt64 :=
  unlessOverflow overflowChecks (committeeSize.toNat * 2 + 2) ((committeeSize * 2 + 2) / 3)

def latestTime (now : UInt64) : Except Failure UInt64 :=
  unlessOverflow overflowChecks (now.toNat + 300) (now + 300)

variable (certificate : ConsensusCertificate)

def message : List UInt8 :=
  certificate.blockHash.toList ++ toLeBytes 8 certificate.height.toNat ++
    toLeBytes 4 certificate.round.toNat ++ toLeBytes 8 certificate.epochId.toNat ++
    toLeBytes 8 certificate.committeeId.toNat

def verifies (voter : PublicKey) : Bool :=
  ed25519.verify voter (sha256 (message certificate)).toList certificate.aggregatedSignature

def countVerified (certificate : ConsensusCertificate) :
    Nat → List PublicKey → Nat → Except Failure Nat
  | _, [], verified => .ok verified
  | index, voter :: rest, verified =>
    match ed25519.keyError voter with
    | some error => .error (.rejected s!"Invalid voter public key at index {index}: {error}")
    | none =>
      countVerified certificate (index + 1) rest
        (if verifies sha256 ed25519 certificate voter then verified + 1 else verified)

/-- A key has 32 bytes by its type, so the check of their lengths is left out, and so is the
second check of the length of the signature. -/
def validateCertificate (committeeSize now : UInt64) : Except Failure Unit := do
  let required ← requiredVotes overflowChecks committeeSize
  ensure (required.toNat ≤ certificate.voters.length)
    s!"Insufficient votes: {certificate.voters.length} < {required} required"
  ensure (certificate.aggregatedSignature ≠ []) "certificate has empty aggregated signature"
  ensure (certificate.aggregatedSignature.length = 64)
    s!"Invalid aggregated signature length: {certificate.aggregatedSignature.length} (expected 64 for Ed25519)"
  ensure (certificate.voters ≠ []) "No voters found in certificate"
  let verified ← countVerified sha256 ed25519 certificate 0 certificate.voters 0
  ensure (required.toNat ≤ verified)
    s!"Insufficient verified signatures: {verified} < {required} required"
  let latest ← latestTime overflowChecks now
  ensure (certificate.timestamp ≤ latest)
    s!"Certificate timestamp {certificate.timestamp} is too far in the future (current: {now})"
  ensure (now.toNat - 3600 ≤ certificate.timestamp.toNat)
    s!"Certificate timestamp {certificate.timestamp} is too old (current: {now})"
  ensure (certificate.round ≤ 1000)
    s!"Round number {certificate.round} is unreasonably high (possible malformed certificate)"
  ensure (certificate.committeeId ≠ 0) "Committee ID cannot be zero"

structure WellFormed (certificate : ConsensusCertificate) (committeeSize now : UInt64) : Prop where
  unchecked : overflowChecks = true →
    committeeSize.toNat * 2 + 2 < 2 ^ 64 ∧ now.toNat + 300 < 2 ^ 64
  enough : ((committeeSize * 2 + 2) / 3).toNat ≤ certificate.voters.length
  signed : certificate.aggregatedSignature.length = 64
  voted : certificate.voters ≠ []
  early : certificate.timestamp ≤ now + 300
  recent : now.toNat - 3600 ≤ certificate.timestamp.toNat
  round : certificate.round ≤ 1000
  committee : certificate.committeeId ≠ 0

def verifyingKeys : Finset PublicKey :=
  (certificate.voters.filter (verifies sha256 ed25519 certificate)).toFinset

section Acceptance
variable {overflowChecks sha256 ed25519}

theorem bind_ok_iff {Value : Type} {first : Except Failure Value}
    {next : Value → Except Failure Unit} :
    (first >>= next) = .ok () ↔ ∃ value, first = .ok value ∧ next value = .ok () := by
  cases first with
  | error | ok => simp [bind, Except.bind]

theorem ensure_ok_iff {holds : Bool} {reason : String} {done : Unit} :
    ensure holds reason = .ok done ↔ holds = true := by
  cases holds <;> simp [ensure]

theorem unlessOverflow_ok_iff {sum : Nat} {wrapped value : UInt64} :
    unlessOverflow overflowChecks sum wrapped = .ok value ↔
      (overflowChecks = true → sum < 2 ^ 64) ∧ value = wrapped := by
  unfold unlessOverflow
  split
  next stops =>
    simp only [Bool.and_eq_true, decide_eq_true_eq] at stops
    simp only [reduceCtorEq, false_iff]
    intro fits
    have := fits.1 stops.1
    omega
  next goes =>
    simp only [Bool.and_eq_true, decide_eq_true_eq, not_and, not_le] at goes
    simp only [Except.ok.injEq, eq_comm]
    exact ⟨fun same => ⟨goes, same⟩, And.right⟩

variable (certificate : ConsensusCertificate)

theorem countVerified_ok_iff {voters : List PublicKey} (index verified : Nat) {total : Nat} :
    countVerified sha256 ed25519 certificate index voters verified = .ok total ↔
      (∀ voter ∈ voters, ed25519.keyError voter = none) ∧
        total = verified + voters.countP (verifies sha256 ed25519 certificate) := by
  induction voters generalizing index verified with
  | nil => simp [countVerified, eq_comm]
  | cons voter rest ih =>
    cases parsed : ed25519.keyError voter with
    | some error => simp [countVerified, parsed]
    | none =>
      simp only [countVerified, parsed, ih, List.forall_mem_cons, true_and, List.countP_cons]
      split <;> simp [Nat.add_assoc, Nat.add_comm]

theorem validateCertificate_ok_iff (committeeSize now : UInt64) :
    validateCertificate overflowChecks sha256 ed25519 certificate committeeSize now = .ok () ↔
      WellFormed overflowChecks certificate committeeSize now ∧
        (∀ voter ∈ certificate.voters, ed25519.keyError voter = none) ∧
        ((committeeSize * 2 + 2) / 3).toNat ≤
          certificate.voters.countP (verifies sha256 ed25519 certificate) := by
  simp only [validateCertificate, requiredVotes, latestTime, bind_ok_iff, ensure_ok_iff,
    unlessOverflow_ok_iff, countVerified_ok_iff, decide_eq_true_eq, Nat.zero_add]
  constructor
  · rintro ⟨_, ⟨sized, rfl⟩, _, enough, _, _, _, signed, _, voted, _, ⟨parsed, rfl⟩, _, verified,
      _, ⟨timed, rfl⟩, _, early, _, recent, _, round, committee⟩
    exact ⟨⟨fun checks => ⟨sized checks, timed checks⟩, enough, signed, voted, early, recent, round,
      committee⟩, parsed, verified⟩
  · rintro ⟨wellFormed, parsed, verified⟩
    have filled : certificate.aggregatedSignature ≠ [] := by
      apply List.ne_nil_of_length_pos
      rw [wellFormed.signed]
      decide
    exact ⟨_, ⟨fun checks => (wellFormed.unchecked checks).1, rfl⟩, (), wellFormed.enough, (),
      filled, (), wellFormed.signed, (), wellFormed.voted, _, ⟨parsed, rfl⟩, (), verified, _,
      ⟨fun checks => (wellFormed.unchecked checks).2, rfl⟩, (), wellFormed.early, (),
      wellFormed.recent, (), wellFormed.round, wellFormed.committee⟩

end Acceptance

section Quorum
/-- A scheme in which every key parses and the given ones verify every signature. -/
def signedBy (keys : Finset PublicKey) : Ed25519 where
  keyError _ := none
  verify voter _ _ := voter ∈ keys

variable {overflowChecks sha256}
variable {committeeSize now : UInt64}

theorem accepts_signedBy {certificate : ConsensusCertificate}
    (wellFormed : WellFormed overflowChecks certificate committeeSize now)
    {keys : Finset PublicKey}
    (enough : ((committeeSize * 2 + 2) / 3).toNat ≤ certificate.voters.countP (· ∈ keys)) :
    validateCertificate overflowChecks sha256 (signedBy keys) certificate committeeSize now =
      .ok () :=
  (validateCertificate_ok_iff certificate committeeSize now).mpr
    ⟨wellFormed, fun _ _ => rfl, enough⟩

theorem required_of_fits (fits : committeeSize.toNat * 2 + 2 < 2 ^ 64) :
    ((committeeSize * 2 + 2) / 3).toNat = (2 * committeeSize.toNat + 2) / 3 := by
  simp only [UInt64.toNat_div, UInt64.toNat_add, UInt64.toNat_mul]
  simp only [UInt64.reduceToNat]
  omega

variable (sha256) in
/-- A well-formed certificate can be accepted without a quorum once the doubled size wraps: no
list of voters is as long as the quorum. -/
theorem not_quorum_of_wraps {certificate : ConsensusCertificate}
    (wellFormed : WellFormed overflowChecks certificate committeeSize now)
    (wraps : 2 ^ 64 ≤ committeeSize.toNat * 2 + 2) :
    ∃ ed25519, validateCertificate overflowChecks sha256 ed25519 certificate committeeSize now =
        .ok () ∧
      (verifyingKeys sha256 ed25519 certificate).card < (2 * committeeSize.toNat + 2) / 3 := by
  refine ⟨signedBy certificate.voters.toFinset, accepts_signedBy wellFormed ?_, ?_⟩
  · have all : certificate.voters.countP (· ∈ certificate.voters.toFinset) =
        certificate.voters.length := List.countP_eq_length.mpr (by simp)
    rw [all]
    exact wellFormed.enough
  · have few : (verifyingKeys sha256 (signedBy certificate.voters.toFinset) certificate).card ≤
        certificate.voters.length :=
      (List.toFinset_card_le _).trans (List.length_filter_le _ _)
    have short := certificate.votersFit
    omega

/-- Accepted certificates have a quorum of distinct keys, whatever verifies, exactly if no key is
listed twice, one vote is enough, or the certificate fails a check of its form. -/
theorem accepted_has_quorum_iff (overflowChecks : Bool) (sha256 : List UInt8 → Vector UInt8 32)
    (certificate : ConsensusCertificate) (committeeSize now : UInt64) :
    (∀ ed25519,
      validateCertificate overflowChecks sha256 ed25519 certificate committeeSize now = .ok () →
        (2 * committeeSize.toNat + 2) / 3 ≤ (verifyingKeys sha256 ed25519 certificate).card) ↔
      (WellFormed overflowChecks certificate committeeSize now → committeeSize.toNat * 2 + 2 < 2 ^ 64 ∧
          (certificate.voters.Nodup ∨ committeeSize.toNat ≤ 1)) := by
  constructor
  · intro every wellFormed
    have fits : committeeSize.toNat * 2 + 2 < 2 ^ 64 := by
      by_contra wraps
      obtain ⟨ed25519, accepted, short⟩ :=
        not_quorum_of_wraps sha256 wellFormed (Nat.le_of_not_lt wraps)
      have := every ed25519 accepted
      omega
    refine ⟨fits, ?_⟩
    by_contra neither
    obtain ⟨repeated, several⟩ := not_or.mp neither
    have required := required_of_fits fits
    obtain ⟨keys, enough, short⟩ := exists_short_quorum repeated
      (required ▸ wellFormed.enough) (by omega)
    have quorum := every (signedBy keys) (accepts_signedBy wellFormed (required ▸ enough))
    exact absurd quorum (Nat.not_le_of_lt short)
  · intro fair ed25519 accepted
    obtain ⟨wellFormed, _, verified⟩ :=
      (validateCertificate_ok_iff certificate committeeSize now).mp accepted
    obtain ⟨fits, listedOnce⟩ := fair wellFormed
    rw [required_of_fits fits] at verified
    apply quorum_le_names verified
    rcases listedOnce with distinct | single
    · exact Or.inl distinct
    · exact Or.inr (by omega)

def repeatedKey : PublicKey := Vector.replicate 32 7

theorem repeatedKeys_fit : [repeatedKey, repeatedKey].length < 2 ^ 58 := by decide

def repeatedVote : ConsensusCertificate where
  blockHash := Vector.replicate 64 1
  height := 10
  epochId := 1
  committeeId := 1
  round := 1
  voters := [repeatedKey, repeatedKey]
  aggregatedSignature := List.replicate 64 5
  timestamp := 1000
  votersFit := repeatedKeys_fit

/-- One key listed twice is a quorum of a committee of three. -/
theorem repeated_key_is_accepted :
    validateCertificate false (fun _ => Vector.replicate 32 0) (signedBy {repeatedKey})
        repeatedVote 3 1000 = .ok () ∧
      (verifyingKeys (fun _ => Vector.replicate 32 0) (signedBy {repeatedKey}) repeatedVote).card
        < (2 * 3 + 2) / 3 := by
  decide +kernel

end Quorum

end Savitri.CertificateValidation
