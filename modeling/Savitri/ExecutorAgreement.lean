import Savitri.Reordering
import Savitri.SupplyConservation

/-!
The proposer's executor against the certified one. They differ in the order of
the transactions (index order, or sorted by sender text and nonce), in what
they do with a nonce ahead of the account (skip, or fast-forward), and in what
an undecodable address does (skips its transaction, or fails the block).
-/
namespace Savitri.ExecutorAgreement
open Std MachineInt Transition Reordering PairOrder BlockExecution BlockStm SupplyConservation
variable {storage : Accounts} {address : Address} {txs : List SignedTx} {second first : SignedTx}
  {action : SignedTx × Nat}

section Independence
def Independent (first second : SignedTx) : Prop :=
  ∀ sender recipient other otherRecipient,
    first.addresses = .ok (sender, recipient) →
    second.addresses = .ok (other, otherRecipient) →
    sender ≠ other ∧ sender ≠ otherRecipient ∧ other ≠ recipient

def Ready (storage overlay : Accounts) (tx : SignedTx) (sender : Address) : Prop :=
  tx.nonce = (readAccount storage overlay sender).nonce ∧
    tx.totalDebit ≤ (readAccount storage overlay sender).balance

instance (storage overlay : Accounts) (tx : SignedTx) (sender : Address) :
    Decidable (Ready storage overlay tx sender) := instDecidableAnd

def settled (storage overlay : Accounts) (tx : SignedTx) (sender recipient : Address) : Accounts :=
  transfer overlay sender recipient (readAccount storage overlay sender)
    (readAccount storage overlay recipient) tx

variable (storage overlay : Accounts)
variable {sender recipient other otherRecipient : Address}

theorem sequentialStep_decoded (decoded : action.1.addresses = .ok (sender, recipient)) :
    (sequentialStep storage overlay action).1 =
      if Ready storage overlay action.1 sender then
        settled storage overlay action.1 sender recipient
      else overlay := by
  simp only [sequentialStep, decoded, Ready, settled]
  by_cases sameNonce : action.1.nonce = (readAccount storage overlay sender).nonce
  · by_cases short : (readAccount storage overlay sender).balance < action.1.totalDebit
    · simp [sameNonce, short]
    · simp [sameNonce, short, BitVec.not_lt.mp short]
  · simp [sameNonce]

variable {overlay}

theorem sequentialStep_undecoded {failure : ExecutionError}
    (undecoded : action.1.addresses = .error failure) :
    (sequentialStep storage overlay action).1 = overlay := by
  simp only [sequentialStep, undecoded]

theorem readAccount_settled {tx : SignedTx} (notSender : sender ≠ address)
    (notRecipient : recipient ≠ address) :
    readAccount storage (settled storage overlay tx sender recipient) address =
      readAccount storage overlay address := by
  rw [settled, transfer, readAccount_insert, if_neg notRecipient, readAccount_insert, if_neg notSender]

theorem settled_settled (senders : sender ≠ other) (backward : recipient ≠ other) :
    settled storage (settled storage overlay first sender recipient) second other
        otherRecipient =
      transfer (settled storage overlay first sender recipient) other otherRecipient
        (readAccount storage overlay other)
        (readAccount storage (settled storage overlay first sender recipient) otherRecipient)
        second := by
  rw [← readAccount_settled storage senders backward]
  rfl

theorem settled_comm (senders : sender ≠ other) (forward : sender ≠ otherRecipient)
    (backward : other ≠ recipient) :
    settled storage (settled storage overlay first sender recipient) second other
        otherRecipient =
      settled storage (settled storage overlay second other otherRecipient) first sender
        recipient := by
  rw [settled_settled storage senders backward.symm, settled_settled storage senders.symm forward.symm]
  apply ExtTreeMap.ext_getElem?
  intro address
  by_cases shared : recipient = otherRecipient
  · -- The two credits meet in one account, where saturating additions commute.
    subst otherRecipient
    simp only [settled, transfer, readAccount_insert, ExtTreeMap.getElem?_insert,
      LawfulEqCmp.compare_eq_iff_eq, if_true]
    by_cases here : recipient = address
    · simp [here, addSaturating_right_comm]
    · by_cases atSender : sender = address
      · have notOther : ¬ other = address := fun same => senders (atSender.trans same.symm)
        simp [here, atSender, notOther]
      · simp [here, atSender]
  · rw [readAccount_settled storage backward (Ne.symm shared),
      readAccount_settled storage forward shared]
    simp only [settled, transfer, ExtTreeMap.getElem?_insert, LawfulEqCmp.compare_eq_iff_eq]
    -- The four addresses fall into the first pair and the second.
    by_cases inFirst : sender = address ∨ recipient = address
    · have notOther : ¬ other = address := by
        rcases inFirst with same | same
        · exact fun equal => senders (same.trans equal.symm)
        · exact fun equal => backward (equal.trans same.symm)
      have notOtherRecipient : ¬ otherRecipient = address := by
        rcases inFirst with same | same
        · exact fun equal => forward (same.trans equal.symm)
        · exact fun equal => shared (same.trans equal.symm)
      simp [notOther, notOtherRecipient]
    · rw [not_or] at inFirst
      simp [inFirst.1, inFirst.2]

variable (overlay)

theorem ready_settled (tx other : SignedTx) (notSender : sender ≠ address)
    (notRecipient : recipient ≠ address) :
    Ready storage (settled storage overlay tx sender recipient) other address ↔
      Ready storage overlay other address := by
  rw [Ready, Ready, readAccount_settled storage notSender notRecipient]

theorem sequentialStep_commutes {first second : SignedTx × Nat}
    (independent : Independent first.1 second.1) : Commutes (sequentialStep storage) first second := by
  intro overlay
  cases decoded : first.1.addresses with
  | error failure => simp only [sequentialStep_undecoded storage decoded]
  | ok pair =>
    cases otherDecoded : second.1.addresses with
    | error failure =>
      simp only [sequentialStep_undecoded storage otherDecoded]
    | ok otherPair =>
      rcases independent pair.1 pair.2 otherPair.1 otherPair.2 decoded otherDecoded with
        ⟨senders, forward, backward⟩
      simp only [sequentialStep_decoded storage _ decoded,
        sequentialStep_decoded storage _ otherDecoded]
      have otherReady := ready_settled storage overlay first.1 second.1 senders backward.symm
      have ready := ready_settled storage overlay second.1 first.1 senders.symm forward.symm
      by_cases firstReady : Ready storage overlay first.1 pair.1
      · by_cases secondReady : Ready storage overlay second.1 otherPair.1
        · rw [if_pos firstReady, if_pos secondReady, if_pos (otherReady.mpr secondReady),
            if_pos (ready.mpr firstReady)]
          exact settled_comm storage senders forward backward
        · rw [if_pos firstReady, if_neg secondReady,
            if_neg (fun passes => secondReady (otherReady.mp passes)), if_pos firstReady]
      · by_cases secondReady : Ready storage overlay second.1 otherPair.1
        · rw [if_neg firstReady, if_pos secondReady,
            if_neg (fun passes => firstReady (ready.mp passes))]
        · rw [if_neg firstReady, if_neg secondReady, if_neg firstReady]

end Independence

def inOrder (first second : SignedTx) : Bool :=
  (pairCompare (first.sender, first.nonce.toNat) (second.sender, second.nonce.toNat)).isLE

variable (txs)

def InversionsIndependent : Prop :=
  txs.Pairwise fun first second => inOrder first second = false → Independent first second

def Decodable : Prop := ∀ tx ∈ txs, ∃ pair, tx.addresses = .ok pair

variable (storage)

/-- The certified step applies the transaction with a nonce ahead of its sender's. -/
def Forwards (overlay : Accounts) (action : SignedTx × Nat) : Prop :=
  ∃ sender recipient, action.1.addresses = .ok (sender, recipient) ∧
    (readAccount storage overlay sender).nonce < action.1.nonce ∧
    action.1.totalDebit ≤ (readAccount storage overlay sender).balance

def NoneForwards : Prop :=
  Along (certifiedStep storage) (fun overlay action => ¬ Forwards storage overlay action) ∅
    (sortedOrder txs)

def Agreeing : Prop :=
  txs.length ≤ 1 ∨ (Decodable txs ∧ InversionsIndependent txs ∧ NoneForwards storage txs)

def SameOverlay : Prop :=
  (executeBlockTransactions storage txs).map Prod.fst =
    (applyCertifiedBlockDirect storage txs).map Prod.fst

variable {storage}

theorem certifiedStep_eq_sequentialStep (overlay : Accounts) (action : SignedTx × Nat)
    (level : ¬ Forwards storage overlay action) :
    (certifiedStep storage overlay action).1 = (sequentialStep storage overlay action).1 := by
  cases decoded : action.1.addresses with
  | error failure => simp only [certifiedStep, sequentialStep, decoded]
  | ok pair =>
    rw [sequentialStep_decoded storage overlay decoded]
    simp only [certifiedStep, decoded, applyCertifiedTx, Ready, settled]
    by_cases behind : action.1.nonce < (readAccount storage overlay pair.1).nonce
    · have differ := UInt64.ne_of_lt behind
      simp [behind, differ]
    · by_cases ahead : (readAccount storage overlay pair.1).nonce < action.1.nonce
      · -- The strict step skips it, the certified one only if the debit is uncovered.
        have uncovered : ¬ action.1.totalDebit ≤ (readAccount storage overlay pair.1).balance :=
          fun covered => level ⟨pair.1, pair.2, decoded, ahead, covered⟩
        have short := BitVec.not_le.mp uncovered
        have differ := (UInt64.ne_of_lt ahead).symm
        simp [behind, ahead, short, differ]
      · have same : action.1.nonce = (readAccount storage overlay pair.1).nonce :=
          UInt64.le_antisymm (UInt64.not_lt.mp ahead) (UInt64.not_lt.mp behind)
        by_cases short : (readAccount storage overlay pair.1).balance < action.1.totalDebit
        · simp [same, short]
        · simp [same, short, BitVec.not_lt.mp short]

variable {txs}

theorem executeBlockTransactions_several (several : 1 < txs.length) :
    (executeBlockTransactions storage txs).map Prod.fst =
      .ok (run (sequentialStep storage) ∅ txs.zipIdx) := by
  rcases executeBlockStm_sequential storage txs with ⟨result, returned, _, overlay, _⟩
  rw [executeBlockTransactions, if_pos several, returned]
  exact congrArg Except.ok overlay

theorem certifiedLoop_accepts_iff {order : List (SignedTx × Nat)} (overlay : Accounts)
    (receipts : List Receipt) :
    (∃ result, certifiedLoop storage order overlay receipts = .ok result) ↔
      ∀ action ∈ order, ∃ pair, action.1.addresses = .ok pair := by
  induction order generalizing overlay receipts with
  | nil => simp [certifiedLoop]
  | cons action rest ih =>
    rcases action with ⟨tx, idx⟩
    cases decoded : tx.addresses with
    | error failure => simp [certifiedLoop, decoded, bind, Except.bind]
    | ok pair =>
      simp only [certifiedLoop, decoded, bind, Except.bind, ih, List.forall_mem_cons]
      exact (and_iff_right ⟨pair, rfl⟩).symm

theorem sortedOrder_decodes_iff :
    (∀ action ∈ sortedOrder txs, ∃ pair, action.1.addresses = .ok pair) ↔ Decodable txs := by
  simp only [mem_sortedOrder]
  constructor
  · intro decodes tx member
    rcases List.mem_iff_getElem?.mp member with ⟨idx, found⟩
    exact decodes (tx, idx) (List.mem_zipIdx_iff_getElem?.mpr found)
  · rintro decodes ⟨tx, idx⟩ member
    exact decodes tx (List.mem_of_getElem? (List.mem_zipIdx_iff_getElem?.mp member))

theorem applyCertifiedBlockDirect_overlay (decodes : Decodable txs) :
    (applyCertifiedBlockDirect storage txs).map Prod.fst =
      .ok (run (certifiedStep storage) ∅ (sortedOrder txs)) := by
  rcases (certifiedLoop_accepts_iff ∅ []).mpr
    (sortedOrder_decodes_iff.mpr decodes) with ⟨⟨overlay, receipts⟩, accepted⟩
  have final := (certifiedLoop_runs _ _ accepted).1
  rw [applyCertifiedBlockDirect, accepted, ← final]
  rfl

theorem run_sortedOrder (inversions : InversionsIndependent txs) :
    run (sequentialStep storage) ∅ (sortedOrder txs) =
      run (sequentialStep storage) ∅ txs.zipIdx := by
  apply run_insertionSort
  have pairs : (txs.zipIdx.map Prod.fst).Pairwise fun first second =>
      inOrder first second = false → Independent first second := by
    rw [List.zipIdx_map_fst]
    exact inversions
  apply (List.pairwise_map.mp pairs).imp
  intro first second independent inverted
  exact sequentialStep_commutes storage (independent (Bool.not_eq_true _ ▸ inverted))

theorem sameOverlay_of_agreeing (agreeing : Agreeing storage txs) : SameOverlay storage txs := by
  by_cases several : 1 < txs.length
  · rcases agreeing with short | ⟨decodes, inversions, level⟩
    · omega
    · rw [SameOverlay, executeBlockTransactions_several several,
        applyCertifiedBlockDirect_overlay decodes,
        run_eq_along certifiedStep_eq_sequentialStep ∅ _ level, run_sortedOrder inversions]
  · rw [SameOverlay, executeBlockTransactions, if_neg several]

section Necessity
/-- Nothing but a fast-forward can tell the executors apart: sorted up to
independent transactions, one text per sender, no transfer to oneself, and no
nonce at the end of its counter. -/
structure Orderly (txs : List SignedTx) : Prop where
  inversions : InversionsIndependent txs
  apart : ∀ tx ∈ txs, ∀ sender recipient, tx.addresses = .ok (sender, recipient) →
    sender ≠ recipient
  counts : ∀ tx ∈ txs, tx.nonce.toNat < u64Max
  oneText : ∀ tx ∈ txs, ∀ other ∈ txs, ∀ sender recipient otherRecipient,
    tx.addresses = .ok (sender, recipient) → other.addresses = .ok (sender, otherRecipient) →
    tx.sender = other.sender

theorem sortedOrder_sorted :
    (sortedOrder txs).Pairwise fun first second => inOrder first.1 second.1 = true :=
  pairwise_insertionSort_key pairCompare
    (fun action : SignedTx × Nat => (action.1.sender, action.1.nonce.toNat)) txs.zipIdx

theorem nonce_le_of_inOrder (sameText : first.sender = second.sender)
    (ordered : inOrder first second = true) : first.nonce ≤ second.nonce := by
  rw [inOrder, sameText, pairCompare_same_fst, Nat.isLE_compare] at ordered
  exact UInt64.le_iff_toNat_le.mpr ordered

theorem nonce_lt_succ {nonce : UInt64} (counts : nonce.toNat < u64Max) : nonce < nonce + 1 := by
  rw [UInt64.lt_iff_toNat_lt, UInt64.toNat_add]
  have one : (1 : UInt64).toNat = 1 := rfl
  rw [one]
  unfold u64Max at counts
  omega

variable {overlay : Accounts}

theorem transferStep_nonce_mono {step : Accounts → SignedTx × Nat → Accounts × Option Receipt}
    (transfers : TransferStep storage step) (counts : action.1.nonce.toNat < u64Max) :
    (readAccount storage overlay address).nonce ≤
      (readAccount storage (step overlay action).1 address).nonce := by
  rcases transfers overlay action with silent | ⟨sender, recipient, receipt, next, applied, settles, _⟩
  · rw [silent]
    exact UInt64.le_refl _
  · have raised : (readAccount storage overlay sender).nonce < action.1.nonce + 1 :=
      UInt64.lt_of_le_of_lt settles.notBehind (nonce_lt_succ counts)
    rw [applied, settles.written, readAccount_insert, readAccount_insert]
    by_cases credited : recipient = address
    · subst credited
      rw [if_pos rfl]
      exact UInt64.le_refl _
    · by_cases debited : sender = address
      · subst debited
        rw [if_neg credited, if_pos rfl]
        exact UInt64.le_of_lt raised
      · rw [if_neg credited, if_neg debited]
        exact UInt64.le_refl _

theorem sequentialStep_nonce_below {bound : UInt64}
    (later : ∀ recipient, action.1.addresses = .ok (address, recipient) →
      bound ≤ action.1.nonce) (below : (readAccount storage overlay address).nonce < bound) :
    (readAccount storage (sequentialStep storage overlay action).1 address).nonce < bound := by
  cases decoded : action.1.addresses with
  | error failure =>
    rw [sequentialStep_undecoded storage decoded]
    exact below
  | ok pair =>
    rw [sequentialStep_decoded storage overlay decoded]
    by_cases ready : Ready storage overlay action.1 pair.1
    · rw [if_pos ready, settled, transfer, readAccount_insert, readAccount_insert]
      by_cases credited : pair.2 = address
      · rw [if_pos credited, credited]
        exact below
      · rw [if_neg credited]
        by_cases debited : pair.1 = address
        · -- Its next transaction in the order has a nonce the account is still below.
          have reached := later pair.2 (debited ▸ decoded)
          rw [ready.1, debited] at reached
          exact absurd below (UInt64.not_lt.mpr reached)
        · rw [if_neg debited]
          exact below
    · rw [if_neg ready]
      exact below

/-- After a fast-forward the two runs never meet again: the certified nonce stays
above the transaction's, the strict one below. -/
theorem forward_separates (orderly : Orderly txs) {rest : List (SignedTx × Nat)}
    (member : action.1 ∈ txs) (members : ∀ later ∈ rest, later.1 ∈ txs)
    (sorted : ∀ later ∈ rest, inOrder action.1 later.1 = true)
    (forwards : Forwards storage overlay action) :
    run (certifiedStep storage) overlay (action :: rest) ≠
      run (sequentialStep storage) overlay (action :: rest) := by
  rcases forwards with ⟨sender, recipient, decoded, ahead, covered⟩
  have apart := orderly.apart action.1 member sender recipient decoded
  -- The step itself: applied with the transaction's nonce here, skipped there.
  have certified : action.1.nonce <
      (readAccount storage (certifiedStep storage overlay action).1 sender).nonce := by
    have notBehind : ¬ action.1.nonce < (readAccount storage overlay sender).nonce :=
      UInt64.not_lt.mpr (UInt64.le_of_lt ahead)
    simp only [certifiedStep, decoded, applyCertifiedTx, if_neg notBehind, if_pos ahead,
      if_neg (BitVec.not_lt.mpr covered), transfer, readAccount_insert, if_neg apart.symm, if_true]
    exact nonce_lt_succ (orderly.counts action.1 member)
  have strict : (sequentialStep storage overlay action).1 = overlay := by
    rw [sequentialStep_decoded storage overlay decoded, if_neg]
    exact fun ready => UInt64.ne_of_lt ahead ready.1.symm
  have above := run_invariant_along (certifiedStep storage)
    (fun _ later => later.1 ∈ txs)
    (fun state => action.1.nonce < (readAccount storage state sender).nonce)
    (fun state later higher inBlock => UInt64.lt_of_lt_of_le higher
      (transferStep_nonce_mono certifiedStep_transfers (orderly.counts later.1 inBlock)))
    _ rest certified (along_of_forall _ _ _ _ fun later inRest _ => members later inRest)
  have below := run_invariant_along (sequentialStep storage)
    (fun _ later => ∀ otherRecipient, later.1.addresses = .ok (sender, otherRecipient) →
      action.1.nonce ≤ later.1.nonce)
    (fun state => (readAccount storage state sender).nonce < action.1.nonce)
    (fun state later lower reached =>
      sequentialStep_nonce_below reached lower)
    overlay rest ahead (along_of_forall _ _ _ _ fun later inRest _ otherRecipient same =>
      nonce_le_of_inOrder (orderly.oneText action.1 member later.1
        (members later inRest) sender recipient otherRecipient decoded same) (sorted later inRest))
  intro equal
  rw [run_cons, run_cons, strict] at equal
  simp only [equal] at above
  exact absurd (UInt64.lt_trans below above) (UInt64.lt_irrefl _)

theorem noneForwards_of_run_eq (orderly : Orderly txs) (overlay : Accounts)
    (order : List (SignedTx × Nat)) (members : ∀ action ∈ order, action.1 ∈ txs)
    (sorted : order.Pairwise fun first second => inOrder first.1 second.1 = true)
    (equal : run (certifiedStep storage) overlay order = run (sequentialStep storage) overlay order) :
    Along (certifiedStep storage) (fun overlay action => ¬ Forwards storage overlay action)
      overlay order := by
  induction order generalizing overlay with
  | nil => trivial
  | cons action rest ih =>
    rw [List.pairwise_cons] at sorted
    rw [List.forall_mem_cons] at members
    have level : ¬ Forwards storage overlay action := fun forwards =>
      forward_separates orderly members.1 members.2 sorted.1 forwards equal
    constructor
    · exact level
    · apply ih _ members.2 sorted.2
      rw [run_cons, run_cons, ← certifiedStep_eq_sequentialStep overlay action level] at equal
      exact equal

theorem agreeing_of_sameOverlay (orderly : Orderly txs) (same : SameOverlay storage txs) :
    Agreeing storage txs := by
  by_cases several : 1 < txs.length
  · rw [SameOverlay, executeBlockTransactions_several several] at same
    have decodes : Decodable txs := by
      apply sortedOrder_decodes_iff.mp
      apply (certifiedLoop_accepts_iff ∅ []).mp
      cases accepted : certifiedLoop storage (sortedOrder txs) ∅ [] with
      | ok result => exact ⟨result, rfl⟩
      | error failure =>
        rw [applyCertifiedBlockDirect, accepted] at same
        cases same
    rw [applyCertifiedBlockDirect_overlay decodes, Except.ok.injEq,
      ← run_sortedOrder orderly.inversions] at same
    exact Or.inr ⟨decodes, orderly.inversions,
      noneForwards_of_run_eq orderly ∅ _ (fst_mem_of_mem_sortedOrder txs) sortedOrder_sorted same.symm⟩
  · exact Or.inl (Nat.not_lt.mp several)

/-- The executors agree on every agreeing block, and among orderly blocks on no
other. -/
theorem executors_agree_when (storage : Accounts) (txs : List SignedTx) :
    (Agreeing storage txs → SameOverlay storage txs) ∧
      (Orderly txs → (SameOverlay storage txs ↔ Agreeing storage txs)) :=
  ⟨sameOverlay_of_agreeing, fun orderly =>
    ⟨agreeing_of_sameOverlay orderly, sameOverlay_of_agreeing⟩⟩

def payerStorage : Accounts := (∅ : Accounts).insert [0xaa] { balance := 100, nonce := 0 }

def payment (nonce : UInt64) : SignedTx :=
  { sender := "aa", recipient := "bb", amount := 10, nonce, fee := some 1 }

def payerAfter (answer : Except ExecutionError (Accounts × List Receipt)) : Option Account :=
  answer.toOption.map fun result => readAccount payerStorage result.1 [0xaa]

theorem payerAfter_eq {answer : Except ExecutionError (Accounts × List Receipt)} :
    payerAfter answer = (answer.map Prod.fst).toOption.map fun overlay =>
      readAccount payerStorage overlay [0xaa] := by
  cases answer <;> rfl

theorem payerAfter_eq_of_sameOverlay (same : SameOverlay payerStorage txs) :
    payerAfter (executeBlockTransactions payerStorage txs) =
      payerAfter (applyCertifiedBlockDirect payerStorage txs) := by
  rw [payerAfter_eq, payerAfter_eq, same]

/-- Two payments of one account against their nonce order: the proposer applies
the one with nonce 0 only, the certified executor both. With the nonces 1 and 2
in order the proposer applies none and the certified executor both. -/
theorem reversed_payments_diverge :
    (payerAfter (executeBlockTransactions payerStorage [payment 1, payment 0]) =
        some { balance := 89, nonce := 1 } ∧
      payerAfter (applyCertifiedBlockDirect payerStorage [payment 1, payment 0]) =
        some { balance := 78, nonce := 2 } ∧ ¬ SameOverlay payerStorage [payment 1, payment 0]) ∧
    (payerAfter (executeBlockTransactions payerStorage [payment 1, payment 2]) =
        some { balance := 100, nonce := 0 } ∧
      payerAfter (applyCertifiedBlockDirect payerStorage [payment 1, payment 2]) =
        some { balance := 78, nonce := 3 } ∧
      ¬ SameOverlay payerStorage [payment 1, payment 2]) := by
  have proposed : payerAfter (executeBlockTransactions payerStorage [payment 1, payment 0]) =
      some { balance := 89, nonce := 1 } := by decide +kernel
  have certified : payerAfter (applyCertifiedBlockDirect payerStorage [payment 1, payment 0]) =
      some { balance := 78, nonce := 2 } := by decide +kernel
  have gapProposed : payerAfter (executeBlockTransactions payerStorage [payment 1, payment 2]) =
      some { balance := 100, nonce := 0 } := by decide +kernel
  have gapCertified : payerAfter
      (applyCertifiedBlockDirect payerStorage [payment 1, payment 2]) =
      some { balance := 78, nonce := 3 } := by decide +kernel
  refine ⟨⟨proposed, certified, fun same => ?_⟩, gapProposed, gapCertified, fun same => ?_⟩
  all_goals
    have equal := payerAfter_eq_of_sameOverlay same
    simp [proposed, certified, gapProposed, gapCertified] at equal

end Necessity

end Savitri.ExecutorAgreement
