import Savitri.BlockStm
import Savitri.MapTotal

/-!
What the block executors do to the supply. Each folds a step over the block that
leaves the overlay alone or settles one transaction; the
books of a settled transaction are exact up to the two saturating additions,
and its two writes exclude each other when sender and recipient are one.
-/
namespace Savitri.SupplyConservation
open Std MachineInt Transition BlockExecution BlockStm
variable {storage next overlay : Accounts} {order : List (SignedTx × Nat)} {tx : SignedTx}

def supply (accounts : Accounts) : Nat :=
  MapTotal.total (fun account : Account => account.balance.toNat) accounts

section
variable {address : Address} {account : Account}

theorem readAccount_eq :
    readAccount storage overlay address = ((storage ∪ overlay)[address]?).getD {} := by
  rw [ExtTreeMap.getElem?_union]
  rfl

theorem union_insert :
    storage ∪ overlay.insert address account = (storage ∪ overlay).insert address account := by
  apply ExtTreeMap.ext_getElem?
  intro key
  simp only [ExtTreeMap.getElem?_union, ExtTreeMap.getElem?_insert, LawfulEqCmp.compare_eq_iff_eq]
  split <;> rfl

theorem readAccount_insert {other : Address} :
    readAccount storage (overlay.insert address account) other =
      if address = other then account else readAccount storage overlay other := by
  simp only [readAccount, ExtTreeMap.getElem?_insert, LawfulEqCmp.compare_eq_iff_eq]
  split <;> rfl

theorem supply_insert (storage overlay : Accounts) (address : Address) (account : Account) :
    supply (storage ∪ overlay.insert address account) +
        (readAccount storage overlay address).balance.toNat =
      supply (storage ∪ overlay) + account.balance.toNat := by
  have written := MapTotal.total_insert (fun account : Account => account.balance.toNat)
    (storage ∪ overlay) address account
  have read : MapTotal.weightAt (fun account : Account => account.balance.toNat)
      (storage ∪ overlay) address = (readAccount storage overlay address).balance.toNat := by
    rw [readAccount_eq, MapTotal.weightAt]
    cases (storage ∪ overlay)[address]? <;> rfl
  rw [union_insert, ← read]
  exact written

end

section Settlement
structure Settles (storage overlay : Accounts) (tx : SignedTx) (sender recipient : Address)
    (next : Accounts) : Prop where
  decoded : tx.addresses = .ok (sender, recipient)
  affordable : tx.totalDebit ≤ (readAccount storage overlay sender).balance
  notBehind : (readAccount storage overlay sender).nonce ≤ tx.nonce
  written : next = (overlay.insert sender
      { balance := (readAccount storage overlay sender).balance - tx.totalDebit
        nonce := tx.nonce + 1 }).insert recipient
      { readAccount storage overlay recipient with
        balance := addSaturating (readAccount storage overlay recipient).balance tx.wideAmount }

def forgivenDebit (tx : SignedTx) : Nat :=
  tx.amount.toNat + tx.feeOrZero.toNat - tx.totalDebit.toNat

def lostCredit (storage overlay : Accounts) (tx : SignedTx) (recipient : Address) : Nat :=
  (readAccount storage overlay recipient).balance.toNat + tx.amount.toNat -
    (addSaturating (readAccount storage overlay recipient).balance tx.wideAmount).toNat

variable {sender recipient : Address}

theorem wideAmount_toNat : tx.wideAmount.toNat = tx.amount.toNat := by
  have bound := tx.amount.toNat_lt
  rw [SignedTx.wideAmount, BitVec.toNat_ofNat]
  omega

theorem toNat_credited_le (tx : SignedTx) (balance : BitVec 128) :
    (addSaturating balance tx.wideAmount).toNat ≤ balance.toNat + tx.amount.toNat := by
  rw [toNat_addSaturating, wideAmount_toNat]
  exact Nat.min_le_left _ _

variable (settles : Settles storage overlay tx sender recipient next)
include settles

theorem settles_books (apart : sender ≠ recipient) :
    supply (storage ∪ next) + tx.feeOrZero.toNat +
        lostCredit storage overlay tx recipient =
      supply (storage ∪ overlay) + forgivenDebit tx := by
  obtain ⟨_, affordable, _, written⟩ := settles
  subst written
  have debited := supply_insert storage overlay sender
    { balance := (readAccount storage overlay sender).balance - tx.totalDebit,
      nonce := tx.nonce + 1 }
  have credited := supply_insert storage (overlay.insert sender
    { balance := (readAccount storage overlay sender).balance - tx.totalDebit,
      nonce := tx.nonce + 1 }) recipient
    { readAccount storage overlay recipient with
      balance := addSaturating (readAccount storage overlay recipient).balance tx.wideAmount }
  -- The debit does not touch the account that the credit was computed from.
  rw [readAccount_insert, if_neg apart] at credited
  simp only [BitVec.toNat_sub_of_le affordable] at debited
  rw [BitVec.le_def] at affordable
  have debit : tx.totalDebit.toNat ≤ tx.amount.toNat + tx.feeOrZero.toNat := by
    rw [SignedTx.totalDebit, toNat_addSaturating, wideAmount_toNat]
    exact Nat.min_le_left _ _
  have credit := toNat_credited_le tx (readAccount storage overlay recipient).balance
  simp only [lostCredit, forgivenDebit] at *
  omega

theorem settles_raises_iff :
    (readAccount storage overlay sender).nonce < (readAccount storage next sender).nonce ↔
      sender ≠ recipient ∧ tx.nonce.toNat < u64Max := by
  obtain ⟨_, _, notBehind, written⟩ := settles
  subst written
  rw [readAccount_insert, readAccount_insert, if_pos rfl]
  by_cases same : recipient = sender
  · -- The second write restores the nonce that was read.
    subst same
    simp
  · rw [if_neg same, UInt64.lt_iff_toNat_lt, UInt64.toNat_add]
    rw [UInt64.le_iff_toNat_le] at notBehind
    have bound := tx.nonce.toNat_lt
    have one : (1 : UInt64).toNat = 1 := rfl
    rw [one]
    simp only [u64Max, ne_eq, Ne.symm same, not_false_eq_true, true_and]
    omega

end Settlement

section Blocks
/-- A block step leaves the overlay alone, or settles its transaction and
returns a receipt with the transaction's fee. -/
def TransferStep (storage : Accounts)
    (step : Accounts → SignedTx × Nat → Accounts × Option Receipt) : Prop :=
  ∀ overlay action, step overlay action = (overlay, none) ∨
    ∃ sender recipient receipt next, step overlay action = (next, some receipt) ∧
      Settles storage overlay action.1 sender recipient next ∧
      receipt.fee = action.1.feeOrZero

variable (storage : Accounts) (step : Accounts → SignedTx × Nat → Accounts × Option Receipt)

def RaisesNonce (overlay : Accounts) (action : SignedTx × Nat) : Prop :=
  ∀ sender recipient, action.1.addresses = .ok (sender, recipient) →
    (step overlay action).2.isSome = true →
    (readAccount storage overlay sender).nonce <
      (readAccount storage (step overlay action).1 sender).nonce

/-- If the step applies its transaction, it is one between two accounts with a
nonce that can still be counted up. -/
def BetweenAccounts (overlay : Accounts) (action : SignedTx × Nat) : Prop :=
  ∀ sender recipient, action.1.addresses = .ok (sender, recipient) →
    (step overlay action).2.isSome = true →
    sender ≠ recipient ∧ action.1.nonce.toNat < u64Max

def stepForgiven (overlay : Accounts) (action : SignedTx × Nat) : Nat :=
  if (step overlay action).2.isSome then forgivenDebit action.1 else 0

def stepLost (overlay : Accounts) (action : SignedTx × Nat) : Nat :=
  if (step overlay action).2.isSome then
    match action.1.addresses with
    | .ok (_, recipient) => lostCredit storage overlay action.1 recipient
    | .error _ => 0
  else 0

/-- The balances after the overlay and the fees of the applied transactions make
up the balances before, and every applied transaction raises its sender's nonce. -/
def Conserves (order : List (SignedTx × Nat)) (overlay : Accounts) (receipts : List Receipt) : Prop :=
  supply (storage ∪ overlay) + (receipts.map fun receipt => receipt.fee.toNat).sum =
      supply storage ∧
    Along step (RaisesNonce storage step) ∅ order

/-- Every applied transaction is between two accounts, and what saturated debits
forgive is what saturated credits lose. -/
def SettlesExactly (order : List (SignedTx × Nat)) : Prop :=
  Along step (BetweenAccounts step) ∅ order ∧
    tally step (stepForgiven step) ∅ order = tally step (stepLost storage step) ∅ order

variable {storage}

theorem raisesNonce_iff (transfers : TransferStep storage step) (overlay : Accounts)
    (action : SignedTx × Nat) :
    RaisesNonce storage step overlay action ↔ BetweenAccounts step overlay action := by
  rcases transfers overlay action with silent | ⟨sender, recipient, receipt, next, applied, settles, _⟩
  · simp [RaisesNonce, BetweenAccounts, silent]
  · have raises := settles_raises_iff settles
    have only : ∀ other otherRecipient, action.1.addresses = .ok (other, otherRecipient) →
        other = sender ∧ otherRecipient = recipient := by
      intro other otherRecipient decoded
      rw [settles.decoded] at decoded
      cases decoded
      exact ⟨rfl, rfl⟩
    simp only [RaisesNonce, BetweenAccounts, applied]
    constructor
    · intro raised other otherRecipient decoded some
      obtain ⟨rfl, rfl⟩ := only other otherRecipient decoded
      exact raises.mp (raised _ _ decoded some)
    · intro plain other otherRecipient decoded some
      obtain ⟨rfl, rfl⟩ := only other otherRecipient decoded
      exact raises.mpr (plain _ _ decoded some)

theorem step_books (transfers : TransferStep storage step) (overlay : Accounts)
    (action : SignedTx × Nat) (plain : BetweenAccounts step overlay action) :
    supply (storage ∪ (step overlay action).1) +
        ((step overlay action).2.map fun receipt => receipt.fee.toNat).getD 0 +
        stepLost storage step overlay action =
      supply (storage ∪ overlay) + stepForgiven step overlay action := by
  rcases transfers overlay action with silent | ⟨sender, recipient, receipt, next, applied,
    settles, charged⟩
  · simp [stepLost, stepForgiven, silent]
  · have apart := (plain sender recipient settles.decoded (by simp [applied])).1
    have books := settles_books settles apart
    simpa [stepLost, stepForgiven, applied, settles.decoded, charged] using books

omit storage step in
theorem receipt_fees_sum {replies : List (Option Receipt)} :
    ((replies.filterMap id).map fun receipt => receipt.fee.toNat).sum =
      (replies.map fun reply => (reply.map fun receipt => receipt.fee.toNat).getD 0).sum := by
  induction replies with
  | nil => rfl
  | cons reply rest ih =>
    cases reply with
    | none =>
      rw [List.filterMap_cons_none rfl, ih]
      simp
    | some receipt => exact congrArg (receipt.fee.toNat + ·) ih

theorem conserves_iff (transfers : TransferStep storage step) :
    Conserves storage step order (run step ∅ order) ((outputs step ∅ order).filterMap id) ↔
      SettlesExactly storage step order := by
  have fees : (((outputs step ∅ order).filterMap id).map fun receipt : Receipt =>
      receipt.fee.toNat).sum =
      tally step (fun overlay action =>
        ((step overlay action).2.map fun receipt => receipt.fee.toNat).getD 0) ∅ order := by
    rw [tally_outputs step
      (fun output => (output.map fun receipt : Receipt => receipt.fee.toNat).getD 0)]
    exact receipt_fees_sum
  rw [Conserves, SettlesExactly, fees, along_iff_along step _ _ (raisesNonce_iff step transfers)]
  have books := run_books_along step (BetweenAccounts step)
    (fun overlay => supply (storage ∪ overlay)) _ _ _
    (step_books step transfers) ∅ order
  simp only [union_empty] at books
  constructor
  · rintro ⟨conserved, plain⟩
    have booked := books plain
    exact ⟨plain, by omega⟩
  · rintro ⟨plain, balanced⟩
    have booked := books plain
    exact ⟨by omega, plain⟩

end Blocks

section Executors
/-- A turn of the certified executor; a block with an undecodable address is not
accepted, so that case is never reached in an accepted one. -/
def certifiedStep (storage overlay : Accounts) (action : SignedTx × Nat) : Accounts × Option Receipt :=
  match action.1.addresses with
  | .error _ => (overlay, none)
  | .ok (sender, recipient) =>
    applyCertifiedTx storage overlay action.1 action.2 sender recipient

variable {final : Accounts} {all receipts : List Receipt} {idx : Nat}

theorem certifiedLoop_runs (overlay : Accounts) (receipts : List Receipt)
    (accepted : certifiedLoop storage order overlay receipts = .ok (final, all)) :
    final = run (certifiedStep storage) overlay order ∧
      all = receipts ++ (outputs (certifiedStep storage) overlay order).filterMap id := by
  induction order generalizing overlay receipts with
  | nil =>
    cases accepted
    simp [outputs]
  | cons action rest ih =>
    obtain ⟨tx, idx⟩ := action
    cases decoded : tx.addresses with
    | error failure => simp [certifiedLoop, decoded, bind, Except.bind] at accepted
    | ok pair =>
      obtain ⟨sender, recipient⟩ := pair
      simp only [certifiedLoop, decoded, bind, Except.bind] at accepted
      have stepped : certifiedStep storage overlay (tx, idx) =
          applyCertifiedTx storage overlay tx idx sender recipient := by
        simp only [certifiedStep, decoded]
      obtain ⟨finalRun, allRun⟩ := ih _ _ accepted
      rw [run_cons, outputs, stepped]
      refine ⟨finalRun, ?_⟩
      rw [allRun]
      cases (applyCertifiedTx storage overlay tx idx sender recipient).2 <;> simp

theorem certifiedStep_transfers : TransferStep storage (certifiedStep storage) := by
  rintro overlay ⟨tx, idx⟩
  cases decoded : tx.addresses with
  | error failure => simp [certifiedStep, decoded]
  | ok pair =>
    obtain ⟨sender, recipient⟩ := pair
    simp only [certifiedStep, decoded, applyCertifiedTx]
    split
    · exact Or.inl rfl
    · rename_i notBehind
      -- Fast-forwarded or not, the sender goes on from the transaction's nonce.
      have advanced : (if (readAccount storage overlay sender).nonce < tx.nonce then
          { readAccount storage overlay sender with nonce := tx.nonce }
        else readAccount storage overlay sender) =
          { readAccount storage overlay sender with nonce := tx.nonce } := by
        split
        · rfl
        · rename_i level
          have same : (readAccount storage overlay sender).nonce = tx.nonce :=
            UInt64.le_antisymm (UInt64.not_lt.mp notBehind) (UInt64.not_lt.mp level)
          rw [← same]
      rw [advanced]
      split
      · exact Or.inl rfl
      · rename_i affordable
        refine Or.inr ⟨sender, recipient, _, _, rfl, ⟨decoded, ?_, ?_, rfl⟩, rfl⟩
        · exact BitVec.not_lt.mp affordable
        · exact UInt64.not_lt.mp notBehind

theorem sequentialStep_transfers : TransferStep storage (sequentialStep storage) := by
  rintro overlay ⟨tx, idx⟩
  cases decoded : tx.addresses with
  | error failure => simp [sequentialStep, decoded]
  | ok pair =>
    obtain ⟨sender, recipient⟩ := pair
    simp only [sequentialStep, decoded]
    split
    · exact Or.inl rfl
    · rename_i sameNonce
      rw [not_not] at sameNonce
      split
      · exact Or.inl rfl
      · rename_i affordable
        refine Or.inr ⟨sender, recipient, _, _, rfl, ⟨decoded, ?_, ?_, ?_⟩, rfl⟩
        · exact BitVec.not_lt.mp affordable
        · rw [sameNonce]
          exact UInt64.le_refl _
        · rw [transfer, sameNonce]

theorem applySignedTxOverlay_settles
    (accepted : applySignedTxOverlay storage overlay receipts tx idx = .ok (next, all)) :
    ∃ sender recipient receipt, Settles storage overlay tx sender recipient next ∧
      all = receipts ++ [receipt] ∧ receipt.fee = tx.feeOrZero ∧ forgivenDebit tx = 0 ∧
      lostCredit storage overlay tx recipient = 0 := by
  unfold applySignedTxOverlay at accepted
  split at accepted
  · cases accepted
  · split at accepted
    · cases accepted
    · rename_i sender recipient decoded
      simp only at accepted
      split at accepted
      · cases accepted
      · rename_i debitFits
        split at accepted
        · cases accepted
        · rename_i affordable
          split at accepted
          · cases accepted
          · rename_i sameNonce
            split at accepted
            · cases accepted
            · rename_i creditFits
              cases accepted
              rw [not_not] at sameNonce
              have debit := addSaturating_of_lt (Nat.not_le.mp debitFits)
              have credit := addSaturating_of_lt (Nat.not_le.mp creditFits)
              refine ⟨sender, recipient, _, ⟨decoded, ?_, ?_, ?_⟩, rfl, rfl, ?_, ?_⟩
              · rw [SignedTx.totalDebit, debit]
                exact BitVec.not_lt.mp affordable
              · rw [sameNonce]
                exact UInt64.le_refl _
              · rw [SignedTx.totalDebit, debit, credit, sameNonce]
              · rw [forgivenDebit, SignedTx.totalDebit, toNat_addSaturating, wideAmount_toNat]
                rw [wideAmount_toNat] at debitFits
                omega
              · rw [lostCredit, toNat_addSaturating, wideAmount_toNat]
                rw [wideAmount_toNat] at creditFits
                omega

theorem applySignedTxOverlay_receipts :
    applySignedTxOverlay storage overlay receipts tx idx =
      (applySignedTxOverlay storage overlay [] tx idx).map fun result =>
        (result.1, receipts ++ result.2) := by
  unfold applySignedTxOverlay
  split
  · rfl
  · split
    · rfl
    · simp only
      split
      · rfl
      · split
        · rfl
        · split
          · rfl
          · split <;> rfl

def signedStep (storage overlay : Accounts) (action : SignedTx × Nat) : Accounts × Option Receipt :=
  match applySignedTxOverlay storage overlay [] action.1 action.2 with
  | .error _ => (overlay, none)
  | .ok (next, receipts) => (next, receipts.head?)

theorem signedStep_cases {action : SignedTx × Nat} :
    signedStep storage overlay action = (overlay, none) ∨
      ∃ sender recipient receipt next,
        signedStep storage overlay action = (next, some receipt) ∧
        Settles storage overlay action.1 sender recipient next ∧
        receipt.fee = action.1.feeOrZero ∧ forgivenDebit action.1 = 0 ∧
        lostCredit storage overlay action.1 recipient = 0 := by
  unfold signedStep
  cases result : applySignedTxOverlay storage overlay [] action.1 action.2 with
  | error failure => exact Or.inl rfl
  | ok pair =>
    obtain ⟨sender, recipient, receipt, settles, all, charged, forgiven, lost⟩ :=
      applySignedTxOverlay_settles result
    rw [List.nil_append] at all
    refine Or.inr ⟨sender, recipient, receipt, pair.1, ?_, settles, charged, forgiven, lost⟩
    simp [all]

theorem signedStep_transfers : TransferStep storage (signedStep storage) := by
  intro before action
  rcases signedStep_cases with silent | ⟨sender, recipient, receipt, next, stepped, settles, charged, _⟩
  · exact Or.inl silent
  · exact Or.inr ⟨sender, recipient, receipt, next, stepped, settles, charged⟩

theorem signedLoop_runs (overlay : Accounts) (receipts : List Receipt)
    (accepted : signedLoop storage order overlay receipts = .ok (final, all)) :
    final = run (signedStep storage) overlay order ∧
      all = receipts ++ (outputs (signedStep storage) overlay order).filterMap id := by
  induction order generalizing overlay receipts with
  | nil =>
    cases accepted
    simp [outputs]
  | cons action rest ih =>
    obtain ⟨tx, idx⟩ := action
    rw [signedLoop, applySignedTxOverlay_receipts] at accepted
    cases result : applySignedTxOverlay storage overlay [] tx idx with
    | error failure => simp [result, Except.map, bind, Except.bind] at accepted
    | ok pair =>
      simp only [result, Except.map, bind, Except.bind] at accepted
      obtain ⟨finalRun, allRun⟩ := ih _ _ accepted
      obtain ⟨_, _, receipt, _, listed, _⟩ := applySignedTxOverlay_settles result
      have stepped : signedStep storage overlay (tx, idx) = (pair.1, some receipt) := by
        simp [signedStep, result, listed]
      rw [run_cons, outputs, stepped]
      refine ⟨finalRun, ?_⟩
      rw [allRun, listed]
      simp

def blockStep (storage : Accounts) (txs : List SignedTx) :
    Accounts → SignedTx × Nat → Accounts × Option Receipt :=
  if 1 < txs.length then sequentialStep storage else certifiedStep storage

def blockOrder (txs : List SignedTx) : List (SignedTx × Nat) :=
  if 1 < txs.length then txs.zipIdx else sortedOrder txs

theorem applyCertifiedBlockDirect_conserves_iff {txs : List SignedTx} (overlay : Accounts)
    (receipts : List Receipt)
    (accepted : applyCertifiedBlockDirect storage txs = .ok (overlay, receipts)) :
    Conserves storage (certifiedStep storage) (sortedOrder txs) overlay receipts ↔
      SettlesExactly storage (certifiedStep storage) (sortedOrder txs) := by
  obtain ⟨final, all⟩ := certifiedLoop_runs _ _ accepted
  rw [final, all, List.nil_append]
  exact conserves_iff _ certifiedStep_transfers

theorem executors_conserve_iff (storage : Accounts) (txs : List SignedTx) :
    (∀ overlay receipts, applyCertifiedBlockDirect storage txs = .ok (overlay, receipts) →
      (Conserves storage (certifiedStep storage) (sortedOrder txs) overlay receipts ↔
        SettlesExactly storage (certifiedStep storage) (sortedOrder txs))) ∧
    (∀ overlay receipts, executeBlockTransactions storage txs = .ok (overlay, receipts) →
      (Conserves storage (blockStep storage txs) (blockOrder txs) overlay receipts ↔
        SettlesExactly storage (blockStep storage txs) (blockOrder txs))) := by
  constructor
  · exact applyCertifiedBlockDirect_conserves_iff
  · intro overlay receipts accepted
    unfold executeBlockTransactions at accepted
    by_cases several : 1 < txs.length
    · obtain ⟨result, returned, _, overlayRun, receiptsRun⟩ :=
        executeBlockStm_sequential storage txs
      rw [if_pos several, returned] at accepted
      cases accepted
      rw [blockStep, blockOrder, if_pos several, if_pos several, overlayRun, receiptsRun]
      exact conserves_iff _ sequentialStep_transfers
    · rw [if_neg several] at accepted
      rw [blockStep, blockOrder, if_neg several, if_neg several]
      exact applyCertifiedBlockDirect_conserves_iff overlay receipts accepted

def loneStorage : Accounts := (∅ : Accounts).insert [0xaa] { balance := 100, nonce := 0 }

def selfTransfer : SignedTx :=
  { sender := "aa", recipient := "aa", amount := 40, nonce := 0, fee := some 1 }

def loneSummary (result : Accounts × List Receipt) : Nat × Nat × Nat × UInt64 :=
  (result.2.length, supply (loneStorage ∪ result.1),
    (result.2.map fun receipt => receipt.fee.toNat).sum,
    (readAccount loneStorage result.1 [0xaa]).nonce)

theorem accepted_of_summary (result : Except ExecutionError (Accounts × List Receipt))
    (summary : Nat × Nat × Nat × UInt64)
    (summed : result.toOption.map loneSummary = some summary) :
    ∃ overlay receipts, result = .ok (overlay, receipts) ∧
      loneSummary (overlay, receipts) = summary := by
  cases result with
  | error failure => simp [Except.toOption] at summed
  | ok pair => exact ⟨pair.1, pair.2, rfl, by simpa [Except.toOption] using summed⟩

/-- A self-transfer mints its amount, pays no fee and keeps its nonce, so in one
block the same transaction applies twice. -/
theorem selfTransfer_mints :
    (∃ overlay receipts,
      applyCertifiedBlockDirect loneStorage [selfTransfer] = .ok (overlay, receipts) ∧
      receipts.length = 1 ∧ supply (loneStorage ∪ overlay) = 140 ∧
      (readAccount loneStorage overlay [0xaa]).nonce = 0 ∧
      ¬ Conserves loneStorage (certifiedStep loneStorage) (sortedOrder [selfTransfer]) overlay
        receipts) ∧
    (∃ overlay receipts,
      executeBlockTransactions loneStorage [selfTransfer, selfTransfer] = .ok (overlay, receipts) ∧
      receipts.length = 2 ∧ supply (loneStorage ∪ overlay) = 180 ∧
      ¬ Conserves loneStorage (blockStep loneStorage [selfTransfer, selfTransfer])
        (blockOrder [selfTransfer, selfTransfer]) overlay receipts) := by
  have before : supply loneStorage = 100 := by decide +kernel
  obtain ⟨overlay, receipts, accepted, summed⟩ := accepted_of_summary
    (applyCertifiedBlockDirect loneStorage [selfTransfer]) (1, 140, 1, 0) (by decide +kernel)
  obtain ⟨stmOverlay, stmReceipts, stmAccepted, stmSummed⟩ := accepted_of_summary
    (executeBlockTransactions loneStorage [selfTransfer, selfTransfer]) (2, 180, 2, 0)
    (by decide +kernel)
  simp only [loneSummary, Prod.mk.injEq] at summed stmSummed
  obtain ⟨count, minted, fees, nonce⟩ := summed
  obtain ⟨stmCount, stmMinted, stmFees, _⟩ := stmSummed
  refine ⟨⟨overlay, receipts, accepted, count, minted, nonce, ?_⟩,
    stmOverlay, stmReceipts, stmAccepted, stmCount, stmMinted, ?_⟩
  · rintro ⟨conserved, _⟩
    omega
  · rintro ⟨conserved, _⟩
    omega

end Executors

end Savitri.SupplyConservation
