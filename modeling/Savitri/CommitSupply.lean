import Savitri.BlockCommit
import Savitri.SupplyConservation

/-!
The supply over a commit. Execution collects fees from the transactions it
applies; the credits afterwards are computed from the fees of all transactions
of the block. Each stage of the commit books its change of the supply, and the
commit adds to the supply exactly when the credits outrun what was collected.
-/
namespace Savitri.CommitSupply
open Std MachineInt Transition BlockExecution BlockStm SupplyConservation BlockCommit
variable {overlay accounts : Accounts} {receipts : List Receipt} {txs : List SignedTx}

theorem supply_write (accounts : Accounts) (address : Address) (account : Account) :
    supply (accounts.insert address account) + (accountOf accounts address).balance.toNat =
      supply accounts + account.balance.toNat := by
  have written := supply_insert accounts ∅ address account
  have read : readAccount accounts ∅ address = accountOf accounts address := by
    simp [readAccount, accountOf]
  rw [union_insert, union_empty, read] at written
  exact written

section
variable (storage : Accounts) (step : Accounts → SignedTx × Nat → Accounts × Option Receipt)

/-- The fee a step takes out of circulation; a self-transfer pays none. -/
def stepCollected (overlay : Accounts) (action : SignedTx × Nat) : Nat :=
  if (step overlay action).2.isSome then
    match action.1.addresses with
    | .ok (sender, recipient) => if sender = recipient then 0 else action.1.feeOrZero.toNat
    | .error _ => 0
  else 0

/-- What a step brings into circulation: the amount of a self-transfer, or the
part of a saturated debit that was not taken. -/
def stepCreated (overlay : Accounts) (action : SignedTx × Nat) : Nat :=
  if (step overlay action).2.isSome then
    match action.1.addresses with
    | .ok (sender, recipient) =>
      if sender = recipient then action.1.amount.toNat else forgivenDebit action.1
    | .error _ => 0
  else 0

omit step in
theorem settles_self_books {tx : SignedTx} {address : Address} {next : Accounts}
    (settles : Settles storage overlay tx address address next) :
    supply (storage ∪ next) + lostCredit storage overlay tx address =
      supply (storage ∪ overlay) + tx.amount.toNat := by
  have debited := supply_insert storage overlay address
    { balance := (readAccount storage overlay address).balance - tx.totalDebit,
      nonce := tx.nonce + 1 }
  have credited := supply_insert storage (overlay.insert address
    { balance := (readAccount storage overlay address).balance - tx.totalDebit,
      nonce := tx.nonce + 1 }) address
    { readAccount storage overlay address with
      balance := addSaturating (readAccount storage overlay address).balance tx.wideAmount }
  rw [readAccount_insert, if_pos rfl] at credited
  have credit := toNat_credited_le tx (readAccount storage overlay address).balance
  rw [settles.written, lostCredit]
  simp only at debited credited ⊢
  omega

theorem step_ledger (transfers : TransferStep storage step) {action : SignedTx × Nat} :
    supply (storage ∪ (step overlay action).1) + stepCollected step overlay action +
        stepLost storage step overlay action =
      supply (storage ∪ overlay) + stepCreated step overlay action := by
  rcases transfers overlay action with silent | ⟨sender, recipient, receipt, next, applied, settles, _⟩
  · simp [stepCollected, stepCreated, stepLost, silent]
  · simp only [stepCollected, stepCreated, stepLost, applied, settles.decoded,
      Option.isSome_some, if_true]
    by_cases self : sender = recipient
    · subst self
      simpa using settles_self_books storage settles
    · simpa [self] using settles_books settles self

def collected (txs : List SignedTx) : Nat :=
  tally (certifiedStep storage) (stepCollected (certifiedStep storage)) ∅ (sortedOrder txs)
def dropped (txs : List SignedTx) : Nat :=
  tally (certifiedStep storage) (stepLost storage (certifiedStep storage)) ∅ (sortedOrder txs)
def created (txs : List SignedTx) : Nat :=
  tally (certifiedStep storage) (stepCreated (certifiedStep storage)) ∅ (sortedOrder txs)

omit step in
theorem certified_ledger
    (accepted : applyCertifiedBlockDirect storage txs = .ok (overlay, receipts)) :
    supply (storage ∪ overlay) + collected storage txs + dropped storage txs =
      supply storage + created storage txs := by
  have books := run_books_along (certifiedStep storage) (fun _ _ => True)
    (fun overlay => supply (storage ∪ overlay)) _ _ _
    (fun before action _ => step_ledger storage _ certifiedStep_transfers)
    ∅ (sortedOrder txs) (along_of_forall _ _ _ _ fun _ _ _ => trivial)
  simp only [union_empty] at books
  rw [(certifiedLoop_runs _ _ accepted).1]
  exact books

end

section Credits
def openedBy (accounts : Accounts) (entry : Address × Account) : Nat :=
  if (accounts[entry.1]?).isNone ∧ 0 < entry.2.nonce then entry.2.balance.toNat else 0

def opened (accounts overlay : Accounts) : Nat := (overlay.toList.map (openedBy accounts)).sum

variable {entry : Address × Account} {pending : PendingCommit} (address : Address)

theorem supply_mergeNonce :
    supply (mergeNonce accounts entry) = supply accounts + openedBy accounts entry := by
  have written := supply_write accounts entry.1
  unfold mergeNonce openedBy
  cases existing : accounts[entry.1]? with
  | none =>
    have absent : accountOf accounts entry.1 = {} := by simp [accountOf, existing]
    simp only [absent] at written
    by_cases raised : 0 < entry.2.nonce
    · simpa [raised] using written { balance := entry.2.balance, nonce := entry.2.nonce }
    · simp [raised]
  | some account =>
    have present : accountOf accounts entry.1 = account := by simp [accountOf, existing]
    by_cases raised : account.nonce < entry.2.nonce
    · simpa [raised, present] using written { balance := account.balance, nonce := entry.2.nonce }
    · simp [raised]

theorem mergeNonce_elsewhere (elsewhere : entry.1 ≠ address) :
    (mergeNonce accounts entry)[address]? = accounts[address]? := by
  unfold mergeNonce
  simp only
  split
  · rw [ExtTreeMap.getElem?_insert, if_neg]
    simpa using elsewhere
  · rfl

theorem supply_mergeNonces {entries : List (Address × Account)}
    (distinct : entries.Pairwise fun first second => first.1 ≠ second.1) (accounts : Accounts) :
    supply (entries.foldl mergeNonce accounts) =
      supply accounts + (entries.map (openedBy accounts)).sum := by
  induction entries generalizing accounts with
  | nil => rfl
  | cons entry rest ih =>
    rw [List.pairwise_cons] at distinct
    -- The other entries find their own addresses as they were.
    have later : rest.map (openedBy (mergeNonce accounts entry)) =
        rest.map (openedBy accounts) := by
      apply List.map_congr_left
      intro other member
      rw [openedBy, openedBy, mergeNonce_elsewhere other.1 (distinct.1 other member)]
    rw [List.foldl_cons, ih distinct.2, later, supply_mergeNonce, List.map_cons,
      List.sum_cons, Nat.add_assoc]

theorem distinct_entries (overlay : Accounts) :
    overlay.toList.Pairwise fun first second => first.1 ≠ second.1 := by
  apply overlay.distinct_keys_toList.imp
  intro first second differ same
  exact differ (LawfulEqCmp.compare_eq_iff_eq.mpr same)

def creditGain (accounts : Accounts) (address : Address) (amount : BitVec 128) : Nat :=
  (addSaturating (accountOf accounts address).balance amount).toNat -
    (accountOf accounts address).balance.toNat

theorem supply_creditAccount {amount : BitVec 128} :
    supply (creditAccount accounts address amount) =
      supply accounts + creditGain accounts address amount := by
  have written := supply_write accounts address
    { accountOf accounts address with
      balance := addSaturating (accountOf accounts address).balance amount }
  have raised : (accountOf accounts address).balance.toNat ≤
      (addSaturating (accountOf accounts address).balance amount).toNat := by
    rw [toNat_addSaturating]
    have bound := (accountOf accounts address).balance.isLt
    omega
  unfold creditAccount creditGain
  simp only at written ⊢
  omega

def feeGain (accounts : Accounts) (fees : BitVec 128) (proposer : Address) : Nat :=
  if 0 < treasuryAmount fees then
    creditGain accounts treasuryAddress (treasuryAmount fees) +
      (if 0 < proposerAmount fees then
        creditGain (creditAccount accounts treasuryAddress (treasuryAmount fees)) proposer
          (proposerAmount fees)
      else 0)
  else if 0 < proposerAmount fees then creditGain accounts proposer (proposerAmount fees)
  else 0

theorem supply_payFees :
    supply (payFees accounts pending) = supply accounts +
      feeGain accounts pending.fees pending.block.proposer.toList := by
  by_cases some : 0 < pending.fees
  · rw [payFees, if_pos some, distributeBlockFees, feeGain]
    by_cases treasury : 0 < treasuryAmount pending.fees <;>
      by_cases proposer : 0 < proposerAmount pending.fees <;>
        simp only [treasury, proposer, if_true, if_false, supply_creditAccount] <;> omega
  · have none : pending.fees = 0 := by
      apply BitVec.eq_of_toNat_eq
      rw [BitVec.lt_def] at some
      simpa using some
    rw [payFees, if_neg some, none]
    simp [feeGain, treasuryAmount, proposerAmount, burnAmount]

def rewardGain (accounts : Accounts) : List (Vector UInt8 32 × UInt64) → Nat
  | [] => 0
  | (address, pouScore) :: rest =>
    let account := accountOf accounts address.toList
    let reward := calculateP2pReward pouScore
    if 2 ^ 128 ≤ account.balance.toNat + reward.toNat then 0
    else reward.toNat + rewardGain
      (accounts.insert address.toList { account with balance := account.balance + reward }) rest

theorem supply_distributeFeesToP2pNodes {nodes : List (Vector UInt8 32 × UInt64)}
    (accounts : Accounts) :
    supply (distributeFeesToP2pNodes accounts nodes).1 =
      supply accounts + rewardGain accounts nodes := by
  induction nodes generalizing accounts with
  | nil => rfl
  | cons node rest ih =>
    rcases node with ⟨address, pouScore⟩
    simp only [distributeFeesToP2pNodes, rewardGain]
    by_cases overflow : 2 ^ 128 ≤ (accountOf accounts address.toList).balance.toNat +
        (calculateP2pReward pouScore).toNat
    · simp only [if_pos overflow, Nat.add_zero]
    · have written := supply_write accounts address.toList
        { accountOf accounts address.toList with
          balance := (accountOf accounts address.toList).balance + calculateP2pReward pouScore }
      simp only [BitVec.toNat_add, Nat.mod_eq_of_lt (Nat.not_le.mp overflow)] at written
      simp only [if_neg overflow, ih]
      omega

theorem supply_payNodes :
    supply (payNodes accounts pending).1 =
      supply accounts + rewardGain accounts (pending.p2pNodes.getD []) := by
  unfold payNodes
  cases pending.p2pNodes with
  | none => rfl
  | some nodes => exact supply_distributeFeesToP2pNodes accounts

end Credits

section
variable (sha256 : List UInt8 → Vector UInt8 32) {Heads : Type} (store : HeadStore Heads)
variable (storage : NodeStorage Heads) (pending : PendingCommit)

/-- What the commit of a certified block adds to the supply: creations of its
execution, or the accounts opened below the head, then fees and rewards. -/
def supplyGain : Nat :=
  match executePending sha256 storage.accounts pending with
  | .error _ => 0
  | .ok (block, overlay) =>
    let advances := shouldUpdate store storage.heads pending.lane block.height
    let written := writeOverlay advances storage.accounts overlay
    (if advances then created storage.accounts pending.signedTxs
      else opened storage.accounts overlay) +
    feeGain written pending.fees pending.block.proposer.toList +
    rewardGain (payFees written pending) (pending.p2pNodes.getD [])

/-- What it takes out: fees and lost credits of the applied transactions, and
nothing below the head. -/
def supplyLoss : Nat :=
  match executePending sha256 storage.accounts pending with
  | .error _ => 0
  | .ok (block, _) =>
    if shouldUpdate store storage.heads pending.lane block.height then
      collected storage.accounts pending.signedTxs + dropped storage.accounts pending.signedTxs
    else 0

theorem supply_writeOverlay
    (applied : applyCertifiedBlockDirect accounts txs = .ok (overlay, receipts)) (advances : Bool) :
    supply (writeOverlay advances accounts overlay) +
        (if advances then collected accounts txs + dropped accounts txs else 0) =
      supply accounts + (if advances then created accounts txs else opened accounts overlay) := by
  cases advances with
  | true =>
    have ledger := certified_ledger accounts applied
    simp only [writeOverlay, if_true]
    omega
  | false =>
    have merged := supply_mergeNonces (distinct_entries overlay) accounts
    simp only [writeOverlay, Bool.false_eq_true, if_false, Nat.add_zero]
    exact merged

theorem commit_books {pending : PendingCommit} (certified : pending.isMnCertified = true) :
    supply (commitPendingBlock sha256 store storage pending).1.accounts +
        supplyLoss sha256 store storage pending =
      supply storage.accounts + supplyGain sha256 store storage pending := by
  unfold commitPendingBlock supplyLoss supplyGain
  cases executed : executePending sha256 storage.accounts pending with
  | error failure => rfl
  | ok result =>
    rcases result with ⟨block, overlay⟩
    rcases executePending_certified sha256 certified executed with ⟨_, receipts, applied⟩
    have written := supply_writeOverlay
      applied (shouldUpdate store storage.heads pending.lane block.height)
    simp only [supply_payNodes, supply_payFees]
    omega

/-- A transaction that is applied goes to another account and its debit fits; one that is
skipped carries no fee. -/
def Paid (storage overlay : Accounts) (action : SignedTx × Nat) : Prop :=
  if (certifiedStep storage overlay action).2.isSome then
    (∀ pair ∈ action.1.addresses.toOption, pair.1 ≠ pair.2) ∧
      action.1.amount.toNat + action.1.feeOrZero.toNat < 2 ^ 128
  else action.1.feeOrZero = 0

instance (storage overlay : Accounts) (action : SignedTx × Nat) :
    Decidable (Paid storage overlay action) := by
  unfold Paid
  infer_instance

theorem Paid.books {storage : Accounts} {action : SignedTx × Nat}
    (paid : Paid storage overlay action) :
    stepCreated (certifiedStep storage) overlay action = 0 ∧
      action.1.feeOrZero.toNat ≤ stepCollected (certifiedStep storage) overlay action := by
  unfold Paid at paid
  unfold stepCreated stepCollected
  split at paid
  · next applied =>
      simp only [applied, if_true]
      cases decoded : action.1.addresses with
      | error failure => simp [certifiedStep, decoded] at applied
      | ok pair =>
        have apart : pair.1 ≠ pair.2 := paid.1 pair (by simp [decoded, Except.toOption])
        have amount : action.1.wideAmount.toNat = action.1.amount.toNat := by
          simp only [SignedTx.wideAmount, BitVec.toNat_ofNat]
          have := action.1.amount.toNat_lt
          omega
        have whole : action.1.totalDebit.toNat =
            action.1.amount.toNat + action.1.feeOrZero.toNat := by
          rw [SignedTx.totalDebit, toNat_addSaturating, amount]
          omega
        simp only [if_neg apart, forgivenDebit, whole]
        omega
  · next skipped => simp [skipped, paid]

theorem paid_order {storage : Accounts} {order : List (SignedTx × Nat)}
    (paid : Along (certifiedStep storage) (Paid storage) overlay order) :
    tally (certifiedStep storage) (stepCreated (certifiedStep storage)) overlay order = 0 ∧
      (order.map fun action => action.1.feeOrZero.toNat).sum ≤
        tally (certifiedStep storage) (stepCollected (certifiedStep storage)) overlay order := by
  induction order generalizing overlay with
  | nil => simp [tally]
  | cons action rest ih =>
    have here := paid.1.books
    have later := ih paid.2
    simp only [tally, List.map_cons, List.sum_cons]
    omega

theorem fees_sortedOrder :
    ((sortedOrder txs).map fun action => action.1.feeOrZero.toNat).sum =
      (txs.map fun tx => tx.feeOrZero.toNat).sum := by
  rw [sortedOrder, ((List.perm_insertionSort _ txs.zipIdx).map
    fun action : SignedTx × Nat => action.1.feeOrZero.toNat).sum_eq]
  conv_rhs => rw [← List.zipIdx_map_fst 0 txs, List.map_map]
  rfl

theorem totalFees_le (txs : List SignedTx) :
    (totalFees txs).toNat ≤ (txs.map fun tx => tx.feeOrZero.toNat).sum := by
  have summed : ∀ (txs : List SignedTx) (fees : BitVec 128),
      (txs.foldl (fun fees tx => addSaturating fees tx.feeOrZero) fees).toNat ≤
        fees.toNat + (txs.map fun tx => tx.feeOrZero.toNat).sum := by
    intro txs
    induction txs with
    | nil => exact fun _ => Nat.le_refl _
    | cons tx rest ih =>
      intro fees
      have later := ih (addSaturating fees tx.feeOrZero)
      rw [toNat_addSaturating] at later
      simp only [List.foldl_cons, List.map_cons, List.sum_cons]
      omega
  rw [totalFees]
  simpa using summed txs 0

theorem creditGain_le {amount : BitVec 128} {address : Address} :
    creditGain accounts address amount ≤ amount.toNat := by
  rw [creditGain, toNat_addSaturating]
  omega

/-- The two shares are what is not burnt, also where the product of the first one wraps. -/
theorem feeGain_le (accounts : Accounts) (fees : BitVec 128) (proposer : Address) :
    feeGain accounts fees proposer ≤ fees.toNat := by
  have kept : (fees - burnAmount fees).toNat ≤ fees.toNat := by
    have half : (burnAmount fees).toNat ≤ fees.toNat := by
      rw [burnAmount, BitVec.toNat_udiv]
      exact Nat.div_le_self _ _
    rw [BitVec.toNat_sub_of_le half]
    exact Nat.sub_le _ _
  have less : (treasuryAmount fees).toNat ≤ (fees - burnAmount fees).toNat := by
    rw [treasuryAmount, BitVec.toNat_udiv, BitVec.toNat_mul]
    generalize (fees - burnAmount fees).toNat = kept
    refine (Nat.div_le_div_right (Nat.mod_le _ _)).trans ?_
    simp only [BitVec.ofNat_eq_ofNat, BitVec.toNat_ofNat, Nat.reducePow, Nat.reduceMod]
    omega
  have rest : (proposerAmount fees).toNat = _ := BitVec.toNat_sub_of_le less
  have first := @creditGain_le accounts (treasuryAmount fees) treasuryAddress
  have second := fun accounts => @creditGain_le accounts (proposerAmount fees) proposer
  have alone := second accounts
  have after := second (creditAccount accounts treasuryAddress (treasuryAmount fees))
  unfold feeGain
  split
  · split <;> omega
  · split <;> omega

end

def fundedStorage (nonce : UInt64) : NodeStorage (Option UInt64) :=
  { accounts := (∅ : Accounts).insert [0xaa] { balance := 100, nonce }, heads := none }

def paymentCommit : PendingCommit :=
  { block := sampleBlock 1, now := 1700000000,
    signedTxs := [{ sender := "aa", recipient := "bb", amount := 10, nonce := 0,
                    fee := some 10 }] }

def committed (storage : NodeStorage (Option UInt64)) : NodeStorage (Option UInt64) :=
  (commitPendingBlock sampleSha256 memoryHeads storage paymentCommit).1

end Savitri.CommitSupply
