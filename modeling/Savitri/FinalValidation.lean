import Savitri.MempoolPipeline
import Savitri.SupplyConservation

/-!
The validation that a block producer runs on a drained batch, and the executor that
the block is given to. Nonces are followed from transaction to transaction; balances are
read once, so a sender is never charged for its earlier transactions.
-/
namespace Savitri.FinalValidation
open MempoolTypes MempoolPipeline AccountReads TxWire PairOrder
open BlockExecution (Address Account Accounts readAccount signedLoop applySignedTxOverlay)
open Std (ExtTreeMap)

section
/-- The account of a sender; whatever cannot be read is an empty one. -/
def accountFor (storage : Storage) (address : Address) : Account :=
  match storage address with
  | .ok (some bytes) => (decodeEither bytes).toOption.getD {}
  | _ => {}

/-- The quota or stake that a class asks for besides amount and fee. -/
def minRequirement (txClass : TxClass) (toAddress : Address) : Nat :=
  match txClass with
  | .federatedUpdate => 1000 + toAddress.length * 10
  | .ioTData => 100 + toAddress.length * 2
  | .system =>
    match toAddress.head? with
    | some 0x01 => 1000
    | some 0x02 => 500
    | some 0x03 => 200
    | _ => 500
  | .financial => 0

structure Tally where
  runningNonces : SenderId → Option UInt64 := fun _ => none
  blockedSenders : List SenderId := []
  validTxs : List SignedTx := []
  invalidHandles : List TxHandle := []
  federatedUpdates : List (TxHandle × SignedTx) := []
  iotData : List (TxHandle × SignedTx) := []

def Tally.reject (tally : Tally) (tx : MempoolTx) : Tally :=
  { tally with invalidHandles := tally.invalidHandles ++ [tx.txHandle] }

def Tally.accept (tally : Tally) (tx : MempoolTx) (signed : SignedTx) : Tally :=
  match tx.txClass with
  | .federatedUpdate =>
    { tally with federatedUpdates := tally.federatedUpdates ++ [(tx.txHandle, signed)] }
  | .ioTData => { tally with iotData := tally.iotData ++ [(tx.txHandle, signed)] }
  | _ => { tally with validTxs := tally.validTxs ++ [signed] }

structure Setting where
  storage : Storage
  pendingNonces : Option (Address → Option UInt64) := none
  trustFirst : Bool := true

variable (setting : Setting)

def Setting.startNonce (tx : MempoolTx) (signed : SignedTx) : UInt64 :=
  let pending := (setting.pendingNonces.bind fun nonces => nonces signed.fromAddress).getD 0
  let effective := max (accountFor setting.storage signed.fromAddress).nonce pending
  if setting.trustFirst && effective == 0 && decide (0 < tx.nonce) then tx.nonce else effective

def Setting.expectedNonce (tally : Tally) (tx : MempoolTx) (signed : SignedTx) : UInt64 :=
  (tally.runningNonces tx.senderId).getD (setting.startNonce tx signed)

/-- The checks of funds. They come after the running nonce has moved on, and all read the
balance in storage. -/
def Setting.funded (tx : MempoolTx) (signed : SignedTx) : Bool :=
  let balance := (accountFor setting.storage signed.fromAddress).balance.toNat
  let totalRequired := signed.amount.toNat + signed.fee.toNat
  decide (totalRequired < 2 ^ 64) &&
    !(decide (0 < totalRequired) && decide (balance < totalRequired)) &&
    !decide (balance < minRequirement tx.txClass signed.toAddress)

def Setting.validate (tally : Tally) (entry : MempoolTx × SignedTx) : Tally :=
  let (tx, signed) := entry
  if tx.senderId ∈ tally.blockedSenders then tally.reject tx else
  let expected := setting.expectedNonce tally tx signed
  let running := fun nonce => Function.update tally.runningNonces tx.senderId (some nonce)
  if tx.nonce ≠ expected then
    { tally with
      runningNonces := running expected
      blockedSenders := tx.senderId :: tally.blockedSenders }.reject tx
  else
    let tally := { tally with runningNonces := running (expected + 1) }
    if setting.funded tx signed then tally.accept tx signed else tally.reject tx

def inOrder (first second : MempoolTx × SignedTx) : Bool :=
  (pairCompare (first.1.senderId, first.1.nonce.toNat)
    (second.1.senderId, second.1.nonce.toNat)).isLE

def Setting.pass (mempoolTxs : List MempoolTx) (signedTxs : List SignedTx) : Tally :=
  ((mempoolTxs.zip signedTxs).insertionSort fun first second => inOrder first second).foldl
    setting.validate {}

structure Aggregation where
  aggregateFederatedUpdates : List (TxHandle × SignedTx) → List SignedTx
  batchIotData : List (TxHandle × SignedTx) → List SignedTx

def finalValidationWithPending (aggregation : Aggregation) (p : Pipeline)
    (mempoolTxs : List MempoolTx) (signedTxs : List SignedTx) :
    Pipeline × List SignedTx × List TxHandle :=
  if mempoolTxs.isEmpty || signedTxs.isEmpty then (p, [], [])
  else if mempoolTxs.length ≠ signedTxs.length then (p, [], mempoolTxs.map (·.txHandle))
  else
    let tally := setting.pass mempoolTxs signedTxs
    let aggregated :=
      if tally.federatedUpdates.isEmpty then []
      else aggregation.aggregateFederatedUpdates tally.federatedUpdates
    let batched :=
      if tally.iotData.isEmpty then [] else aggregation.batchIotData tally.iotData
    ({ p with mempool := p.mempool.removeByHandles tally.invalidHandles },
      tally.validTxs ++ aggregated ++ batched, tally.invalidHandles)

end

section
abbrev StoredAccounts := ExtTreeMap Address (List UInt8)

variable (stored : StoredAccounts)

def StoredAccounts.storage : Storage := fun address =>
  .ok stored[address]?

def maxDeserializeSize : Nat := 4 * 1024 * 1024

/-- The account record of the light node, which has a data field after the nonce. -/
def readLightnodeAccount : Reader Account := do
  let balance ← readNat 16
  let nonce ← readU64
  let _data ← readVec
  return { balance := BitVec.ofNat 128 balance, nonce }

/-- The accounts as the executor reads them. A record it cannot decode is missing to it. -/
def StoredAccounts.lightnodeAccounts : Accounts :=
  stored.filterMap fun _ bytes =>
    if maxDeserializeSize < bytes.length then none
    else (readLightnodeAccount.run bytes).map Prod.fst

def mempoolTxToLightnodeTx (tx : SignedTx) : BlockExecution.SignedTx :=
  { sender := HexCodec.encode tx.fromAddress
    recipient := HexCodec.encode tx.toAddress
    amount := tx.amount
    nonce := tx.nonce
    fee := if 0 < tx.fee then some (BitVec.ofNat 128 tx.fee.toNat) else none
    preVerified := tx.preVerified }

def execute (accounts : Accounts) (txs : List SignedTx) :
    Except BlockExecution.ExecutionError (Accounts × List BlockExecution.Receipt) :=
  signedLoop accounts (txs.map mempoolTxToLightnodeTx).zipIdx ∅ []

variable (address : Address)

def paidBy (tx : SignedTx) : Nat :=
  if tx.fromAddress = address then tx.amount.toNat + tx.fee.toNat else 0

def receivedBy (tx : SignedTx) : Nat :=
  if tx.toAddress = address then tx.amount.toNat else 0

variable (txs : List SignedTx)

def totalPaid : Nat := (txs.map (paidBy address)).sum

def totalReceived : Nat := (txs.map (receivedBy address)).sum

variable (accounts overlay : Accounts) (receipts : List BlockExecution.Receipt) (tx : SignedTx)

theorem signedLoop_append {front back : List (BlockExecution.SignedTx × Nat)} :
    signedLoop accounts (front ++ back) overlay receipts =
      (signedLoop accounts front overlay receipts).bind fun result =>
        signedLoop accounts back result.1 result.2 := by
  induction front generalizing overlay receipts with
  | nil => rfl
  | cons action rest ih =>
    rw [List.cons_append, signedLoop, signedLoop]
    cases applySignedTxOverlay accounts overlay receipts action.1 action.2 with
    | error failure => rfl
    | ok result => exact ih result.1 result.2

theorem execute_concat {txs : List SignedTx} {tx : SignedTx}
    (executed : execute accounts txs = .ok (overlay, receipts)) :
    execute accounts (txs ++ [tx]) =
      applySignedTxOverlay accounts overlay receipts (mempoolTxToLightnodeTx tx) txs.length := by
  unfold execute at executed ⊢
  rw [List.map_append, List.map_singleton, List.zipIdx_append, signedLoop_append, executed]
  simp only [Except.bind, List.zipIdx_singleton, signedLoop, List.length_map, Nat.zero_add]
  cases applySignedTxOverlay accounts overlay receipts (mempoolTxToLightnodeTx tx) txs.length <;>
    rfl

theorem addresses_lightnodeTx :
    (mempoolTxToLightnodeTx tx).addresses = .ok (tx.fromAddress, tx.toAddress) := by
  simp [BlockExecution.SignedTx.addresses, mempoolTxToLightnodeTx, HexCodec.decode_encode,
    Except.mapError, bind, Except.bind, pure, Except.pure]

theorem feeOrZero_lightnodeTx : (mempoolTxToLightnodeTx tx).feeOrZero.toNat = tx.fee.toNat := by
  have small := tx.fee.toNat_lt
  unfold mempoolTxToLightnodeTx BlockExecution.SignedTx.feeOrZero
  by_cases paid : 0 < tx.fee
  · simp only [if_pos paid, Option.getD_some, BitVec.toNat_ofNat]
    omega
  · have free : tx.fee.toNat = 0 := by
      rw [UInt64.lt_iff_toNat_lt] at paid
      simpa using paid
    simp [if_neg paid, free]

theorem apply_succeeds (idx : Nat) (verified : tx.preVerified = true)
    (apart : tx.fromAddress ≠ tx.toAddress)
    (sameNonce : (readAccount accounts overlay tx.fromAddress).nonce = tx.nonce)
    (covered : tx.amount.toNat + tx.fee.toNat ≤
      (readAccount accounts overlay tx.fromAddress).balance.toNat) (creditable :
      (readAccount accounts overlay tx.toAddress).balance.toNat + tx.amount.toNat < 2 ^ 128) :
    ∃ next all,
      applySignedTxOverlay accounts overlay receipts (mempoolTxToLightnodeTx tx) idx =
          .ok (next, all) ∧
        ∀ address,
          (readAccount accounts next address).nonce =
              (if tx.fromAddress = address then tx.nonce + 1
                else (readAccount accounts overlay address).nonce) ∧
            (readAccount accounts next address).balance.toNat + paidBy address tx =
              (readAccount accounts overlay address).balance.toNat + receivedBy address tx := by
  have wide : (mempoolTxToLightnodeTx tx).wideAmount.toNat = tx.amount.toNat :=
    SupplyConservation.wideAmount_toNat
  have fee := feeOrZero_lightnodeTx tx
  have amountSmall := tx.amount.toNat_lt
  have feeSmall := tx.fee.toNat_lt
  have required : ((mempoolTxToLightnodeTx tx).wideAmount +
      (mempoolTxToLightnodeTx tx).feeOrZero).toNat = tx.amount.toNat + tx.fee.toNat := by
    rw [BitVec.toNat_add, wide, fee]
    omega
  unfold applySignedTxOverlay
  simp only [addresses_lightnodeTx]
  rw [if_neg (by simp [mempoolTxToLightnodeTx, verified]), if_neg (by rw [wide, fee]; omega),
    if_neg (by rw [BitVec.lt_def, required]; omega),
    if_neg (fun differs => differs sameNonce), if_neg (by rw [wide]; omega)]
  refine ⟨_, _, rfl, ?_⟩
  intro address
  simp only [SupplyConservation.readAccount_insert, paidBy, receivedBy]
  by_cases credited : tx.toAddress = address
  · subst credited
    simp only [if_true, if_neg apart, BitVec.toNat_add, wide]
    exact ⟨trivial, by omega⟩
  · by_cases debited : tx.fromAddress = address
    · subst debited
      simp only [if_neg credited, if_true, sameNonce, BitVec.toNat_sub, required]
      exact ⟨trivial, by omega⟩
    · simp [credited, debited]

end

variable {tally : Tally}

section
/-- The sender could pay for the transaction alone. -/
def solvent (stored : StoredAccounts) (tx : SignedTx) : Bool :=
  let totalRequired := tx.amount.toNat + tx.fee.toNat
  decide (totalRequired < 2 ^ 64) && decide (totalRequired ≤
    (readAccount stored.lightnodeAccounts ∅ tx.fromAddress).balance.toNat)

def payable (stored : StoredAccounts) (batch : List (MempoolTx × SignedTx)) : List SignedTx :=
  (batch.map Prod.snd).filter (solvent stored)

/-- What the validation leaves to the batch: both lists tell the same nonce and name
senders alike, the executor reads the same accounts, every sender can pay together for all
the transactions that it can pay for alone, and none of these has the nonce after one that
it cannot pay for. -/
structure Executable (stored : StoredAccounts) (batch : List (MempoolTx × SignedTx)) : Prop where
  financial : ∀ entry ∈ batch, entry.1.txClass = .financial
  verified : ∀ entry ∈ batch, solvent stored entry.2 = true → entry.2.preVerified = true
  sameNonce : ∀ entry ∈ batch, entry.1.nonce = entry.2.nonce
  sameSender : ∀ entry ∈ batch, ∀ other ∈ batch,
    entry.1.senderId = other.1.senderId ↔ entry.2.fromAddress = other.2.fromAddress
  apart : ∀ entry ∈ batch, solvent stored entry.2 = true → entry.2.fromAddress ≠ entry.2.toAddress
  readable : ∀ entry ∈ batch, accountFor stored.storage entry.2.fromAddress =
    readAccount stored.lightnodeAccounts ∅ entry.2.fromAddress
  following : ∀ entry ∈ batch, solvent stored entry.2 = false → ∀ other ∈ batch,
    other.1.senderId = entry.1.senderId → other.1.nonce = entry.1.nonce + 1 →
      solvent stored other.2 = false
  affordable : ∀ entry ∈ batch, totalPaid entry.2.fromAddress (payable stored batch) ≤
    (readAccount stored.lightnodeAccounts ∅ entry.2.fromAddress).balance.toNat
  creditable : ∀ entry ∈ batch, solvent stored entry.2 = true →
    (readAccount stored.lightnodeAccounts ∅ entry.2.toAddress).balance.toNat +
      totalReceived entry.2.toAddress (payable stored batch) < 2 ^ 128

variable {stored : StoredAccounts} {batch : List (MempoolTx × SignedTx)}

def strict (stored : StoredAccounts) : Setting := { storage := stored.storage, trustFirst := false }

theorem startNonce_strict (tx : MempoolTx) (signed : SignedTx) :
    (strict stored).startNonce tx signed = (accountFor stored.storage signed.fromAddress).nonce := by
  have least : ∀ nonce : UInt64, max nonce 0 = nonce := by
    intro nonce
    change (if nonce ≤ 0 then 0 else nonce) = nonce
    by_cases zero : nonce ≤ 0
    · rw [if_pos zero]
      exact (UInt64.le_antisymm zero (UInt64.zero_le)).symm
    · rw [if_neg zero]
  simp [Setting.startNonce, strict, least]

/-- The executor has gone as far as the validation: it expects the same nonce of a sender,
unless the sender is past a transaction that it could not pay for, where none that it can
pay for comes next. Balances differ from storage by no more than the transactions seen. -/
structure Mirrors (stored : StoredAccounts) (batch done : List (MempoolTx × SignedTx))
    (tally : Tally) (overlay : Accounts) : Prop where
  nonces : ∀ entry ∈ batch, (strict stored).expectedNonce tally entry.1 entry.2 =
      (readAccount stored.lightnodeAccounts overlay entry.2.fromAddress).nonce ∨
    (entry.1.nonce = (strict stored).expectedNonce tally entry.1 entry.2 →
      solvent stored entry.2 = false)
  paid : ∀ address, (readAccount stored.lightnodeAccounts ∅ address).balance.toNat ≤
    (readAccount stored.lightnodeAccounts overlay address).balance.toNat +
      totalPaid address (payable stored done)
  received : ∀ address, (readAccount stored.lightnodeAccounts overlay address).balance.toNat ≤
    (readAccount stored.lightnodeAccounts ∅ address).balance.toNat +
      totalReceived address (payable stored done)

variable {address : Address} {done : List (MempoolTx × SignedTx)}

theorem payable_concat (entry : MempoolTx × SignedTx) : payable stored (done ++ [entry]) =
    payable stored done ++ [entry.2].filter (solvent stored) := by
  simp [payable]

variable {next : Tally} {overlay : Accounts} {rest : List (MempoolTx × SignedTx)}

theorem expectedNonce_update {setting : Setting} {tx other : MempoolTx}
    {signed : SignedTx} {nonce : UInt64}
    (written : next.runningNonces = Function.update tally.runningNonces tx.senderId (some nonce)) :
    setting.expectedNonce next other signed =
      if other.senderId = tx.senderId then nonce else setting.expectedNonce tally other signed := by
  unfold Setting.expectedNonce
  rw [written]
  by_cases same : other.senderId = tx.senderId
  · rw [same, Function.update_self, if_pos rfl, Option.getD_some]
  · rw [Function.update_of_ne same, if_neg same]

theorem Mirrors.rejected (mirrors : Mirrors stored batch done tally overlay)
    (entry : MempoolTx × SignedTx)
    (same : ∀ other ∈ batch, (strict stored).expectedNonce next other.1 other.2 =
        (strict stored).expectedNonce tally other.1 other.2 ∨
      (other.1.nonce = (strict stored).expectedNonce next other.1 other.2 →
        solvent stored other.2 = false)) :
    Mirrors stored batch (done ++ [entry]) next overlay := by
  constructor
  · intro other member
    rcases same other member with kept | past
    · rw [kept]
      exact mirrors.nonces other member
    · exact Or.inr past
  · intro address
    have paid := mirrors.paid address
    simp only [payable_concat, totalPaid, List.map_append, List.sum_append] at paid ⊢
    omega
  · intro address
    have received := mirrors.received address
    simp only [payable_concat, totalReceived, List.map_append, List.sum_append] at received ⊢
    omega

variable (executable : Executable stored batch)
include executable

theorem Executable.funded (entry : MempoolTx × SignedTx) (member : entry ∈ batch) :
    (strict stored).funded entry.1 entry.2 = solvent stored entry.2 := by
  rw [Bool.eq_iff_iff]
  simp only [Setting.funded, strict, executable.readable entry member,
    executable.financial entry member, minRequirement, solvent, Bool.and_eq_true,
    Bool.not_eq_true', decide_eq_true_eq, Bool.and_eq_false_iff, decide_eq_false_iff_not]
  omega

theorem Executable.alike {entry other : MempoolTx × SignedTx} (member : entry ∈ batch)
    (otherMember : other ∈ batch) (same : other.1.senderId = entry.1.senderId) :
    (strict stored).expectedNonce tally other.1 other.2 =
      (strict stored).expectedNonce tally entry.1 entry.2 := by
  rw [Setting.expectedNonce, Setting.expectedNonce, startNonce_strict, startNonce_strict, same,
    (executable.sameSender other otherMember _ member).mp same]

omit executable in
theorem sum_share (value : SignedTx → Nat) {entry : MempoolTx × SignedTx}
    (all : (done ++ entry :: rest).Perm batch) (pays : solvent stored entry.2 = true) :
    ((payable stored done).map value).sum + value entry.2 ≤
      ((payable stored batch).map value).sum := by
  rw [payable, payable, ← (((all.map Prod.snd).filter (solvent stored)).map value).sum_eq]
  simp only [List.map_append, List.map_cons, List.filter_append,
    List.filter_cons_of_pos pays, List.sum_append, List.sum_cons]
  omega

theorem Mirrors.accepted (mirrors : Mirrors stored batch done tally overlay)
    (rest : List (MempoolTx × SignedTx)) (tx : MempoolTx) (signed : SignedTx) (next : Tally)
    (all : (done ++ (tx, signed) :: rest).Perm batch) (pays : solvent stored signed = true)
    (reached : tx.nonce = (strict stored).expectedNonce tally tx signed)
    (written : next.runningNonces =
      Function.update tally.runningNonces tx.senderId (some (tx.nonce + 1)))
    (receipts : List BlockExecution.Receipt) (idx : Nat) :
    ∃ after receipts',
      applySignedTxOverlay stored.lightnodeAccounts overlay receipts
          (mempoolTxToLightnodeTx signed) idx = .ok (after, receipts') ∧
        Mirrors stored batch (done ++ [(tx, signed)]) next after := by
  have member : (tx, signed) ∈ batch := all.subset (by simp)
  have sameNonce := executable.sameNonce _ member
  have awaited : (readAccount stored.lightnodeAccounts overlay signed.fromAddress).nonce =
      signed.nonce := by
    rcases mirrors.nonces _ member with mirrored | past
    · rw [← mirrored, ← reached, sameNonce]
    · simp [past reached] at pays
  -- What is payable is covered as a whole, so its part after `done` still is.
  have covered : signed.amount.toNat + signed.fee.toNat ≤
      (readAccount stored.lightnodeAccounts overlay signed.fromAddress).balance.toNat := by
    have paid := mirrors.paid signed.fromAddress
    have affordable := executable.affordable _ member
    have share := sum_share (paidBy signed.fromAddress) all pays
    simp only [paidBy, if_true] at share
    simp only [totalPaid] at paid affordable
    omega
  have creditable :
      (readAccount stored.lightnodeAccounts overlay signed.toAddress).balance.toNat +
        signed.amount.toNat < 2 ^ 128 := by
    have received := mirrors.received signed.toAddress
    have creditable := executable.creditable _ member pays
    have share := sum_share (receivedBy signed.toAddress) all pays
    simp only [receivedBy, if_true] at share
    simp only [totalReceived] at received creditable
    omega
  obtain ⟨after, receipts', applied, effect⟩ := apply_succeeds stored.lightnodeAccounts overlay
    receipts signed idx (executable.verified _ member pays) (executable.apart _ member pays)
    awaited covered creditable
  refine ⟨after, receipts', applied, ?_, ?_, ?_⟩
  · intro other otherMember
    rw [expectedNonce_update written, (effect other.2.fromAddress).1, sameNonce]
    have same := executable.sameSender other otherMember _ member
    by_cases own : other.1.senderId = tx.senderId
    · rw [if_pos own, if_pos (same.mp own).symm]
      exact Or.inl rfl
    · rw [if_neg own, if_neg fun address => own (same.mpr address.symm)]
      exact mirrors.nonces other otherMember
  all_goals
    intro address
    have paid := mirrors.paid address
    have received := mirrors.received address
    have moved := (effect address).2
    rw [payable_concat, List.filter_cons_of_pos pays, List.filter_nil]
    simp only [totalPaid, totalReceived, List.map_append, List.sum_append, List.map_cons,
      List.map_nil, List.sum_cons, List.sum_nil] at paid received ⊢
    omega

theorem validate_mirrors {entry : MempoolTx × SignedTx} (all : (done ++ entry :: rest).Perm batch)
    {receipts : List BlockExecution.Receipt}
    (executed : execute stored.lightnodeAccounts tally.validTxs = .ok (overlay, receipts))
    (mirrors : Mirrors stored batch done tally overlay) :
    ∃ next receipts',
      execute stored.lightnodeAccounts ((strict stored).validate tally entry).validTxs =
          .ok (next, receipts') ∧
        Mirrors stored batch (done ++ [entry]) ((strict stored).validate tally entry) next := by
  have member : entry ∈ batch := all.subset (by simp)
  obtain ⟨tx, signed⟩ := entry
  unfold Setting.validate
  simp only
  by_cases blocked : tx.senderId ∈ tally.blockedSenders
  · rw [if_pos blocked]
    exact ⟨overlay, receipts, executed, mirrors.rejected _ fun _ _ => Or.inl rfl⟩
  · rw [if_neg blocked]
    by_cases gap : tx.nonce ≠ (strict stored).expectedNonce tally tx signed
    · rw [if_pos gap]
      refine ⟨overlay, receipts, executed, mirrors.rejected _ ?_⟩
      intro other otherMember
      rw [expectedNonce_update rfl]
      split
      · next same => exact Or.inl (executable.alike member otherMember same).symm
      · exact Or.inl rfl
    · rw [if_neg gap, executable.funded _ member]
      rw [ne_eq, not_not] at gap
      rw [← gap]
      cases pays : solvent stored signed with
      | true =>
        rw [if_pos rfl, Tally.accept, executable.financial _ member]
        obtain ⟨after, receipts', applied, mirrored⟩ := mirrors.accepted executable rest tx signed
          { tally with
            runningNonces := Function.update tally.runningNonces tx.senderId (some (tx.nonce + 1))
            validTxs := tally.validTxs ++ [signed] }
          all pays gap rfl receipts tally.validTxs.length
        refine ⟨after, receipts', ?_, mirrored⟩
        exact (execute_concat _ _ _ executed).trans applied
      | false =>
        -- The nonce has moved on here, and the executor's has not.
        rw [if_neg Bool.false_ne_true]
        refine ⟨overlay, receipts, executed, mirrors.rejected _ ?_⟩
        intro other otherMember
        rw [expectedNonce_update rfl]
        split
        · next same => exact Or.inr (executable.following _ member pays other otherMember same)
        · exact Or.inl rfl

theorem foldl_validate_mirrors (done rest : List (MempoolTx × SignedTx))
    (all : (done ++ rest).Perm batch) (tally : Tally) (overlay : Accounts)
    (receipts : List BlockExecution.Receipt)
    (executed : execute stored.lightnodeAccounts tally.validTxs = .ok (overlay, receipts))
    (mirrors : Mirrors stored batch done tally overlay) :
    ∃ result, execute stored.lightnodeAccounts
      (rest.foldl (strict stored).validate tally).validTxs = .ok result := by
  induction rest generalizing done tally overlay receipts with
  | nil => exact ⟨_, executed⟩
  | cons entry rest ih =>
    obtain ⟨next, receipts', executed', mirrors'⟩ :=
      validate_mirrors executable all executed mirrors
    rw [List.foldl_cons]
    exact ih (done ++ [entry]) (by simpa using all) _ next receipts' executed' mirrors'

omit executable

theorem pass_executes {mempoolTxs : List MempoolTx} {signedTxs : List SignedTx}
    (executable : Executable stored (mempoolTxs.zip signedTxs)) :
    ∃ result, execute stored.lightnodeAccounts
      ((strict stored).pass mempoolTxs signedTxs).validTxs = .ok result := by
  refine foldl_validate_mirrors executable [] _ (List.perm_insertionSort _ _) {} ∅ [] rfl ?_
  constructor
  · intro entry member
    rw [← executable.readable entry member, ← startNonce_strict entry.1 entry.2]
    exact Or.inl rfl
  · intro address
    exact Nat.le_add_right _ _
  · intro address
    exact Nat.le_add_right _ _

theorem validate_aggregates (setting : Setting) (tally : Tally) {entry : MempoolTx × SignedTx}
    (financial : entry.1.txClass = .financial) :
    (setting.validate tally entry).federatedUpdates = tally.federatedUpdates ∧
      (setting.validate tally entry).iotData = tally.iotData := by
  unfold Setting.validate
  simp only [Tally.accept, financial, Tally.reject]
  split
  · exact ⟨rfl, rfl⟩
  · split
    · exact ⟨rfl, rfl⟩
    · split <;> exact ⟨rfl, rfl⟩

theorem pass_aggregates (setting : Setting) (mempoolTxs : List MempoolTx)
    (signedTxs : List SignedTx)
    (financial : ∀ entry ∈ mempoolTxs.zip signedTxs, entry.1.txClass = .financial) :
    (setting.pass mempoolTxs signedTxs).federatedUpdates = [] ∧
      (setting.pass mempoolTxs signedTxs).iotData = [] := by
  refine List.foldlRecOn _ _
    (motive := fun tally : Tally => tally.federatedUpdates = [] ∧ tally.iotData = [])
    ⟨rfl, rfl⟩ ?_
  intro tally none entry member
  rw [List.mem_insertionSort] at member
  have kept := validate_aggregates setting tally (financial entry member)
  rw [kept.1, kept.2]
  exact none

def twoTransfers (amount : UInt64) : List (MempoolTx × SignedTx) :=
  [0, 1].map fun nonce : UInt64 =>
    ({ senderId := 0, nonce, fee := 0, txHandle := nonce.toNat, txClass := .financial,
       streamNonce := none, inserted := 0, txHash := none, senderAddress := [1],
       rpcAccepted := false },
     { fromAddress := [1], toAddress := [2], amount, nonce, fee := 0, pubkey := [], sig := [],
       preVerified := true })

def hundred : StoredAccounts := (∅ : StoredAccounts).insert [1] (100 :: List.replicate 31 0)

def noAggregation : Aggregation :=
  { aggregateFederatedUpdates := fun _ => [], batchIotData := fun _ => [] }

/-- A transfer of an account that has nothing. -/
def beyondMeans : MempoolTx × SignedTx :=
  ({ senderId := 1, nonce := 0, fee := 0, txHandle := 7, txClass := .financial,
     streamNonce := none, inserted := 0, txHash := none, senderAddress := [3],
     rpcAccepted := false },
   { fromAddress := [3], toAddress := [1], amount := 9, nonce := 0, fee := 0, pubkey := [],
     sig := [], preVerified := false })

def halves : List (MempoolTx × SignedTx) := beyondMeans :: twoTransfers 50

end

end Savitri.FinalValidation
