import Savitri.BlockCommit
import Savitri.Footprint
import Savitri.SupplyConservation

/-!
Two commits in either order. What a block does to the accounts splits into a
write of its own accounts, credits of fees, and rewards; blocks whose own
accounts are apart commute as long as each takes the same branch of the height
comparison in both orders. Only the branch can change with the order,
through the stored head.
-/
namespace Savitri.CommitOrder
open Std MachineInt Transition BlockExecution BlockStm SupplyConservation BlockCommit Footprint
variable {right overlay accounts left : Accounts} {address : Address} {advances other : Bool}
  {second first : PendingCommit}

def txArea (txs : List SignedTx) : Set Address :=
  { address | ∃ tx ∈ txs, ∃ sender recipient, tx.addresses = .ok (sender, recipient) ∧
    (address = sender ∨ address = recipient) }

variable (pending : PendingCommit)

def nodeArea : Set Address :=
  { address | ∃ node ∈ pending.p2pNodes.getD [], address = node.1.toList }

def ownArea : Set Address := txArea pending.signedTxs ∪ nodeArea pending

def feeArea : Set Address :=
  { address | 0 < pending.fees ∧
    (address = treasuryAddress ∨ address = pending.block.proposer.toList) }

/-- The blocks touch different accounts; both may pay fees to the same ones. -/
structure Apart (first second : PendingCommit) : Prop where
  own : Disjoint (ownArea first) (ownArea second)
  firstFees : Disjoint (feeArea first) (ownArea second)
  secondFees : Disjoint (ownArea first) (feeArea second)

theorem Apart.symm (apart : Apart first second) :
    Apart second first where
  own := apart.own.symm
  firstFees := apart.secondFees.symm
  secondFees := apart.firstFees.symm

section
variable {txs : List SignedTx}
variable {order : List (SignedTx × Nat)}

theorem readAccount_agree (agree : Agree (txArea txs) left right) (member : address ∈ txArea txs) :
    readAccount left overlay address = readAccount right overlay address := by
  rw [readAccount, readAccount, agree address member]

theorem mem_txArea {tx : SignedTx} (member : tx ∈ txs) {sender recipient : Address}
    (decoded : tx.addresses = .ok (sender, recipient)) : sender ∈ txArea txs ∧ recipient ∈ txArea txs :=
  ⟨⟨tx, member, sender, recipient, decoded, Or.inl rfl⟩,
    ⟨tx, member, sender, recipient, decoded, Or.inr rfl⟩⟩

def Within (area : Set Address) (overlay : Accounts) : Prop :=
  ∀ address ∉ area, overlay[address]? = none

theorem Within.insert {area : Set Address} (within : Within area overlay) (address : Address)
    (account : Account) (member : address ∈ area) : Within area (overlay.insert address account) := by
  intro near outside
  have differs : address ≠ near := fun same => outside (same ▸ member)
  rw [ExtTreeMap.getElem?_insert, if_neg (by simpa using differs)]
  exact within near outside

theorem certifiedLoop_agree (agree : Agree (txArea txs) left right)
    (order : List (SignedTx × Nat)) (members : ∀ action ∈ order, action.1 ∈ txs)
    (overlay : Accounts) (receipts : List Receipt) :
    certifiedLoop left order overlay receipts = certifiedLoop right order overlay receipts := by
  induction order generalizing overlay receipts with
  | nil => rfl
  | cons action rest ih =>
    rcases action with ⟨tx, idx⟩
    rw [List.forall_mem_cons] at members
    cases decoded : tx.addresses with
    | error failure => simp only [certifiedLoop, decoded, bind, Except.bind]
    | ok pair =>
      rcases mem_txArea members.1 decoded with ⟨sender, recipient⟩
      have same : applyCertifiedTx left overlay tx idx pair.1 pair.2 =
          applyCertifiedTx right overlay tx idx pair.1 pair.2 := by
        simp only [applyCertifiedTx, readAccount_agree agree sender, readAccount_agree agree recipient]
      simp only [certifiedLoop, decoded, bind, Except.bind, same]
      exact ih members.2 _ _

theorem signedLoop_agree (agree : Agree (txArea txs) left right)
    (members : ∀ action ∈ order, action.1 ∈ txs) (overlay : Accounts) (receipts : List Receipt) :
    signedLoop left order overlay receipts = signedLoop right order overlay receipts := by
  induction order generalizing overlay receipts with
  | nil => rfl
  | cons action rest ih =>
    rcases action with ⟨tx, idx⟩
    rw [List.forall_mem_cons] at members
    have same : applySignedTxOverlay left overlay receipts tx idx =
        applySignedTxOverlay right overlay receipts tx idx := by
      unfold applySignedTxOverlay
      cases decoded : tx.addresses with
      | error failure => rfl
      | ok pair =>
        rcases mem_txArea members.1 decoded with ⟨sender, recipient⟩
        simp only [readAccount_agree agree sender, readAccount_agree agree recipient]
    simp only [signedLoop, same, ih members.2]

theorem run_within {storage : Accounts}
    {step : Accounts → SignedTx × Nat → Accounts × Option Receipt}
    (transfers : TransferStep storage step) (members : ∀ action ∈ order, action.1 ∈ txs) :
    Within (txArea txs) (run step ∅ order) := by
  apply run_invariant_along step (fun _ action => action.1 ∈ txs)
  · intro overlay action within member
    rcases transfers overlay action with silent | ⟨sender, recipient, receipt, next, applied,
      settles, _⟩
    · rw [silent]
      exact within
    · rcases mem_txArea member settles.decoded with
        ⟨inSender, inRecipient⟩
      rw [applied, settles.written]
      exact (within.insert _ _ inSender).insert _ _ inRecipient
  · intro address _
    exact ExtTreeMap.getElem?_empty
  · exact along_of_forall _ _ _ _ fun action member _ => members action member

end

section
variable {sha256 : List UInt8 → Vector UInt8 32}

theorem executePending_agree {pending : PendingCommit}
    (agree : Agree (txArea pending.signedTxs) left right) :
    executePending sha256 left pending = executePending sha256 right pending := by
  have members := fst_mem_of_mem_sortedOrder pending.signedTxs
  have certified := certifiedLoop_agree agree (sortedOrder pending.signedTxs) members ∅ []
  have signed := signedLoop_agree agree members ∅ []
  simp only [executePending, applyCertifiedBlockDirect, executeBlockWithoutCommit, certified, signed]

theorem executePending_ok {pending : PendingCommit} {block : Block}
    (executed : executePending sha256 accounts pending = .ok (block, overlay)) :
    block.height = pending.block.height ∧ Within (txArea pending.signedTxs) overlay := by
  have members := fst_mem_of_mem_sortedOrder pending.signedTxs
  by_cases certified : pending.isMnCertified = true
  · obtain ⟨rfl, _, applied⟩ := executePending_certified sha256 certified executed
    rw [(certifiedLoop_runs _ _ applied).1]
    exact ⟨rfl, run_within certifiedStep_transfers members⟩
  · unfold executePending at executed
    rw [if_neg certified] at executed
    unfold executeBlockWithoutCommit at executed
    cases first : validateBlockHeader pending.now pending.block with
    | error failure => simp [first, Except.mapError, bind, Except.bind] at executed
    | ok valid =>
      cases applied : signedLoop accounts (sortedOrder pending.signedTxs) ∅ [] with
      | error failure =>
        simp [first, applied, Except.mapError, bind, Except.bind] at executed
      | ok result =>
        simp only [first, applied, Except.mapError, bind, Except.bind, pure, Except.pure] at executed
        split at executed
        · cases executed
        · simp only [Except.ok.injEq, Prod.mk.injEq] at executed
          rcases executed with ⟨rfl, rfl⟩
          rw [(signedLoop_runs _ _ applied).1]
          exact ⟨rfl, run_within signedStep_transfers members⟩

end

section Stages
variable {area : Set Address} (pending : PendingCommit) {credits : List (Address × BitVec 128)}

theorem local_mergeNonce {entry : Address × Account} (member : entry.1 ∈ area) :
    Local area fun accounts => mergeNonce accounts entry := by
  have updates : (fun accounts => mergeNonce accounts entry) =
      update entry.1 fun existing : Option Account =>
        if (existing.map Account.nonce).getD 0 < entry.2.nonce then
          some { balance := (existing.map Account.balance).getD entry.2.balance,
                 nonce := entry.2.nonce }
        else none := by
    funext accounts
    unfold mergeNonce update
    simp only
    split <;> rfl
  rw [updates]
  exact local_update member

theorem local_mergeNonces {entries : List (Address × Account)}
    (members : ∀ entry ∈ entries, entry.1 ∈ area) :
    Local area fun accounts => entries.foldl mergeNonce accounts := by
  induction entries with
  | nil => exact local_id
  | cons entry rest ih =>
    rw [List.forall_mem_cons] at members
    exact (ih members.2).comp (local_mergeNonce members.1)

theorem local_writeOverlay (advances : Bool) (overlay : Accounts) (within : Within area overlay) :
    Local area fun accounts => writeOverlay advances accounts overlay := by
  cases advances with
  | true =>
    constructor
    · intro accounts address outside
      simp only [writeOverlay, if_true]
      rw [ExtTreeMap.getElem?_union, within address outside]
      rfl
    · intro left right agree address member
      simp only [writeOverlay, if_true]
      rw [ExtTreeMap.getElem?_union, ExtTreeMap.getElem?_union, agree address member]
  | false =>
    apply local_mergeNonces
    intro entry member
    by_contra outside
    have stored := ExtTreeMap.mem_toList_iff_getElem?_eq_some.mp member
    rw [within entry.1 outside] at stored
    cases stored

variable {amount : BitVec 128}

theorem creditAccount_eq_update :
    (fun accounts => creditAccount accounts address amount) =
      update address fun existing : Option Account =>
        some { existing.getD {} with balance := addSaturating (existing.getD {}).balance amount } :=
  rfl

theorem local_creditAccount (amount : BitVec 128) (member : address ∈ area) :
    Local area fun accounts => creditAccount accounts address amount := by
  rw [creditAccount_eq_update]
  exact local_update member

theorem pointwise_creditAccount : Pointwise fun accounts => creditAccount accounts address amount := by
  rw [creditAccount_eq_update]
  exact pointwise_update

theorem creditAccount_comm {first second : Address} {other : BitVec 128} :
    Function.Commute (fun accounts => creditAccount accounts first amount)
      (fun accounts => creditAccount accounts second other) := by
  by_cases same : first = second
  · subst same
    intro accounts
    apply ExtTreeMap.ext_getElem?
    intro address
    rw [creditAccount_eq_update, creditAccount_eq_update]
    simp only [getElem?_update]
    by_cases here : first = address
    · simp [here, addSaturating_right_comm]
    · simp [here]
  · have one := local_creditAccount amount (Set.mem_singleton first)
    have two := local_creditAccount other (Set.mem_singleton second)
    exact one.commute two (Set.disjoint_singleton.mpr same)

def feeCredits (pending : PendingCommit) : List (Address × BitVec 128) :=
  if 0 < pending.fees then
    [(treasuryAddress, treasuryAmount pending.fees),
      (pending.block.proposer.toList, proposerAmount pending.fees)].filter
        fun credit => decide (0 < credit.2)
  else []

def creditAll (credits : List (Address × BitVec 128)) (accounts : Accounts) : Accounts :=
  credits.foldl (fun accounts credit => creditAccount accounts credit.1 credit.2) accounts

theorem payFees_eq_creditAll :
    (fun accounts => payFees accounts pending) = creditAll (feeCredits pending) := by
  funext accounts
  unfold payFees feeCredits distributeBlockFees creditAll
  by_cases some : 0 < pending.fees
  · simp only [some, if_true, List.filter_cons, List.filter_nil, decide_eq_true_eq]
    by_cases treasury : 0 < treasuryAmount pending.fees <;>
      by_cases proposer : 0 < proposerAmount pending.fees <;>
        simp only [treasury, proposer, if_true, if_false, List.foldl_cons, List.foldl_nil]
  · simp only [some, if_false, List.foldl_nil]

theorem local_creditAll (members : ∀ credit ∈ credits, credit.1 ∈ area) :
    Local area (creditAll credits) := by
  induction credits with
  | nil => exact local_id
  | cons credit rest ih =>
    rw [List.forall_mem_cons] at members
    exact (ih members.2).comp (local_creditAccount credit.2 members.1)

theorem pointwise_creditAll : Pointwise (creditAll credits) := by
  induction credits with
  | nil => exact fun _ _ _ same => same
  | cons credit rest ih =>
    intro left right address same
    exact ih _ _ address (pointwise_creditAccount left right address same)

theorem creditAll_comm {first second : List (Address × BitVec 128)} :
    Function.Commute (creditAll first) (creditAll second) := by
  have single : ∀ (credit : Address × BitVec 128) (credits : List (Address × BitVec 128)),
      Function.Commute (fun accounts => creditAccount accounts credit.1 credit.2)
        (creditAll credits) := by
    intro credit credits
    induction credits with
    | nil => exact fun _ => rfl
    | cons other rest ih =>
      exact ih.comp_right creditAccount_comm
  induction first with
  | nil => exact fun _ => rfl
  | cons credit rest ih => exact ih.comp_left (single credit second)

theorem local_payFees : Local (feeArea pending) fun accounts => payFees accounts pending := by
  rw [payFees_eq_creditAll]
  apply local_creditAll
  intro credit member
  unfold feeCredits at member
  by_cases some : 0 < pending.fees
  · rw [if_pos some] at member
    have listed := (List.mem_filter.mp member).1
    rw [List.mem_cons, List.mem_singleton] at listed
    rcases listed with treasury | proposer
    · exact ⟨some, Or.inl (congrArg Prod.fst treasury)⟩
    · exact ⟨some, Or.inr (congrArg Prod.fst proposer)⟩
  · rw [if_neg some] at member
    cases member

theorem local_distribute {nodes : List (Vector UInt8 32 × UInt64)}
    (members : ∀ node ∈ nodes, node.1.toList ∈ area) :
    Local area fun accounts => (distributeFeesToP2pNodes accounts nodes).1 := by
  induction nodes with
  | nil => exact local_id
  | cons node rest ih =>
    rcases node with ⟨address, pouScore⟩
    rw [List.forall_mem_cons] at members
    have later := ih members.2
    constructor
    · intro accounts near outside
      simp only [distributeFeesToP2pNodes]
      split
      · rfl
      · rw [later.keeps _ near outside, ExtTreeMap.getElem?_insert, if_neg]
        intro same
        exact outside (LawfulEqCmp.compare_eq_iff_eq.mp same ▸ members.1)
    · intro left right agree
      have read : accountOf left address.toList = accountOf right address.toList := by
        rw [accountOf, accountOf, agree address.toList members.1]
      simp only [distributeFeesToP2pNodes, read]
      split
      · exact agree
      · apply later.reads
        intro near member
        rw [ExtTreeMap.getElem?_insert, ExtTreeMap.getElem?_insert, agree near member]

theorem local_payNodes : Local (nodeArea pending) fun accounts => (payNodes accounts pending).1 := by
  unfold payNodes
  cases given : pending.p2pNodes with
  | none => exact local_id
  | some nodes =>
    apply local_distribute
    intro node member
    exact ⟨node, by rw [given]; exact member, rfl⟩

end Stages

section Settle
variable (sha256 : List UInt8 → Vector UInt8 32)
variable (pending : PendingCommit)

def settle (advances : Bool) (accounts : Accounts) : Accounts :=
  match executePending sha256 accounts pending with
  | .error _ => accounts
  | .ok (_, overlay) =>
    (payNodes (payFees (writeOverlay advances accounts overlay) pending) pending).1

theorem settle_keeps {pending : PendingCommit} (notOwn : address ∉ ownArea pending)
    (notFees : address ∉ feeArea pending) :
    (settle sha256 pending advances accounts)[address]? = accounts[address]? := by
  rw [ownArea, Set.mem_union, not_or] at notOwn
  unfold settle
  cases executed : executePending sha256 accounts pending with
  | error failure => rfl
  | ok result =>
    have within := (executePending_ok executed).2
    simp only
    rw [(local_payNodes pending).keeps _ address notOwn.2,
      (local_payFees pending).keeps _ address notFees,
      (local_writeOverlay advances result.2 within).keeps _ address notOwn.1]

theorem settle_elsewhere {pending : PendingCommit} (advances other : Bool) (left right : Accounts)
    (agree : Agree (txArea pending.signedTxs) left right) (notOwn : address ∉ ownArea pending)
    (same : left[address]? = right[address]?) :
    (settle sha256 pending advances left)[address]? =
      (settle sha256 pending other right)[address]? := by
  rw [ownArea, Set.mem_union, not_or] at notOwn
  unfold settle
  rw [executePending_agree agree]
  cases executed : executePending sha256 right pending with
  | error failure => exact same
  | ok result =>
    have within := (executePending_ok executed).2
    have fees := congrFun (payFees_eq_creditAll pending)
    simp only at fees ⊢
    rw [(local_payNodes pending).keeps _ address notOwn.2,
      (local_payNodes pending).keeps _ address notOwn.2, fees, fees]
    apply pointwise_creditAll
    rw [(local_writeOverlay advances result.2 within).keeps _ address notOwn.1,
      (local_writeOverlay other result.2 within).keeps _ address notOwn.1]
    exact same

def stages (advances : Bool) (overlay : Accounts) : Accounts → Accounts :=
  (fun accounts => (payNodes accounts pending).1) ∘ (fun accounts => payFees accounts pending) ∘
    fun accounts => writeOverlay advances accounts overlay

omit sha256 in
theorem stages_comm (apart : Apart first second) {firstOverlay secondOverlay : Accounts}
    (firstWithin : Within (txArea first.signedTxs) firstOverlay)
    (secondWithin : Within (txArea second.signedTxs) secondOverlay) :
    Function.Commute (stages first advances firstOverlay) (stages second other secondOverlay) := by
  have firstWrites := (local_writeOverlay advances firstOverlay firstWithin).mono
    (Set.subset_union_left : _ ⊆ ownArea first)
  have secondWrites := (local_writeOverlay other secondOverlay secondWithin).mono
    (Set.subset_union_left : _ ⊆ ownArea second)
  have firstNodes := (local_payNodes first).mono (Set.subset_union_right : _ ⊆ ownArea first)
  have secondNodes := (local_payNodes second).mono (Set.subset_union_right : _ ⊆ ownArea second)
  have firstFees := local_payFees first
  have secondFees := local_payFees second
  have shared : Function.Commute (fun accounts => payFees accounts first)
      (fun accounts => payFees accounts second) := by
    rw [payFees_eq_creditAll, payFees_eq_creditAll]
    exact creditAll_comm
  -- Three stages against three; only the fee credits may share an account.
  apply Function.Commute.comp_left
  · apply Function.Commute.comp_right
    · exact firstNodes.commute secondNodes apart.own
    · exact (firstNodes.commute secondFees apart.secondFees).comp_right
        (firstNodes.commute secondWrites apart.own)
  · apply Function.Commute.comp_left
    · apply Function.Commute.comp_right
      · exact firstFees.commute secondNodes apart.firstFees
      · exact shared.comp_right (firstFees.commute secondWrites apart.firstFees)
    · apply Function.Commute.comp_right
      · exact firstWrites.commute secondNodes apart.own
      · exact (firstWrites.commute secondFees apart.secondFees).comp_right
          (firstWrites.commute secondWrites apart.own)

theorem settle_agree (apart : Apart first second) :
    Agree (ownArea second) (settle sha256 first advances accounts) accounts := by
  intro address member
  apply settle_keeps
  · exact Set.disjoint_right.mp apart.own member
  · exact Set.disjoint_right.mp apart.firstFees member

theorem executePending_settle (apart : Apart first second) (advances : Bool) (accounts : Accounts) :
    executePending sha256 (settle sha256 first advances accounts) second =
      executePending sha256 accounts second := by
  apply executePending_agree
  intro address member
  exact settle_agree sha256 apart address (Or.inl member)

variable {sha256}

theorem settle_of_error {pending : PendingCommit} {failure : CommitError}
    (failed : executePending sha256 accounts pending = .error failure) :
    settle sha256 pending advances accounts = accounts := by
  simp only [settle, failed]

theorem settle_of_ok {pending : PendingCommit} {result : Block × Accounts}
    (executed : executePending sha256 accounts pending = .ok result) :
    settle sha256 pending advances accounts = stages pending advances result.2 accounts := by
  simp only [settle, executed]
  rfl

theorem settle_comm (apart : Apart first second) :
    settle sha256 second other (settle sha256 first advances accounts) =
      settle sha256 first advances (settle sha256 second other accounts) := by
  have firstSame := executePending_settle sha256 apart.symm other accounts
  have secondSame := executePending_settle sha256 apart advances accounts
  cases firstRun : executePending sha256 accounts first with
  | error failure =>
    rw [settle_of_error firstRun, settle_of_error (firstSame.trans firstRun)]
  | ok firstResult =>
    cases secondRun : executePending sha256 accounts second with
    | error failure =>
      rw [settle_of_error secondRun, settle_of_error (secondSame.trans secondRun)]
    | ok secondResult =>
      rw [settle_of_ok (firstSame.trans firstRun),
        settle_of_ok (secondSame.trans secondRun), settle_of_ok firstRun, settle_of_ok secondRun]
      exact (stages_comm apart (executePending_ok firstRun).2
        (executePending_ok secondRun).2 accounts).symm

end Settle

section Orders
variable (sha256 : List UInt8 → Vector UInt8 32) {Heads : Type} (store : HeadStore Heads)

def SameAccounts (left right : Accounts) : Prop :=
  ∀ address, accountOf left address = accountOf right address

def Advances (heads : Heads) (pending : PendingCommit) : Bool :=
  shouldUpdate store heads pending.lane pending.block.height

/-- The full write and the nonce merge of the block end in the same accounts. -/
def Neutral (accounts : Accounts) (pending : PendingCommit) : Prop :=
  SameAccounts (settle sha256 pending true accounts) (settle sha256 pending false accounts)

def commit (storage : NodeStorage Heads) (pending : PendingCommit) : NodeStorage Heads :=
  (commitPendingBlock sha256 store storage pending).1

theorem commit_accounts {storage : NodeStorage Heads} {pending : PendingCommit} :
    (commit sha256 store storage pending).accounts =
      settle sha256 pending (Advances store storage.heads pending) storage.accounts := by
  unfold commit commitPendingBlock settle Advances
  cases executed : executePending sha256 storage.accounts pending with
  | error failure => rfl
  | ok result =>
    have height := (executePending_ok executed).1
    simp only [height]

theorem settle_own_iff {pending : PendingCommit} :
    (∀ address ∈ ownArea pending, accountOf (settle sha256 pending advances accounts) address =
        accountOf (settle sha256 pending other accounts) address) ↔
      advances = other ∨ Neutral sha256 accounts pending := by
  have outside : ∀ (one two : Bool), ∀ address ∉ ownArea pending,
      accountOf (settle sha256 pending one accounts) address =
        accountOf (settle sha256 pending two accounts) address := by
    intro one two address notOwn
    rw [accountOf, accountOf, settle_elsewhere sha256 one two accounts accounts
      (fun _ _ => rfl) notOwn rfl]
  constructor
  · intro same
    by_cases equal : advances = other
    · exact Or.inl equal
    · apply Or.inr
      intro address
      by_cases own : address ∈ ownArea pending
      · cases advances <;> cases other
        · exact absurd rfl equal
        · exact (same address own).symm
        · exact same address own
        · exact absurd rfl equal
      · exact outside true false address own
  · intro either address _
    rcases either with rfl | neutral
    · rfl
    · cases advances <;> cases other
      · rfl
      · exact (neutral address).symm
      · exact neutral address
      · rfl

section
variable (first second : PendingCommit) (apart : Apart first second)
  (early late behind ahead : Bool) (accounts : Accounts) (address : Address)
include apart

theorem settle_orders_first (own : address ∈ ownArea first) :
    accountOf (settle sha256 second behind (settle sha256 first early accounts)) address =
        accountOf (settle sha256 first late (settle sha256 second ahead accounts)) address ↔
      accountOf (settle sha256 first early accounts) address =
        accountOf (settle sha256 first late accounts) address := by
  have unchanged : ∀ branch other : Bool,
      (settle sha256 second other (settle sha256 first branch accounts))[address]? =
        (settle sha256 first branch accounts)[address]? :=
    fun branch other => settle_agree sha256 apart.symm address own
  rw [← settle_comm apart]
  simp only [accountOf, unchanged]

theorem settle_orders_second (own : address ∈ ownArea second) :
    accountOf (settle sha256 second behind (settle sha256 first early accounts)) address =
        accountOf (settle sha256 first late (settle sha256 second ahead accounts)) address ↔
      accountOf (settle sha256 second behind accounts) address =
        accountOf (settle sha256 second ahead accounts) address := by
  rw [eq_comm, settle_orders_first sha256 second first apart.symm ahead behind late early accounts
    address own, eq_comm]

theorem settle_orders_elsewhere (notFirst : address ∉ ownArea first)
    (notSecond : address ∉ ownArea second) :
    accountOf (settle sha256 second behind (settle sha256 first early accounts)) address =
      accountOf (settle sha256 first late (settle sha256 second ahead accounts)) address := by
  have middle := settle_elsewhere sha256 early late accounts accounts (fun _ _ => rfl) notFirst rfl
  have unread : Agree (txArea second.signedTxs) (settle sha256 first early accounts)
      (settle sha256 first late accounts) := by
    intro near member
    rw [settle_agree sha256 apart near (Or.inl member), settle_agree sha256 apart near (Or.inl member)]
  rw [← settle_comm apart, accountOf, accountOf,
    settle_elsewhere sha256 behind ahead _ _ unread notSecond middle]

end

/-- Two blocks with accounts apart end the same in both orders exactly when, for
each of them, committing the other first does not change the branch it takes,
or the branch makes no difference to it. -/
theorem commit_order_iff (storage : NodeStorage Heads) (first second : PendingCommit)
    (apart : Apart first second) :
    SameAccounts (commit sha256 store (commit sha256 store storage first) second).accounts
        (commit sha256 store (commit sha256 store storage second) first).accounts ↔
      (Advances store storage.heads first =
          Advances store (commit sha256 store storage second).heads first ∨
        Neutral sha256 storage.accounts first) ∧
      (Advances store (commit sha256 store storage first).heads second =
          Advances store storage.heads second ∨
        Neutral sha256 storage.accounts second) := by
  rw [← settle_own_iff, ← settle_own_iff]
  simp only [commit_accounts, SameAccounts]
  generalize Advances store storage.heads first = early
  generalize Advances store (commit sha256 store storage second).heads first = late
  generalize Advances store (commit sha256 store storage first).heads second = behind
  generalize Advances store storage.heads second = ahead
  have onFirst := settle_orders_first sha256 first second apart early late behind ahead
    storage.accounts
  have onSecond := settle_orders_second sha256 first second apart early late behind ahead
    storage.accounts
  constructor
  · intro same
    exact ⟨fun address own => (onFirst address own).mp (same address),
      fun address own => (onSecond address own).mp (same address)⟩
  · rintro ⟨firstSame, secondSame⟩ address
    by_cases ownFirst : address ∈ ownArea first
    · exact (onFirst address ownFirst).mpr (firstSame address ownFirst)
    · by_cases ownSecond : address ∈ ownArea second
      · exact (onSecond address ownSecond).mpr (secondSame address ownSecond)
      · exact settle_orders_elsewhere sha256 first second apart early late behind ahead
          storage.accounts address ownFirst ownSecond

def transferCommit (height : UInt64) (sender recipient : String) : PendingCommit :=
  { block := sampleBlock height, now := 1700000000,
    signedTxs := [{ sender, recipient, amount := 10, nonce := 0, fee := none }] }

theorem ownArea_transferCommit (height : UInt64) (sender recipient : String)
    (senderAddress recipientAddress : Address)
    (decoded : HexCodec.decode sender = .ok senderAddress ∧
      HexCodec.decode recipient = .ok recipientAddress) :
    ownArea (transferCommit height sender recipient) = {senderAddress, recipientAddress} := by
  have addresses : (transferCommit height sender recipient).signedTxs.map
      SignedTx.addresses = [.ok (senderAddress, recipientAddress)] := by
    simp only [transferCommit, List.map_cons, List.map_nil, List.cons.injEq, and_true]
    exact (addresses_eq_ok _).mpr decoded
  ext address
  simp only [transferCommit, List.map_cons, List.map_nil, List.cons.injEq, and_true] at addresses
  simp [ownArea, txArea, nodeArea, transferCommit, addresses, eq_comm]

theorem feeArea_transferCommit {height : UInt64} {sender recipient : String} :
    feeArea (transferCommit height sender recipient) = ∅ := by
  have free : ¬ 0 < (transferCommit height sender recipient).fees := by
    simp [PendingCommit.fees, transferCommit, totalFees, SignedTx.feeOrZero, addSaturating]
  simp only [feeArea, free, false_and, Set.ofPred_false]

def lowBlock : PendingCommit := transferCommit 1 "aa" "bb"
def highBlock : PendingCommit := transferCommit 2 "cc" "dd"

theorem lowBlock_apart_highBlock : Apart lowBlock highBlock := by
  have low := ownArea_transferCommit 1 "aa" "bb" [0xaa] [0xbb] (by decide +kernel)
  have high := ownArea_transferCommit 2 "cc" "dd" [0xcc] [0xdd] (by decide +kernel)
  constructor
  · rw [lowBlock, highBlock, low, high]
    simp
  · rw [lowBlock, feeArea_transferCommit]
    exact Set.empty_disjoint _
  · rw [highBlock, feeArea_transferCommit]
    exact Set.disjoint_empty _

def twoSenders (head : Option UInt64) : NodeStorage (Option UInt64) :=
  { accounts := ((∅ : Accounts).insert [0xaa] { balance := 100, nonce := 0 }).insert [0xcc]
      { balance := 100, nonce := 0 },
    heads := head }

/-- Below the head both blocks take the nonce branch in both orders. -/
theorem late_blocks_commute :
    SameAccounts
      (commit sampleSha256 memoryHeads
        (commit sampleSha256 memoryHeads (twoSenders (some 5)) lowBlock) highBlock).accounts
      (commit sampleSha256 memoryHeads
        (commit sampleSha256 memoryHeads (twoSenders (some 5)) highBlock) lowBlock).accounts :=
  (commit_order_iff sampleSha256 memoryHeads (twoSenders (some 5)) lowBlock highBlock
    lowBlock_apart_highBlock).mpr ⟨Or.inl (by decide +kernel), Or.inl (by decide +kernel)⟩

/-- With the higher block first, the lower one only raises its sender's nonce: the
sender keeps the ten units and the recipient never gets them. -/
theorem higher_block_first_drops_transfer :
    Apart lowBlock highBlock ∧
    (let inOrder := (commit sampleSha256 memoryHeads
        (commit sampleSha256 memoryHeads (twoSenders none) lowBlock) highBlock).accounts
     let outOfOrder := (commit sampleSha256 memoryHeads
        (commit sampleSha256 memoryHeads (twoSenders none) highBlock) lowBlock).accounts
     accountOf inOrder [0xaa] = { balance := 90, nonce := 1 } ∧
     accountOf outOfOrder [0xaa] = { balance := 100, nonce := 1 } ∧
     accountOf inOrder [0xbb] = { balance := 10, nonce := 0 } ∧
     accountOf outOfOrder [0xbb] = { balance := 0, nonce := 0 } ∧
     ¬ SameAccounts inOrder outOfOrder) := by
  have kept : accountOf (commit sampleSha256 memoryHeads
      (commit sampleSha256 memoryHeads (twoSenders none) lowBlock) highBlock).accounts [0xaa] =
      { balance := 90, nonce := 1 } := by decide +kernel
  have dropped : accountOf (commit sampleSha256 memoryHeads
      (commit sampleSha256 memoryHeads (twoSenders none) highBlock) lowBlock).accounts [0xaa] =
      { balance := 100, nonce := 1 } := by decide +kernel
  refine ⟨lowBlock_apart_highBlock, kept, dropped, by decide +kernel, by decide +kernel, ?_⟩
  intro same
  have equal := same [0xaa]
  rw [kept, dropped] at equal
  revert equal
  decide

end Orders

end Savitri.CommitOrder
