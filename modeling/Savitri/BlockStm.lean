import Savitri.BlockExecution

/-!
The Block-STM executor of p2p/block_stm.rs: a baseline pass in index order over
a multi-version store, a validation pass over the recorded reads, and a
re-execution pass over what it finds. Hash maps and sets are ordered tables and
lists: a view's writes have distinct keys, and the set of stale transactions is
empty in the end, so no result depends on their order.
-/
namespace Savitri.BlockStm
open Std BlockExecution Transition

inductive TxError where
  | invalidSender
  | invalidRecipient
  | nonceMismatch (expected got : UInt64)
  | insufficientBalance
  deriving DecidableEq

structure TxView where
  reads : ExtTreeMap Address (Option Account) := ∅
  writes : Accounts := ∅
  success : Bool := false
  error : Option TxError := none

abbrev Versions := ExtTreeMap Nat Account

structure MultiVersionStore where
  data : ExtTreeMap Address Versions := ∅

namespace MultiVersionStore
variable (store : MultiVersionStore) (key : Address)

def versions : Versions := (store.data[key]?).getD ∅

variable (txIdx : Nat)

def write (value : Account) : MultiVersionStore :=
  { data := store.data.insert key ((store.versions key).insert txIdx value) }

/-- The version with the largest index below `txIdx`, with that index. -/
def readLatestBefore : Option (Account × Nat) :=
  (((store.versions key).filter fun writer _ => decide (writer < txIdx)).toList.getLast?).map
    Prod.swap

def clearTx : MultiVersionStore := { data := store.data.map fun _ versions => versions.erase txIdx }

def recordWrites (writes : Accounts) : MultiVersionStore :=
  writes.toList.foldl (fun store entry => store.write entry.1 txIdx entry.2) store

end MultiVersionStore

variable (storage : Accounts) (store : MultiVersionStore)

def readVersioned (key : Address) (txIdx : Nat) : Account :=
  match store.readLatestBefore key txIdx with
  | some (account, _) => account
  | none => (storage[key]?).getD {}

def executeTxSpeculative (tx : SignedTx) (txIdx : Nat) : TxView :=
  match HexCodec.decode tx.sender with
  | .error _ => { error := some .invalidSender }
  | .ok sender =>
  match HexCodec.decode tx.recipient with
  | .error _ => { error := some .invalidRecipient }
  | .ok recipient =>
  -- Both accounts are read before either is written, also where they are one.
  let senderAccount := readVersioned storage store sender txIdx
  let recipientAccount := readVersioned storage store recipient txIdx
  let reads := ((∅ : ExtTreeMap Address (Option Account)).insert sender
    (some senderAccount)).insert recipient (some recipientAccount)
  if tx.nonce ≠ senderAccount.nonce then
    { reads, error := some (.nonceMismatch senderAccount.nonce tx.nonce) }
  else if senderAccount.balance < tx.totalDebit then
    { reads, error := some .insufficientBalance }
  else
    { reads, success := true,
      writes := transfer ∅ sender recipient senderAccount recipientAccount tx }

def baseline (storage : Accounts) :
    List (SignedTx × Nat) → MultiVersionStore → MultiVersionStore × List TxView
  | [], store => (store, [])
  | (tx, txIdx) :: rest, store =>
    let view := executeTxSpeculative storage store tx txIdx
    let later := baseline storage rest (store.recordWrites txIdx view.writes)
    (later.1, view :: later.2)

def stale (view : TxView) (txIdx : Nat) : Bool :=
  view.success && view.reads.toList.any fun entry =>
    match store.readLatestBefore entry.1 txIdx with
    -- Without an earlier write the base storage was read, which does not move.
    | none => false
    | some (latest, _) =>
      let read := entry.2.getD {}
      latest.nonce != read.nonce || latest.balance != read.balance

def invalidSet (views : List TxView) : List Nat :=
  (views.zipIdx.filter fun entry => stale store entry.1 entry.2).map Prod.snd

def reexecute (storage : Accounts) (txs : List SignedTx) :
    List Nat → MultiVersionStore × List TxView → MultiVersionStore × List TxView
  | [], state => state
  | txIdx :: rest, (store, views) =>
    match txs[txIdx]? with
    | none => reexecute storage txs rest (store, views)
    | some tx =>
      let cleared := store.clearTx txIdx
      let view := executeTxSpeculative storage cleared tx txIdx
      reexecute storage txs rest (cleared.recordWrites txIdx view.writes, views.set txIdx view)

def stmReceipt (tx : SignedTx) (txIdx : Nat) : Receipt :=
  { txIdx, sender := tx.sender, recipient := tx.recipient, amount := tx.amount,
    fee := tx.feeOrZero, nonce := tx.nonce }

def mergeViews : List (SignedTx × Nat) → List TxView → Accounts → Accounts × List Receipt
  | (tx, txIdx) :: rest, view :: views, overlay =>
    if view.success then
      let later := mergeViews rest views (overlay ∪ view.writes)
      (later.1, stmReceipt tx txIdx :: later.2)
    else mergeViews rest views overlay
  | _, _, overlay => (overlay, [])

structure BlockStmResult where
  overlay : Accounts
  txViews : List TxView
  rounds : Nat
  reexecutions : Nat
  receipts : List Receipt

variable (txs : List SignedTx)

/-- The source never returns an error here, whatever the transactions are. -/
def executeBlockStm : Except ExecutionError BlockStmResult :=
  if txs.isEmpty then
    .ok { overlay := ∅, txViews := [], rounds := 0, reexecutions := 0, receipts := [] }
  else
    let first := baseline storage txs.zipIdx {}
    let invalid := invalidSet first.1 first.2
    let final := reexecute storage txs invalid first
    let merged := mergeViews txs.zipIdx final.2 ∅
    .ok { overlay := merged.1, txViews := final.2,
          rounds := if invalid.isEmpty then 1 else 2,
          reexecutions := invalid.length, receipts := merged.2 }

/-- Block-STM for more than one transaction, with the sequential executor as
the fallback for its failure and for a single transaction. -/
def executeBlockTransactions : Except ExecutionError (Accounts × List Receipt) :=
  if 1 < txs.length then
    match executeBlockStm storage txs with
    | .ok result => .ok (result.overlay, result.receipts)
    | .error _ => applyCertifiedBlockDirect storage txs
  else applyCertifiedBlockDirect storage txs

namespace MultiVersionStore
variable (store : MultiVersionStore)
variable {key : Address} {txIdx : Nat}

theorem versions_write {other : Address} {value : Account} :
    (store.write key txIdx value).versions other =
      if key = other then (store.versions key).insert txIdx value
      else store.versions other := by
  simp only [write, versions, ExtTreeMap.getElem?_insert, LawfulEqCmp.compare_eq_iff_eq]
  split <;> rfl

theorem versions_writeAll {rows : List (Address × Account)}
    (distinct : rows.Pairwise fun first second => first.1 ≠ second.1) (store : MultiVersionStore) :
    (∀ value, (key, value) ∈ rows →
      (rows.foldl (fun store entry => store.write entry.1 txIdx entry.2) store).versions key =
        (store.versions key).insert txIdx value) ∧
    ((∀ value, (key, value) ∉ rows) →
      (rows.foldl (fun store entry => store.write entry.1 txIdx entry.2) store).versions key =
        store.versions key) := by
  induction rows generalizing store with
  | nil => simp
  | cons row rest ih =>
    obtain ⟨rowKey, rowValue⟩ := row
    rw [List.pairwise_cons] at distinct
    have later := ih distinct.2 (store.write rowKey txIdx rowValue)
    simp only [List.foldl_cons]
    by_cases here : rowKey = key
    · subst key
      have absent : ∀ value, (rowKey, value) ∉ rest := fun value member =>
        distinct.1 _ member rfl
      rw [later.2 absent, versions_write, if_pos rfl]
      constructor
      · intro value member
        rcases List.mem_cons.mp member with same | member
        · cases same
          rfl
        · exact absurd member (absent value)
      · intro outside
        exact absurd List.mem_cons_self (outside rowValue)
    · rw [versions_write, if_neg here] at later
      constructor
      · intro value member
        rcases List.mem_cons.mp member with same | member
        · cases same
          exact absurd rfl here
        · exact later.1 value member
      · intro outside
        exact later.2 fun value member => outside value (List.mem_cons_of_mem _ member)

theorem versions_recordWrites {writes : Accounts} :
    (store.recordWrites txIdx writes).versions key =
      match writes[key]? with
      | some value => (store.versions key).insert txIdx value
      | none => store.versions key := by
  have distinct : writes.toList.Pairwise fun first second => first.1 ≠ second.1 := by
    apply writes.distinct_keys_toList.imp
    intro first second differ same
    exact differ (LawfulEqCmp.compare_eq_iff_eq.mpr same)
  obtain ⟨present, absent⟩ := versions_writeAll distinct store
  simp only [ExtTreeMap.mem_toList_iff_getElem?_eq_some] at present absent
  cases found : writes[key]? with
  | some value => exact present value found
  | none => exact absent (by simp [found])

theorem readLatestBefore_recordWrites (txIdx earlier : Nat) (writes : Accounts) (key : Address)
    (before : earlier ≤ txIdx) :
    (store.recordWrites txIdx writes).readLatestBefore key earlier =
      store.readLatestBefore key earlier := by
  unfold readLatestBefore
  rw [versions_recordWrites]
  cases writes[key]? with
  | none => rfl
  | some value =>
    have same : ((store.versions key).insert txIdx value).filter
        (fun writer _ => decide (writer < earlier)) =
        (store.versions key).filter (fun writer _ => decide (writer < earlier)) := by
      apply ExtTreeMap.ext_getElem?
      intro writer
      simp only [ExtTreeMap.getElem?_filter', ExtTreeMap.getElem?_insert, LawfulEqCmp.compare_eq_iff_eq]
      split
      · rename_i here
        subst writer
        simp [Nat.not_lt.mpr before]
      · rfl
    rw [same]

end MultiVersionStore

section Simulation
/-- What Block-STM is to compute: the transactions one after the other in index
order, each on the accounts the earlier ones left. -/
def sequentialStep (storage overlay : Accounts) (action : SignedTx × Nat) : Accounts × Option Receipt :=
  match action.1.addresses with
  | .error _ => (overlay, none)
  | .ok (sender, recipient) =>
    let senderAccount := readAccount storage overlay sender
    let recipientAccount := readAccount storage overlay recipient
    if action.1.nonce ≠ senderAccount.nonce then (overlay, none)
    else if senderAccount.balance < action.1.totalDebit then (overlay, none)
    else
      (transfer overlay sender recipient senderAccount recipientAccount action.1,
        some (stmReceipt action.1 action.2))

/-- The store holds the versions of the first `count` transactions, and the last
version of each key is the overlay's account. -/
structure Mirrors (store : MultiVersionStore) (overlay : Accounts) (count : Nat) : Prop where
  bounded : ∀ key writer, writer ∈ store.versions key → writer < count
  latest : ∀ key, ((store.versions key).toList.getLast?).map Prod.snd = overlay[key]?

theorem empty_mirrors : Mirrors {} ∅ 0 := by
  constructor <;> simp [MultiVersionStore.versions]

theorem getLast?_of_largest (table : Versions) (writer : Nat) (account : Account)
    (stored : table[writer]? = some account) (largest : ∀ other ∈ table, other ≤ writer) :
    table.toList.getLast? = some (writer, account) := by
  have member := ExtTreeMap.mem_toList_iff_getElem?_eq_some.mpr stored
  obtain ⟨front, back, split⟩ := List.append_of_mem member
  cases back with
  | nil => simp [split]
  | cons beyond rest =>
    -- A row behind this one would have a larger key.
    have ordered : table.toList.Pairwise fun first second =>
        compare first.1 second.1 = .lt := table.ordered_keys_toList
    rw [split, List.pairwise_append, List.pairwise_cons] at ordered
    have larger := ordered.2.1.1 beyond List.mem_cons_self
    rw [compare_lt_iff_lt] at larger
    have inside : beyond.1 ∈ table := by
      rw [ExtTreeMap.mem_iff_isSome_getElem?,
        ExtTreeMap.mem_toList_iff_getElem?_eq_some.mp (split ▸ (by simp) :
          (beyond.1, beyond.2) ∈ table.toList)]
      rfl
    exact absurd (largest beyond.1 inside) (Nat.not_le.mpr larger)

variable (storage : Accounts) {store : MultiVersionStore} {overlay : Accounts} (txs : List SignedTx)
  (tx : SignedTx)

theorem mirrors_read {count : Nat} (mirrors : Mirrors store overlay count) (key : Address) :
    readVersioned storage store key count = readAccount storage overlay key := by
  -- Every version is older than `count`, so the index filter drops none of them.
  have whole : (store.versions key).filter (fun writer _ => decide (writer < count)) =
      store.versions key := by
    apply ExtTreeMap.ext_getElem?
    intro writer
    rw [ExtTreeMap.getElem?_filter']
    cases stored : (store.versions key)[writer]? with
    | none => rfl
    | some account =>
      have member : writer ∈ store.versions key := by
        rw [ExtTreeMap.mem_iff_isSome_getElem?, stored]
        rfl
      simp [mirrors.bounded key writer member]
  have latest := mirrors.latest key
  unfold readVersioned readAccount MultiVersionStore.readLatestBefore
  rw [whole, ← latest]
  cases (store.versions key).toList.getLast? <;> rfl

theorem recordWrites_mirrors (writes : Accounts) {count : Nat}
    (mirrors : Mirrors store overlay count) :
    Mirrors (store.recordWrites count writes) (overlay ∪ writes) (count + 1) := by
  constructor
  · intro key writer
    rw [MultiVersionStore.versions_recordWrites]
    cases writes[key]? with
    | none =>
      intro member
      exact Nat.lt_succ_of_lt (mirrors.bounded key writer member)
    | some value =>
      intro member
      rw [ExtTreeMap.mem_insert, LawfulEqCmp.compare_eq_iff_eq] at member
      rcases member with same | member
      · omega
      · exact Nat.lt_succ_of_lt (mirrors.bounded key writer member)
  · intro key
    rw [MultiVersionStore.versions_recordWrites, ExtTreeMap.getElem?_union]
    cases writes[key]? with
    | none => simpa using mirrors.latest key
    | some value =>
      have last := getLast?_of_largest ((store.versions key).insert count value) count value
        (by simp) (by
          intro other member
          rw [ExtTreeMap.mem_insert, LawfulEqCmp.compare_eq_iff_eq] at member
          rcases member with same | member
          · omega
          · exact (mirrors.bounded key other member).le)
      rw [last]
      rfl

theorem union_empty : overlay ∪ (∅ : Accounts) = overlay := by
  apply ExtTreeMap.ext_getElem?
  intro key
  simp [ExtTreeMap.getElem?_union]

variable {sender recipient : Address} {txIdx : Nat}

theorem union_transfer {senderAccount recipientAccount : Account} {tx : SignedTx} :
    overlay ∪ transfer ∅ sender recipient senderAccount recipientAccount tx =
      transfer overlay sender recipient senderAccount recipientAccount tx := by
  apply ExtTreeMap.ext_getElem?
  intro key
  simp only [transfer, ExtTreeMap.getElem?_union, ExtTreeMap.getElem?_insert,
    LawfulEqCmp.compare_eq_iff_eq]
  split
  · rfl
  · split <;> simp

theorem addresses_eq_ok :
    tx.addresses = .ok (sender, recipient) ↔
      HexCodec.decode tx.sender = .ok sender ∧ HexCodec.decode tx.recipient = .ok recipient := by
  unfold SignedTx.addresses
  cases HexCodec.decode tx.sender <;> cases HexCodec.decode tx.recipient <;>
    simp [Except.mapError, bind, Except.bind, pure, Except.pure]

theorem speculative_simulates (mirrors : Mirrors store overlay txIdx) :
    (overlay ∪ (executeTxSpeculative storage store tx txIdx).writes,
      if (executeTxSpeculative storage store tx txIdx).success then some (stmReceipt tx txIdx)
      else none) = sequentialStep storage overlay (tx, txIdx) := by
  have read := mirrors_read storage mirrors
  cases senderText : HexCodec.decode tx.sender with
  | error failure =>
    simp [executeTxSpeculative, sequentialStep, SignedTx.addresses, senderText,
      Except.mapError, bind, Except.bind, union_empty]
  | ok sender =>
    cases recipientText : HexCodec.decode tx.recipient with
    | error failure =>
      simp [executeTxSpeculative, sequentialStep, SignedTx.addresses, senderText,
        recipientText, Except.mapError, bind, Except.bind, union_empty]
    | ok recipient =>
      have decoded := (addresses_eq_ok tx).mpr ⟨senderText, recipientText⟩
      simp only [executeTxSpeculative, sequentialStep, senderText, recipientText, decoded, read]
      split
      · simp [union_empty]
      · split
        · simp [union_empty]
        · simp [union_transfer]

theorem speculative_reads {key : Address} {read : Option Account}
    (recorded : (executeTxSpeculative storage store tx txIdx).reads[key]? = some read) :
    read = some (readVersioned storage store key txIdx) := by
  have either : ∀ sender recipient : Address,
      (((∅ : ExtTreeMap Address (Option Account)).insert sender
        (some (readVersioned storage store sender txIdx))).insert recipient
        (some (readVersioned storage store recipient txIdx)))[key]? = some read →
      read = some (readVersioned storage store key txIdx) := by
    intro sender recipient found
    simp only [ExtTreeMap.getElem?_insert, LawfulEqCmp.compare_eq_iff_eq] at found
    split at found
    · rename_i same
      rw [← same]
      exact (Option.some.inj found).symm
    · split at found
      · rename_i same
        rw [← same]
        exact (Option.some.inj found).symm
      · simp at found
  unfold executeTxSpeculative at recorded
  split at recorded
  · simp at recorded
  · split at recorded
    · simp at recorded
    · simp only at recorded
      split at recorded
      · exact either _ _ recorded
      · split at recorded
        · exact either _ _ recorded
        · exact either _ _ recorded

theorem sequentialStep_silent {action : SignedTx × Nat}
    (silent : (sequentialStep storage overlay action).2 = none) :
    (sequentialStep storage overlay action).1 = overlay := by
  unfold sequentialStep at silent ⊢
  split
  · rfl
  · rename_i sender recipient decoded
    simp only [decoded] at silent ⊢
    split
    · rfl
    · split
      · rfl
      · simp_all

theorem stale_speculative {later : MultiVersionStore} {tx : SignedTx} {count : Nat}
    (same : ∀ key, later.readLatestBefore key count = store.readLatestBefore key count) :
    stale later (executeTxSpeculative storage store tx count) count = false := by
  rw [stale, Bool.and_eq_false_imp]
  intro _
  rw [List.any_eq_false]
  rintro ⟨key, read⟩ recorded
  have known := speculative_reads storage tx
    (ExtTreeMap.mem_toList_iff_getElem?_eq_some.mp recorded)
  subst read
  simp only [same key, readVersioned]
  cases store.readLatestBefore key count with
  | none | some => simp

/-- The baseline pass computes the sequential run, leaves what was written
before it readable, and no view of it is stale against the final store. -/
theorem baseline_simulates (store : MultiVersionStore) (overlay : Accounts) (count : Nat)
    (mirrors : Mirrors store overlay count) :
    mergeViews (txs.zipIdx count) (baseline storage (txs.zipIdx count) store).2 overlay =
        (run (sequentialStep storage) overlay (txs.zipIdx count),
          (outputs (sequentialStep storage) overlay (txs.zipIdx count)).filterMap id) ∧
      (∀ earlier ≤ count, ∀ key,
        (baseline storage (txs.zipIdx count) store).1.readLatestBefore key earlier =
          store.readLatestBefore key earlier) ∧
      ∀ entry ∈ (baseline storage (txs.zipIdx count) store).2.zipIdx count,
        stale (baseline storage (txs.zipIdx count) store).1 entry.1 entry.2 = false := by
  -- Later transactions write at larger indices, so what a view has read stays the
  -- latest write before it; this is the second part, and the third rests on it.
  induction txs generalizing store overlay count with
  | nil => simp [baseline, mergeViews, outputs]
  | cons tx rest ih =>
    have stepped := speculative_simulates storage tx mirrors
    have next := recordWrites_mirrors (executeTxSpeculative storage store tx count).writes mirrors
    have kept := fun earlier before key =>
      MultiVersionStore.readLatestBefore_recordWrites store count earlier
        (executeTxSpeculative storage store tx count).writes key before
    obtain ⟨merged, older, fresh⟩ := ih _ _ (count + 1) next
    simp only [List.zipIdx_cons, baseline]
    refine ⟨?_, ?_, ?_⟩
    · rw [run_cons, outputs, ← stepped]
      cases succeeds : (executeTxSpeculative storage store tx count).success with
      | true => simp [mergeViews, succeeds, merged]
      | false =>
        -- A failed view writes nothing, so skipping it leaves the same overlay.
        have silent : (sequentialStep storage overlay (tx, count)).2 = none := by
          rw [← stepped]
          simp [succeeds]
        have same := sequentialStep_silent storage silent
        rw [← stepped] at same
        simp only at same
        rw [same] at merged ⊢
        simp [mergeViews, succeeds, merged]
    · intro earlier before key
      rw [older earlier (by omega) key]
      exact kept earlier before key
    · intro entry member
      rcases List.mem_cons.mp member with here | later
      · subst entry
        apply stale_speculative
        intro key
        rw [older count (by omega) key]
        exact kept count (Nat.le_refl _) key
      · exact fresh entry later

theorem invalidSet_baseline :
    invalidSet (baseline storage txs.zipIdx {}).1 (baseline storage txs.zipIdx {}).2 = [] := by
  obtain ⟨_, _, fresh⟩ := baseline_simulates storage txs {} ∅ 0 empty_mirrors
  rw [invalidSet, List.map_eq_nil_iff, List.filter_eq_nil_iff]
  intro entry member
  rw [fresh entry member]
  simp

/-- Block-STM never fails, never re-executes, and returns the overlay and the
receipts of the sequential run. -/
theorem executeBlockStm_sequential :
    ∃ result, executeBlockStm storage txs = .ok result ∧ result.reexecutions = 0 ∧
      result.overlay = run (sequentialStep storage) ∅ txs.zipIdx ∧
      result.receipts = (outputs (sequentialStep storage) ∅ txs.zipIdx).filterMap id := by
  obtain ⟨merged, _, _⟩ := baseline_simulates storage txs {} ∅ 0 empty_mirrors
  have valid := invalidSet_baseline storage txs
  cases txs with
  | nil => exact ⟨_, rfl, rfl, rfl, rfl⟩
  | cons tx rest =>
    refine ⟨_, rfl, ?_, ?_, ?_⟩
    · simp only [valid, List.length_nil]
    · simp only [valid, reexecute, merged]
    · simp only [valid, reexecute, merged]

end Simulation

section
/-- One transaction on plain accounts, with what it read, wrote and answered:
the result the executor has to return for it. -/
def sequentialView (storage overlay : Accounts) (tx : SignedTx) : TxView :=
  match HexCodec.decode tx.sender, HexCodec.decode tx.recipient with
  | .error _, _ => { error := some .invalidSender }
  | .ok _, .error _ => { error := some .invalidRecipient }
  | .ok sender, .ok recipient =>
    let senderAccount := readAccount storage overlay sender
    let recipientAccount := readAccount storage overlay recipient
    let reads := ((∅ : ExtTreeMap Address (Option Account)).insert sender
      (some senderAccount)).insert recipient (some recipientAccount)
    if tx.nonce ≠ senderAccount.nonce then
      { reads, error := some (.nonceMismatch senderAccount.nonce tx.nonce) }
    else if senderAccount.balance < tx.totalDebit then
      { reads, error := some .insufficientBalance }
    else
      { reads, success := true,
        writes := transfer ∅ sender recipient senderAccount recipientAccount tx }

def sequentialViewStep (storage overlay : Accounts) (tx : SignedTx) : Accounts × TxView :=
  let view := sequentialView storage overlay tx
  (overlay ∪ view.writes, view)

variable (storage : Accounts) (txs : List SignedTx) (store : MultiVersionStore) (overlay : Accounts)

theorem speculative_view (tx : SignedTx) {txIdx : Nat} (mirrors : Mirrors store overlay txIdx) :
    executeTxSpeculative storage store tx txIdx = sequentialView storage overlay tx := by
  have read := mirrors_read storage mirrors
  unfold executeTxSpeculative sequentialView
  cases HexCodec.decode tx.sender with
  | error failure => rfl
  | ok sender =>
    cases HexCodec.decode tx.recipient with
    | error failure => rfl
    | ok recipient => simp only [read]

theorem baseline_views (count : Nat) (mirrors : Mirrors store overlay count) :
    (baseline storage (txs.zipIdx count) store).2 =
      outputs (sequentialViewStep storage) overlay txs := by
  induction txs generalizing store overlay count with
  | nil => rfl
  | cons tx rest ih =>
    have view := speculative_view storage store overlay tx mirrors
    have next := recordWrites_mirrors (executeTxSpeculative storage store tx count).writes mirrors
    have later := ih _ _ (count + 1) next
    simp only [List.zipIdx_cons, baseline, outputs, sequentialViewStep]
    rw [later, view]

theorem viewStep_simulates (count : Nat) (mirrors : Mirrors store overlay count) :
    run (sequentialStep storage) overlay (txs.zipIdx count) =
      run (sequentialViewStep storage) overlay txs := by
  induction txs generalizing store overlay count with
  | nil => rfl
  | cons tx rest ih =>
    have view := speculative_view storage store overlay tx mirrors
    have stepped := speculative_simulates storage tx mirrors
    have next := recordWrites_mirrors (executeTxSpeculative storage store tx count).writes mirrors
    simp only [List.zipIdx_cons, run_cons, sequentialViewStep]
    rw [← stepped, ← view]
    exact ih _ _ (count + 1) next

/-- Block-STM returns, view by view and as a whole, what the transactions do
one after the other in index order; one validation pass is all it needs. -/
theorem executeBlockStm_views (storage : Accounts) (txs : List SignedTx) :
    ∃ result, executeBlockStm storage txs = .ok result ∧
      result.txViews = outputs (sequentialViewStep storage) ∅ txs ∧
      result.overlay = run (sequentialViewStep storage) ∅ txs ∧
      result.receipts = (outputs (sequentialStep storage) ∅ txs.zipIdx).filterMap id ∧
      result.rounds ≤ 1 ∧ result.reexecutions = 0 := by
  obtain ⟨result, returned, reexecutions, overlay, receipts⟩ :=
    executeBlockStm_sequential storage txs
  have simulates := viewStep_simulates storage txs {} ∅ 0 empty_mirrors
  have views := baseline_views storage txs {} ∅ 0 empty_mirrors
  have valid := invalidSet_baseline storage txs
  have recorded : result.txViews = outputs (sequentialViewStep storage) ∅ txs ∧
      result.rounds ≤ 1 := by
    cases txs with
    | nil =>
      cases returned
      exact ⟨rfl, Nat.zero_le 1⟩
    | cons tx rest =>
      simp only [executeBlockStm, List.isEmpty_cons, Bool.false_eq_true, if_false, valid,
        reexecute, Except.ok.injEq] at returned
      cases returned
      exact ⟨views, Nat.le_refl 1⟩
  exact ⟨result, returned, recorded.1, overlay.trans simulates, receipts, recorded.2, reexecutions⟩

end

end Savitri.BlockStm
