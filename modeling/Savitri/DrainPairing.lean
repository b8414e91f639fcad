import Savitri.MempoolPipeline

/-!
The pairing of the two lists of a block drain. The batch and the decoded transactions
are filtered apart and cut to one length, so they stay paired exactly if no entry that
fails to decode stands before one that decodes.
-/
namespace Savitri.MempoolPipeline
open MempoolTypes MempoolCore TxWire Transition
open BlockExecution (Address)

section
variable {Item Out : Type} (decode : Item → Option Out)

/-- Decoding never resumes after a failure. -/
def DecodesFirst (items : List Item) : Prop :=
  items.Pairwise fun first second => (decode second).isSome → (decode first).isSome

theorem paired_iff_decodesFirst {items : List Item} :
    List.Forall₂ (fun item out => decode item = some out)
      (items.take (min items.length (items.filterMap decode).length))
      ((items.filterMap decode).take (min items.length (items.filterMap decode).length)) ↔
        DecodesFirst decode items := by
  induction items with
  | nil => simp [DecodesFirst]
  | cons item rest ih =>
    unfold DecodesFirst at ih ⊢
    rw [List.pairwise_cons]
    cases decoded : decode item with
    | some out =>
      rw [List.filterMap_cons_some decoded, List.length_cons, List.length_cons,
        Nat.add_min_add_right, List.take_succ_cons, List.take_succ_cons, List.forall₂_cons, ih]
      simp [decoded]
    | none =>
      rw [List.filterMap_cons_none decoded]
      cases outs : rest.filterMap decode with
      | nil =>
        -- nothing is decoded, and both lists are cut to nothing
        rw [List.filterMap_eq_nil_iff] at outs
        have none : rest.Pairwise fun first second =>
            (decode second).isSome → (decode first).isSome :=
          List.pairwise_of_forall_mem_list fun first _ second member some => by
            simp [outs second member] at some
        simp only [List.length_nil, Nat.min_zero, List.take_zero, List.Forall₂.nil, true_iff]
        exact ⟨fun second member some => by simp [outs second member] at some, none⟩
      | cons out others =>
        -- the item is paired with the first entry that decodes
        obtain ⟨found, member, same⟩ :=
          List.mem_filterMap.mp (outs ▸ List.mem_cons_self : out ∈ rest.filterMap decode)
        rw [List.length_cons, List.length_cons, Nat.add_min_add_right, List.take_succ_cons,
          List.take_succ_cons, List.forall₂_cons]
        constructor
        · intro paired
          rw [decoded] at paired
          cases paired.1
        · intro ordered
          have resumed := ordered.1 found member (by simp [same])
          cases resumed

theorem paired_iff_forall₂ {items : List Item} {outs : List Out} :
    (items.length = outs.length ∧ ∀ (idx : Nat) (item : Item) (out : Out),
      items[idx]? = some item → outs[idx]? = some out → decode item = some out) ↔
      List.Forall₂ (fun item out => decode item = some out) items outs := by
  rw [List.forall₂_iff_get]
  constructor
  · rintro ⟨sameLength, paired⟩
    refine ⟨sameLength, ?_⟩
    intro idx inFirst inSecond
    exact paired idx _ _ (by simp) (by simp)
  · rintro ⟨sameLength, paired⟩
    refine ⟨sameLength, ?_⟩
    intro idx item out atItem atOut
    obtain ⟨inFirst, rfl⟩ := List.getElem?_eq_some_iff.mp atItem
    obtain ⟨inSecond, rfl⟩ := List.getElem?_eq_some_iff.mp atOut
    exact paired idx inFirst inSecond

end

section
variable (prims : Primitives) (p : Pipeline) (env : PipelineEnv) (maxTxs : Nat)

def Pipeline.blockBatch : List MempoolTx :=
  let (mempool, drained) := p.mempool.drainFairBatch env.mempoolEnv maxTxs
  ({ p with mempool }.routeBatch prims drained).2

theorem validateTransaction_default (tx : MempoolTx) : (validateTransaction tx {}).isOk = false := by
  unfold validateTransaction
  split
  · rfl
  · simp [blank, Except.isOk, Except.toBool]

/-- The dispatcher refuses every pair, or the two lists for their lengths. -/
theorem pairUp_dispatched (dispatched : p.dispatcher = true) (batch : List MempoolTx) :
    p.pairUp batch = ([], []) := by
  simp only [Pipeline.pairUp, dispatched, ↓reduceIte]
  generalize batch.filterMap _ = signedTxs
  unfold scheduleTransactionsSafe
  by_cases none : batch.isEmpty || (signedTxs.map fun _ => ({} : CoreTransaction)).isEmpty
  · rw [if_pos none]
    rcases Bool.or_eq_true_iff.mp none with none | none
    · simp [List.isEmpty_iff.mp none]
    · simp_all
  · rw [if_neg none]
    split
    · next failed => rfl
    · next scheduled signed returned =>
        split at returned
        · cases returned
        · have refused : (batch.zip (signedTxs.map fun _ => ({} : CoreTransaction))).filter
              (fun pair => (validateTransaction pair.1 pair.2).isOk) = [] := by
            rw [List.filter_eq_nil_iff]
            intro pair member
            obtain ⟨_, _, isDefault⟩ := List.mem_map.mp (List.of_mem_zip member).2
            rw [← isDefault, validateTransaction_default]
            exact Bool.false_ne_true
          simp only [refused, List.isEmpty_nil, ↓reduceIte, reduceCtorEq] at returned

theorem drain_pairUp : (p.drainForBlockProduction prims env maxTxs).2 =
    p.pairUp (p.blockBatch prims env maxTxs) := by
  unfold Pipeline.drainForBlockProduction Pipeline.blockBatch
  simp only
  split
  · next none =>
      rw [List.isEmpty_iff.mp none]
      simp [Pipeline.routeBatch, Pipeline.pairUp, scheduleTransactionsSafe]
  · rfl

/-- The two lists of a drain have equal lengths and each signed transaction is the one stored
for the entry beside it, exactly if there is a dispatcher, which leaves nothing of them, or
no entry of the batch that fails to decode stands before one that decodes. -/
theorem drain_pairs_iff :
    ((p.drainForBlockProduction prims env maxTxs).2.1.length =
        (p.drainForBlockProduction prims env maxTxs).2.2.length ∧
      ∀ (idx : Nat) (tx : MempoolTx) (signed : SignedTx),
        (p.drainForBlockProduction prims env maxTxs).2.1[idx]? = some tx →
        (p.drainForBlockProduction prims env maxTxs).2.2[idx]? = some signed →
          decodeHandle p.prevalidator.txStorage tx.txHandle = some signed) ↔
      p.dispatcher = true ∨
        DecodesFirst (fun tx : MempoolTx => decodeHandle p.prevalidator.txStorage tx.txHandle)
          (p.blockBatch prims env maxTxs) := by
  rw [drain_pairUp]
  cases dispatched : p.dispatcher with
  | true => simp [pairUp_dispatched p dispatched]
  | false =>
    rw [or_iff_right Bool.false_ne_true, ← paired_iff_decodesFirst, ← paired_iff_forall₂]
    simp only [Pipeline.pairUp, dispatched, Bool.false_eq_true, ↓reduceIte]

end

def sampleAdd (sender : SenderId) (txHandle : TxHandle) : Operation :=
  .addPrevalidated { now := 0 }
    { senderId := sender, senderAddress := [], nonce := 0, maxFee := 0, amount := 0, txHandle }
    none true

def twoHandles (first second : TxHandle) (bytes : List (List UInt8)) : Pipeline :=
  { prevalidator := { txStorage := { storage := bytes } }
    mempool := run operate (Mempool.fresh (seconds 120) 0 { config := sampleConfig })
      [sampleAdd 1 first, sampleAdd 2 second] }

/-- The first handle has no bytes; it is paired with the transaction of the second. -/
theorem missing_first_shifts :
    let p := twoHandles 7 0 [sampleWire 50 0]
    let out := (p.drainForBlockProduction samplePrims (sampleEnv []) 10).2
    out.1.map (·.txHandle) = [7] ∧
      decodeHandle p.prevalidator.txStorage 7 = none ∧
      out.2.map some = [decodeHandle p.prevalidator.txStorage 0] := by
  decide +kernel

end Savitri.MempoolPipeline
