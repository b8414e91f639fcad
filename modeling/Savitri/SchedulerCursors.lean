import Savitri.Scheduler

/-!
Nonce cursors against committed blocks. A drained block finds every one of its
nonces at the cursor and leaves its senders' cursors behind them, so no later
block can be drained with one of the same nonces, whatever happens in between.
-/
namespace Savitri.SchedulerCursors
open Std Transition BlockExecution ConflictKeys Scheduler CommitScheduler
variable (block : ExecutedBlockMeta)

def spends : List (Address × UInt64) :=
  block.signedTxs.map fun tx => (normalizeAddressBytes tx.sender, tx.nonce)

/-- The state diff leaves every sender of the block at a nonce beyond its transactions. -/
def Covered : Prop :=
  ∀ tx ∈ block.signedTxs, ∃ account,
    block.stateDiff[normalizeAddressBytes tx.sender]? = some account ∧ tx.nonce < account.nonce

section Cursors
def CursorsLe (before after : Cursors) : Prop :=
  ∀ (account : Address) (cursor : UInt64), before[account]? = some cursor →
    ∃ later, after[account]? = some later ∧ cursor ≤ later

variable {cursors : Cursors} {stateDiff storage : Accounts} {account : Address}

theorem cursorsLe_refl : CursorsLe cursors cursors :=
  fun _ cursor found => ⟨cursor, found, UInt64.le_refl cursor⟩

theorem cursorsLe_trans {first second third : Cursors} (early : CursorsLe first second)
    (late : CursorsLe second third) : CursorsLe first third := by
  intro account cursor found
  rcases early account cursor found with ⟨middle, stored, below⟩
  rcases late account middle stored with ⟨last, reached, above⟩
  exact ⟨last, reached, UInt64.le_trans below above⟩

variable {nonce : UInt64}

theorem advance_le : CursorsLe cursors (advance cursors account nonce) := by
  intro other cursor found
  rw [advance, ExtTreeMap.getElem?_insert]
  by_cases here : account = other
  · subst other
    rw [if_pos (by simp), found]
    by_cases raised : cursor < nonce
    · exact ⟨nonce, by simp [raised], UInt64.le_of_lt raised⟩
    · exact ⟨cursor, by simp [raised], UInt64.le_refl cursor⟩
  · rw [if_neg (by simpa using here)]
    exact ⟨cursor, found, UInt64.le_refl cursor⟩

theorem advance_reaches :
    ∃ cursor, (advance cursors account nonce)[account]? = some cursor ∧ nonce ≤ cursor := by
  rw [advance, ExtTreeMap.getElem?_insert, if_pos (by simp)]
  by_cases raised : (cursors[account]?).getD 0 < nonce
  · exact ⟨nonce, by simp [raised], UInt64.le_refl nonce⟩
  · exact ⟨(cursors[account]?).getD 0, by simp [raised], UInt64.not_lt.mp raised⟩

theorem foldl_advance {entries : List (Address × Account)} (cursors : Cursors) :
    CursorsLe cursors
        (entries.foldl (fun cursors entry => advance cursors entry.1 entry.2.nonce) cursors) ∧
      ∀ entry ∈ entries, ∃ cursor,
        (entries.foldl (fun cursors entry => advance cursors entry.1 entry.2.nonce)
          cursors)[entry.1]? = some cursor ∧ entry.2.nonce ≤ cursor := by
  induction entries generalizing cursors with
  | nil =>
    constructor
    · exact cursorsLe_refl
    · intro entry member
      cases member
  | cons entry rest ih =>
    rcases ih (advance cursors entry.1 entry.2.nonce) with ⟨later, reached⟩
    constructor
    · exact cursorsLe_trans advance_le later
    · intro other member
      rcases List.mem_cons.mp member with here | member
      · subst other
        rcases advance_reaches with ⟨cursor, stored, above⟩
        rcases later entry.1 cursor stored with ⟨last, final, higher⟩
        exact ⟨last, final, UInt64.le_trans above higher⟩
      · exact reached other member

theorem advanceAll_le : CursorsLe cursors (advanceAll cursors stateDiff) :=
  (foldl_advance cursors).1

theorem advanceAll_reaches {address : Address} {account : Account}
    (changed : stateDiff[address]? = some account) :
    ∃ cursor, (advanceAll cursors stateDiff)[address]? = some cursor ∧ account.nonce ≤ cursor :=
  (foldl_advance cursors).2 (address, account)
    (ExtTreeMap.mem_toList_iff_getElem?_eq_some.mpr changed)

theorem checkTxNonce_ok {sender : Address} :
    checkTxNonce storage cursors sender nonce = .ok ↔
      nonce = expectedNonce storage cursors sender := by
  unfold checkTxNonce
  simp only
  split
  · simp_all
  · split <;> simp_all

theorem checkTxs_ok {txs : List SignedTx} (passes : checkTxs storage cursors txs = .ok) :
    ∀ tx ∈ txs, tx.nonce = expectedNonce storage cursors (normalizeAddressBytes tx.sender) := by
  induction txs with
  | nil =>
    intro tx member
    cases member
  | cons tx rest ih =>
    simp only [checkTxs] at passes
    cases check : checkTxNonce storage cursors (normalizeAddressBytes tx.sender) tx.nonce with
    | ok =>
      rw [check] at passes
      rw [List.forall_mem_cons]
      exact ⟨checkTxNonce_ok.mp check, ih passes⟩
    | deferred | reject =>
      rw [check] at passes
      cases passes

end Cursors

section Committed
structure Canonical (past : List (BlockHash × ExecutedBlockMeta)) (scheduler : CommitScheduler) :
    Prop where
  covered : ∀ hash block, bodyAt scheduler hash = some block → Covered block
  above : ∀ entry ∈ past, ∀ spend ∈ spends entry.2, ∃ cursor,
    scheduler.accountCursors[spend.1]? = some cursor ∧ spend.2 < cursor
  apart : past.Pairwise fun first second => ∀ spend ∈ spends first.2, spend ∉ spends second.2

variable (past : List (BlockHash × ExecutedBlockMeta)) (storage : Accounts)
  (scheduler : CommitScheduler) {draining : Draining}
variable {past}

theorem canonical_of_kept (before after : CommitScheduler) (canonical : Canonical past before)
    (cursors : after.accountCursors = before.accountCursors)
    (bodies : ∀ hash block, bodyAt after hash = some block → Covered block) : Canonical past after := by
  constructor
  · exact bodies
  · rw [cursors]
    exact canonical.above
  · exact canonical.apart

variable {block} {hash : BlockHash}

theorem covered_iff_body : Covered (body block) ↔ Covered block := Iff.rfl

variable (past)

theorem admitBlock_canonical (order : IterationOrder) {scheduler : CommitScheduler}
    (covered : Covered block) (canonical : Canonical past scheduler) :
    Canonical past (scheduler.admitBlock order block).1 := by
  cases known : scheduler.isKnown block.blockHash with
  | true =>
    rw [admitBlock_known known]
    exact canonical
  | false =>
    rcases admitBlock_unknown order scheduler block known with
      ⟨written, kept, cursors, _, _, bodies⟩
    apply canonical_of_kept scheduler _ canonical (kept.cursors.trans cursors)
    intro hash other found
    rw [kept.bodies, bodies] at found
    by_cases here : block.blockHash = hash
    · rw [if_pos here] at found
      rw [← Option.some.inj found]
      exact covered
    · rw [if_neg here] at found
      exact canonical.covered hash other found

theorem commitOne_canonical (found : draining.scheduler.blockMeta[hash]? = some block)
    (check : checkTxs storage draining.scheduler.accountCursors block.signedTxs = .ok)
    (canonical : Canonical (past ++ draining.committed) draining.scheduler) :
    Canonical (past ++ (commitOne draining hash block).committed)
      (commitOne draining hash block).scheduler := by
  have inLine := checkTxs_ok check
  have covered : Covered block := by
    rw [← covered_iff_body]
    apply canonical.covered hash
    rw [bodyAt, found]
    rfl
  simp only [commitOne]
  constructor
  · intro other held stored
    rw [bodyAt, ExtTreeMap.getElem?_insert] at stored
    by_cases here : hash = other
    · rw [if_pos (by simpa using here)] at stored
      rw [← Option.some.inj stored]
      exact covered
    · rw [if_neg (by simpa using here)] at stored
      exact canonical.covered other held stored
  · intro entry member spend spent
    rw [← List.append_assoc, List.mem_append, List.mem_singleton] at member
    rcases member with earlier | here
    · rcases canonical.above entry earlier spend spent with ⟨cursor, stored, below⟩
      rcases advanceAll_le spend.1 cursor stored with ⟨later, reached, higher⟩
      exact ⟨later, reached, UInt64.lt_of_lt_of_le below higher⟩
    · subst entry
      rcases List.mem_map.mp spent with ⟨tx, inBlock, rfl⟩
      rcases covered tx inBlock with ⟨account, changed, beyond⟩
      rcases advanceAll_reaches changed with ⟨cursor, stored, reached⟩
      exact ⟨cursor, stored, UInt64.lt_of_lt_of_le beyond reached⟩
  · rw [← List.append_assoc, List.pairwise_append]
    refine ⟨canonical.apart, List.pairwise_singleton _ _, ?_⟩
    intro entry earlier other last spend spent again
    rw [List.mem_singleton] at last
    subst other
    -- The earlier block left the cursor above this nonce.
    rcases canonical.above entry earlier spend spent with ⟨cursor, stored, below⟩
    rcases List.mem_map.mp again with ⟨tx, inBlock, rfl⟩
    have expected := inLine tx inBlock
    rw [expectedNonce, stored, Option.getD_some] at expected
    rw [expected] at below
    exact UInt64.lt_irrefl _ below

theorem drainOne_canonical (canonical : Canonical (past ++ draining.committed) draining.scheduler) :
    Canonical (past ++ (drainOne storage draining hash).committed)
        (drainOne storage draining hash).scheduler ∧
      CursorsLe draining.scheduler.accountCursors
        (drainOne storage draining hash).scheduler.accountCursors := by
  rcases drainOne_cases with ⟨idle, _⟩ | ⟨block, found, _, _, ⟨_, idle⟩ |
    ⟨account, _, deferred⟩ | ⟨check, commits⟩⟩
  · rw [idle]
    exact ⟨canonical, cursorsLe_refl⟩
  · rw [idle]
    exact ⟨canonical, cursorsLe_refl⟩
  · rw [deferred]
    exact ⟨canonical, cursorsLe_refl⟩
  · rw [commits]
    exact ⟨commitOne_canonical past storage found check canonical, advanceAll_le⟩

theorem drainLoop_canonical (queue : List BlockHash) (draining : Draining)
    (canonical : Canonical (past ++ draining.committed) draining.scheduler) :
    Canonical (past ++ (queue.foldl (drainOne storage) draining).committed)
        (queue.foldl (drainOne storage) draining).scheduler ∧
      CursorsLe draining.scheduler.accountCursors
        (queue.foldl (drainOne storage) draining).scheduler.accountCursors := by
  induction queue generalizing draining with
  | nil => exact ⟨canonical, cursorsLe_refl⟩
  | cons hash rest ih =>
    rcases drainOne_canonical past storage canonical with ⟨kept, raised⟩
    rcases ih _ kept with ⟨later, higher⟩
    exact ⟨later, cursorsLe_trans raised higher⟩

theorem drainReady_canonical (canonical : Canonical past scheduler) :
    Canonical (past ++ (scheduler.drainReady storage).2) (scheduler.drainReady storage).1 ∧
      CursorsLe scheduler.accountCursors (scheduler.drainReady storage).1.accountCursors := by
  have start : Canonical (past ++ []) { scheduler with readyQueue := [] } := by
    rw [List.append_nil]
    exact canonical_of_kept scheduler _ canonical rfl canonical.covered
  rcases drainLoop_canonical past storage scheduler.readyQueue
    { scheduler := { scheduler with readyQueue := [] } } start with ⟨drained, raised⟩
  let final := scheduler.readyQueue.foldl (drainOne storage)
    { scheduler := { scheduler with readyQueue := [] } }
  have kept := deferAll_kept final.toDefer final.scheduler
  constructor
  · apply canonical_of_kept _ _ drained kept.cursors
    intro hash block found
    rw [kept.bodies] at found
    exact drained.covered hash block found
  · rw [drainReady, kept.cursors]
    exact raised

theorem gc_canonical {keepHeight : Nat} {scheduler : CommitScheduler}
    (canonical : Canonical past scheduler) : Canonical past (scheduler.gc keepHeight) := by
  apply canonical_of_kept scheduler (scheduler.gc keepHeight) canonical rfl
  intro hash block found
  apply canonical.covered hash
  rw [bodyAt, getElem?_gc] at found
  rw [bodyAt]
  cases stored : scheduler.blockMeta[hash]? with
  | none =>
    rw [stored] at found
    cases found
  | some held =>
    rw [stored] at found
    by_cases removed : collectable keepHeight held = true
    · simp [removed] at found
    · simpa [removed] using found

theorem step_canonical {call : Call}
    (covered : ∀ order block, call = .admitBlock order block → Covered block)
    (canonical : Canonical past scheduler) :
    Canonical (past ++ (step scheduler call).2.commits) (step scheduler call).1 ∧
      CursorsLe scheduler.accountCursors (step scheduler call).1.accountCursors := by
  cases call with
  | admitBlock order block =>
    have admitted := admitBlock_canonical past order (covered order block rfl) canonical
    have cursors : (scheduler.admitBlock order block).1.accountCursors =
        scheduler.accountCursors := by
      cases known : scheduler.isKnown block.blockHash with
      | true => rw [admitBlock_known known]
      | false =>
        rcases admitBlock_unknown order scheduler block known with
          ⟨written, kept, unchanged, _⟩
        exact kept.cursors.trans unchanged
    simp only [step, Reply.commits, List.append_nil, cursors]
    exact ⟨admitted, cursorsLe_refl⟩
  | drain storage => exact drainReady_canonical past storage scheduler canonical
  | wake order storage =>
    have kept := wakeDeferred_kept order storage scheduler
    simp only [step, Reply.commits, List.append_nil, kept.cursors]
    refine ⟨canonical_of_kept scheduler _ canonical kept.cursors ?_, cursorsLe_refl⟩
    intro hash block found
    rw [kept.bodies] at found
    exact canonical.covered hash block found
  | gc keepHeight =>
    simp only [step, Reply.commits, List.append_nil]
    exact ⟨gc_canonical past canonical, cursorsLe_refl⟩

def committedIn (scheduler : CommitScheduler) (calls : List Call) :
    List (BlockHash × ExecutedBlockMeta) :=
  (outputs step scheduler calls).flatMap Reply.commits

theorem run_canonical {calls : List Call}
    (covered : ∀ order block, .admitBlock order block ∈ calls → Covered block)
    (canonical : Canonical past scheduler) :
    Canonical (past ++ committedIn scheduler calls) (run step scheduler calls) ∧
      CursorsLe scheduler.accountCursors (run step scheduler calls).accountCursors := by
  induction calls generalizing past scheduler with
  | nil =>
    simp only [committedIn, outputs, List.flatMap_nil, List.append_nil, run_nil]
    exact ⟨canonical, cursorsLe_refl⟩
  | cons call rest ih =>
    rcases step_canonical past scheduler
      (fun order block here => covered order block (here ▸ List.mem_cons_self)) canonical with
      ⟨stepped, raised⟩
    rcases ih _ _ (fun order block member =>
      covered order block (List.mem_cons_of_mem _ member)) stepped with ⟨later, higher⟩
    rw [List.append_assoc] at later
    exact ⟨later, cursorsLe_trans raised higher⟩

theorem empty_canonical : Canonical [] {} := by
  constructor
  · intro hash block found
    simp [bodyAt] at found
  · intro entry member
    cases member
  · exact List.Pairwise.nil

/-- In every run whose blocks cover their nonces, no two committed blocks share a
sender and nonce, and no cursor ever goes back. -/
theorem committed_nonces_unique (calls : List Call)
    (covered : ∀ order block, .admitBlock order block ∈ calls → Covered block) :
    ((committedIn {} calls).Pairwise fun first second =>
      ∀ spend ∈ spends first.2, spend ∉ spends second.2) ∧
    ∀ front back, calls = front ++ back →
      CursorsLe (run step {} front).accountCursors (run step {} calls).accountCursors := by
  constructor
  · exact (run_canonical [] {} covered empty_canonical).1.apart
  · intro front back split
    subst split
    have early := run_canonical [] {}
      (fun order block member => covered order block (List.mem_append_left _ member))
      empty_canonical
    rw [run_append]
    exact (run_canonical _ _
      (fun order block member => covered order block (List.mem_append_right _ member)) early.1).2

def rivalCalls : List Call :=
  [.admitBlock .plain (sampleMeta 1 5 [("aa", 0)]), .drain ∅, .gc 6,
    .admitBlock .plain (sampleMeta 2 1 [("aa", 0), ("bb", 0)]), .drain ∅]

theorem rivalCalls_canonical :
    ((committedIn {} rivalCalls).Pairwise fun first second =>
      ∀ spend ∈ spends first.2, spend ∉ spends second.2) ∧
    ∀ front back, rivalCalls = front ++ back →
      CursorsLe (run step {} front).accountCursors (run step {} rivalCalls).accountCursors := by
  apply committed_nonces_unique
  intro order block member
  simp only [rivalCalls, List.mem_cons, Call.admitBlock.injEq, reduceCtorEq, List.not_mem_nil,
    or_false, false_or] at member
  intro tx inBlock
  refine ⟨{ balance := 0, nonce := 1 }, ?_⟩
  revert tx inBlock
  rcases member with ⟨_, rfl⟩ | ⟨_, rfl⟩ <;> decide +kernel

end Committed

end Savitri.SchedulerCursors
