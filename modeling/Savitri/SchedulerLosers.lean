import Savitri.SchedulerRuns

/-!
Losers of conflict sets. A loser keeps its status through admissions, drains and
collections, but three things bring it back: a wake-up that finds it in the
deferred lists accepts it again; a block that loses one set and wins another in
one admission ends with the status of the set resolved last; and a collected
loser is unknown to the scheduler when it arrives once more.
-/
namespace Savitri.SchedulerLosers
open Std Transition BlockExecution ConflictKeys Scheduler CommitScheduler
  SchedulerAdmission SchedulerRuns

def losersIn (scheduler : CommitScheduler) : List BlockHash :=
  scheduler.conflictSets.toList.flatMap fun entry =>
    if entry.2.resolved then entry.2.members.filter fun hash => entry.2.winner != some hash
    else []

variable {hash : BlockHash} {next : CommitScheduler} {block : ExecutedBlockMeta}

theorem mem_losersIn {scheduler : CommitScheduler} :
    hash ∈ losersIn scheduler ↔
      ∃ (id : Nat) (set : ConflictSet), scheduler.conflictSets[id]? = some set ∧
        set.resolved = true ∧ hash ∈ set.members ∧ set.winner ≠ some hash := by
  simp only [losersIn, List.mem_flatMap, Prod.exists, ExtTreeMap.mem_toList_iff_getElem?_eq_some]
  constructor
  · rintro ⟨id, set, found, member⟩
    cases resolved : set.resolved with
    | true =>
      simp only [resolved, if_true, List.mem_filter, bne_iff_ne] at member
      exact ⟨id, set, found, resolved, member⟩
    | false => simp [resolved] at member
  · rintro ⟨id, set, found, resolved, member, lost⟩
    exact ⟨id, set, found, by simp [resolved, member, lost]⟩

abbrev Recorded := CommitScheduler × List BlockHash

def recordedStep : Recorded → Call → Recorded × Reply :=
  recording step fun scheduler call => losersIn (step scheduler call).1

def lostBefore (calls : List Call) : List BlockHash := (run recordedStep ({}, []) calls).2

def Harmless (state : Recorded) : Call → Prop
  | .admitBlock _ block => state.1.isKnown block.blockHash = false →
      block.blockHash ∉ state.2 ∧
        ((∀ other, Rival state.1 block other → Precedes other block) ∨
          ∀ other, Rival state.1 block other → Precedes block other)
  | .wake _ storage => ∀ hash ∈ state.2, ∀ (account : Address) (hashes : List BlockHash),
      state.1.deferredByNonce[account]? = some hashes → hash ∈ hashes →
        state.1.matchesCursor storage account hash = false
  | _ => True

structure Marked (state : Recorded) : Prop where
  settled : Settled state.1
  recorded : ∀ hash ∈ losersIn state.1, hash ∈ state.2
  marked : ∀ hash ∈ state.2, ∀ block, state.1.blockMeta[hash]? = some block →
    block.status = .resolvedLoser

theorem empty_marked : Marked ({}, []) := by
  constructor
  · exact empty_settled
  · intro hash member
    rcases mem_losersIn.mp member with ⟨id, set, found, _⟩
    simp at found
  · intro hash member
    cases member

variable {state : Recorded}

theorem Marked.not_live (marked : Marked state) (lost : hash ∈ state.2) : ¬ Live state.1 hash := by
  rintro ⟨block, found, isOpen⟩
  rw [marked.marked hash lost block found] at isOpen
  cases isOpen

theorem marked_of_frame (marked : Marked state) (settled : Settled next)
    (sets : ∀ (id : Nat) (set : ConflictSet), next.conflictSets[id]? = some set →
      state.1.conflictSets[id]? = some set)
    (entries : ∀ hash ∈ state.2, ∀ block, next.blockMeta[hash]? = some block →
      state.1.blockMeta[hash]? = some block) : Marked (next, state.2 ++ losersIn next) := by
  have old : ∀ hash ∈ losersIn next, hash ∈ state.2 := by
    intro hash member
    rcases mem_losersIn.mp member with ⟨id, set, found, lost⟩
    exact marked.recorded hash (mem_losersIn.mpr ⟨id, set, sets id set found, lost⟩)
  constructor
  · exact settled
  · intro hash member
    exact List.mem_append_right _ member
  · intro hash member block found
    have lost : hash ∈ state.2 := by
      rcases List.mem_append.mp member with earlier | new
      · exact earlier
      · exact old hash new
    exact marked.marked hash lost block (entries hash lost block found)

theorem admitted_loser {base : CommitScheduler} (admitted : Admitted base block next)
    (absent : base.blockMeta[block.blockHash]? = none)
    (uniform : (∀ other, Rival base block other → Precedes other block) ∨
      ∀ other, Rival base block other → Precedes block other) (lost : hash ∈ losersIn next) :
    hash ∈ losersIn base ∨ ∀ held, next.blockMeta[hash]? = some held →
      held.status = .resolvedLoser := by
  rcases mem_losersIn.mp lost with ⟨id, set, found, resolved, member, notWinner⟩
  rcases admitted.sets id set found with old | ⟨other, rival, members, winner⟩
  · exact Or.inl (mem_losersIn.mpr ⟨id, set, old, resolved, member, notWinner⟩)
  right
  intro held stored
  rw [winner] at notWinner
  rw [members, List.mem_cons, List.mem_singleton] at member
  rcases precedes_total other block (rival_differs base block absent other rival) with
    wins | loses
  · -- The rival won, so it is the new block that lost, and it loses to every rival.
    rw [winnerOf_lost wins] at notWinner
    rcases member with same | same
    · exact absurd (congrArg some same.symm) notWinner
    · subst same
      have every : ∀ other, Rival base block other → Precedes other block := by
        rcases uniform with every | none
        · exact every
        · exact absurd (none other rival) (precedes_asymm wins)
      rcases admitted.self with ⟨status, self, _, all, _⟩
      rw [self, Option.some.injEq] at stored
      subst stored
      exact all ⟨other, rival⟩ every
  · rw [winnerOf_won other block loses] at notWinner
    rcases member with same | same
    · subst same
      rw [admitted.losers other rival loses, Option.some.injEq] at stored
      subst stored
      rfl
    · exact absurd (congrArg some same.symm) notWinner

theorem admitBlock_marked {order : IterationOrder} (marked : Marked state)
    (harmless : Harmless state (.admitBlock order block)) :
    Marked ((state.1.admitBlock order block).1,
      state.2 ++ losersIn (state.1.admitBlock order block).1) := by
  cases known : state.1.isKnown block.blockHash with
  | true =>
    rw [admitBlock_known known]
    exact marked_of_frame marked marked.settled (fun _ _ found => found)
      fun _ _ _ found => found
  | false =>
    rcases harmless known with ⟨fresh, uniform⟩
    have absent := absent_of_unknown state.1 block known
    have admitted := admitBlock_admitted order state.1 block marked.settled known
    have earlier : ∀ hash ∈ state.2, ∀ held,
        (state.1.admitBlock order block).1.blockMeta[hash]? = some held →
        held.status = .resolvedLoser := by
      intro hash lost held found
      rw [admitted.others hash (fun own => fresh (own ▸ lost)) fun other rival same =>
        marked.not_live lost ⟨other, same ▸ rival.held, rival.live⟩] at found
      exact marked.marked hash lost held found
    constructor
    · exact admitted.settled
    · intro hash member
      exact List.mem_append_right _ member
    · intro hash member held found
      rcases List.mem_append.mp member with lost | new
      · exact earlier hash lost held found
      · rcases admitted_loser admitted absent uniform new with old | isMarked
        · exact earlier hash (marked.recorded hash old) held found
        · exact isMarked held found

theorem recordedStep_marked {call : Call} (marked : Marked state) (harmless : Harmless state call) :
    Marked (recordedStep state call).1 := by
  have settled := step_settled call marked.settled
  cases call with
  | admitBlock order block => exact admitBlock_marked marked harmless
  | drain storage =>
    apply marked_of_frame marked settled
    · intro id set found
      rw [← (drainReady_sameSets storage state.1).sets]
      exact found
    · intro hash lost block found
      rw [← (drainReady_closed storage state.1 hash (marked.not_live lost)).1]
      exact found
  | wake order storage =>
    have woken := wakeDeferred_woken order storage state.1
    apply marked_of_frame marked settled
    · intro id set found
      rw [← woken.sets.sets]
      exact found
    · intro hash lost block found
      rw [← woken.ledger hash]
      · exact found
      · intro awake
        rcases mem_wokenBlocks.mp awake with
          ⟨account, hashes, stored, member, isMatch⟩
        rw [harmless hash lost account hashes stored member] at isMatch
        cases isMatch
  | gc keepHeight =>
    apply marked_of_frame marked settled
    · exact gc_sets
    · intro hash _ block found
      exact (gc_found found).1

/-- In every run of harmless calls, no drain hands out a block that lost a set
before it. -/
theorem losers_never_committed (calls : List Call)
    (harmless : Along recordedStep Harmless ({}, []) calls) (front : List Call)
    (storage : Accounts) (back : List Call) (split : calls = front ++ .drain storage :: back) :
    ∀ hash ∈ lostBefore front, ∀ entry ∈ ((run step {} front).drainReady storage).2,
      entry.1 ≠ hash := by
  intro hash lost
  rw [split, along_append] at harmless
  have marked := run_invariant_along recordedStep Harmless Marked
    (fun _ _ => recordedStep_marked) _ _ empty_marked harmless.1
  have closed := marked.not_live lost
  rw [recordedStep, run_recording] at closed
  exact (drainReady_closed storage (run step {} front) hash closed).2

def plainCalls : List Call :=
  [.admitBlock .plain (sampleMeta 2 2 [("aa", 0)]), .admitBlock .plain (sampleMeta 1 1 [("aa", 0)]),
    .drain ∅, .wake .plain ∅, .drain ∅]

/-- The first block loses, and the drains hand out only the other. -/
theorem plainCalls_losers :
    Vector.replicate 64 2 ∈ lostBefore (plainCalls.take 4) ∧
      ∀ hash ∈ lostBefore (plainCalls.take 4),
        ∀ entry ∈ ((run step {} (plainCalls.take 4)).drainReady ∅).2, entry.1 ≠ hash := by
  refine ⟨by decide +kernel, losers_never_committed plainCalls ?_ (plainCalls.take 4) ∅ [] rfl⟩
  refine ⟨?_, ?_, trivial, ?_, trivial, trivial⟩
  · intro _
    refine ⟨List.not_mem_nil, Or.inl ?_⟩
    intro other rival
    have held := rival.held
    simp at held
  · intro _
    refine ⟨by decide +kernel, Or.inr ?_⟩
    intro other rival
    have every : ∀ entry ∈ (run recordedStep ({}, []) (plainCalls.take 1)).1.blockMeta.toList,
        compareMeta (rank (sampleMeta 1 1 [("aa", 0)])) (rank entry.2) = .lt := by
      decide +kernel
    exact every (other.blockHash, other) (ExtTreeMap.mem_toList_iff_getElem?_eq_some.mpr rival.held)
  · intro hash _ account hashes stored
    have none : (run recordedStep ({}, []) (plainCalls.take 3)).1.deferredByNonce.isEmpty =
        true := by decide +kernel
    have empty := ExtTreeMap.isEmpty_iff.mp none
    simp only [plainCalls, List.take_succ_cons, List.take_zero, run_cons, run_nil] at empty
    rw [empty] at stored
    simp at stored

def backwards : IterationOrder :=
  { IterationOrder.plain with setIds := ⟨List.reverse, List.reverse_perm⟩ }

def wokenLoser : List Call :=
  [.admitBlock .plain (sampleMeta 2 2 [("aa", 1)]), .drain ∅,
    .admitBlock .plain (sampleMeta 1 1 [("aa", 1), ("bb", 5)]),
    .admitBlock .plain (sampleMeta 3 3 [("aa", 0)]), .drain ∅, .wake .plain ∅]

def mixedLoser : List Call :=
  [.admitBlock .plain (sampleMeta 1 1 [("aa", 0), ("bb", 1)]),
    .admitBlock .plain (sampleMeta 3 3 [("cc", 0)]),
    .admitBlock backwards (sampleMeta 2 2 [("aa", 0), ("cc", 0)])]

def forgottenLoser : List Call :=
  [.admitBlock .plain (sampleMeta 1 2 [("aa", 0), ("cc", 0)]),
    .admitBlock .plain (sampleMeta 2 3 [("aa", 0)]),
    .admitBlock .plain (sampleMeta 3 1 [("cc", 0)]), .gc 10,
    .admitBlock .plain (sampleMeta 2 3 [("aa", 0)])]

/-- The second block has lost a set, and the next drain commits it. -/
def SecondReturns (calls : List Call) : Prop :=
  Vector.replicate 64 2 ∈ lostBefore calls ∧
    Vector.replicate 64 2 ∈ ((run step {} calls).drainReady ∅).2.map Prod.fst

instance (calls : List Call) : Decidable (SecondReturns calls) :=
  inferInstanceAs (Decidable (_ ∧ _))

theorem losers_come_back :
    SecondReturns wokenLoser ∧ SecondReturns mixedLoser ∧ SecondReturns forgottenLoser := by
  refine ⟨?_, ?_, ?_⟩ <;> decide +kernel

end Savitri.SchedulerLosers
