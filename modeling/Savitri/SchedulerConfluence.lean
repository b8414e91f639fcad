import Savitri.Arrivals
import Savitri.SchedulerAdmission

/-!
A collection of blocks admitted to a fresh scheduler in any order. The scheduler
does what its blocks do as arriving items that push each other out, where better
means earlier in the order of the winners and a clash is a shared key, and every
outcome of the arrivals is one of the scheduler under some walks over its hash
tables. So the arrivals decide when the order of admission does not matter.
-/
namespace Savitri.SchedulerConfluence
open Transition ConflictKeys Scheduler CommitScheduler SchedulerAdmission Arrivals

structure Collection where
  blocks : List ExecutedBlockMeta
  distinct : (blocks.map ExecutedBlockMeta.blockHash).Nodup

abbrev Member (collection : Collection) := { block // block ∈ collection.blocks }

section
variable {collection : Collection}
variable (first second : Member collection)

theorem member_ext (same : first.1.blockHash = second.1.blockHash) : first = second :=
  Subtype.ext (List.inj_on_of_nodup_map collection.distinct first.2 second.2 same)

instance : IsStrictTotalOrder (Member collection) fun first second =>
    Precedes first.1 second.1 where
  trichotomous first second notFirst notSecond := by
    apply member_ext
    by_contra differ
    rcases precedes_total first.1 second.1 differ with before | after
    · exact notFirst before
    · exact notSecond after
  irrefl block precedes := precedes_asymm precedes precedes
  trans first second third := precedes_trans

noncomputable instance : LinearOrder (Member collection) :=
  open Classical in linearOrderOfSTO fun first second => Precedes first.1 second.1

instance : Finite (Member collection) := (List.finite_toSet collection.blocks).to_subtype

def Clash (first second : Member collection) : Prop := Conflicts first.1 second.1

theorem clash_symm (clash : Clash first second) : Clash second first :=
  conflicts_symm clash

end

section Mirror
variable {collection : Collection}

def Unmarked (scheduler : CommitScheduler) (hash : BlockHash) : Prop :=
  ∃ block, scheduler.blockMeta[hash]? = some block ∧ block.status ≠ .resolvedLoser

/-- The scheduler after the arrivals of the front, with the live ones open and the
others marked as losers. -/
structure Mirrors (scheduler : CommitScheduler) (front : List (Member collection))
    (live : Set (Member collection)) : Prop where
  settled : Settled scheduler
  uncommitted : scheduler.committedBlocks = []
  arrived : ∀ member ∈ live, member ∈ front
  held : ∀ member ∈ front, ∃ status,
    scheduler.blockMeta[member.1.blockHash]? = some { member.1 with status } ∧
      (member ∈ live → status.closed = false) ∧ (member ∉ live → status = .resolvedLoser)
  only : ∀ (hash : BlockHash) (block : ExecutedBlockMeta),
    scheduler.blockMeta[hash]? = some block → ∃ member ∈ front, member.1.blockHash = hash

theorem empty_mirrors : Mirrors {} ([] : List (Member collection)) ∅ := by
  constructor
  · exact empty_settled
  · rfl
  · intro member isLive
    cases isLive
  · intro member inFront
    cases inFront
  · intro hash block found
    simp at found

variable {scheduler : CommitScheduler} {front : List (Member collection)}
  {live : Set (Member collection)} (mirrors : Mirrors scheduler front live)
include mirrors

theorem Mirrors.unmarked_iff (hash : BlockHash) :
    Unmarked scheduler hash ↔ ∃ member ∈ live, member.1.blockHash = hash := by
  constructor
  · rintro ⟨block, found, kept⟩
    rcases mirrors.only hash block found with ⟨member, inFront, rfl⟩
    rcases mirrors.held member inFront with ⟨status, stored, _, gone⟩
    rw [stored, Option.some.injEq] at found
    subst found
    refine ⟨member, ?_, rfl⟩
    by_contra notLive
    exact kept (gone notLive)
  · rintro ⟨member, isLive, rfl⟩
    rcases mirrors.held member (mirrors.arrived member isLive) with ⟨status, stored, isOpen, _⟩
    refine ⟨_, stored, ?_⟩
    intro loser
    have closed := isOpen isLive
    rw [show status = .resolvedLoser from loser] at closed
    cases closed

variable (item : Member collection) (order : IterationOrder)

theorem Mirrors.unknown (fresh : item ∉ front) : scheduler.isKnown item.1.blockHash = false := by
  have absent : scheduler.blockMeta[item.1.blockHash]? = none := by
    cases found : scheduler.blockMeta[item.1.blockHash]? with
    | none => rfl
    | some block =>
      rcases mirrors.only _ block found with ⟨member, inFront, same⟩
      exact absurd (member_ext member item same ▸ inFront) fresh
  rw [isKnown, Std.ExtTreeMap.contains_eq_isSome_getElem?, absent, mirrors.uncommitted]
  rfl

theorem Mirrors.rival_of_live (member : Member collection) (isLive : member ∈ live)
    (clash : Clash item member) : ∃ status, Rival scheduler item.1 { member.1 with status } := by
  rcases mirrors.held member (mirrors.arrived member isLive) with ⟨status, stored, isOpen, _⟩
  exact ⟨status, stored, isOpen isLive, clash⟩

theorem Mirrors.live_of_rival (other : ExecutedBlockMeta) (rival : Rival scheduler item.1 other) :
    ∃ member ∈ live, Clash item member ∧ ∃ status, other = { member.1 with status } := by
  rcases mirrors.only _ other rival.held with ⟨member, inFront, same⟩
  rcases mirrors.held member inFront with ⟨status, stored, _, gone⟩
  have equal : other = { member.1 with status } := by
    rw [same, rival.held, Option.some.injEq] at stored
    exact stored
  refine ⟨member, ?_, ?_, status, equal⟩
  · by_contra notLive
    have isOpen := rival.live
    rw [equal] at isOpen
    rw [show status = .resolvedLoser from gone notLive] at isOpen
    cases isOpen
  · have conflict := rival.conflict
    rw [equal] at conflict
    exact conflict

theorem Mirrors.held_after (fresh : item ∉ front) (next : CommitScheduler)
    (admitted : Admitted scheduler item.1 next) (member : Member collection)
    (inFront : member ∈ front) :
    ∃ status, next.blockMeta[member.1.blockHash]? = some { member.1 with status } ∧
      ((member ∈ live ∧ ¬ (Clash item member ∧ item < member)) → status.closed = false) ∧
      (¬ (member ∈ live ∧ ¬ (Clash item member ∧ item < member)) → status = .resolvedLoser) := by
  have notSelf : member.1.blockHash ≠ item.1.blockHash := fun same =>
    fresh (member_ext member item same ▸ inFront)
  by_cases meets : member ∈ live ∧ Clash item member
  · rcases mirrors.rival_of_live item member meets.1 meets.2 with ⟨status, rival⟩
    rcases precedes_total member.1 item.1 notSelf with wins | loses
    · refine ⟨.resolvedWinner, (admitted.winners { member.1 with status } rival wins).1,
        fun _ => rfl, fun pushed => ?_⟩
      exact absurd ⟨meets.1, fun lost => precedes_asymm wins lost.2⟩ pushed
    · refine ⟨.resolvedLoser, admitted.losers { member.1 with status } rival loses,
        fun kept => ?_, fun _ => rfl⟩
      exact absurd ⟨meets.2, loses⟩ kept.2
  · rcases mirrors.held member inFront with ⟨status, stored, isOpen, gone⟩
    refine ⟨status, ?_, fun kept => isOpen kept.1, fun pushed => gone fun isLive => pushed ?_⟩
    · rw [admitted.others _ notSelf, stored]
      intro other rival same
      rcases mirrors.live_of_rival item other rival with ⟨near, isLive, clash, status, rfl⟩
      rw [member_ext near member same] at isLive clash
      exact meets ⟨isLive, clash⟩
    · exact ⟨isLive, fun lost => meets ⟨isLive, lost.1⟩⟩

theorem Mirrors.arrive (item : Member collection) (fresh : item ∉ front)
    (next : Set (Member collection)) (others : ∀ other, other ≠ item →
      (other ∈ next ↔ other ∈ live ∧ ¬ (Clash item other ∧ item < other))) (self : item ∈ next ↔
      Unmarked (scheduler.admitBlock order item.1).1 item.1.blockHash) :
    Mirrors (scheduler.admitBlock order item.1).1 (front ++ [item]) next := by
  have admitted := admitBlock_admitted order scheduler item.1 mirrors.settled
    (mirrors.unknown item fresh)
  constructor
  · exact admitted.settled
  · rw [admitted.committed]
    exact mirrors.uncommitted
  · intro member isLive
    rw [List.mem_append, List.mem_singleton]
    by_cases here : member = item
    · exact Or.inr here
    · exact Or.inl (mirrors.arrived member ((others member here).mp isLive).1)
  · intro member inFront
    by_cases here : member = item
    · subst here
      rcases admitted.self with ⟨status, stored, outcome, _⟩
      refine ⟨status, stored, fun stays => ?_, fun goes => ?_⟩
      · rcases self.mp stays with ⟨block, found, kept⟩
        rw [stored, Option.some.injEq] at found
        subst found
        exact (outcome.resolve_left kept).1
      · by_contra kept
        exact goes (self.mpr ⟨_, stored, kept⟩)
    · rw [List.mem_append, List.mem_singleton, or_iff_left here] at inFront
      rw [others member here]
      exact mirrors.held_after item fresh _ admitted member inFront
  · intro hash block found
    by_cases here : hash = item.1.blockHash
    · exact ⟨item, List.mem_append_right _ List.mem_cons_self, here.symm⟩
    · by_cases rivals : ∃ other, Rival scheduler item.1 other ∧ other.blockHash = hash
      · rcases rivals with ⟨other, rival, rfl⟩
        rcases mirrors.live_of_rival item other rival with ⟨member, isLive, _, status, rfl⟩
        exact ⟨member, List.mem_append_left _ (mirrors.arrived member isLive), rfl⟩
      · rw [admitted.others hash here fun other rival same => rivals ⟨other, rival, same⟩] at found
        rcases mirrors.only hash block found with ⟨member, inFront, same⟩
        exact ⟨member, List.mem_append_left _ inFront, same⟩

theorem Mirrors.simulated (item : Member collection) (fresh : item ∉ front) :
    ∃ next, Arrives Clash live item next ∧
      Mirrors (scheduler.admitBlock order item.1).1 (front ++ [item]) next := by
  have admitted := admitBlock_admitted order scheduler item.1 mirrors.settled
    (mirrors.unknown item fresh)
  let after := (scheduler.admitBlock order item.1).1
  let next : Set (Member collection) := { other |
    (other ≠ item ∧ other ∈ live ∧ ¬ (Clash item other ∧ item < other)) ∨
      (other = item ∧ Unmarked after item.1.blockHash) }
  have others : ∀ other, other ≠ item →
      (other ∈ next ↔ other ∈ live ∧ ¬ (Clash item other ∧ item < other)) := by
    intro other differ
    simp [next, differ]
  have self : item ∈ next ↔ Unmarked after item.1.blockHash := by simp [next]
  refine ⟨next, ⟨others, ?_, ?_⟩, mirrors.arrive order item fresh next others self⟩
  · intro every
    rcases admitted.self with ⟨status, stored, _, _, wins⟩
    refine self.mpr ⟨_, stored, wins ?_⟩
    intro other rival
    rcases mirrors.live_of_rival item other rival with ⟨member, isLive, clash, status, rfl⟩
    exact every member isLive clash
  · rintro ⟨member, isLive, clash⟩ every stays
    rcases mirrors.rival_of_live item member isLive clash with ⟨status, rival⟩
    rcases admitted.self with ⟨own, stored, _, loses, _⟩
    rcases self.mp stays with ⟨block, found, kept⟩
    rw [stored, Option.some.injEq] at found
    subst found
    apply kept
    apply loses ⟨_, rival⟩
    intro other near
    rcases mirrors.live_of_rival item other near with ⟨earlier, wasLive, meets, status, rfl⟩
    exact every earlier wasLive meets

theorem Mirrors.realised (fresh : item ∉ front) (next : Set (Member collection))
    (arrives : Arrives Clash live item next) :
    ∃ order, Mirrors (scheduler.admitBlock order item.1).1 (front ++ [item]) next := by
  have unknown := mirrors.unknown item fresh
  have decided : ∃ order, item ∈ next ↔
      Unmarked (scheduler.admitBlock order item.1).1 item.1.blockHash := by
    by_cases stays : item ∈ next
    · by_cases worse : ∃ member ∈ live, Clash item member ∧ item < member
      · rcases worse with ⟨member, isLive, clash, below⟩
        rcases mirrors.rival_of_live item member isLive clash with ⟨status, rival⟩
        rcases admitBlock_decided scheduler item.1 mirrors.settled unknown _ rival with
          ⟨order, own, stored, _, wins⟩
        refine ⟨order, iff_of_true stays ⟨_, stored, ?_⟩⟩
        rw [show own = .resolvedWinner from wins below]
        simp
      · -- It stays and meets no worse one, so it meets none at all.
        have alone : ∀ other, ¬ Rival scheduler item.1 other := by
          intro other rival
          rcases mirrors.live_of_rival item other rival with ⟨member, isLive, clash, status, rfl⟩
          refine arrives.goes ⟨member, isLive, clash⟩ (fun near wasLive meets => ?_) stays
          by_contra notBetter
          apply worse
          refine ⟨near, wasLive, meets, lt_of_le_of_ne (not_lt.mp notBetter) ?_⟩
          rintro rfl
          exact fresh (mirrors.arrived _ wasLive)
        rcases (admitBlock_admitted .plain scheduler item.1 mirrors.settled unknown).self with
          ⟨own, stored, _, _, wins⟩
        exact ⟨.plain, iff_of_true stays ⟨_, stored, wins fun other rival =>
          absurd rival (alone other)⟩⟩
    · have notWorse := mt arrives.stays stays
      push Not at notWorse
      rcases notWorse with ⟨member, isLive, clash, notAbove⟩
      have below : member < item := by
        refine lt_of_le_of_ne notAbove ?_
        rintro rfl
        exact fresh (mirrors.arrived _ isLive)
      rcases mirrors.rival_of_live item member isLive clash with ⟨status, rival⟩
      rcases admitBlock_decided scheduler item.1 mirrors.settled unknown _ rival with
        ⟨order, own, stored, loses, _⟩
      refine ⟨order, iff_of_false stays ?_⟩
      rintro ⟨block, found, kept⟩
      rw [stored, Option.some.injEq] at found
      subst found
      exact kept (loses below)
  rcases decided with ⟨order, self⟩
  exact ⟨order, mirrors.arrive order item fresh next arrives.others self⟩

end Mirror

section
def admitAll (arrivals : List (IterationOrder × ExecutedBlockMeta)) : CommitScheduler :=
  run step {} (arrivals.map fun arrival => .admitBlock arrival.1 arrival.2)

theorem admitAll_concat {front : List (IterationOrder × ExecutedBlockMeta)}
    {last : IterationOrder × ExecutedBlockMeta} :
    admitAll (front ++ [last]) = ((admitAll front).admitBlock last.1 last.2).1 := by
  rw [admitAll, List.map_append, List.map_singleton, run_concat]
  rfl

variable {collection : Collection}

def blockArrivals (arrivals : List (IterationOrder × Member collection)) :
    List (IterationOrder × ExecutedBlockMeta) :=
  arrivals.map fun arrival => (arrival.1, arrival.2.1)

theorem admitAll_simulated {arrivals : List (IterationOrder × Member collection)}
    (distinct : (arrivals.map Prod.snd).Nodup) :
    ∃ live, Outcome Clash (arrivals.map Prod.snd) live ∧
      Mirrors (admitAll (blockArrivals arrivals)) (arrivals.map Prod.snd) live := by
  induction arrivals using List.reverseRecOn with
  | nil => exact ⟨∅, Outcome.start, empty_mirrors⟩
  | append_singleton front last ih =>
    rw [List.map_append, List.map_singleton] at distinct ⊢
    rcases ih (List.nodup_append.mp distinct).1 with ⟨live, outcome, mirrors⟩
    have fresh : last.2 ∉ front.map Prod.snd := fun member =>
      (List.nodup_append.mp distinct).2.2 last.2 member last.2 List.mem_cons_self rfl
    rcases mirrors.simulated last.1 last.2 fresh with ⟨next, arrives, after⟩
    refine ⟨next, outcome.arrive _ _ _ _ fresh arrives, ?_⟩
    rw [blockArrivals, List.map_append, List.map_singleton, admitAll_concat]
    exact after

variable {front : List (Member collection)} {live : Set (Member collection)}

theorem admitAll_realised (outcome : Outcome Clash front live) :
    ∃ arrivals : List (IterationOrder × Member collection), arrivals.map Prod.snd = front ∧
      Mirrors (admitAll (blockArrivals arrivals)) front live := by
  induction outcome with
  | start => exact ⟨[], rfl, empty_mirrors⟩
  | arrive front live item next _ fresh arrives ih =>
    rcases ih with ⟨arrivals, same, mirrors⟩
    rcases mirrors.realised item fresh next arrives with ⟨order, after⟩
    refine ⟨arrivals ++ [(order, item)], by rw [List.map_append, same]; rfl, ?_⟩
    rw [blockArrivals, List.map_append, List.map_singleton, admitAll_concat]
    exact after

def OrderFree (collection : Collection) : Prop :=
  ∀ first second : List (IterationOrder × ExecutedBlockMeta),
    (first.map Prod.snd).Perm collection.blocks → (second.map Prod.snd).Perm collection.blocks →
    ∀ hash, Unmarked (admitAll first) hash ↔ Unmarked (admitAll second) hash

theorem complete_outcome {arrivals : List (IterationOrder × ExecutedBlockMeta)}
    (perm : (arrivals.map Prod.snd).Perm collection.blocks) :
    ∃ (front : List (Member collection)) (live : Set (Member collection)),
      Outcome Clash front live ∧ (∀ member, member ∈ front) ∧
      Mirrors (admitAll arrivals) front live := by
  have inside : ∀ arrival ∈ arrivals, arrival.2 ∈ collection.blocks := fun arrival member =>
    perm.mem_iff.mp (List.mem_map_of_mem member)
  let members : List (IterationOrder × Member collection) :=
    arrivals.pmap (fun arrival member => (arrival.1, ⟨arrival.2, member⟩)) inside
  have same : blockArrivals members = arrivals := by
    rw [blockArrivals, List.map_pmap]
    simp
  have values : (members.map Prod.snd).map Subtype.val = arrivals.map Prod.snd := by
    rw [List.map_map, ← same, blockArrivals, List.map_map]
    rfl
  have distinct : (members.map Prod.snd).Nodup := by
    apply List.Nodup.of_map Subtype.val
    rw [values]
    exact perm.nodup_iff.mpr (List.Nodup.of_map _ collection.distinct)
  rcases admitAll_simulated distinct with ⟨live, outcome, mirrors⟩
  rw [same] at mirrors
  refine ⟨members.map Prod.snd, live, outcome, ?_, mirrors⟩
  intro member
  have listed : member.1 ∈ (members.map Prod.snd).map Subtype.val := by
    rw [values]
    exact perm.mem_iff.mpr member.2
  rcases List.mem_map.mp listed with ⟨other, inMembers, equal⟩
  rw [← Subtype.ext equal]
  exact inMembers

theorem outcome_admitted (outcome : Outcome Clash front live)
    (complete : ∀ member, member ∈ front) :
    ∃ arrivals : List (IterationOrder × ExecutedBlockMeta),
      (arrivals.map Prod.snd).Perm collection.blocks ∧ Mirrors (admitAll arrivals) front live := by
  rcases admitAll_realised outcome with ⟨members, same, mirrors⟩
  refine ⟨blockArrivals members, ?_, mirrors⟩
  have values : (blockArrivals members).map Prod.snd = front.map Subtype.val := by
    rw [← same, blockArrivals, List.map_map, List.map_map]
    rfl
  rw [values, List.perm_ext_iff_of_nodup (outcome.nodup.map Subtype.val_injective)
    (List.Nodup.of_map _ collection.distinct)]
  intro block
  rw [List.mem_map]
  constructor
  · rintro ⟨member, _, rfl⟩
    exact member.2
  · intro inside
    exact ⟨⟨block, inside⟩, complete _, rfl⟩

theorem orderFree_iff_agree :
    OrderFree collection ↔
      ∀ (front : List (Member collection)) (live : Set (Member collection))
        (other : List (Member collection)) (after : Set (Member collection)),
        Outcome Clash front live → (∀ item, item ∈ front) →
        Outcome Clash other after → (∀ item, item ∈ other) → live = after := by
  constructor
  · intro free front live other after first complete second whole
    rcases outcome_admitted first complete with ⟨arrivals, perm, mirrors⟩
    rcases outcome_admitted second whole with ⟨others, perm', mirrors'⟩
    ext member
    have same := free arrivals others perm perm' member.1.blockHash
    rw [mirrors.unmarked_iff, mirrors'.unmarked_iff] at same
    have here : ∀ set : Set (Member collection),
        (∃ near ∈ set, near.1.blockHash = member.1.blockHash) ↔ member ∈ set := by
      intro set
      constructor
      · rintro ⟨near, inside, equal⟩
        rw [← member_ext near member equal]
        exact inside
      · intro inside
        exact ⟨member, inside, rfl⟩
    rw [here, here] at same
    exact same
  · intro agree first second perm perm' hash
    rcases complete_outcome perm with ⟨front, live, outcome, complete, mirrors⟩
    rcases complete_outcome perm' with ⟨other, after, outcome', whole, mirrors'⟩
    rw [mirrors.unmarked_iff, mirrors'.unmarked_iff,
      agree front live other after outcome complete outcome' whole]

/-- The order of admission does not matter exactly when the only blocks of the
collection that escape from all better ones are those that no better one conflicts
with. -/
theorem order_free_iff (collection : Collection) :
    OrderFree collection ↔
      ∀ block : Member collection,
        Escapes Clash { rival | rival < block } block → Unbeaten Clash block := by
  rw [orderFree_iff_agree]
  exact outcomes_agree_iff clash_symm

theorem orderFree_of_triples (closed : ∀ first ∈ collection.blocks, ∀ second ∈ collection.blocks,
      ∀ third ∈ collection.blocks, Precedes first second → Precedes second third →
        Conflicts first second → Conflicts second third → Conflicts first third) :
    OrderFree collection := by
  rw [orderFree_iff_agree, outcomes_agree_iff clash_symm]
  refine fun block => unbeaten_of_triples clash_symm ?_
  intro first second third
  exact closed first.1 first.2 second.1 second.2 third.1 third.2

end

theorem rivals_order_free : OrderFree ⟨[sampleMeta 1 1 [("aa", 0)], sampleMeta 2 2 [("aa", 0)],
    sampleMeta 3 3 [("aa", 0)]], by decide +kernel⟩ := by
  apply orderFree_of_triples
  unfold Precedes Conflicts
  decide +kernel

def chain : Collection where
  blocks := [sampleMeta 1 1 [("aa", 0)], sampleMeta 2 2 [("aa", 0), ("bb", 0)],
    sampleMeta 3 3 [("bb", 0)]]
  distinct := by decide +kernel

def chainArrivals (blocks : List ExecutedBlockMeta) : List (IterationOrder × ExecutedBlockMeta) :=
  blocks.map fun block => (.plain, block)

def worstStatus (scheduler : CommitScheduler) : Option BlockStatus :=
  (scheduler.blockMeta[(Vector.replicate 64 3 : BlockHash)]?).map ExecutedBlockMeta.status

/-- Best first, the worst block finds its only rival gone; worst first, that rival
marks it before it goes itself. -/
theorem chain_order_matters :
    worstStatus (admitAll (chainArrivals chain.blocks)) = some .accepted ∧
      worstStatus (admitAll (chainArrivals chain.blocks.reverse)) = some .resolvedLoser ∧
      ¬ OrderFree chain := by
  have kept : worstStatus (admitAll (chainArrivals chain.blocks)) = some .accepted := by
    decide +kernel
  have marked : worstStatus (admitAll (chainArrivals chain.blocks.reverse)) =
      some .resolvedLoser := by decide +kernel
  refine ⟨kept, marked, ?_⟩
  intro free
  have listed : ∀ blocks, (chainArrivals blocks).map Prod.snd = blocks := by
    intro blocks
    rw [chainArrivals, List.map_map]
    exact List.map_id blocks
  have same := free (chainArrivals chain.blocks) (chainArrivals chain.blocks.reverse)
    (by rw [listed]) (by rw [listed]; exact List.reverse_perm _) (Vector.replicate 64 3)
  rcases Option.map_eq_some_iff.mp kept with ⟨block, found, status⟩
  rcases same.mp ⟨block, found, by rw [status]; simp⟩ with ⟨other, stored, unmarked⟩
  rw [worstStatus, stored, Option.map_some, Option.some.injEq] at marked
  exact unmarked marked

end Savitri.SchedulerConfluence
