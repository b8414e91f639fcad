import Mathlib

/-!
Items that arrive one by one and push each other out. An arriving item pushes
out the worse live items it clashes with; it stays when it meets no better one,
goes when it meets only better ones, and may do either when it meets both kinds.
An item that has gone no longer counts, so the order of arrival can matter. The
main result says exactly when it does not. Smaller items are better.
-/
namespace Savitri.Arrivals
open Relation
variable {Item : Type*} [LinearOrder Item] (clash : Item → Item → Prop)

structure Arrives (live : Set Item) (item : Item) (next : Set Item) : Prop where
  others : ∀ other, other ≠ item →
    (other ∈ next ↔ other ∈ live ∧ ¬ (clash item other ∧ item < other))
  stays : (∀ other ∈ live, clash item other → item < other) → item ∈ next
  goes : (∃ other ∈ live, clash item other) →
    (∀ other ∈ live, clash item other → other < item) → item ∉ next

inductive Outcome : List Item → Set Item → Prop
  | start : Outcome [] ∅
  | arrive (front : List Item) (live : Set Item) (item : Item) (next : Set Item) :
      Outcome front live → item ∉ front → Arrives clash live item next →
      Outcome (front ++ [item]) next

def Unbeaten (item : Item) : Prop := ∀ other, clash item other → ¬ other < item

def Climbs : Item → Item → Prop := ReflTransGen fun low high => clash low high ∧ high < low

/-- The item can be live although the given better items have all arrived. Either
each of them that clashes with it can be pushed out first, by a chain of better
items that leads away from it; or the item arrives while some worse one it
clashes with can be live although those of them that clash with it have arrived. -/
inductive Escapes : Set Item → Item → Prop
  | alone (arrived : Set Item) (item : Item) :
      (∀ rival ∈ arrived, clash rival item →
        ∃ better, Climbs clash rival better ∧ ¬ clash better item) →
      Escapes arrived item
  | behind (arrived : Set Item) (item worse : Item) : clash item worse → item < worse →
      Escapes { rival | rival ∈ arrived ∧ clash rival item } worse → Escapes arrived item

variable {arrived live : Set Item} {item : Item} {front : List Item}

section
variable {clash}

theorem Escapes.weaken (escapes : Escapes clash arrived item)
    (fewer : Set Item) (within : ∀ rival ∈ fewer, clash rival item → rival ∈ arrived) :
    Escapes clash fewer item := by
  induction escapes generalizing fewer with
  | alone arrived item pushed =>
    apply Escapes.alone
    intro rival member clashes
    exact pushed rival (within rival member clashes) clashes
  | behind arrived item worse clashes below _ ih =>
    apply Escapes.behind fewer item worse clashes below
    apply ih
    rintro rival ⟨member, meets⟩ _
    exact ⟨within rival member meets, meets⟩

theorem Outcome.live_subset (outcome : Outcome clash front live) : ∀ item ∈ live, item ∈ front := by
  induction outcome with
  | start =>
    intro item member
    cases member
  | arrive front live item next _ _ arrives ih =>
    intro other member
    rw [List.mem_append, List.mem_singleton]
    by_cases here : other = item
    · exact Or.inr here
    · exact Or.inl (ih other ((arrives.others other here).mp member).1)

theorem Outcome.nodup (outcome : Outcome clash front live) : front.Nodup := by
  induction outcome with
  | start => exact List.nodup_nil
  | arrive front live item next _ fresh _ ih =>
    rw [← List.concat_eq_append]
    exact List.Nodup.concat fresh ih

theorem Outcome.beaten (symm : ∀ first second, clash first second → clash second first)
    (outcome : Outcome clash front live) :
    ∀ item ∈ front, item ∉ live → ∃ better ∈ front, clash item better ∧ better < item := by
  induction outcome with
  | start =>
    intro item member
    cases member
  | arrive front live item next before absent arrives ih =>
    intro other member gone
    by_cases here : other = item
    · subst here
      have notAll := mt arrives.stays gone
      push Not at notAll
      rcases notAll with ⟨rival, isLive, clashes, notWorse⟩
      have inFront := before.live_subset rival isLive
      refine ⟨rival, List.mem_append_left _ inFront, clashes, lt_of_le_of_ne notWorse ?_⟩
      rintro rfl
      exact absent inFront
    · have inFront : other ∈ front := by
        rw [List.mem_append, List.mem_singleton] at member
        exact member.resolve_right here
      by_cases wasLive : other ∈ live
      · rw [arrives.others other here] at gone
        have pushed : clash item other ∧ item < other := by
          by_contra apart
          exact gone ⟨wasLive, apart⟩
        exact ⟨item, List.mem_append_right _ List.mem_cons_self, symm _ _ pushed.1, pushed.2⟩
      · rcases ih other inFront wasLive with ⟨better, earlier, meets, below⟩
        exact ⟨better, List.mem_append_left _ earlier, meets, below⟩

end

section
variable {clash} [Finite Item] (symm : ∀ first second, clash first second → clash second first)
include symm

/-- Where no live item beats the new one, everything that would is gone, pushed
out by chains that lead away from it. -/
theorem pushed_away (outcome : Outcome clash front live) (item : Item)
    (free : ∀ other ∈ live, clash item other → ¬ other < item) (rival : Item) :
    rival ∈ front → rival < item → clash rival item →
      ∃ better, Climbs clash rival better ∧ ¬ clash better item := by
  induction rival using WellFoundedLT.induction with
  | ind rival ih =>
    intro inFront below clashes
    have gone : rival ∉ live := fun isLive => free rival isLive (symm _ _ clashes) below
    rcases outcome.beaten symm rival inFront gone with ⟨better, earlier, meets, lower⟩
    by_cases again : clash better item
    · rcases ih better lower earlier (lower.trans below) again with ⟨last, climbs, away⟩
      exact ⟨last, climbs.head ⟨meets, lower⟩, away⟩
    · exact ⟨better, ReflTransGen.single ⟨meets, lower⟩, again⟩

theorem Outcome.escapes (outcome : Outcome clash front live) :
    ∀ item ∈ live, Escapes clash { rival | rival ∈ front ∧ rival < item } item := by
  induction outcome with
  | start =>
    intro item member
    cases member
  | arrive front live item next before absent arrives ih =>
    intro other stays
    by_cases here : other = item
    · subst here
      have fromFront : ∀ rival, rival ∈ front ++ [other] → rival < other → rival ∈ front := by
        intro rival member below
        rw [List.mem_append, List.mem_singleton] at member
        exact member.resolve_right below.ne
      by_cases free : ∀ rival ∈ live, clash other rival → ¬ rival < other
      · apply Escapes.alone
        rintro rival ⟨member, below⟩ clashes
        exact pushed_away symm before other free rival (fromFront rival member below) below clashes
      · -- It meets a better item and stays, so it also meets a worse one.
        push Not at free
        rcases free with ⟨better, isLive, meets, _⟩
        have notAll : ¬ ∀ rival ∈ live, clash other rival → rival < other := fun every =>
          arrives.goes ⟨better, isLive, meets⟩ every stays
        push Not at notAll
        rcases notAll with ⟨worse, worseLive, clashes, above⟩
        have differ : other ≠ worse := by
          rintro rfl
          exact absent (before.live_subset other worseLive)
        have below : other < worse := lt_of_le_of_ne above differ
        apply Escapes.behind _ other worse clashes below
        apply (ih worse worseLive).weaken
        rintro rival ⟨⟨member, lower⟩, _⟩ _
        exact ⟨fromFront rival member lower, lower.trans below⟩
    · rcases (arrives.others other here).mp stays with ⟨wasLive, kept⟩
      apply (ih other wasLive).weaken
      rintro rival ⟨member, below⟩ clashes
      rw [List.mem_append, List.mem_singleton] at member
      rcases member with earlier | rfl
      · exact ⟨earlier, below⟩
      · exact absurd ⟨clashes, below⟩ kept

end

section Lower
theorem exists_arrives (live : Set Item) (item : Item) :
    ∃ next, Arrives clash live item next ∧
      ((∃ worse ∈ live, clash item worse ∧ item < worse) → item ∈ next) := by
  by_cases forced : (∃ other ∈ live, clash item other) ∧
      ∀ other ∈ live, clash item other → other < item
  · refine ⟨{ other | other ≠ item ∧ other ∈ live ∧ ¬ (clash item other ∧ item < other) },
      ⟨?_, ?_, ?_⟩, ?_⟩
    · intro other differ
      simp [differ]
    · intro every
      rcases forced with ⟨⟨other, isLive, clashes⟩, better⟩
      exact absurd (every other isLive clashes) (better other isLive clashes).not_gt
    · intro _ _ member
      exact member.1 rfl
    · rintro ⟨worse, isLive, clashes, below⟩
      exact absurd below (forced.2 worse isLive clashes).not_gt
  · refine ⟨{ other | other = item ∨ (other ∈ live ∧ ¬ (clash item other ∧ item < other)) },
      ⟨?_, ?_, ?_⟩, ?_⟩
    · intro other differ
      simp [differ]
    · intro _
      exact Or.inl rfl
    · intro meets every
      exact absurd ⟨meets, every⟩ forced
    · intro _
      exact Or.inl rfl

variable {clash}

theorem Outcome.extend (outcome : Outcome clash front live)
    (item : Item) (isLive : item ∈ live) (more : List Item)
    (harmless : ∀ other ∈ more, ¬ (clash other item ∧ other < item)) :
    ∃ later after, Outcome clash later after ∧ item ∈ after ∧
      ∀ other, other ∈ later ↔ other ∈ front ∨ other ∈ more := by
  induction more generalizing front live with
  | nil => exact ⟨front, live, outcome, isLive, by simp⟩
  | cons head rest ih =>
    rw [List.forall_mem_cons] at harmless
    by_cases known : head ∈ front
    · rcases ih outcome isLive harmless.2 with ⟨later, after, reached, stays, listed⟩
      refine ⟨later, after, reached, stays, ?_⟩
      intro other
      rw [listed, List.mem_cons]
      constructor
      · rintro (earlier | inRest)
        · exact Or.inl earlier
        · exact Or.inr (Or.inr inRest)
      · rintro (earlier | rfl | inRest)
        · exact Or.inl earlier
        · exact Or.inl known
        · exact Or.inr inRest
    · rcases exists_arrives clash live head with ⟨next, arrives, _⟩
      have differ : item ≠ head := by
        rintro rfl
        exact known (outcome.live_subset item isLive)
      have stillLive := (arrives.others item differ).mpr ⟨isLive, harmless.1⟩
      rcases ih (outcome.arrive front live head next known arrives) stillLive harmless.2 with
        ⟨later, after, reached, stays, listed⟩
      refine ⟨later, after, reached, stays, ?_⟩
      intro other
      rw [listed, List.mem_append, List.mem_singleton, List.mem_cons, or_assoc]

variable (symm : ∀ first second, clash first second → clash second first)
include symm

/-- Items that arrive worst first: those remain that none of the others beats. -/
theorem worst_first (items : Finset Item) :
    ∃ front live, Outcome clash front live ∧ (∀ item, item ∈ front ↔ item ∈ items) ∧
      ∀ item, item ∈ live ↔ item ∈ items ∧ ∀ other ∈ items, clash item other → ¬ other < item := by
  induction items using Finset.induction_on_min with
  | empty => exact ⟨[], ∅, Outcome.start, by simp, by simp⟩
  | insert best rest lowest ih =>
    rcases ih with ⟨front, live, outcome, listed, remaining⟩
    rcases exists_arrives clash live best with ⟨next, arrives, _⟩
    have fresh : best ∉ front := fun member => (lowest best ((listed best).mp member)).false
    refine ⟨front ++ [best], next, outcome.arrive front live best next fresh arrives, ?_, ?_⟩
    · intro item
      rw [List.mem_append, List.mem_singleton, listed, Finset.mem_insert, or_comm]
    · intro item
      by_cases here : item = best
      · subst here
        refine iff_of_true (arrives.stays ?_) ⟨Finset.mem_insert_self _ _, ?_⟩
        · intro other isLive _
          exact lowest other ((remaining other).mp isLive).1
        · intro other member _ below
          rcases Finset.mem_insert.mp member with rfl | inRest
          · exact below.false
          · exact (lowest other inRest).not_gt below
      · rw [arrives.others item here, remaining, Finset.mem_insert, or_iff_right here,
          Finset.forall_mem_insert, and_assoc]
        refine and_congr_right fun inRest => ?_
        have below := lowest item inRest
        constructor
        · rintro ⟨unbeaten, apart⟩
          exact ⟨fun clashes => absurd ⟨symm _ _ clashes, below⟩ apart, unbeaten⟩
        · rintro ⟨apart, unbeaten⟩
          exact ⟨unbeaten, fun pushed => apart (symm _ _ pushed.1) below⟩

variable [Finite Item]

/-- Where every rival leads away from the item, those better than the bound arrive worst
first and push each other out before the item comes. -/
theorem reached_alone (pushed : ∀ rival ∈ arrived, clash rival item →
      ∃ better, Climbs clash rival better ∧ ¬ clash better item) (bound : Item)
    (below : ∀ rival ∈ arrived, rival < bound) (above : bound ≤ item) :
    ∃ front live, Outcome clash front live ∧ item ∈ live ∧ (∀ rival ∈ arrived, rival ∈ front) ∧
      ∀ other ∈ front, other < bound ∨ item ≤ other := by
  classical
  have := Fintype.ofFinite Item
  let away := Finset.univ.filter fun other => other < bound ∧
    ∃ better, Climbs clash other better ∧ ¬ clash better item
  rcases worst_first symm away with ⟨front, live, outcome, listed, remaining⟩
  rcases exists_arrives clash live item with ⟨next, arrives, _⟩
  have bounded : ∀ other ∈ front, other < bound := fun other member =>
    (Finset.mem_filter.mp ((listed other).mp member)).2.1
  have fresh : item ∉ front := fun member => (bounded item member).not_ge above
  -- What is left of the pushed items leads away from this one already.
  have apart : ∀ other ∈ live, ¬ clash item other := by
    intro other isLive clashes
    rcases (remaining other).mp isLive with ⟨member, unbeaten⟩
    rcases (Finset.mem_filter.mp member).2 with ⟨lower, better, climbs, leads⟩
    rcases climbs.cases_head with rfl | ⟨next, ⟨meets, higher⟩, rest⟩
    · exact leads (symm _ _ clashes)
    · exact unbeaten next (Finset.mem_filter.mpr ⟨Finset.mem_univ _, higher.trans lower,
        better, rest, leads⟩) meets higher
  refine ⟨front ++ [item], next, outcome.arrive front live item next fresh arrives,
    arrives.stays fun other isLive clashes => absurd clashes (apart other isLive), ?_, ?_⟩
  · intro rival member
    apply List.mem_append_left
    rw [listed, Finset.mem_filter]
    refine ⟨Finset.mem_univ _, below rival member, ?_⟩
    by_cases clashes : clash rival item
    · exact pushed rival member clashes
    · exact ⟨rival, ReflTransGen.refl, clashes⟩
  · intro other member
    rw [List.mem_append, List.mem_singleton] at member
    rcases member with earlier | rfl
    · exact Or.inl (bounded other earlier)
    · exact Or.inr le_rfl

/-- An item that escapes is live after some arrivals of the kind: better ones than
the bound, and none of those between the bound and the item. -/
theorem Escapes.reached (escapes : Escapes clash arrived item) (bound : Item)
    (below : ∀ rival ∈ arrived, rival < bound) (above : bound ≤ item) :
    ∃ front live, Outcome clash front live ∧ item ∈ live ∧ (∀ rival ∈ arrived, rival ∈ front) ∧
      ∀ other ∈ front, other < bound ∨ item ≤ other := by
  classical
  have := Fintype.ofFinite Item
  induction escapes with
  | alone arrived item pushed => exact reached_alone symm pushed bound below above
  | behind arrived item worse clashes lower _ ih =>
    rcases ih (fun rival member => below rival member.1) (above.trans lower.le) with
      ⟨front, live, outcome, worseLive, listed, bounded⟩
    rcases exists_arrives clash live item with ⟨next, arrives, mayStay⟩
    have stays := mayStay ⟨worse, worseLive, clashes, lower⟩
    have fresh : item ∉ front := by
      intro member
      rcases bounded item member with lower' | higher
      · exact lower'.not_ge above
      · exact lower.not_ge higher
    let rest := (Finset.univ.filter fun rival => rival ∈ arrived ∧ ¬ clash rival item).toList
    rcases (outcome.arrive front live item next fresh arrives).extend item stays rest
      (by intro other member pushes
          exact (Finset.mem_filter.mp (Finset.mem_toList.mp member)).2.2 pushes.1) with
      ⟨later, after, reached, isLive, whole⟩
    refine ⟨later, after, reached, isLive, ?_, ?_⟩
    · intro rival member
      rw [whole]
      by_cases meets : clash rival item
      · exact Or.inl (List.mem_append_left _ (listed rival ⟨member, meets⟩))
      · exact Or.inr (Finset.mem_toList.mpr (Finset.mem_filter.mpr ⟨Finset.mem_univ _, member, meets⟩))
    · intro other member
      rw [whole, List.mem_append, List.mem_singleton] at member
      rcases member with (earlier | rfl) | inRest
      · rcases bounded other earlier with small | large
        · exact Or.inl small
        · exact Or.inr (lower.le.trans large)
      · exact Or.inr le_rfl
      · exact Or.inl (below other (Finset.mem_filter.mp (Finset.mem_toList.mp inRest)).2.1)

end Lower

section Main
variable {clash} [Finite Item] (symm : ∀ first second, clash first second → clash second first)
include symm

omit [Finite Item] in
theorem Outcome.unbeaten_live
    (outcome : Outcome clash front live) (item : Item) (arrived : item ∈ front)
    (unbeaten : Unbeaten clash item) : item ∈ live := by
  by_contra gone
  rcases outcome.beaten symm item arrived gone with ⟨better, _, clashes, below⟩
  exact unbeaten better clashes below

theorem Escapes.complete (item : Item) (escapes : Escapes clash { rival | rival < item } item) :
    ∃ front live, Outcome clash front live ∧ (∀ other, other ∈ front) ∧ item ∈ live := by
  classical
  have := Fintype.ofFinite Item
  rcases escapes.reached symm item (fun _ below => below) le_rfl with
    ⟨front, live, outcome, isLive, listed, _⟩
  let rest := (Finset.univ.filter fun other => other ∉ front).toList
  rcases outcome.extend item isLive rest
    (by intro other member pushes
        exact (Finset.mem_filter.mp (Finset.mem_toList.mp member)).2 (listed other pushes.2)) with
    ⟨later, after, reached, stays, whole⟩
  refine ⟨later, after, reached, ?_, stays⟩
  intro other
  rw [whole]
  by_cases known : other ∈ front
  · exact Or.inl known
  · exact Or.inr (Finset.mem_toList.mpr (Finset.mem_filter.mpr ⟨Finset.mem_univ _, known⟩))

theorem outcomes_agree_iff :
    (∀ front live other after, Outcome clash front live → (∀ item, item ∈ front) →
      Outcome clash other after → (∀ item, item ∈ other) → live = after) ↔
    ∀ item, Escapes clash { rival | rival < item } item → Unbeaten clash item := by
  classical
  have := Fintype.ofFinite Item
  constructor
  · intro agree item escapes
    rcases escapes.complete symm item with ⟨front, live, outcome, complete, isLive⟩
    rcases worst_first symm Finset.univ with ⟨other, after, worst, listed, remaining⟩
    rw [agree front live other after outcome complete worst (by simp [listed]), remaining] at isLive
    intro rival
    exact isLive.2 rival (Finset.mem_univ _)
  · intro guarded
    have settled : ∀ front live, Outcome clash front live → (∀ item, item ∈ front) →
        live = { item | Unbeaten clash item } := by
      intro front live outcome complete
      ext item
      constructor
      · intro isLive
        apply guarded item
        apply (outcome.escapes symm item isLive).weaken
        intro rival below _
        exact ⟨complete rival, below⟩
      · exact outcome.unbeaten_live symm item (complete item)
    intro front live other after first complete second whole
    rw [settled front live first complete, settled other after second whole]

/-- Where clashes pass on to worse items, only unbeaten items escape. -/
theorem unbeaten_of_triples
    (closed : ∀ first second third, first < second → second < third → clash first second →
      clash second third → clash first third)
    (escapes : Escapes clash { rival | rival < item } item) : Unbeaten clash item := by
  -- An escaping item clashes with no unbeaten one among those that have arrived.
  have apart : ∀ arrived item, Escapes clash arrived item → ∀ rival ∈ arrived, rival < item →
      Unbeaten clash rival → ¬ clash rival item := by
    intro arrived item escapes
    induction escapes with
    | alone arrived item pushed =>
      intro rival member below unbeaten clashes
      rcases pushed rival member clashes with ⟨better, climbs, away⟩
      rcases climbs.cases_head with rfl | ⟨next, ⟨meets, higher⟩, _⟩
      · exact away clashes
      · exact unbeaten next meets higher
    | behind arrived item worse meets lower _ ih =>
      intro rival member below unbeaten clashes
      exact ih rival ⟨member, clashes⟩ (below.trans lower) unbeaten
        (closed rival item worse below lower clashes meets)
  intro rival
  -- The best of the better rivals would be unbeaten.
  induction rival using WellFoundedLT.induction with
  | ind rival ih =>
    intro clashes below
    apply apart _ item escapes rival below below _ (symm _ _ clashes)
    intro better meets higher
    exact ih better higher (symm _ _ (closed better rival item higher below (symm _ _ meets)
      (symm _ _ clashes))) (higher.trans below)

end Main

end Savitri.Arrivals
