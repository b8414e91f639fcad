import Mathlib

/-!
The best entry of a table of scores, kept up to date as single entries change. Of equal
scores the smaller key is the better one. A challenger is compared with the holder alone;
a holder whose own score changes has to be compared with every other entry again.
-/
namespace Savitri.RunningBest
open Std (ExtTreeMap LawfulEqCmp OrientedCmp TransCmp)
universe u v
variable {Key : Type u} {Score : Type v} [LinearOrder Score] {cmp : Key → Key → Ordering}

def Ahead (cmp : Key → Key → Ordering) (key : Key) (score : Score) (other : Key)
    (otherScore : Score) : Prop :=
  otherScore < score ∨ otherScore = score ∧ cmp key other = .lt

instance decidableAhead (key : Key) (score : Score) (other : Key) (otherScore : Score) :
    Decidable (Ahead cmp key score other otherScore) :=
  inferInstanceAs (Decidable (_ ∨ _))

theorem Ahead.trans [TransCmp cmp] {first second third : Key} {high middle low : Score}
    (one : Ahead cmp first high second middle) (two : Ahead cmp second middle third low) :
    Ahead cmp first high third low := by
  rcases one with above | ⟨rfl, less⟩
  · rcases two with below | ⟨rfl, _⟩
    · exact .inl (below.trans above)
    · exact .inl above
  · rcases two with below | ⟨rfl, after⟩
    · exact .inl below
    · exact .inr ⟨rfl, TransCmp.lt_trans less after⟩

theorem ahead_of_not_ahead [TransCmp cmp] [LawfulEqCmp cmp] {key other : Key}
    {score otherScore : Score} (different : other ≠ key)
    (behind : ¬ Ahead cmp other otherScore key score) : Ahead cmp key score other otherScore := by
  rcases lt_trichotomy otherScore score with below | same | above
  · exact .inl below
  · refine .inr ⟨same, ?_⟩
    cases order : cmp key other with
    | lt => rfl
    | eq => exact absurd (LawfulEqCmp.eq_of_compare order).symm different
    | gt => exact absurd (.inr ⟨same.symm, OrientedCmp.lt_of_gt order⟩) behind
  · exact absurd (.inl above) behind

variable [TransCmp cmp] (table : ExtTreeMap Key Score cmp)

structure Leads (key : Key) (score : Score) : Prop where
  held : table[key]? = some score
  ahead : ∀ other otherScore, other ≠ key → table[other]? = some otherScore →
    Ahead cmp key score other otherScore

def Tracked : Option Key → Option Score → Prop
  | none, none => ∀ key : Key, table[key]? = none
  | some key, some score => Leads table key score
  | _, _ => False

/-- The greatest score of the eligible keys, none where no eligible key has one. -/
def Greatest (eligible : Key → Prop) : Option Score → Prop
  | none => ∀ key, eligible key → table[key]? = none
  | some best =>
    (∃ key, eligible key ∧ table[key]? = some best) ∧
      ∀ key score, eligible key → table[key]? = some score → score ≤ best

section Updates
variable {table} [LawfulEqCmp cmp]

omit [LinearOrder Score] in
theorem getElem?_insert_other {key other : Key} (score : Score) (different : other ≠ key) :
    (table.insert key score)[other]? = table[other]? := by
  rw [ExtTreeMap.getElem?_insert, if_neg]
  intro same
  exact different (LawfulEqCmp.eq_of_compare same).symm

variable (eligible : Key → Prop) (key : Key) (score : Score)

theorem leads_insert_holder_iff :
    Leads (table.insert key score) key score ↔
      ∀ other otherScore, other ≠ key → table[other]? = some otherScore →
        Ahead cmp key score other otherScore := by
  constructor
  · intro leads other otherScore different found
    apply leads.ahead other otherScore different
    rwa [getElem?_insert_other score different]
  · intro ahead
    refine ⟨ExtTreeMap.getElem?_insert_self, ?_⟩
    intro other otherScore different found
    rw [getElem?_insert_other score different] at found
    exact ahead other otherScore different found

theorem leads_insert_first (empty : ∀ key : Key, table[key]? = none) :
    Leads (table.insert key score) key score := by
  rw [leads_insert_holder_iff]
  intro other otherScore _ found
  rw [empty other] at found
  exact absurd found (by simp)

variable {challenger : Key}

theorem Leads.overtaken {key : Key} {score new : Score} (leads : Leads table key score)
    (overtakes : Ahead cmp challenger new key score) :
    Leads (table.insert challenger new) challenger new := by
  rw [leads_insert_holder_iff]
  intro other otherScore _ found
  by_cases holder : other = key
  · subst holder
    rw [leads.held] at found
    exact Option.some.inj found ▸ overtakes
  · exact overtakes.trans (leads.ahead other otherScore holder found)

theorem Leads.stays {key : Key} {score new : Score} (leads : Leads table key score)
    (different : challenger ≠ key) (behind : ¬ Ahead cmp challenger new key score) :
    Leads (table.insert challenger new) key score := by
  constructor
  · rw [getElem?_insert_other new different.symm]
    exact leads.held
  · intro other otherScore notHolder found
    by_cases changed : other = challenger
    · subst changed
      rw [ExtTreeMap.getElem?_insert_self] at found
      exact Option.some.inj found ▸ ahead_of_not_ahead different behind
    · rw [getElem?_insert_other new changed] at found
      exact leads.ahead other otherScore notHolder found

theorem greatest_insert_iff {best : Score} (key : Key) (score : Score) (able : eligible key)
    (greatest : Greatest table eligible (some best)) :
    Greatest (table.insert key score) eligible (some (max best score)) ↔
      (score < best → ∃ other, other ≠ key ∧ eligible other ∧ table[other]? = some best) := by
  constructor
  · rintro ⟨⟨other, otherAble, found⟩, _⟩ fell
    rw [max_eq_left fell.le] at found
    have different : other ≠ key := by
      rintro rfl
      rw [ExtTreeMap.getElem?_insert_self] at found
      exact fell.ne (Option.some.inj found)
    rw [getElem?_insert_other score different] at found
    exact ⟨other, different, otherAble, found⟩
  · intro reached
    constructor
    · rcases lt_or_ge score best with fell | rose
      · obtain ⟨other, different, otherAble, found⟩ := reached fell
        refine ⟨other, otherAble, ?_⟩
        rw [getElem?_insert_other score different, max_eq_left fell.le]
        exact found
      · exact ⟨key, able, by rw [ExtTreeMap.getElem?_insert_self, max_eq_right rose]⟩
    · intro other otherScore otherAble found
      by_cases changed : other = key
      · subst changed
        rw [ExtTreeMap.getElem?_insert_self] at found
        exact Option.some.inj found ▸ le_max_right best score
      · rw [getElem?_insert_other score changed] at found
        exact (greatest.2 other otherScore otherAble found).trans (le_max_left best score)

theorem greatest_insert_first (able : eligible key) (greatest : Greatest table eligible none) :
    Greatest (table.insert key score) eligible (some score) := by
  refine ⟨⟨key, able, ExtTreeMap.getElem?_insert_self⟩, ?_⟩
  intro other otherScore otherAble found
  by_cases changed : other = key
  · subst changed
    rw [ExtTreeMap.getElem?_insert_self] at found
    exact (Option.some.inj found).ge
  · rw [getElem?_insert_other score changed, greatest other otherAble] at found
    exact absurd found (by simp)

theorem greatest_insert_other (best : Option Score) (key : Key) (score : Score)
    (unable : ¬ eligible key) :
    Greatest (table.insert key score) eligible best ↔ Greatest table eligible best := by
  have same : ∀ other, eligible other → (table.insert key score)[other]? = table[other]? := by
    intro other otherAble
    apply getElem?_insert_other
    rintro rfl
    exact unable otherAble
  cases best with
  | none =>
    simp only [Greatest]
    exact forall₂_congr fun other otherAble => by rw [same other otherAble]
  | some best =>
    simp only [Greatest]
    refine and_congr (exists_congr fun other => ?_) (forall₂_congr fun other otherScore => ?_)
    · exact and_congr_right fun otherAble => by rw [same other otherAble]
    · exact forall_congr' fun otherAble => by rw [same other otherAble]

end Updates

end Savitri.RunningBest
