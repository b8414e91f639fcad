import Savitri.Reordering

/-!
The resolver of executor/nonce_conflict_resolver.rs with its default strategy. Winners are
kept under (sender, nonce) from one call to the next, while an index means a place in the
input of one call. The groups come out of a hash table, so in any order; the vector that
the source returns has the second components. Statistics and unread fields of a
transaction are left out.
-/
namespace Savitri.NonceConflicts
open Reordering Transition

structure ConflictTx where
  senderAddress : List UInt8
  nonce : UInt64
  fee : UInt64
  receivedAt : Nat
  deriving DecidableEq

abbrev ConflictKey := List UInt8 × UInt64

def ConflictTx.key (tx : ConflictTx) : ConflictKey := (tx.senderAddress, tx.nonce)

abbrev Cache := ConflictKey → Option Nat

section
variable (transactions : List ConflictTx)

def indicesOf (key : ConflictKey) : List Nat :=
  (transactions.zipIdx.filter fun entry => decide (entry.1.key = key)).map Prod.snd

def feeAt (idx : Nat) : UInt64 := (transactions[idx]?.map ConflictTx.fee).getD 0

def receivedAtIndex (idx : Nat) : Nat := (transactions[idx]?.map ConflictTx.receivedAt).getD 0

def betterOf (best idx : Nat) : Nat :=
  if feeAt transactions best < feeAt transactions idx then idx
  else if feeAt transactions idx = feeAt transactions best ∧
      receivedAtIndex transactions idx < receivedAtIndex transactions best then idx
  else best

/-- The first index is the head of a group, which is not empty. -/
def resolveByFeePriority (indices : List Nat) : Nat :=
  indices.tail.foldl (betterOf transactions) (indices.headD 0)

def resolveSingleConflict (cache : Cache) (key : ConflictKey) (indices : List Nat) : Cache × Nat :=
  match cache key with
  | some winner => (cache, winner)
  | none =>
    let winner := resolveByFeePriority transactions indices
    (Function.update cache key (some winner), winner)

def resolveGroups : List ConflictKey → Cache → Cache × List (ConflictKey × Nat)
  | [], cache => (cache, [])
  | key :: rest, cache =>
    let indices := indicesOf transactions key
    let (cache, winner) :=
      if indices.length = 1 then (cache, indices.headD 0)
      else resolveSingleConflict transactions cache key indices
    let (cache, winners) := resolveGroups rest cache
    (cache, (key, winner) :: winners)

end

structure Call where
  transactions : List ConflictTx
  order : Shuffle ConflictKey

def Call.keys (call : Call) : List ConflictKey :=
  call.order.order (call.transactions.map ConflictTx.key).dedup

def resolveConflicts (cache : Cache) (call : Call) : Cache × List (ConflictKey × Nat) :=
  resolveGroups call.transactions call.keys cache

/-- The index has a transaction of the group, and none of the group has a higher fee. -/
def Wins (transactions : List ConflictTx) (key : ConflictKey) (idx : Nat) : Prop :=
  ∃ tx, transactions[idx]? = some tx ∧ tx.key = key ∧
    ∀ other ∈ transactions, other.key = key → other.fee ≤ tx.fee

/-- One winner for every (sender, nonce) of the input. -/
def Resolved (call : Call) (winners : List (ConflictKey × Nat)) : Prop :=
  (winners.map Prod.fst).Perm (call.transactions.map ConflictTx.key).dedup ∧
    ∀ winner ∈ winners, Wins call.transactions winner.1 winner.2

/-- A winner that is kept for a group of this call is one in this call as well. -/
def Current (cache : Cache) (call : Call) : Prop :=
  ∀ key ∈ call.transactions.map ConflictTx.key,
    (indicesOf call.transactions key).length ≠ 1 → ∀ idx, cache key = some idx →
      Wins call.transactions key idx

section Winners
variable {transactions : List ConflictTx} {key : ConflictKey} {cache : Cache}

theorem mem_indicesOf {idx : Nat} :
    idx ∈ indicesOf transactions key ↔ ∃ tx, transactions[idx]? = some tx ∧ tx.key = key := by
  simp only [indicesOf, List.mem_map, List.mem_filter, Prod.exists, List.mem_zipIdx_iff_getElem?,
    decide_eq_true_eq]
  constructor
  · rintro ⟨tx, _, ⟨found, same⟩, rfl⟩
    exact ⟨tx, found, same⟩
  · rintro ⟨tx, found, same⟩
    exact ⟨tx, idx, ⟨found, same⟩, rfl⟩

theorem feeAt_of_getElem? {idx : Nat} {tx : ConflictTx} (found : transactions[idx]? = some tx) :
    feeAt transactions idx = tx.fee := by
  rw [feeAt, found]
  rfl

variable (transactions)

theorem betterOf_spec (best idx : Nat) :
    (betterOf transactions best idx = best ∨ betterOf transactions best idx = idx) ∧
    feeAt transactions best ≤ feeAt transactions (betterOf transactions best idx) ∧
    feeAt transactions idx ≤ feeAt transactions (betterOf transactions best idx) := by
  unfold betterOf
  split
  next less => exact ⟨Or.inr rfl, UInt64.le_of_lt less, UInt64.le_refl _⟩
  next notLess =>
    have most := UInt64.not_lt.mp notLess
    split
    next tie => exact ⟨Or.inr rfl, tie.1 ▸ UInt64.le_refl _, UInt64.le_refl _⟩
    next => exact ⟨Or.inl rfl, UInt64.le_refl _, most⟩

theorem foldl_betterOf (best : Nat) (indices : List Nat) :
    indices.foldl (betterOf transactions) best ∈ best :: indices ∧
    ∀ idx ∈ best :: indices,
      feeAt transactions idx ≤ feeAt transactions (indices.foldl (betterOf transactions) best) := by
  induction indices generalizing best with
  | nil => simp
  | cons idx rest ih =>
    obtain ⟨chosen, keeps, beats⟩ := betterOf_spec transactions best idx
    obtain ⟨member, most⟩ := ih (betterOf transactions best idx)
    have better := most _ List.mem_cons_self
    rw [List.foldl_cons]
    constructor
    · rcases List.mem_cons.mp member with same | later
      · rw [same]
        rcases chosen with chosen | chosen <;> simp [chosen]
      · simp [later]
    · intro other listed
      rcases List.mem_cons.mp listed with rfl | listed
      · exact UInt64.le_trans keeps better
      · rcases List.mem_cons.mp listed with rfl | later
        · exact UInt64.le_trans beats better
        · exact most other (List.mem_cons_of_mem _ later)

variable {transactions}

theorem wins_of_most {idx : Nat} (member : idx ∈ indicesOf transactions key)
    (most : ∀ other ∈ indicesOf transactions key,
      feeAt transactions other ≤ feeAt transactions idx) : Wins transactions key idx := by
  obtain ⟨tx, found, same⟩ := mem_indicesOf.mp member
  refine ⟨tx, found, same, fun other listed sameKey => ?_⟩
  obtain ⟨place, stands⟩ := List.mem_iff_getElem?.mp listed
  have least := most place (mem_indicesOf.mpr ⟨other, stands, sameKey⟩)
  rwa [feeAt_of_getElem? stands, feeAt_of_getElem? found] at least

theorem wins_resolveByFeePriority (present : key ∈ transactions.map ConflictTx.key) :
    Wins transactions key (resolveByFeePriority transactions (indicesOf transactions key)) := by
  obtain ⟨tx, listed, same⟩ := List.mem_map.mp present
  obtain ⟨place, stands⟩ := List.mem_iff_getElem?.mp listed
  have member := mem_indicesOf.mpr ⟨tx, stands, same⟩
  cases group : indicesOf transactions key with
  | nil =>
    rw [group] at member
    cases member
  | cons first rest =>
    obtain ⟨chosen, most⟩ := foldl_betterOf transactions first rest
    rw [← group] at chosen most
    exact wins_of_most chosen most

variable (transactions) in
def winnerFor (cache : Cache) (key : ConflictKey) : Nat :=
  if (indicesOf transactions key).length = 1 then (indicesOf transactions key).headD 0
  else (cache key).getD (resolveByFeePriority transactions (indicesOf transactions key))

-- The groups of one call have distinct keys, so what one of them stores no other reads.
theorem resolveGroups_winners {keys : List ConflictKey} (distinct : keys.Nodup) :
    (resolveGroups transactions keys cache).2 =
      keys.map fun key => (key, winnerFor transactions cache key) := by
  induction keys generalizing cache with
  | nil => rfl
  | cons key rest ih =>
    obtain ⟨fresh, distinct⟩ := List.nodup_cons.mp distinct
    have unread : ∀ winner, rest.map (fun other =>
        (other, winnerFor transactions (Function.update cache key winner) other)) =
        rest.map fun other => (other, winnerFor transactions cache other) := by
      intro winner
      apply List.map_congr_left
      intro other member
      have differs : other ≠ key := by
        rintro rfl
        exact fresh member
      rw [winnerFor, winnerFor, Function.update_of_ne differs]
    simp only [resolveGroups, List.map_cons]
    by_cases single : (indicesOf transactions key).length = 1
    · simp only [if_pos single, ih distinct, winnerFor]
    · simp only [if_neg single, resolveSingleConflict, winnerFor]
      cases kept : cache key with
      | none => simp only [ih distinct, unread, Option.getD_none]; rfl
      | some winner => simp only [ih distinct, Option.getD_some]; rfl

theorem resolved_iff (cache : Cache) (call : Call) :
    Resolved call (resolveConflicts cache call).2 ↔ Current cache call := by
  have reordered : call.keys.Perm (call.transactions.map ConflictTx.key).dedup :=
    call.order.perm _
  have listed : ∀ key, key ∈ call.keys ↔ key ∈ call.transactions.map ConflictTx.key :=
    fun key => reordered.mem_iff.trans List.mem_dedup
  rw [Resolved, resolveConflicts,
    resolveGroups_winners (reordered.nodup_iff.mpr (List.nodup_dedup _)), List.map_map]
  simp only [List.forall_mem_map]
  constructor
  · rintro ⟨_, wins⟩ key present several idx kept
    have won := wins key ((listed key).mpr present)
    simpa only [winnerFor, if_neg several, kept, Option.getD_some] using won
  · intro current
    refine ⟨by simpa [Function.comp_def] using reordered, fun key member => ?_⟩
    have present := (listed key).mp member
    unfold winnerFor
    split
    next single =>
      obtain ⟨only, same⟩ := List.length_eq_one_iff.mp single
      have won := wins_resolveByFeePriority present
      rw [same] at won ⊢
      exact won
    next several =>
      cases kept : cache key with
      | none => exact wins_resolveByFeePriority present
      | some idx => exact current key present several idx kept

/-- Every call of a sequence resolves its input, if and only if the winners kept from earlier
calls are right for the inputs they meet. -/
theorem resolved_along_iff (calls : List Call) :
    Along resolveConflicts (fun cache call => Resolved call (resolveConflicts cache call).2)
        (fun _ => none) calls ↔
      Along resolveConflicts Current (fun _ => none) calls :=
  along_iff_along _ _ _ resolved_iff

def conflict (fees : List UInt64) : Call where
  transactions := fees.map fun fee =>
    { senderAddress := [1], nonce := 0, fee, receivedAt := 0 }
  order := .plain

/-- The second call has the higher fee in the other place. -/
theorem kept_winner_loses :
    ¬ Along resolveConflicts (fun cache call => Resolved call (resolveConflicts cache call).2)
      (fun _ => none) [conflict [5, 9], conflict [9, 5]] := by
  rintro ⟨_, ⟨_, wins⟩, _⟩
  obtain ⟨tx, found, _, most⟩ := wins (([1], 0), 1) (by decide)
  cases found
  exact absurd (most ⟨[1], 0, 9, 0⟩ (by decide) (by decide)) (by decide)

end Winners

end Savitri.NonceConflicts
