import Savitri.CertificateTracker

/-!
The indexes over a run of the tracker. Each accepted registration is recorded with
the height, group and transactions root it is made under; every key of an index
then leads to a pending block whose last registration is under that key. So the
scan that one of the takes leaves out would have found nothing, and the fallback on
registrations without a group is never reached.
-/
namespace Savitri.CertificateTracker
open Std Transition SecondaryIndex
variable {other hash : BlockHash} {history : List (BlockHash × Origin)} {origin : Origin}
  {groupId : String}
variable {Body : Type}

def registrations (tracker : CertificatePendingBlocks Body) :
    Call Body → List (BlockHash × Origin)
  | .registerPendingWithGroup hash height groupId pendingData _ moment =>
    if (tracker.evictStaleEntries moment).1.admits hash then
      [(hash, height, groupId, pendingData.txRoot)]
    else []
  | _ => []

def lastOrigin (history : List (BlockHash × Origin)) (hash : BlockHash) : Option Origin :=
  history.reverse.lookup hash

def pending (tracker : CertificatePendingBlocks Body) (hash : BlockHash) : Nat :=
  if hash ∈ tracker.entries then 1 else 0

def registrationsOf (hash : BlockHash) (tracker : CertificatePendingBlocks Body)
    (call : Call Body) : Nat :=
  ((registrations tracker call).map Prod.fst).count hash

def evictionsOf (hash : BlockHash) (tracker : CertificatePendingBlocks Body) : Call Body → Nat
  | .registerPendingWithGroup _ _ _ _ _ moment =>
    if hash ∈ tracker.entries ∧ hash ∉ (tracker.evictStaleEntries moment).1.entries then 1 else 0
  | _ => 0

def returnsOf (hash : BlockHash) (tracker : CertificatePendingBlocks Body)
    (call : Call Body) : Nat :=
  match (step tracker call).2 with
  | .taken (some _) =>
    if hash ∈ tracker.entries ∧ hash ∉ (step tracker call).1.entries then 1 else 0
  | _ => 0

def Asked : Call Body → Origin → Prop
  | .takePendingByHeightGroupTxRoot height groupId txRoot, origin =>
    origin = (height, groupId, txRoot)
  | .takePendingByHeightGroup height groupId, origin => (origin.1, origin.2.1) = (height, groupId)
  | _, _ => True

section
def heightGroup (origin : Origin) : UInt64 × String := (origin.1, origin.2.1)

def originOf (tracker : CertificatePendingBlocks Body) (history : List (BlockHash × Origin))
    (hash : BlockHash) : Option Origin :=
  if hash ∈ tracker.entries then lastOrigin history hash else none

structure Sound (tracker : CertificatePendingBlocks Body) (history : List (BlockHash × Origin)) :
    Prop where
  byHeightGroup :
    Backed tracker.byHeightGroup fun hash => (originOf tracker history hash).map heightGroup
  byTxRoot : Backed tracker.byHeightGroupTxRoot (originOf tracker history)
  origins : ∀ (hash : BlockHash) (entry : CertificatePendingEntry Body),
    tracker.entries[hash]? = some entry →
      ∃ group, lastOrigin history hash = some (entry.height, group, entry.pendingData.txRoot)

variable {tracker : CertificatePendingBlocks Body}

theorem lastOrigin_append_self : lastOrigin (history ++ [(hash, origin)]) hash = some origin := by
  simp [lastOrigin]

theorem lastOrigin_append_other (differs : other ≠ hash) :
    lastOrigin (history ++ [(hash, origin)]) other = lastOrigin history other := by
  simp [lastOrigin, List.lookup_cons, beq_false_of_ne differs]

theorem mem_forget :
    other ∈ (tracker.forget hash).entries ↔ other ∈ tracker.entries ∧ other ≠ hash := by
  change other ∈ tracker.entries.erase hash ↔ _
  rw [ExtTreeMap.mem_erase, ne_eq, LawfulEqCmp.compare_eq_iff_eq, and_comm, eq_comm]

theorem sound_forget (sound : Sound tracker history) : Sound (tracker.forget hash) history := by
  have kept : ∀ other, other ≠ hash →
      originOf (tracker.forget hash) history other = originOf tracker history other := by
    intro other differs
    simp only [originOf, mem_forget, differs, ne_eq, not_false_eq_true, and_true]
  constructor
  · apply backed_forget sound.byHeightGroup
    intro other differs
    rw [kept other differs]
  · exact backed_forget sound.byTxRoot kept
  · intro other entry found
    apply sound.origins other entry
    change (tracker.entries.erase hash)[other]? = some entry at found
    rw [ExtTreeMap.getElem?_erase] at found
    split at found
    · cases found
    · exact found

theorem sound_insert (sound : Sound tracker history) (absent : hash ∉ tracker.entries)
    {entry : CertificatePendingEntry Body} :
    Sound (tracker.insert hash groupId entry)
      (history ++ [(hash, entry.height, groupId, entry.pendingData.txRoot)]) := by
  have inserted : ∀ other, other ∈ (tracker.insert hash groupId entry).entries ↔
      hash = other ∨ other ∈ tracker.entries := by
    intro other
    change other ∈ tracker.entries.insert hash entry ↔ _
    rw [ExtTreeMap.mem_insert, LawfulEqCmp.compare_eq_iff_eq]
  have fresh : originOf tracker history hash = none := if_neg absent
  have recorded : originOf (tracker.insert hash groupId entry)
      (history ++ [(hash, entry.height, groupId, entry.pendingData.txRoot)]) hash =
        some (entry.height, groupId, entry.pendingData.txRoot) := by
    rw [originOf, if_pos ((inserted hash).mpr (Or.inl rfl)), lastOrigin_append_self]
  have kept : ∀ other, other ≠ hash → originOf (tracker.insert hash groupId entry)
      (history ++ [(hash, entry.height, groupId, entry.pendingData.txRoot)]) other =
        originOf tracker history other := by
    intro other differs
    simp only [originOf, inserted, lastOrigin_append_other differs, differs.symm, false_or]
  constructor
  · apply backed_insert sound.byHeightGroup
    · rw [fresh]
      rfl
    · rw [recorded]
      rfl
    · intro other differs
      rw [kept other differs]
  · exact backed_insert sound.byTxRoot fresh recorded kept
  · intro other found here
    change (tracker.entries.insert hash entry)[other]? = some found at here
    rw [ExtTreeMap.getElem?_insert] at here
    split at here
    next same =>
      cases here
      rw [LawfulEqCmp.compare_eq_iff_eq.mp same] at *
      exact ⟨groupId, lastOrigin_append_self⟩
    next differs =>
      rw [LawfulEqCmp.compare_eq_iff_eq] at differs
      rw [lastOrigin_append_other (Ne.symm differs)]
      exact sound.origins other found here

end

variable {after : CertificatePendingBlocks Body}

section Eviction
variable {tracker : CertificatePendingBlocks Body}

def Shrinks : CertificatePendingBlocks Body → CertificatePendingBlocks Body → Prop :=
  Relation.ReflTransGen fun before after => ∃ hash, after = before.forget hash

theorem shrinks_foldl
    {remove : CertificatePendingBlocks Body → BlockHash → CertificatePendingBlocks Body}
    (removes : ∀ tracker hash, Shrinks tracker (remove tracker hash)) (hashes : List BlockHash)
    (tracker : CertificatePendingBlocks Body) : Shrinks tracker (hashes.foldl remove tracker) := by
  induction hashes generalizing tracker with
  | nil => exact Relation.ReflTransGen.refl
  | cons hash rest ih => exact (removes tracker hash).trans (ih (remove tracker hash))

variable {moment : Moment Body}

theorem shrinks_forget : Shrinks tracker (tracker.forget hash) :=
  Relation.ReflTransGen.single ⟨hash, rfl⟩

theorem shrinks_evictTimedOut (tracker : CertificatePendingBlocks Body) (hash : BlockHash) :
    Shrinks tracker (tracker.evictTimedOut hash) := by
  unfold CertificatePendingBlocks.evictTimedOut
  split
  · exact shrinks_forget
  · exact Relation.ReflTransGen.refl

theorem shrinks_evictStaleEntries (tracker : CertificatePendingBlocks Body)
    (moment : Moment Body) : Shrinks tracker (tracker.evictStaleEntries moment).1 := by
  have fresh := shrinks_foldl shrinks_evictTimedOut (tracker.timedOut moment) tracker
  unfold CertificatePendingBlocks.evictStaleEntries
  dsimp only
  split
  · apply Relation.ReflTransGen.trans fresh
    dsimp only
    exact shrinks_foldl (fun _ _ => shrinks_forget) _ _
  · exact fresh

theorem sound_of_shrinks (shrinks : Shrinks tracker after) (sound : Sound tracker history) :
    Sound after history := by
  induction shrinks with
  | refl => exact sound
  | tail _ last ih =>
    obtain ⟨hash, rfl⟩ := last
    exact sound_forget ih

theorem mem_of_shrinks (shrinks : Shrinks tracker after) (member : hash ∈ after.entries) :
    hash ∈ tracker.entries := by
  induction shrinks with
  | refl => exact member
  | tail _ last ih =>
    obtain ⟨other, rfl⟩ := last
    exact ih (mem_forget.mp member).1

theorem size_foldl_forget {hashes : List BlockHash} (distinct : hashes.Nodup)
    (tracker : CertificatePendingBlocks Body) (present : ∀ hash ∈ hashes, hash ∈ tracker.entries) :
    (hashes.foldl CertificatePendingBlocks.forget tracker).entries.size + hashes.length =
      tracker.entries.size := by
  induction hashes generalizing tracker with
  | nil => rfl
  | cons hash rest ih =>
    obtain ⟨fresh, distinct⟩ := List.nodup_cons.mp distinct
    have here : hash ∈ tracker.entries := present hash List.mem_cons_self
    have filled : tracker.entries.size ≠ 0 := by
      intro none
      rw [ExtTreeMap.eq_empty_iff_size_eq_zero.mpr none] at here
      simp at here
    have shorter : (tracker.forget hash).entries.size = tracker.entries.size - 1 := by
      change (tracker.entries.erase hash).size = _
      rw [ExtTreeMap.size_erase, if_pos (ExtTreeMap.contains_iff_mem.mpr here)]
    have later := ih distinct (tracker.forget hash) (by
      intro other member
      refine mem_forget.mpr ⟨present other (List.mem_cons_of_mem _ member), ?_⟩
      rintro rfl
      exact fresh member)
    rw [List.foldl_cons, List.length_cons]
    omega

theorem surplus_perm :
    ((moment.order.order tracker.entries.toList).insertionSort fun first second =>
      first.2.createdAt ≤ second.2.createdAt).Perm tracker.entries.toList :=
  (List.perm_insertionSort _ _).trans (moment.order.perm _)

theorem length_surplus : (tracker.surplus moment).length = tracker.entries.size - maxPendingBlocks := by
  rw [CertificatePendingBlocks.surplus, List.length_map, List.length_take,
    surplus_perm.length_eq, ExtTreeMap.length_toList]
  omega

theorem surplus_sublist (tracker : CertificatePendingBlocks Body) (moment : Moment Body) :
    ∃ hashes, (tracker.surplus moment).Sublist hashes ∧ hashes.Perm tracker.entries.keys := by
  refine ⟨_, (List.take_sublist _ _).map Prod.fst, ?_⟩
  rw [← ExtTreeMap.map_fst_toList_eq_keys]
  exact surplus_perm.map Prod.fst

theorem nodup_keys (tracker : CertificatePendingBlocks Body) : tracker.entries.keys.Nodup := by
  apply tracker.entries.distinct_keys.imp
  intro left right differ same
  exact differ (LawfulEqCmp.compare_eq_iff_eq.mpr same)

theorem size_evictStaleEntries (tracker : CertificatePendingBlocks Body) (moment : Moment Body) :
    (tracker.evictStaleEntries moment).1.entries.size ≤ maxPendingBlocks := by
  unfold CertificatePendingBlocks.evictStaleEntries
  dsimp only
  generalize (tracker.timedOut moment).foldl _ tracker = fresh
  split
  next above =>
    obtain ⟨hashes, sublist, perm⟩ := surplus_sublist fresh moment
    have distinct := (perm.nodup_iff.mpr (nodup_keys fresh)).sublist sublist
    have size := size_foldl_forget distinct fresh (by
      intro hash member
      exact ExtTreeMap.mem_keys.mp (perm.mem_iff.mp (sublist.subset member)))
    rw [length_surplus] at size
    dsimp only
    omega
  next within => exact Nat.le_of_not_lt within

end Eviction

variable {call : Call Body}

section Taking
variable {tracker : CertificatePendingBlocks Body}

inductive Takes (tracker : CertificatePendingBlocks Body) (history : List (BlockHash × Origin))
    (call : Call Body) :
    CertificatePendingBlocks Body → Option (CertificatePendingEntry Body) → Prop where
  | missing : Takes tracker history call tracker none
  | found (hash : BlockHash) (entry : CertificatePendingEntry Body) (group : String)
      (here : tracker.entries[hash]? = some entry)
      (origin : lastOrigin history hash = some (entry.height, group, entry.pendingData.txRoot))
      (asked : Asked call (entry.height, group, entry.pendingData.txRoot)) :
      Takes tracker history call (tracker.forget hash) (some entry)

variable {height : UInt64}
variable (sound : Sound tracker history)
include sound

theorem pending_of_originOf (listed : originOf tracker history hash = some origin) :
    ∃ entry group, tracker.entries[hash]? = some entry ∧ lastOrigin history hash = some origin ∧
      origin = (entry.height, group, entry.pendingData.txRoot) := by
  unfold originOf at listed
  split at listed
  next member =>
    obtain ⟨entry, here⟩ :=
      Option.isSome_iff_exists.mp (ExtTreeMap.mem_iff_isSome_getElem?.mp member)
    obtain ⟨group, origin⟩ := sound.origins hash entry here
    refine ⟨entry, group, here, listed, ?_⟩
    rw [origin] at listed
    exact (Option.some.inj listed).symm
  next => cases listed

theorem takes_takePending :
    Takes tracker history (.takePending hash) (tracker.takePending hash).1
      (tracker.takePending hash).2 := by
  unfold CertificatePendingBlocks.takePending
  split
  next entry here =>
    obtain ⟨group, origin⟩ := sound.origins hash entry here
    exact .found hash entry group here origin trivial
  next => exact .missing

theorem takes_byHeightGroupTxRoot {txRoot : TxRoot} :
    Takes tracker history (.takePendingByHeightGroupTxRoot height groupId txRoot)
      (tracker.takePendingByHeightGroupTxRoot height groupId txRoot).1
      (tracker.takePendingByHeightGroupTxRoot height groupId txRoot).2 := by
  unfold CertificatePendingBlocks.takePendingByHeightGroupTxRoot
  split
  next => exact .missing
  next hash listed =>
    obtain ⟨entry, group, here, origin, same⟩ :=
      pending_of_originOf sound (sound.byTxRoot _ _ listed)
    have cleared : SecondaryIndex.forget
        (tracker.byHeightGroupTxRoot.erase (height, groupId, txRoot)) hash =
          SecondaryIndex.forget tracker.byHeightGroupTxRoot hash := by
      rw [erase_eq_forget sound.byTxRoot listed, forget_forget]
    simp only [here, CertificatePendingBlocks.forget, cleared]
    rw [same] at origin
    exact .found hash entry group here origin same.symm

/-- Only one key of the index leads to the block, so the scan that is left out would find no
other, and the fallback is never reached. -/
theorem takes_byHeightGroup :
    Takes tracker history (.takePendingByHeightGroup height groupId)
      (tracker.takePendingByHeightGroup height groupId).1
      (tracker.takePendingByHeightGroup height groupId).2 := by
  unfold CertificatePendingBlocks.takePendingByHeightGroup
  split
  next => exact .missing
  next hash listed =>
    obtain ⟨registered, found, same⟩ := Option.map_eq_some_iff.mp (sound.byHeightGroup _ _ listed)
    obtain ⟨entry, group, here, origin, rfl⟩ := pending_of_originOf sound found
    simp only [CertificatePendingBlocks.takeByHeightGroup, here,
      erase_eq_forget sound.byHeightGroup listed]
    exact .found hash entry group here origin same

theorem sound_of_takes {entry : Option (CertificatePendingEntry Body)}
    (takes : Takes tracker history call after entry) : Sound after history := by
  cases takes with
  | missing => exact sound
  | found hash => exact sound_forget sound

omit sound

theorem size_of_takes {entry : Option (CertificatePendingEntry Body)}
    (takes : Takes tracker history call after entry) : after.entries.size ≤ tracker.entries.size := by
  cases takes with
  | missing => exact Nat.le_refl _
  | found hash => exact ExtTreeMap.size_erase_le

end Taking

section
variable {tracker : CertificatePendingBlocks Body}

inductive Effect (tracker : CertificatePendingBlocks Body) (history : List (BlockHash × Origin))
    (call : Call Body) : CertificatePendingBlocks Body → Reply Body → Prop where
  | takes (after : CertificatePendingBlocks Body) (entry : Option (CertificatePendingEntry Body))
      (takes : Takes tracker history call after entry)
      (none : registrations tracker call = [] ∧ ∀ hash, evictionsOf hash tracker call = 0) :
      Effect tracker history call after (.taken entry)
  | registers (hash : BlockHash) (height : UInt64) (groupId : String)
      (pendingData : PendingBlockData Body) (sourcePeer : String) (moment : Moment Body)
      (same : call = .registerPendingWithGroup hash height groupId pendingData sourcePeer moment) :
      Effect tracker history call
        (tracker.registerPendingWithGroup hash height groupId pendingData sourcePeer moment).1
        (.registered
          (tracker.registerPendingWithGroup hash height groupId pendingData sourcePeer moment).2)
  | notes (after : CertificatePendingBlocks Body)
      (same : after.entries = tracker.entries ∧ after.byHeightGroup = tracker.byHeightGroup ∧
        after.byHeightGroupTxRoot = tracker.byHeightGroupTxRoot)
      (none : registrations tracker call = [] ∧ ∀ hash, evictionsOf hash tracker call = 0) :
      Effect tracker history call after .done

theorem effect_step (sound : Sound tracker history) (call : Call Body) :
    Effect tracker history call (step tracker call).1 (step tracker call).2 := by
  cases call with
  | registerPendingWithGroup hash height groupId pendingData sourcePeer moment =>
    exact .registers hash height groupId pendingData sourcePeer moment rfl
  | takePending hash =>
    exact .takes _ _ (takes_takePending sound) ⟨rfl, fun _ => rfl⟩
  | takePendingByHeightGroupTxRoot height groupId txRoot =>
    exact .takes _ _ (takes_byHeightGroupTxRoot sound) ⟨rfl, fun _ => rfl⟩
  | takePendingByHeightGroup height groupId =>
    exact .takes _ _ (takes_byHeightGroup sound) ⟨rfl, fun _ => rfl⟩
  | markCommitted hash now askedAt =>
    refine .notes _ ?_ ⟨rfl, fun _ => rfl⟩
    dsimp only [step, CertificatePendingBlocks.markCommitted]
    split <;> exact ⟨rfl, rfl, rfl⟩
  | setEvictionCallback => exact .notes _ ⟨rfl, rfl, rfl⟩ ⟨rfl, fun _ => rfl⟩

variable {calls : List (Call Body)}

theorem absent_of_admits (admitted : tracker.admits hash = true) : hash ∉ tracker.entries := by
  simp only [CertificatePendingBlocks.admits, Bool.and_eq_true, decide_eq_true_eq] at admitted
  exact admitted.2

theorem sound_step (sound : Sound tracker history) (call : Call Body) :
    Sound (step tracker call).1 (history ++ registrations tracker call) := by
  have effect := effect_step sound call
  generalize (step tracker call).1 = after, (step tracker call).2 = reply at effect
  cases effect with
  | takes _ entry takes none =>
    rw [none.1, List.append_nil]
    exact sound_of_takes sound takes
  | registers hash height groupId pendingData sourcePeer moment same =>
    subst same
    have evicted := sound_of_shrinks (shrinks_evictStaleEntries tracker moment) sound
    unfold CertificatePendingBlocks.registerPendingWithGroup registrations
    dsimp only
    split
    next admitted => exact sound_insert evicted (absent_of_admits admitted)
    next =>
      rw [List.append_nil]
      exact evicted
  | notes _ same none =>
    rw [none.1, List.append_nil]
    have kept : originOf after history = originOf tracker history := by
      funext hash
      rw [originOf, originOf, same.1]
    constructor
    · rw [same.2.1, kept]
      exact sound.byHeightGroup
    · rw [same.2.2, kept]
      exact sound.byTxRoot
    · rw [same.1]
      exact sound.origins

theorem size_step (sound : Sound tracker history)
    (within : tracker.entries.size ≤ maxPendingBlocks + 1) :
    (step tracker call).1.entries.size ≤ maxPendingBlocks + 1 := by
  have effect := effect_step sound call
  generalize (step tracker call).1 = after, (step tracker call).2 = reply at effect
  cases effect with
  | takes _ entry takes none => exact (size_of_takes takes).trans within
  | registers hash height groupId pendingData sourcePeer moment same =>
    have evicted := size_evictStaleEntries tracker moment
    unfold CertificatePendingBlocks.registerPendingWithGroup
    dsimp only
    split
    · exact ExtTreeMap.size_insert_le.trans (Nat.succ_le_succ evicted)
    · exact evicted.trans (Nat.le_succ _)
  | notes _ same none =>
    rw [same.1]
    exact within

theorem pending_insert (absent : hash ∉ tracker.entries) {entry : CertificatePendingEntry Body} :
    pending (tracker.insert hash groupId entry) other =
      pending tracker other + [hash].count other := by
  have inserted : other ∈ (tracker.insert hash groupId entry).entries ↔
      hash = other ∨ other ∈ tracker.entries := by
    change other ∈ tracker.entries.insert hash entry ↔ _
    rw [ExtTreeMap.mem_insert, LawfulEqCmp.compare_eq_iff_eq]
  unfold pending
  by_cases same : hash = other
  · subst same
    simp [inserted, absent]
  · simp [inserted, same]

theorem pending_evictStaleEntries (tracker : CertificatePendingBlocks Body) (moment : Moment Body)
    (hash : BlockHash) :
    pending (tracker.evictStaleEntries moment).1 hash +
        (if hash ∈ tracker.entries ∧ hash ∉ (tracker.evictStaleEntries moment).1.entries then 1
          else 0) = pending tracker hash := by
  have shrinks := shrinks_evictStaleEntries tracker moment
  unfold pending
  by_cases stays : hash ∈ (tracker.evictStaleEntries moment).1.entries
  · simp [stays, mem_of_shrinks shrinks stays]
  · simp [stays]

theorem books_step (sound : Sound tracker history) :
    pending (step tracker call).1 hash + returnsOf hash tracker call +
        evictionsOf hash tracker call =
      pending tracker hash + registrationsOf hash tracker call := by
  have effect := effect_step sound call
  unfold returnsOf registrationsOf
  generalize (step tracker call).1 = after, (step tracker call).2 = reply at effect
  cases effect with
  | takes _ entry takes none =>
    rw [none.1, none.2]
    cases takes with
    | missing => rfl
    | found taken =>
      unfold pending
      by_cases here : hash ∈ tracker.entries
      · by_cases same : hash = taken
        · simp [mem_forget, same]
        · simp [mem_forget, here, same]
      · simp [mem_forget, here]
  | registers other height groupId pendingData sourcePeer moment same =>
    subst same
    have evicted := pending_evictStaleEntries tracker moment hash
    unfold CertificatePendingBlocks.registerPendingWithGroup registrations evictionsOf
    dsimp only
    split
    next admitted =>
      rw [pending_insert (absent_of_admits admitted)]
      simp only [List.map_cons, List.map_nil]
      omega
    next => simpa using evicted
  | notes _ same none =>
    rw [none.1, none.2, pending, pending, same.1]
    rfl

theorem sound_empty : Sound ({} : CertificatePendingBlocks Body) [] := by
  constructor
  · exact backed_empty
  · exact backed_empty
  · intro hash entry found
    simp at found

theorem sound_along : Along step (fun tracker _ => ∃ history, Sound tracker history) {} calls := by
  apply along_of_invariant step (fun _ _ => True) _
    (fun tracker => ∃ history, Sound tracker history)
  · rintro tracker call ⟨history, sound⟩ _
    exact ⟨_, sound_step sound call⟩
  · exact fun _ _ sound _ => sound
  · exact ⟨[], sound_empty⟩
  · exact along_of_forall step _ _ _ fun _ _ _ => trivial

theorem size_run :
    (run step ({} : CertificatePendingBlocks Body) calls).entries.size ≤ maxPendingBlocks + 1 := by
  apply run_invariant_along step (fun tracker _ => ∃ history, Sound tracker history)
    (fun tracker => tracker.entries.size ≤ maxPendingBlocks + 1)
  · rintro tracker call within ⟨history, sound⟩
    exact size_step sound within
  · exact Nat.zero_le _
  · exact sound_along

end

def recorded (calls : List (Call Body)) : CertificatePendingBlocks Body × List (BlockHash × Origin) :=
  run (recording step registrations) ({}, []) calls

/-- In every run the indexes lead to pending blocks registered under the key, a take returns one
block, of the place it asks for, each registration is returned or evicted at most once, and the
capacity is passed by one block at most. -/
theorem indexes_name_registered_blocks (calls : List (Call Body)) :
    (∀ height group (hash : BlockHash), (recorded calls).1.byHeightGroup[(height, group)]? = some hash →
        ∃ entry : CertificatePendingEntry Body, (recorded calls).1.entries[hash]? = some entry ∧
          entry.height = height ∧
          lastOrigin (recorded calls).2 hash = some (height, group, entry.pendingData.txRoot)) ∧
    (∀ height group txRoot (hash : BlockHash),
      (recorded calls).1.byHeightGroupTxRoot[(height, group, txRoot)]? = some hash →
        ∃ entry : CertificatePendingEntry Body, (recorded calls).1.entries[hash]? = some entry ∧
          entry.height = height ∧ entry.pendingData.txRoot = txRoot ∧
          lastOrigin (recorded calls).2 hash = some (height, group, txRoot)) ∧
    Along (recording step registrations) (fun state call =>
      ∀ entry, (step state.1 call).2 = .taken (some entry) →
        ∃ (hash : BlockHash) (group : String), state.1.entries[hash]? = some entry ∧
          (step state.1 call).1.entries = state.1.entries.erase hash ∧
          lastOrigin state.2 hash = some (entry.height, group, entry.pendingData.txRoot) ∧
          Asked call (entry.height, group, entry.pendingData.txRoot)) ({}, []) calls ∧
    (∀ hash, pending (recorded calls).1 hash + tally step (returnsOf hash) {} calls +
        tally step (evictionsOf hash) {} calls = tally step (registrationsOf hash) {} calls) ∧
    (recorded calls).1.entries.size ≤ maxPendingBlocks + 1 := by
  have sound : Sound (recorded calls).1 (recorded calls).2 :=
    run_invariant (recording step registrations)
      (fun state : CertificatePendingBlocks Body × _ => Sound state.1 state.2)
      (fun state call sound => sound_step sound call) ({}, []) calls sound_empty
  have plain : (recorded calls).1 = run step {} calls := run_recording step ({}, [])
  refine ⟨?_, ?_, ?_, ?_, plain ▸ size_run⟩
  · intro height group hash listed
    obtain ⟨origin, found, same⟩ := Option.map_eq_some_iff.mp (sound.byHeightGroup _ _ listed)
    obtain ⟨entry, registered, here, last, rfl⟩ := pending_of_originOf sound found
    obtain ⟨rfl, rfl⟩ := Prod.mk.inj same
    exact ⟨entry, here, rfl, last⟩
  · intro height group txRoot hash listed
    obtain ⟨entry, registered, here, last, same⟩ :=
      pending_of_originOf sound (sound.byTxRoot _ _ listed)
    obtain ⟨sameHeight, rest⟩ := Prod.mk.inj same
    exact ⟨entry, here, sameHeight.symm, (Prod.mk.inj rest).2.symm, last⟩
  · apply along_of_invariant (recording step registrations) (fun _ _ => True) _
      (fun state : CertificatePendingBlocks Body × _ => Sound state.1 state.2)
    · exact fun state call sound _ => sound_step sound call
    · intro state call sound _ entry returned
      have effect := effect_step sound call
      generalize (step state.1 call).1 = after, (step state.1 call).2 = reply at effect returned
      cases effect with
      | takes _ _ takes _ =>
        cases takes with
        | missing => cases returned
        | found hash _ group here origin asked =>
          cases returned
          exact ⟨hash, group, here, rfl, origin, asked⟩
      | registers | notes => cases returned
    · exact sound_empty
    · exact along_of_forall _ _ _ _ fun _ _ _ => trivial
  · intro hash
    have books := run_books_along step _ (fun tracker => pending tracker hash) (returnsOf hash)
      (evictionsOf hash) (registrationsOf hash)
      (fun tracker call ⟨history, sound⟩ => books_step sound) {} calls
      sound_along
    have none : pending ({} : CertificatePendingBlocks Body) hash = 0 := by simp [pending]
    rw [none, Nat.zero_add] at books
    rw [plain]
    exact books

end Savitri.CertificateTracker
