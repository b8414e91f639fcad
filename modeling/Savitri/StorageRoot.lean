import Savitri.ContractStorage
import Savitri.SortedMerge

/-!
The storage root of a contract: the slots of the database and of the overlay, merged by
two cursors and hashed in the order met. The database cursor starts at the first key of
the column and stops at the first key of anyone else; keys are in the order of
their bytes, which is the order of the slots only where little-endian bytes say so. So one
map of slots has different roots in different places, and when it has one is said exactly.
-/
namespace Savitri.StorageRoot
open Contracts SortedMerge LeBytes
open LatticeTypes (toLeBytes)
open Std (ExtTreeMap)
variable {other storage : ContractStorage} {otherDb db : ContractsCf}
  {contractAddress own key : List UInt8} {slot : Slot}

section
def slotOfKey (own key : List UInt8) : Slot :=
  UInt64.ofNat (fromLeBytes ((key.drop own.length).take 8))

/-- The loop of `compute_storage_root`, with the slots in the order they are hashed. A key
too short for a slot is passed by while there are overlay entries left; after that its
slice is out of bounds and the loop panics. -/
def mergeSlots (own : List UInt8) :
    List (List UInt8 × Value) → List (Slot × Value) → Option (List (Slot × Value))
  | [], overlay => some overlay
  | (key, value) :: db, overlay =>
    -- someone else's key ends the part of the database
    if !own.isPrefixOf key then some overlay
    else
      match overlay with
      | [] =>
        if key.length < own.length + 8 then none
        else (mergeSlots own db []).map ((slotOfKey own key, value) :: ·)
      | (slot, written) :: rest =>
        if key.length < own.length + 8 then
          (mergeSlots own ((key, value) :: db) rest).map ((slot, written) :: ·)
        else
          match compare (slotOfKey own key) slot with
          | .lt =>
            (mergeSlots own db ((slot, written) :: rest)).map ((slotOfKey own key, value) :: ·)
          | .gt => (mergeSlots own ((key, value) :: db) rest).map ((slot, written) :: ·)
          | .eq => (mergeSlots own db rest).map ((slot, written) :: ·)
termination_by db overlay => db.length + overlay.length

variable (sha512 : List UInt8 → Vector UInt8 64)

def leafInput (entry : Slot × Value) : List UInt8 :=
  "CONTRACT-STORAGE-LEAF".toUTF8.toList ++ toLeBytes 8 entry.1.toNat ++ entry.2

def rootInput (entries : List (Slot × Value)) : List UInt8 :=
  (sha512 "CONTRACT-STORAGEv1".toUTF8.toList).toList ++
    entries.flatMap fun entry => (sha512 (leafInput entry)).toList

def rootHash (input : List UInt8) : List UInt8 := (sha512 input).toList.take 32

def mergedSlots (db : ContractsCf) (storage : ContractStorage) : Option (List (Slot × Value)) :=
  mergeSlots (makeStoragePrefix storage.contractAddress) db.toList storage.overlay.toList

def computeStorageRoot (db : ContractsCf) (storage : ContractStorage) : Option (List UInt8) :=
  (mergedSlots db storage).map fun entries => rootHash sha512 (rootInput sha512 entries)

def commitSlot (contractAddress : List UInt8) (db : ContractsCf) (entry : Slot × Value) : ContractsCf :=
  if isZero entry.2 then db.erase (makeStorageKey contractAddress entry.1)
  else db.insert (makeStorageKey contractAddress entry.1) entry.2

def commitContractStorageOverlay (db : ContractsCf) (contractAddress : List UInt8)
    (overlay : ExtTreeMap Slot Value) : ContractsCf :=
  overlay.toList.foldl (commitSlot contractAddress) db

end

section Keys
variable (contractAddress : List UInt8) (slot : Slot)

theorem own_makeStorageKey :
    makeStoragePrefix contractAddress <+: makeStorageKey contractAddress slot :=
  List.prefix_append _ _

theorem length_makeStorageKey :
    (makeStorageKey contractAddress slot).length =
      (makeStoragePrefix contractAddress).length + 8 := by
  rw [makeStorageKey, List.length_append, LatticeTypes.length_toLeBytes]

@[simp]
theorem slotOfKey_makeStorageKey :
    slotOfKey (makeStoragePrefix contractAddress) (makeStorageKey contractAddress slot) =
      slot := by
  have small : slot.toNat < 256 ^ 8 := slot.toNat_lt
  unfold slotOfKey makeStorageKey
  rw [List.drop_left, List.take_of_length_le (by simp), fromLeBytes_toLeBytes,
    Nat.mod_eq_of_lt small, UInt64.ofNat_toNat]

theorem makeStorageKey_injective {contractAddress : List UInt8} {left right : Slot}
    (same : makeStorageKey contractAddress left = makeStorageKey contractAddress right) :
    left = right := by
  rw [← slotOfKey_makeStorageKey contractAddress left, same, slotOfKey_makeStorageKey]

theorem makeStorageKey_slotOfKey (own : makeStoragePrefix contractAddress <+: key)
    (sized : key.length = (makeStoragePrefix contractAddress).length + 8) :
    makeStorageKey contractAddress (slotOfKey (makeStoragePrefix contractAddress) key) = key := by
  obtain ⟨tail, rfl⟩ := own
  have eight : tail.length = 8 := by
    rw [List.length_append] at sized
    omega
  have small : fromLeBytes tail < 2 ^ 64 := by
    have bound := fromLeBytes_lt tail
    rw [eight] at bound
    exact bound
  unfold makeStorageKey slotOfKey
  rw [List.drop_left, List.take_of_length_le eight.le, UInt64.toNat_ofNat_of_lt' small,
    ← eight, toLeBytes_fromLeBytes]

end Keys

variable {value : Value}

section
def ownSlot (own : List UInt8) (entry : List UInt8 × Value) : Option (Slot × Value) :=
  if own.isPrefixOf entry.1 then some (slotOfKey own entry.1, entry.2) else none

def ownSlots (own : List UInt8) (entries : List (List UInt8 × Value)) : List (Slot × Value) :=
  entries.filterMap (ownSlot own)

variable {db : List (List UInt8 × Value)}

theorem ownSlots_cons (mine : ¬ (!own.isPrefixOf key) = true) :
    ownSlots own ((key, value) :: db) = (slotOfKey own key, value) :: ownSlots own db := by
  rw [Bool.not_eq_true', Bool.not_eq_false] at mine
  simp only [ownSlots, List.filterMap_cons, ownSlot, mine, if_true]

/-- The slots that the database cursor gets to. -/
def leadingSlots (own : List UInt8) (entries : List (List UInt8 × Value)) : List (Slot × Value) :=
  ownSlots own (entries.takeWhile fun entry => own.isPrefixOf entry.1)

theorem leadingSlots_cons (mine : ¬ (!own.isPrefixOf key) = true) :
    leadingSlots own ((key, value) :: db) = (slotOfKey own key, value) :: leadingSlots own db := by
  have isOwn := mine
  rw [Bool.not_eq_true', Bool.not_eq_false] at isOwn
  simp only [leadingSlots, List.takeWhile_cons, isOwn, if_true]
  exact ownSlots_cons mine

theorem leadingSlots_subset : leadingSlots own db ⊆ ownSlots own db :=
  ((List.takeWhile_sublist _).filterMap _).subset

theorem not_short (framed : ∀ entry ∈ (key, value) :: db, own <+: entry.1 →
      own.length + 8 ≤ entry.1.length) (mine : ¬ (!own.isPrefixOf key) = true) :
    ¬ key.length < own.length + 8 := by
  rw [Bool.not_eq_true', Bool.not_eq_false, List.isPrefixOf_iff_prefix] at mine
  exact Nat.not_lt.mpr (framed _ List.mem_cons_self mine)

/-- Where no own key is short, the two cursors compute the merge of what the first one gets
to with the overlay. -/
theorem mergeSlots_eq {overlay : List (Slot × Value)}
    (framed : ∀ entry ∈ db, own <+: entry.1 → own.length + 8 ≤ entry.1.length) :
    mergeSlots own db overlay = some (overrideWith (leadingSlots own db) overlay) := by
  fun_induction mergeSlots own db overlay with
  | case1 overlay => simp [leadingSlots, ownSlots, overrideWith]
  | case2 key value db overlay foreign =>
    rw [Bool.not_eq_true'] at foreign
    simp [leadingSlots, foreign, ownSlots, overrideWith]
  | case3 key value db mine short | case5 key value db mine slot written rest short =>
    exact absurd short (not_short framed mine)
  | case4 key value db mine _ ih =>
    rw [ih (List.forall_mem_cons.mp framed).2, leadingSlots_cons mine]
    cases leadingSlots own db <;> simp [overrideWith]
  | case6 key value db mine slot written rest _ order ih
  | case8 key value db mine slot written rest _ order ih =>
    rw [ih (List.forall_mem_cons.mp framed).2, leadingSlots_cons mine]
    simp [overrideWith, order]
  | case7 key value db mine slot written rest _ order ih =>
    rw [ih framed, leadingSlots_cons mine]
    simp [overrideWith, order]

end

def Framed (db : ContractsCf) (contractAddress : List UInt8) : Prop :=
  ∀ entry ∈ db.toList, makeStoragePrefix contractAddress <+: entry.1 →
    entry.1.length = (makeStoragePrefix contractAddress).length + 8

/-- The contract's part of the column as commits leave it: keys of slots, and no zero. -/
structure Column (db : ContractsCf) (contractAddress : List UInt8) : Prop where
  framed : Framed db contractAddress
  nonzero : ∀ entry ∈ db.toList, makeStoragePrefix contractAddress <+: entry.1 →
    isZero entry.2 = false

/-- What the two cursors need: no zero in the overlay, slots that ascend where the database
cursor gets to, and in the overlay every slot of the database that it does not get to. -/
structure Shown (db : ContractsCf) (storage : ContractStorage) : Prop where
  written : ∀ entry ∈ storage.overlay.toList, isZero entry.2 = false
  ascending : Ascending (leadingSlots (makeStoragePrefix storage.contractAddress) db.toList)
  reached : ∀ entry ∈ ownSlots (makeStoragePrefix storage.contractAddress) db.toList,
    entry ∈ leadingSlots (makeStoragePrefix storage.contractAddress) db.toList ∨
      entry.1 ∈ storage.overlay

theorem ownSlot_eq_some_iff (framed : Framed db contractAddress) {entry : List UInt8 × Value}
    (member : entry ∈ db.toList) :
    ownSlot (makeStoragePrefix contractAddress) entry = some (slot, value) ↔
      entry = (makeStorageKey contractAddress slot, value) := by
  unfold ownSlot
  constructor
  · intro found
    by_cases own : makeStoragePrefix contractAddress <+: entry.1
    · rw [if_pos (List.isPrefixOf_iff_prefix.mpr own), Option.some.injEq, Prod.mk.injEq] at found
      obtain ⟨rfl, rfl⟩ := found
      rw [makeStorageKey_slotOfKey _ own (framed _ member own)]
    · rw [if_neg (fun inside => own (List.isPrefixOf_iff_prefix.mp inside))] at found
      cases found
  · rintro rfl
    rw [if_pos (List.isPrefixOf_iff_prefix.mpr (own_makeStorageKey _ slot)), slotOfKey_makeStorageKey]

theorem mem_ownSlots (framed : Framed db contractAddress) :
    (slot, value) ∈ ownSlots (makeStoragePrefix contractAddress) db.toList ↔
      db[makeStorageKey contractAddress slot]? = some value := by
  rw [ownSlots, List.mem_filterMap, ← ExtTreeMap.mem_toList_iff_getElem?_eq_some]
  constructor
  · rintro ⟨entry, member, found⟩
    rw [← (ownSlot_eq_some_iff framed member).mp found]
    exact member
  · intro member
    exact ⟨_, member, (ownSlot_eq_some_iff framed member).mpr rfl⟩

section
variable (contractAddress : List UInt8) {entries : List (Slot × Value)}

theorem getElem?_commitSlot (db : ContractsCf) (entry : Slot × Value) (key : List UInt8) :
    (commitSlot contractAddress db entry)[key]? =
      if makeStorageKey contractAddress entry.1 = key then
        (if isZero entry.2 then none else some entry.2)
      else db[key]? := by
  unfold commitSlot
  split
  · simp only [ExtTreeMap.getElem?_erase, Std.LawfulEqCmp.compare_eq_iff_eq]
  · simp only [ExtTreeMap.getElem?_insert, Std.LawfulEqCmp.compare_eq_iff_eq]

theorem foldl_commitSlot_untouched
    (free : ∀ entry ∈ entries, makeStorageKey contractAddress entry.1 ≠ key) (db : ContractsCf) :
    (entries.foldl (commitSlot contractAddress) db)[key]? = db[key]? := by
  induction entries generalizing db with
  | nil => rfl
  | cons entry rest ih =>
    rw [List.foldl_cons, ih (List.forall_mem_cons.mp free).2, getElem?_commitSlot,
      if_neg (List.forall_mem_cons.mp free).1]

theorem foldl_commitSlot_touched (ascending : Ascending entries)
    (member : (slot, value) ∈ entries) (db : ContractsCf) :
    (entries.foldl (commitSlot contractAddress) db)[makeStorageKey contractAddress slot]? =
      if isZero value then none else some value := by
  induction entries generalizing db with
  | nil => cases member
  | cons entry rest ih =>
    rw [List.foldl_cons]
    rcases List.mem_cons.mp member with rfl | later
    · -- the later entries are for higher slots
      rw [foldl_commitSlot_untouched, getElem?_commitSlot, if_pos rfl]
      intro other otherMember same
      have above := List.rel_of_pairwise_cons ascending otherMember
      exact ne_of_compare_lt above (makeStorageKey_injective same).symm
    · exact ih ascending.of_cons later _

def committed (db : ContractsCf) (storage : ContractStorage) : ContractsCf :=
  commitContractStorageOverlay db storage.contractAddress storage.overlay

def cleared (storage : ContractStorage) : ContractStorage := { storage with overlay := ∅ }

theorem committed_untouched (free : ∀ slot value, storage.overlay[slot]? = some value →
      makeStorageKey storage.contractAddress slot ≠ key) :
    (committed db storage)[key]? = db[key]? :=
  foldl_commitSlot_untouched _ (fun entry member =>
    free entry.1 entry.2 (ExtTreeMap.mem_toList_iff_getElem?_eq_some.mp member)) db

theorem committed_touched (written : storage.overlay[slot]? = some value) :
    (committed db storage)[makeStorageKey storage.contractAddress slot]? =
      if isZero value then none else some value :=
  foldl_commitSlot_touched _ ExtTreeMap.ordered_keys_toList
    (ExtTreeMap.mem_toList_iff_getElem?_eq_some.mpr written) db

theorem committed_unwritten (unwritten : storage.overlay[slot]? = none) :
    (committed db storage)[makeStorageKey storage.contractAddress slot]? =
      db[makeStorageKey storage.contractAddress slot]? := by
  refine committed_untouched ?_
  intro other value found same
  rw [makeStorageKey_injective same, unwritten] at found
  cases found

theorem column_committed (column : Column db storage.contractAddress) :
    Column (committed db storage) storage.contractAddress := by
  have entries : ∀ key value, (committed db storage)[key]? = some value → db[key]? = some value ∨
      ∃ slot, key = makeStorageKey storage.contractAddress slot ∧ isZero value = false := by
    intro key value found
    by_cases free : ∀ slot word, storage.overlay[slot]? = some word →
        makeStorageKey storage.contractAddress slot ≠ key
    · rw [committed_untouched free] at found
      exact Or.inl found
    · push Not at free
      obtain ⟨slot, word, written, rfl⟩ := free
      rw [committed_touched written] at found
      split at found
      · cases found
      · next nonzero =>
          cases found
          exact Or.inr ⟨slot, rfl, by simpa using nonzero⟩
  constructor
  · rintro ⟨key, value⟩ member own
    rcases entries key value (ExtTreeMap.mem_toList_iff_getElem?_eq_some.mp member) with
      inDb | ⟨slot, rfl, _⟩
    · exact column.framed _ (ExtTreeMap.mem_toList_iff_getElem?_eq_some.mpr inDb) own
    · exact length_makeStorageKey _ slot
  · rintro ⟨key, value⟩ member own
    rcases entries key value (ExtTreeMap.mem_toList_iff_getElem?_eq_some.mp member) with
      inDb | ⟨_, _, nonzero⟩
    · exact column.nonzero _ (ExtTreeMap.mem_toList_iff_getElem?_eq_some.mpr inDb) own
    · exact nonzero

/-- The map of the contract's slots: what the database holds once the overlay is committed. -/
def effective (db : ContractsCf) (storage : ContractStorage) : ExtTreeMap Slot Value :=
  ExtTreeMap.ofList
    (ownSlots (makeStoragePrefix storage.contractAddress) (committed db storage).toList)

variable (column : Column db storage.contractAddress)
include column

theorem getElem?_effective (slot : Slot) : (effective db storage)[slot]? =
    (committed db storage)[makeStorageKey storage.contractAddress slot]? := by
  have framed := (column_committed column).framed
  cases found : (committed db storage)[makeStorageKey storage.contractAddress slot]? with
  | some value =>
    refine ExtTreeMap.getElem?_ofList_of_mem Std.compare_self ?_ ((mem_ownSlots framed).mpr found)
    unfold ownSlots
    rw [List.pairwise_filterMap]
    refine List.Pairwise.imp_of_mem ?_ ExtTreeMap.distinct_keys_toList
    intro first second firstMember secondMember differ left atLeft right atRight same
    rw [(ownSlot_eq_some_iff framed firstMember).mp atLeft,
      (ownSlot_eq_some_iff framed secondMember).mp atRight,
      Std.LawfulEqCmp.eq_of_compare same] at differ
    exact differ Std.compare_self
  | none =>
    apply ExtTreeMap.getElem?_ofList_of_contains_eq_false
    rw [Bool.eq_false_iff, ne_eq, List.contains_iff_mem, List.mem_map]
    rintro ⟨⟨other, value⟩, member, rfl⟩
    rw [mem_ownSlots framed, found] at member
    cases member

theorem mem_effective : (slot, value) ∈ (effective db storage).toList ↔
    (committed db storage)[makeStorageKey storage.contractAddress slot]? = some value := by
  rw [ExtTreeMap.mem_toList_iff_getElem?_eq_some, getElem?_effective column]

theorem shown_of_merged (same : overrideWith
      (leadingSlots (makeStoragePrefix storage.contractAddress) db.toList) storage.overlay.toList =
        (effective db storage).toList) : Shown db storage := by
  constructor
  · rintro ⟨slot, value⟩ member
    have merged : (slot, value) ∈ (effective db storage).toList := by
      rw [← same]
      exact writes_sublist_overrideWith.subset member
    rw [mem_effective column,
      committed_touched (ExtTreeMap.mem_toList_iff_getElem?_eq_some.mp member)] at merged
    split at merged
    · cases merged
    · next nonzero => simpa using nonzero
  · -- the merge keeps the order of the database cursor, whatever it overrides
    have ordered : ((effective db storage).toList.map Prod.fst).Pairwise
        fun first second => compare first second = .lt :=
      List.pairwise_map.mpr ExtTreeMap.ordered_keys_toList
    rw [← same] at ordered
    exact List.pairwise_map.mp (ordered.sublist keys_sublist_overrideWith)
  · rintro ⟨slot, value⟩ member
    cases written : storage.overlay[slot]? with
    | some word => exact Or.inr (ExtTreeMap.mem_iff_isSome_getElem?.mpr (by rw [written]; rfl))
    | none =>
      rw [mem_ownSlots column.framed, ← committed_unwritten written, ← mem_effective column,
        ← same] at member
      rcases mem_or_mem_of_mem_overrideWith member with inBase | inWrites
      · exact Or.inl inBase
      · rw [ExtTreeMap.mem_toList_iff_getElem?_eq_some, written] at inWrites
        cases inWrites

theorem merged_of_shown (shown : Shown db storage) : overrideWith
      (leadingSlots (makeStoragePrefix storage.contractAddress) db.toList) storage.overlay.toList =
        (effective db storage).toList := by
  have overlayAscending : Ascending storage.overlay.toList := ExtTreeMap.ordered_keys_toList
  refine eq_of_same_entries (ascending_overrideWith shown.ascending overlayAscending)
    ExtTreeMap.ordered_keys_toList ?_
  rintro ⟨slot, value⟩
  rw [mem_overrideWith shown.ascending overlayAscending, mem_effective column,
    ExtTreeMap.mem_toList_iff_getElem?_eq_some]
  -- a slot is written in the overlay, or the commit leaves it as the database has it
  cases written : storage.overlay[slot]? with
  | none =>
    have free : ∀ write ∈ storage.overlay.toList, write.1 ≠ slot := by
      rintro ⟨other, word⟩ member rfl
      rw [ExtTreeMap.mem_toList_iff_getElem?_eq_some, written] at member
      cases member
    rw [committed_unwritten written, ← mem_ownSlots column.framed]
    constructor
    · rintro (absent | ⟨inBase, _⟩)
      · cases absent
      · exact leadingSlots_subset inBase
    · intro own
      rcases shown.reached _ own with inBase | inOverlay
      · exact Or.inr ⟨inBase, free⟩
      · rw [ExtTreeMap.mem_iff_isSome_getElem?, written] at inOverlay
        cases inOverlay
  | some word =>
    have member := ExtTreeMap.mem_toList_iff_getElem?_eq_some.mpr written
    have taken : ¬ ∀ write ∈ storage.overlay.toList, write.1 ≠ slot := fun free =>
      free (slot, word) member rfl
    have nonzero : isZero word = false := shown.written _ member
    simp only [committed_touched written, nonzero, Bool.false_eq_true, if_false, taken, and_false,
      or_false]

theorem mergedSlots_eq : mergedSlots db storage = some (overrideWith
    (leadingSlots (makeStoragePrefix storage.contractAddress) db.toList) storage.overlay.toList) :=
  mergeSlots_eq fun entry member own => (column.framed entry member own).ge

theorem value_eq_effective (shown : Shown db storage) (slot : Slot) :
    storage.value db slot = ((effective db storage)[slot]?).getD zeroValue := by
  rw [getElem?_effective column, ContractStorage.value, dbValue]
  cases written : storage.overlay[slot]? with
  | none => rw [committed_unwritten written, Option.getD_none]
  | some word =>
    have nonzero : isZero word = false :=
      shown.written _ (ExtTreeMap.mem_toList_iff_getElem?_eq_some.mpr written)
    simp [committed_touched written, nonzero]

end

section
variable (sha512 : List UInt8 → Vector UInt8 64)

def Collides (left right : List UInt8) : Prop :=
  left ≠ right ∧ rootHash sha512 left = rootHash sha512 right

def hashedInputs (db : ContractsCf) (storage : ContractStorage) : List (List UInt8) :=
  match mergedSlots db storage with
  | none => []
  | some entries => rootInput sha512 entries :: entries.map leafInput

theorem leafInput_injective {left right : Slot × Value}
    (same : leafInput left = leafInput right) : left = right := by
  unfold leafInput at same
  rw [List.append_assoc, List.append_assoc] at same
  obtain ⟨slots, values⟩ := List.append_inj (List.append_cancel_left same) (by simp)
  have slot := LatticeTypes.toLeBytes_injective slots
  have small : ∀ slot : Slot, slot.toNat < 256 ^ 8 := fun slot => slot.toNat_lt
  rw [Nat.mod_eq_of_lt (small left.1), Nat.mod_eq_of_lt (small right.1)] at slot
  exact Prod.ext (UInt64.toNat_inj.mp slot) values

theorem entries_eq_or_collides {left : List (Slot × Value)} (right : List (Slot × Value))
    (same : (left.flatMap fun entry => (sha512 (leafInput entry)).toList) =
      right.flatMap fun entry => (sha512 (leafInput entry)).toList) :
    left = right ∨ ∃ first ∈ left, ∃ second ∈ right,
      Collides sha512 (leafInput first) (leafInput second) := by
  induction left generalizing right with
  | nil =>
    cases right with
    | nil => exact Or.inl rfl
    | cons second rest =>
      have lengths := congrArg List.length same
      simp at lengths
      omega
  | cons first rest ih =>
    cases right with
    | nil =>
      have lengths := congrArg List.length same
      simp at lengths
    | cons second others =>
      rw [List.flatMap_cons, List.flatMap_cons] at same
      obtain ⟨leaf, leaves⟩ := List.append_inj same (by simp)
      by_cases alike : leafInput first = leafInput second
      · rcases ih others leaves with tails | ⟨one, inRest, two, inOthers, collides⟩
        · rw [leafInput_injective alike, tails]
          exact Or.inl rfl
        · exact Or.inr ⟨one, List.mem_cons_of_mem _ inRest, two,
            List.mem_cons_of_mem _ inOthers, collides⟩
      · exact Or.inr ⟨first, List.mem_cons_self, second, List.mem_cons_self, alike,
          congrArg (List.take 32) leaf⟩

def Apart (db : ContractsCf) (storage : ContractStorage) (otherDb : ContractsCf)
    (other : ContractStorage) : Prop :=
  ∀ left ∈ hashedInputs sha512 db storage, ∀ right ∈ hashedInputs sha512 otherDb other,
    ¬ Collides sha512 left right

theorem mergedSlots_of_root {entries others : List (Slot × Value)}
    (merged : mergedSlots db storage = some entries)
    (otherMerged : mergedSlots otherDb other = some others)
    (apart : Apart sha512 db storage otherDb other)
    (same : computeStorageRoot sha512 db storage = computeStorageRoot sha512 otherDb other) :
    entries = others := by
  rw [computeStorageRoot, computeStorageRoot, merged, otherMerged, Option.map_some,
    Option.map_some, Option.some.injEq] at same
  simp only [Apart, hashedInputs, merged, otherMerged] at apart
  by_cases input : rootInput sha512 entries = rootInput sha512 others
  · rcases entries_eq_or_collides sha512 others (List.append_cancel_left input) with
      alike | ⟨first, inEntries, second, inOthers, collides⟩
    · exact alike
    · exact absurd collides (apart _ (List.mem_cons_of_mem _ (List.mem_map_of_mem inEntries)) _
        (List.mem_cons_of_mem _ (List.mem_map_of_mem inOthers)))
  · exact absurd ⟨input, same⟩ (apart _ List.mem_cons_self _ List.mem_cons_self)

/-- The same map of slots, all of it in the overlay of an empty database. -/
def inOverlay (db : ContractsCf) (storage : ContractStorage) : ContractStorage :=
  { storage with overlay := effective db storage }

theorem mergedSlots_inOverlay :
    mergedSlots ∅ (inOverlay db storage) = some (effective db storage).toList := by
  have nothing : (∅ : ContractsCf).toList = [] := rfl
  rw [mergedSlots, nothing, mergeSlots]
  rfl

theorem root_iff_shown (column : Column db storage.contractAddress)
    (apart : Apart sha512 db storage ∅ (inOverlay db storage)) :
    computeStorageRoot sha512 db storage = computeStorageRoot sha512 ∅ (inOverlay db storage) ↔
      Shown db storage := by
  constructor
  · intro same
    exact shown_of_merged column
      (mergedSlots_of_root sha512 (mergedSlots_eq column) mergedSlots_inOverlay apart same)
  · intro shown
    rw [computeStorageRoot, mergedSlots_eq column, merged_of_shown column shown,
      computeStorageRoot, mergedSlots_inOverlay]

def sampleSha512 (input : List UInt8) : Vector UInt8 64 :=
  Vector.ofFn fun index => (input.reverse[index.val]?).getD 0

def sampleStorage (slot : Slot) : ContractStorage :=
  { contractAddress := sampleAddress, sized := rfl,
    overlay := (∅ : ExtTreeMap Slot Value).insert slot (sampleValue 9) }

end

end Savitri.StorageRoot
