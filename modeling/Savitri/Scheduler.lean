import Savitri.ConflictKeys
import Savitri.Reordering

/-!
The commit scheduler of p2p/commit_scheduler.rs as a machine of four calls:
admit a block, drain the ready queue, wake deferred blocks, collect garbage.
Hash maps and sets are ordered tables and lists; a call that walks one carries
the order of its walk, which the source leaves to the hasher, and a call that
reads the storage carries it as it stands then.
Statistics and creation times are left out, and set ids do not wrap.
-/
namespace Savitri.Scheduler
open Std Reordering BlockExecution ConflictKeys

structure CommitScheduler where
  blockMeta : ExtTreeMap BlockHash ExecutedBlockMeta := ∅
  readyQueue : List BlockHash := []
  deferredByNonce : ExtTreeMap Address (List BlockHash) := ∅
  conflictSets : ExtTreeMap Nat ConflictSet := ∅
  conflictKeyIndex : ConflictKey → List Nat := fun _ => []
  blockConflictSets : ExtTreeMap BlockHash (List Nat) := ∅
  nextConflictId : Nat := 0
  accountCursors : Cursors := ∅
  committedBlocks : List BlockHash := []

structure IterationOrder where
  blocks : Shuffle (BlockHash × ExecutedBlockMeta)
  keyIds : Shuffle Nat
  setIds : Shuffle Nat
  accounts : Shuffle (Address × List BlockHash)

def IterationOrder.plain : IterationOrder :=
  { blocks := .plain, keyIds := .plain, setIds := .plain, accounts := .plain }

namespace CommitScheduler
variable (scheduler : CommitScheduler) (hash : BlockHash)

def isKnown : Bool := scheduler.blockMeta.contains hash || scheduler.committedBlocks.contains hash

def setsOf : List Nat := (scheduler.blockConflictSets[hash]?).getD []

def setStatus (status : BlockStatus) : CommitScheduler :=
  { scheduler with
    blockMeta := scheduler.blockMeta.modify hash fun block => { block with status } }

def pushReady : CommitScheduler := { scheduler with readyQueue := scheduler.readyQueue ++ [hash] }

variable (order : IterationOrder)

def existingEntries (scheduler : CommitScheduler) (hash : BlockHash) :
    List (BlockHash × List ConflictKey) :=
  ((order.blocks.order scheduler.blockMeta.toList).filter fun entry =>
    entry.1 != hash && !entry.2.status.closed).map fun entry => (entry.1, entry.2.conflictKeys)

/-- The pairs of the admission's two loops, keys outside, existing blocks inside. -/
def conflictPairs (keys : List ConflictKey) (existing : List (BlockHash × List ConflictKey)) :
    List (ConflictKey × BlockHash) :=
  keys.flatMap fun key =>
    (existing.filter fun entry => entry.2.contains key).map fun entry => (key, entry.1)

def openSet (existing : BlockHash) (id : Nat) : Bool :=
  match scheduler.conflictSets[id]? with
  | some set => set.members.contains existing && !set.resolved
  | none => false

def addToSets (sets : ExtTreeMap BlockHash (List Nat)) (hash : BlockHash) (id : Nat) :
    ExtTreeMap BlockHash (List Nat) :=
  sets.insert hash (((sets[hash]?).getD []).insert id)

def findOrCreateConflictSet (scheduler : CommitScheduler) (key : ConflictKey)
    (existing new : BlockHash) : CommitScheduler × Nat :=
  match (order.keyIds.order (scheduler.conflictKeyIndex key)).find?
      (openSet scheduler existing) with
  | some id =>
    match scheduler.conflictSets[id]? with
    | some set =>
      if set.members.contains new then (scheduler, id)
      else
        ({ scheduler with conflictSets :=
            scheduler.conflictSets.insert id { set with members := set.members ++ [new] } },
          id)
    | none => (scheduler, id)
  | none =>
    let id := scheduler.nextConflictId
    ({ scheduler with
        nextConflictId := id + 1
        conflictSets := scheduler.conflictSets.insert id { id, key, members := [existing, new] }
        conflictKeyIndex := fun other =>
          if other = key then (scheduler.conflictKeyIndex key).insert id
          else scheduler.conflictKeyIndex other
        blockConflictSets := addToSets (addToSets scheduler.blockConflictSets existing id) new id },
      id)

def openPair (new : BlockHash) (state : CommitScheduler × List Nat) (pair : ConflictKey × BlockHash) :
    CommitScheduler × List Nat :=
  let found := findOrCreateConflictSet order state.1 pair.1 pair.2 new
  (found.1, state.2.insert found.2)

def candidate : Option BlockMeta :=
  (scheduler.blockMeta[hash]?).map fun block =>
    { blockHash := hash, topoRank := block.topoRank, pouScore := block.pouScore,
      height := block.height }

/-- A set that is gone counts as resolved. -/
def allResolved : Bool :=
  (scheduler.setsOf hash).all fun id =>
    match scheduler.conflictSets[id]? with
    | some set => set.resolved
    | none => true

def settleMember (winner : BlockHash) (scheduler : CommitScheduler) (hash : BlockHash) :
    CommitScheduler :=
  if hash = winner then
    if scheduler.allResolved hash then (scheduler.setStatus hash .resolvedWinner).pushReady hash
    else scheduler
  else scheduler.setStatus hash .resolvedLoser

def tryResolveConflictSet (id : Nat) : CommitScheduler :=
  match scheduler.conflictSets[id]? with
  | none => scheduler
  | some set =>
    if set.resolved then scheduler else
    let candidates := set.members.filterMap scheduler.candidate
    if candidates.length < 2 then scheduler else
    match chooseWinner candidates with
    | none => scheduler
    | some winner =>
      set.members.foldl (settleMember winner)
        { scheduler with
          conflictSets := scheduler.conflictSets.insert id
            { set with resolved := true, winner := some winner } }

def admitBlock (scheduler : CommitScheduler) (block : ExecutedBlockMeta) :
    CommitScheduler × BlockStatus :=
  let hash := block.blockHash
  if scheduler.isKnown hash then (scheduler, .committed)
  else
    let pairs := conflictPairs block.conflictKeys (existingEntries order scheduler hash)
    let opened := pairs.foldl (openPair order hash) (scheduler, [])
    let ids := opened.2
    if ids.isEmpty then
      ({ opened.1 with
          blockMeta := opened.1.blockMeta.insert hash { block with status := .accepted }
          readyQueue := opened.1.readyQueue ++ [hash] }, .accepted)
    else
      ((order.setIds.order ids).foldl tryResolveConflictSet
        { opened.1 with
          blockConflictSets := opened.1.blockConflictSets.insert hash ids
          blockMeta := opened.1.blockMeta.insert hash { block with status := .conflicting } },
        .conflicting)

inductive DrainCheck where
  | ok
  | defer (account : Address)
  | reject
  deriving DecidableEq

/-- The nonce checks of a block, up to the first that fails. The cursors do not
move in between, so a second transaction of one sender is never in line. -/
def checkTxs (storage : Accounts) (cursors : Cursors) : List SignedTx → DrainCheck
  | [] => .ok
  | tx :: rest =>
    let sender := normalizeAddressBytes tx.sender
    match checkTxNonce storage cursors sender tx.nonce with
    | .ok => checkTxs storage cursors rest
    | .deferred => .defer sender
    | .reject => .reject

def hasUnresolved : Bool :=
  (scheduler.setsOf hash).any fun id =>
    match scheduler.conflictSets[id]? with
    | some set => !set.resolved
    | none => false

def advanceAll (cursors : Cursors) (stateDiff : Accounts) : Cursors :=
  stateDiff.toList.foldl (fun cursors entry => advance cursors entry.1 entry.2.nonce) cursors

structure Draining where
  scheduler : CommitScheduler
  committed : List (BlockHash × ExecutedBlockMeta) := []
  toDefer : List (BlockHash × Address) := []

def commitOne (draining : Draining) (hash : BlockHash) (block : ExecutedBlockMeta) : Draining :=
  let scheduler := draining.scheduler
  let done := { block with status := .committed }
  { draining with
    scheduler := { scheduler with
      blockMeta := scheduler.blockMeta.insert hash done
      accountCursors := advanceAll scheduler.accountCursors block.stateDiff
      committedBlocks := scheduler.committedBlocks.insert hash }
    committed := draining.committed ++ [(hash, done)] }

variable (storage : Accounts)

/-- One popped block. A block that fails with `reject` is dropped as it is: its
status stays and nothing holds it any more. -/
def drainOne (draining : Draining) (hash : BlockHash) : Draining :=
  match draining.scheduler.blockMeta[hash]? with
  | none => draining
  | some block =>
    if block.status.closed then draining
    else if draining.scheduler.hasUnresolved hash then draining
    else
      match checkTxs storage draining.scheduler.accountCursors block.signedTxs with
      | .reject => draining
      | .defer account => { draining with toDefer := draining.toDefer ++ [(hash, account)] }
      | .ok => commitOne draining hash block

def deferOne (entry : BlockHash × Address) : CommitScheduler :=
  let scheduler := scheduler.setStatus entry.1 .deferred
  { scheduler with
    deferredByNonce := scheduler.deferredByNonce.insert entry.2
      ((scheduler.deferredByNonce[entry.2]?).getD [] ++ [entry.1]) }

/-- Nothing is pushed while the queue is popped, so the loop runs over the queue
as it was found. -/
def drainReady (scheduler : CommitScheduler) : CommitScheduler × List (BlockHash × ExecutedBlockMeta) :=
  let drained := scheduler.readyQueue.foldl (drainOne storage)
    { scheduler := { scheduler with readyQueue := [] } }
  (drained.toDefer.foldl deferOne drained.scheduler, drained.committed)

theorem drainOne_cases {storage : Accounts} {draining : Draining} {hash : BlockHash} :
    (drainOne storage draining hash = draining ∧
      ∀ block, draining.scheduler.blockMeta[hash]? = some block →
        block.status.closed = true ∨ draining.scheduler.hasUnresolved hash = true) ∨
    ∃ block, draining.scheduler.blockMeta[hash]? = some block ∧ block.status.closed = false ∧
      draining.scheduler.hasUnresolved hash = false ∧
      ((checkTxs storage draining.scheduler.accountCursors block.signedTxs = .reject ∧
          drainOne storage draining hash = draining) ∨ (∃ account,
          checkTxs storage draining.scheduler.accountCursors block.signedTxs = .defer account ∧
          drainOne storage draining hash =
            { draining with toDefer := draining.toDefer ++ [(hash, account)] }) ∨
        (checkTxs storage draining.scheduler.accountCursors block.signedTxs = .ok ∧
          drainOne storage draining hash = commitOne draining hash block)) := by
  unfold drainOne
  cases found : draining.scheduler.blockMeta[hash]? with
  | none => simp
  | some block =>
    cases closed : block.status.closed with
    | true => simp [closed]
    | false =>
      cases unresolved : draining.scheduler.hasUnresolved hash with
      | true => simp
      | false =>
        cases check : checkTxs storage draining.scheduler.accountCursors block.signedTxs with
        | reject | defer | ok => simp [closed, check]

def matchesCursor (scheduler : CommitScheduler) (account : Address) (hash : BlockHash) : Bool :=
  match scheduler.blockMeta[hash]? with
  | none => false
  | some block => block.signedTxs.any fun tx =>
    normalizeAddressBytes tx.sender == account &&
      tx.nonce == expectedNonce storage scheduler.accountCursors account

def wokenBlocks (scheduler : CommitScheduler) : List BlockHash :=
  (order.accounts.order scheduler.deferredByNonce.toList).flatMap fun entry =>
    entry.2.filter (scheduler.matchesCursor storage entry.1)

def wakeOne : CommitScheduler :=
  let scheduler := (scheduler.setStatus hash .accepted).pushReady hash
  { scheduler with deferredByNonce :=
      scheduler.deferredByNonce.map fun _ hashes => hashes.filter (· != hash) }

def wakeDeferred (scheduler : CommitScheduler) : CommitScheduler :=
  let woken := (scheduler.wokenBlocks order storage).foldl wakeOne scheduler
  { woken with deferredByNonce := woken.deferredByNonce.filter fun _ hashes => !hashes.isEmpty }

def collectable (keepHeight : Nat) (block : ExecutedBlockMeta) : Bool :=
  decide (block.height < keepHeight) && block.status.closed

def gc (keepHeight : Nat) (scheduler : CommitScheduler) : CommitScheduler :=
  let removed := fun hash => match scheduler.blockMeta[hash]? with
    | some block => collectable keepHeight block
    | none => false
  let blockMeta := scheduler.blockMeta.filter fun hash _ => !removed hash
  { scheduler with
    blockMeta
    blockConflictSets := scheduler.blockConflictSets.filter fun hash _ => !removed hash
    committedBlocks := scheduler.committedBlocks.filter fun hash => !removed hash
    conflictSets := scheduler.conflictSets.filter fun _ set =>
      !set.resolved || set.members.any fun hash => blockMeta.contains hash }

end CommitScheduler

inductive Call where
  | admitBlock (order : IterationOrder) (block : ExecutedBlockMeta)
  | drain (storage : Accounts)
  | wake (order : IterationOrder) (storage : Accounts)
  | gc (keepHeight : Nat)

inductive Reply where
  | admitted (status : BlockStatus)
  | drained (blocks : List (BlockHash × ExecutedBlockMeta))
  | done

variable (scheduler : CommitScheduler)

def step : Call → CommitScheduler × Reply
  | .admitBlock order block =>
    let result := scheduler.admitBlock order block
    (result.1, .admitted result.2)
  | .drain storage =>
    let result := scheduler.drainReady storage
    (result.1, .drained result.2)
  | .wake order storage => (scheduler.wakeDeferred order storage, .done)
  | .gc keepHeight => (scheduler.gc keepHeight, .done)

def Reply.commits : Reply → List (BlockHash × ExecutedBlockMeta)
  | .drained blocks => blocks
  | _ => []

def sampleTxHash (tx : SignedTx) : Vector UInt8 32 :=
  padded (tx.sender.toUTF8.toList ++ [tx.nonce.toUInt8])

/-- A block of payments named by sender and nonce, at the height of its rank, with
the keys its transactions have and a diff that moves every sender one on. -/
def sampleMeta (tag : UInt8) (rank : Nat) (payments : List (String × UInt64)) : ExecutedBlockMeta :=
  let txs := payments.map fun payment =>
    { sender := payment.1, recipient := "ee", amount := 0, nonce := payment.2, fee := none }
  { blockHash := Vector.replicate 64 tag, height := rank, topoRank := rank, pouScore := 0,
    signedTxs := txs, conflictKeys := extractConflictKeys sampleTxHash txs,
    stateDiff := txs.foldl (fun diff tx =>
      diff.insert (normalizeAddressBytes tx.sender) { nonce := tx.nonce + 1 }) ∅ }

def body (block : ExecutedBlockMeta) : ExecutedBlockMeta := { block with status := .pending }

def bodyAt (hash : BlockHash) : Option ExecutedBlockMeta := (scheduler.blockMeta[hash]?).map body

namespace CommitScheduler
variable (scheduler : CommitScheduler) (order : IterationOrder)
  {first second third : CommitScheduler}

theorem getElem?_setStatus (hash other : BlockHash) (status : BlockStatus) :
    (scheduler.setStatus hash status).blockMeta[other]? =
      if hash = other then (scheduler.blockMeta[other]?).map fun block => { block with status }
      else scheduler.blockMeta[other]? := by
  rw [setStatus, ExtTreeMap.getElem?_modify]
  by_cases here : hash = other
  · simp [here]
  · simp [here]

variable {hash : BlockHash}

theorem bodyAt_setStatus {other : BlockHash} {status : BlockStatus} :
    bodyAt (scheduler.setStatus hash status) other = bodyAt scheduler other := by
  rw [bodyAt, bodyAt, getElem?_setStatus]
  by_cases here : hash = other
  · rw [if_pos here, Option.map_map]
    rfl
  · rw [if_neg here]

structure KeptLedger (before after : CommitScheduler) : Prop where
  cursors : after.accountCursors = before.accountCursors
  committed : after.committedBlocks = before.committedBlocks
  bodies : ∀ hash, bodyAt after hash = bodyAt before hash

theorem KeptLedger.refl : KeptLedger scheduler scheduler := ⟨rfl, rfl, fun _ => rfl⟩

theorem KeptLedger.trans (early : KeptLedger first second) (late : KeptLedger second third) :
    KeptLedger first third :=
  ⟨late.cursors.trans early.cursors, late.committed.trans early.committed, fun hash =>
    (late.bodies hash).trans (early.bodies hash)⟩

structure Kept (before after : CommitScheduler) : Prop extends KeptLedger before after where
  deferred : after.deferredByNonce = before.deferredByNonce

theorem Kept.refl : Kept scheduler scheduler := ⟨KeptLedger.refl scheduler, rfl⟩

theorem Kept.trans (early : Kept first second) (late : Kept second third) : Kept first third :=
  ⟨early.toKeptLedger.trans late.toKeptLedger, late.deferred.trans early.deferred⟩

variable {order}

theorem findOrCreateConflictSet_kept {scheduler : CommitScheduler} {key : ConflictKey}
    {existing new : BlockHash} :
    Kept scheduler (scheduler.findOrCreateConflictSet order key existing new).1 := by
  unfold findOrCreateConflictSet
  split
  · split
    · split
      · exact Kept.refl scheduler
      · exact ⟨⟨rfl, rfl, fun _ => rfl⟩, rfl⟩
    · exact Kept.refl scheduler
  · exact ⟨⟨rfl, rfl, fun _ => rfl⟩, rfl⟩

theorem openPairs_kept {new : BlockHash} {scheduler : CommitScheduler}
    {pairs : List (ConflictKey × BlockHash)} :
    Kept scheduler (pairs.foldl (openPair order new) (scheduler, [])).1 := by
  apply List.foldlRecOn (motive := fun state : CommitScheduler × List Nat =>
    Kept scheduler state.1)
  · exact Kept.refl scheduler
  · intro state kept pair _
    exact kept.trans findOrCreateConflictSet_kept

theorem settleMember_kept {winner : BlockHash} {scheduler : CommitScheduler} :
    Kept scheduler (settleMember winner scheduler hash) := by
  unfold settleMember
  split
  · split
    · exact ⟨⟨rfl, rfl, fun other => bodyAt_setStatus scheduler⟩, rfl⟩
    · exact Kept.refl scheduler
  · exact ⟨⟨rfl, rfl, fun other => bodyAt_setStatus scheduler⟩, rfl⟩

theorem tryResolveConflictSet_kept {id : Nat} :
    Kept scheduler (scheduler.tryResolveConflictSet id) := by
  unfold tryResolveConflictSet
  split
  · exact Kept.refl scheduler
  · split
    · exact Kept.refl scheduler
    · simp only
      split
      · exact Kept.refl scheduler
      · split
        · exact Kept.refl scheduler
        · apply List.foldlRecOn (motive := fun state => Kept scheduler state)
          · exact ⟨⟨rfl, rfl, fun _ => rfl⟩, rfl⟩
          · intro state kept hash _
            exact kept.trans settleMember_kept

theorem admitBlock_known {scheduler : CommitScheduler} {block : ExecutedBlockMeta}
    (known : scheduler.isKnown block.blockHash = true) :
    (scheduler.admitBlock order block).1 = scheduler := by
  simp only [admitBlock, known, if_true]

variable (order)

theorem admitBlock_unknown (scheduler : CommitScheduler) (block : ExecutedBlockMeta)
    (unknown : scheduler.isKnown block.blockHash = false) :
    ∃ written, Kept written (scheduler.admitBlock order block).1 ∧
      written.accountCursors = scheduler.accountCursors ∧
      written.deferredByNonce = scheduler.deferredByNonce ∧
      written.committedBlocks = scheduler.committedBlocks ∧
      ∀ hash, bodyAt written hash =
        if block.blockHash = hash then some (body block) else bodyAt scheduler hash := by
  let pairs := conflictPairs block.conflictKeys (existingEntries order scheduler block.blockHash)
  let opened := pairs.foldl (openPair order block.blockHash) (scheduler, [])
  have kept : Kept scheduler opened.1 := openPairs_kept
  have entry : ∀ (status : BlockStatus) (hash : BlockHash),
      (((opened.1.blockMeta.insert block.blockHash { block with status })[hash]?).map body) =
        if block.blockHash = hash then some (body block) else bodyAt scheduler hash := by
    intro status hash
    rw [ExtTreeMap.getElem?_insert]
    by_cases here : block.blockHash = hash
    · simp [here, body]
    · rw [if_neg (by simpa using here), if_neg here]
      exact kept.bodies hash
  unfold admitBlock
  simp only [unknown, Bool.false_eq_true, if_false]
  by_cases free : opened.2.isEmpty = true
  · rw [if_pos free]
    exact ⟨_, Kept.refl _, kept.cursors, kept.deferred, kept.committed, entry .accepted⟩
  · rw [if_neg free]
    refine ⟨{ opened.1 with
        blockConflictSets := opened.1.blockConflictSets.insert block.blockHash opened.2
        blockMeta := opened.1.blockMeta.insert block.blockHash
          { block with status := .conflicting } },
      ?_, kept.cursors, kept.deferred, kept.committed, entry .conflicting⟩
    apply List.foldlRecOn (motive := fun state => Kept _ state)
    · exact Kept.refl _
    · intro state before id _
      exact before.trans (tryResolveConflictSet_kept state)

theorem deferOne_kept {entry : BlockHash × Address} : KeptLedger scheduler (deferOne scheduler entry) :=
  ⟨rfl, rfl, fun _ => bodyAt_setStatus scheduler⟩

theorem deferAll_kept (entries : List (BlockHash × Address)) (scheduler : CommitScheduler) :
    KeptLedger scheduler (entries.foldl deferOne scheduler) := by
  apply List.foldlRecOn (motive := fun state => KeptLedger scheduler state)
  · exact KeptLedger.refl scheduler
  · intro state kept entry _
    exact kept.trans (deferOne_kept state)

theorem wakeAll_kept {hashes : List BlockHash} {scheduler : CommitScheduler} :
    KeptLedger scheduler (hashes.foldl wakeOne scheduler) := by
  apply List.foldlRecOn (motive := fun state => KeptLedger scheduler state)
  · exact KeptLedger.refl scheduler
  · intro state kept hash _
    exact kept.trans ⟨rfl, rfl, fun other => bodyAt_setStatus state⟩

theorem wakeDeferred_kept (storage : Accounts) (scheduler : CommitScheduler) :
    KeptLedger scheduler (scheduler.wakeDeferred order storage) :=
  let woken := wakeAll_kept
  ⟨woken.cursors, woken.committed, woken.bodies⟩

theorem getElem?_gc (keepHeight : Nat) (scheduler : CommitScheduler) (hash : BlockHash) :
    (scheduler.gc keepHeight).blockMeta[hash]? =
      (scheduler.blockMeta[hash]?).filter fun block => !collectable keepHeight block := by
  simp only [gc, ExtTreeMap.getElem?_filter']
  cases scheduler.blockMeta[hash]? with
  | none | some => rfl

end CommitScheduler

end Savitri.Scheduler
