import Savitri.MapTotal
import Savitri.QueuedTxs

/-!
What the pool of transactions ahead of their account keeps, and what `promote` hands
out of it: the counter is the number of transactions queued, the two limits hold, and
each queue is keyed by nonce.
-/
namespace Savitri.QueuedTxs
open Std (ExtTreeMap)
open ReplayPrevention MempoolTypes MapTotal Transition
variable {queue : AccountQueue} {pool : QueuedPool} {first : UInt64}

/-- The entries of the nonces from `first` on that are below `stop`. -/
def between (first : UInt64) (stop : Nat) (entry : UInt64 × QueuedTx) : Bool :=
  decide (first ≤ entry.1) && decide (entry.1.toNat < stop)

/-- A queue hands out the run of `count` consecutive nonces from `first` on: they are
returned in nonce order, the nonce after them is missing, and of the others those go that
are below `first`. -/
structure Promotes (queue after : AccountQueue) (first : UInt64) (count : Nat)
    (promoted : List (PrevalidatedTx × Option TxHash)) : Prop where
  inRange : first.toNat + count < 2 ^ 64
  consecutive : ∀ nonce : UInt64, first ≤ nonce → nonce.toNat < first.toNat + count → nonce ∈ queue
  maximal : ∀ nonce ∈ queue, nonce.toNat ≠ first.toNat + count
  returned : promoted = (queue.toList.filter (between first (first.toNat + count))).map
    fun entry => (entry.2.pv, entry.2.txHash)
  left : ∀ nonce : UInt64, after[nonce]? =
    if nonce.toNat < first.toNat + count then none else queue[nonce]?

/-- The scan over what is left of a queue. Nothing between the new account nonce and the
next one expected is left. -/
theorem promoteScan_spec {entries : List (UInt64 × QueuedTx)}
    (sorted : entries.Pairwise fun one two => one.1 < two.1) (expected : UInt64)
    (reached : first ≤ expected) (room : expected.toNat + entries.length < 2 ^ 64)
    (behind : ∀ entry ∈ entries, entry.1 < first ∨ expected ≤ entry.1) :
    ∃ count ≤ entries.length,
      (∀ i < count, ∃ entry ∈ entries, entry.1.toNat = expected.toNat + i) ∧
      (∀ entry ∈ entries, entry.1.toNat ≠ expected.toNat + count) ∧
      promoteScan first entries expected =
        ((entries.filter fun entry => entry.1.toNat < expected.toNat + count).map Prod.fst,
          (entries.filter (between first (expected.toNat + count))).map
            fun entry => (entry.2.pv, entry.2.txHash)) := by
  induction entries generalizing expected with
  | nil => exact ⟨0, by simp [promoteScan]⟩
  | cons entry rest ih =>
    obtain ⟨nonce, queued⟩ := entry
    rw [List.pairwise_cons] at sorted
    rw [List.forall_mem_cons] at behind
    rw [List.length_cons] at room
    simp only [UInt64.lt_iff_toNat_lt, UInt64.le_iff_toNat_le] at sorted behind reached ih
    simp only [promoteScan, UInt64.lt_iff_toNat_lt]
    -- A stale entry is passed over, the expected one is taken, and a gap ends the scan.
    split
    · next stale =>
      obtain ⟨count, short, consecutive, maximal, scanned⟩ :=
        ih sorted.2 expected reached (by omega) behind.2
      refine ⟨count, by simp; omega, ?_, ?_, ?_⟩
      · intro i below
        obtain ⟨entry, member, same⟩ := consecutive i below
        exact ⟨entry, List.mem_cons_of_mem _ member, same⟩
      · exact List.forall_mem_cons.mpr ⟨by dsimp only; omega, maximal⟩
      · rw [scanned, List.filter_cons_of_pos (by simp; omega),
          List.filter_cons_of_neg (by simp [between, UInt64.le_iff_toNat_le]; omega)]
        rfl
    · split
      · next fresh same =>
        subst same
        have next : (nonce + 1).toNat = nonce.toNat + 1 := by
          rw [UInt64.toNat_add, UInt64.toNat_one]
          omega
        obtain ⟨count, short, consecutive, maximal, scanned⟩ :=
          ih sorted.2 (nonce + 1) (by omega) (by omega)
            fun entry member => Or.inr (by have := sorted.1 entry member; omega)
        rw [next] at consecutive maximal scanned
        refine ⟨count + 1, by simp; omega, ?_, ?_, ?_⟩
        · intro i below
          cases i with
          | zero => exact ⟨_, List.mem_cons_self, rfl⟩
          | succ i =>
            obtain ⟨entry, member, same⟩ := consecutive i (by omega)
            exact ⟨entry, List.mem_cons_of_mem _ member, by omega⟩
        · refine List.forall_mem_cons.mpr ⟨by dsimp only; omega, ?_⟩
          intro entry member same
          exact maximal entry member (by omega)
        · have shifted : nonce.toNat + 1 + count = nonce.toNat + (count + 1) := by omega
          rw [scanned, shifted, List.filter_cons_of_pos (by simp),
            List.filter_cons_of_pos (by simp [between, UInt64.le_iff_toNat_le]; omega)]
          rfl
      · next fresh gap =>
        have above : ∀ entry ∈ (nonce, queued) :: rest, expected.toNat < entry.1.toNat := by
          have beyond : expected.toNat < nonce.toNat := by
            have differ := mt UInt64.toNat_inj.mp gap
            omega
          refine List.forall_mem_cons.mpr ⟨beyond, fun entry member => ?_⟩
          exact beyond.trans (sorted.1 entry member)
        refine ⟨0, by simp, by simp, fun entry member => (above entry member).ne', ?_⟩
        have none : ∀ keeps : UInt64 × QueuedTx → Bool,
            (∀ entry, keeps entry = true → entry.1.toNat < expected.toNat) →
              ((nonce, queued) :: rest).filter keeps = [] := by
          intro keeps below
          refine List.filter_eq_nil_iff.mpr fun entry member kept => ?_
          exact (above entry member).not_gt (below entry kept)
        rw [none _ (by simp), none _ (by simp [between])]
        rfl

theorem getElem?_erases (nonces : List UInt64) (queue : AccountQueue) (nonce : UInt64) :
    (nonces.foldl (fun queue nonce => queue.erase nonce) queue)[nonce]? =
      if nonce ∈ nonces then none else queue[nonce]? := by
  induction nonces generalizing queue with
  | nil => simp
  | cons head rest ih =>
    rw [List.foldl_cons, ih, ExtTreeMap.getElem?_erase]
    grind

theorem size_erases {nonces : List UInt64} (distinct : nonces.Nodup) {queue : AccountQueue}
    (present : ∀ nonce ∈ nonces, nonce ∈ queue) :
    (nonces.foldl (fun queue nonce => queue.erase nonce) queue).size + nonces.length =
      queue.size := by
  induction nonces generalizing queue with
  | nil => rfl
  | cons head rest ih =>
    rw [List.nodup_cons] at distinct
    rw [List.forall_mem_cons] at present
    have still : ∀ nonce ∈ rest, nonce ∈ queue.erase head := by
      intro nonce member
      rw [ExtTreeMap.mem_erase]
      grind
    have erased := ih distinct.2 still
    have size := queue.size_erase (k := head)
    rw [if_pos (ExtTreeMap.contains_iff_mem.mpr present.1)] at size
    have occupied : queue.size ≠ 0 := fun none =>
      ExtTreeMap.eq_empty_iff_forall_not_mem.mp
        (ExtTreeMap.eq_empty_iff_size_eq_zero.mpr none) head present.1
    rw [List.foldl_cons, List.length_cons]
    omega

/-- What `promote` takes out of a queue, and what it hands out. -/
theorem promoteScan_promotes (room : first.toNat + queue.size < 2 ^ 64 - 1) :
    ∃ count, Promotes queue
        ((promoteScan first queue.toList first).1.foldl (fun queue nonce => queue.erase nonce) queue)
        first count (promoteScan first queue.toList first).2 ∧
      (promoteScan first queue.toList first).1.Nodup ∧
      ∀ nonce ∈ (promoteScan first queue.toList first).1, nonce ∈ queue := by
  have sorted : queue.toList.Pairwise fun one two => one.1 < two.1 :=
    queue.ordered_keys_toList.imp fun less => compareOfLessAndEq_eq_lt.mp less
  rw [← ExtTreeMap.length_toList] at room
  obtain ⟨count, short, consecutive, maximal, scanned⟩ := promoteScan_spec sorted first
    (UInt64.le_refl _) (by omega) fun entry _ => (UInt64.lt_or_le entry.1 first).imp_right id
  have listed : ∀ nonce : UInt64, nonce ∈ queue ↔ ∃ queued, (nonce, queued) ∈ queue.toList := by
    intro nonce
    simp only [ExtTreeMap.mem_toList_iff_getElem?_eq_some, ExtTreeMap.mem_iff_isSome_getElem?,
      Option.isSome_iff_exists]
  have removed : ∀ nonce, nonce ∈ (promoteScan first queue.toList first).1 ↔
      nonce ∈ queue ∧ nonce.toNat < first.toNat + count := by
    intro nonce
    rw [scanned, listed]
    simp
  refine ⟨count, ⟨by omega, ?_, ?_, by rw [scanned], ?_⟩, ?_, fun nonce member =>
    ((removed nonce).mp member).1⟩
  · intro nonce least below
    rw [UInt64.le_iff_toNat_le] at least
    obtain ⟨⟨other, queued⟩, member, same⟩ := consecutive (nonce.toNat - first.toNat) (by omega)
    have equal : other = nonce := UInt64.toNat_inj.mp (by dsimp only at same; omega)
    exact (listed nonce).mpr ⟨queued, equal ▸ member⟩
  · intro nonce member
    obtain ⟨queued, inList⟩ := (listed nonce).mp member
    exact maximal _ inList
  · intro nonce
    simp only [getElem?_erases, removed]
    by_cases present : nonce ∈ queue
    · simp [present]
    · simp [present]
  · rw [scanned]
    exact ((sorted.filter _).map Prod.fst fun _ _ less => less).imp fun less => UInt64.ne_of_lt less

section
/-- A queue within the limit for one account, keyed by the nonces of its transactions. -/
structure Fits (config : QueuedPoolConfig) (queue : AccountQueue) : Prop where
  short : queue.size ≤ config.maxPerAccount
  keyed : ∀ (nonce : UInt64) (queued : QueuedTx), queue[nonce]? = some queued →
    queued.pv.nonce = nonce

structure WellKept (pool : QueuedPool) : Prop where
  counted : pool.total = total ExtTreeMap.size pool.accounts
  limited : pool.total ≤ pool.config.maxTotal
  fits : ∀ (sender : SenderId) (queue : AccountQueue), pool.accounts[sender]? = some queue →
    Fits pool.config queue

variable {sender : SenderId} {config : QueuedPoolConfig}

theorem weightAt_size : weightAt ExtTreeMap.size pool.accounts sender = (pool.queueOf sender).size := by
  unfold weightAt QueuedPool.queueOf
  cases pool.accounts[sender]? <;> rfl

theorem fits_empty : Fits config ∅ := ⟨by simp, by simp⟩

variable (kept : WellKept pool)
include kept

theorem WellKept.queueOf (sender : SenderId) : Fits pool.config (pool.queueOf sender) := by
  unfold QueuedPool.queueOf
  cases present : pool.accounts[sender]? with
  | none => exact fits_empty
  | some queue => exact kept.fits sender queue present

/-- One queue is written and the counter follows its size. -/
theorem WellKept.put (fits : Fits pool.config queue) {count : Nat}
    (limited : count ≤ pool.config.maxTotal)
    (counted : count + (pool.queueOf sender).size = pool.total + queue.size) :
    WellKept { pool with accounts := pool.accounts.insert sender queue, total := count } := by
  have weighs := total_insert ExtTreeMap.size pool.accounts sender queue
  rw [weightAt_size, ← kept.counted] at weighs
  refine ⟨by dsimp only; omega, limited, ?_⟩
  intro other held found
  rw [ExtTreeMap.getElem?_insert] at found
  split at found
  · cases found
    exact fits
  · exact kept.fits other held found

theorem WellKept.drop {count : Nat} (counted : count + (pool.queueOf sender).size = pool.total) :
    WellKept { pool with accounts := pool.accounts.erase sender, total := count } := by
  have weighs := total_erase ExtTreeMap.size pool.accounts sender
  have limited := kept.limited
  rw [weightAt_size, ← kept.counted] at weighs
  refine ⟨by dsimp only; omega, by dsimp only; omega, ?_⟩
  intro other held found
  rw [ExtTreeMap.getElem?_erase] at found
  split at found
  · cases found
  · exact kept.fits other held found

theorem WellKept.tryQueue (now : Instant) (pv : PrevalidatedTx) (txHash : Option TxHash)
    (accountNonce : UInt64) : WellKept (pool.tryQueue now pv txHash accountNonce).1 := by
  have mine := kept.queueOf pv.senderId
  have same : pool.total + (pool.queueOf pv.senderId).size =
      pool.total + (pool.queueOf pv.senderId).size := rfl
  have opened := kept.put mine kept.limited same
  have keyed : ∀ queued : QueuedTx, queued.pv = pv → ∀ (nonce : UInt64) (held : QueuedTx),
      ((pool.queueOf pv.senderId).insert pv.nonce queued)[nonce]? = some held →
        held.pv.nonce = nonce := by
    intro queued same nonce held found
    rw [ExtTreeMap.getElem?_insert] at found
    split at found
    · next here =>
      cases found
      rw [same]
      exact Std.LawfulEqCmp.compare_eq_iff_eq.mp here
    · exact mine.keyed nonce held found
  have here : QueuedPool.queueOf
      { pool with accounts := pool.accounts.insert pv.senderId (pool.queueOf pv.senderId) }
      pv.senderId = pool.queueOf pv.senderId := by
    simp [QueuedPool.queueOf]
  unfold QueuedPool.tryQueue
  simp only
  generalize (if pv.nonce < accountNonce then 0 else pv.nonce - accountNonce) = gap
  split
  · exact kept
  · split
    · exact kept
    · next roomy =>
      split
      · exact opened
      · next short =>
        split
        · next existing found =>
          split
          · -- a replacement leaves the number of nonces as it was
            have same := (pool.queueOf pv.senderId).size_insert (k := pv.nonce)
              (v := { pv, txHash, queuedAt := now, accountNonceAtQueue := accountNonce })
            rw [if_pos (by simp [ExtTreeMap.contains_eq_isSome_getElem?, found])] at same
            apply opened.put ⟨same ▸ mine.short, keyed _ rfl⟩ opened.limited
            rw [here, same]
          · exact opened
        · next found =>
          have one := (pool.queueOf pv.senderId).size_insert (k := pv.nonce)
            (v := { pv, txHash, queuedAt := now, accountNonceAtQueue := accountNonce })
          rw [if_neg (by simp [ExtTreeMap.contains_eq_isSome_getElem?, found])] at one
          apply opened.put ⟨by dsimp only; omega, keyed _ rfl⟩ (by dsimp only; omega)
          rw [here, one]
          dsimp only
          omega

omit kept in
theorem Promotes.fits (promotes : Promotes queue after first count promoted)
    (fits : Fits config queue) (smaller : after.size ≤ queue.size) : Fits config after := by
  refine ⟨smaller.trans fits.short, ?_⟩
  intro nonce queued found
  rw [promotes.left] at found
  split at found
  · cases found
  · exact fits.keyed nonce queued found

theorem promote_spec (room : first.toNat + (pool.queueOf sender).size < 2 ^ 64 - 1) :
    (∃ count, Promotes (pool.queueOf sender) ((pool.promote sender first).1.queueOf sender) first
      count (pool.promote sender first).2) ∧
    (∀ other ≠ sender, (pool.promote sender first).1.queueOf other = pool.queueOf other) ∧
    WellKept (pool.promote sender first).1 := by
  unfold QueuedPool.promote
  cases present : pool.accounts[sender]? with
  | none =>
    have none : pool.queueOf sender = ∅ := by simp [QueuedPool.queueOf, present]
    refine ⟨⟨0, ?_⟩, fun other _ => rfl, kept⟩
    rw [none]
    exact ⟨by omega, fun nonce => by simp [UInt64.le_iff_toNat_le], by simp, by simp, by simp⟩
  | some queue =>
    have mine : pool.queueOf sender = queue := by simp [QueuedPool.queueOf, present]
    rw [mine] at room
    obtain ⟨count, promotes, distinct, inside⟩ := promoteScan_promotes room
    have sizes := size_erases distinct inside
    have fits := promotes.fits (kept.fits sender queue present) (by omega)
    have weighs := total_insert ExtTreeMap.size pool.accounts sender ∅
    have limited := kept.limited
    rw [weightAt_size, mine, ← kept.counted] at weighs
    simp only
    generalize (promoteScan first queue.toList first).1.foldl
      (fun queue nonce => queue.erase nonce) queue = after at *
    split
    · next empty =>
      have none : after = ∅ := by simpa using empty
      subst none
      refine ⟨⟨count, ?_⟩, ?_, kept.drop ?_⟩
      · simpa [QueuedPool.queueOf, present] using promotes
      · intro other differs
        simp [QueuedPool.queueOf, ExtTreeMap.getElem?_erase, Ne.symm differs]
      · simp only [mine]
        simp at sizes weighs
        omega
    · refine ⟨⟨count, ?_⟩, ?_, kept.put fits (by omega) ?_⟩
      · simpa [QueuedPool.queueOf, present] using promotes
      · intro other differs
        simp [QueuedPool.queueOf, ExtTreeMap.getElem?_insert, Ne.symm differs]
      · rw [mine]
        simp at weighs
        omega

theorem WellKept.cleanupExpired (now : Instant) : WellKept (pool.cleanupExpired now) := by
  unfold QueuedPool.cleanupExpired
  split
  · exact kept
  · simp only
    generalize fresh : (fun _ queue => ExtTreeMap.filter (fun _ queued =>
      decide (now - queued.queuedAt < pool.config.ttl)) queue :
        SenderId → AccountQueue → AccountQueue) = keep
    have shrinks : ∀ sender queue, (keep sender queue).size ≤ queue.size := by
      intro sender queue
      rw [← fresh]
      exact ExtTreeMap.size_filter_le_size
    have fewer : total ExtTreeMap.size (pool.accounts.map keep) ≤
        total ExtTreeMap.size pool.accounts := by
      apply total_le_total
      intro sender
      simp only [weightAt, ExtTreeMap.getElem?_map]
      cases pool.accounts[sender]? with
      | none => simp
      | some queue => exact shrinks sender queue
    -- the queues that are taken out weigh nothing
    have weighs : ∀ sender, weightAt ExtTreeMap.size
        ((pool.accounts.map keep).filter fun _ queue => !queue.isEmpty) sender =
          weightAt ExtTreeMap.size (pool.accounts.map keep) sender := by
      intro sender
      simp only [weightAt, ExtTreeMap.getElem?_filter']
      cases (pool.accounts.map keep)[sender]? with
      | none => rfl
      | some queue =>
        by_cases empty : queue = ∅ <;> simp [Option.filter, empty]
    have same := (total_le_total ExtTreeMap.size fun sender => (weighs sender).le).antisymm
      (total_le_total ExtTreeMap.size fun sender => (weighs sender).ge)
    have counted := kept.counted
    have limited := kept.limited
    refine ⟨?_, ?_, ?_⟩
    · change pool.total - (total ExtTreeMap.size pool.accounts -
        total ExtTreeMap.size (pool.accounts.map keep)) = _
      rw [same]
      omega
    · exact (Nat.sub_le _ _).trans limited
    · intro sender queue found
      rw [ExtTreeMap.getElem?_filter', Option.filter_eq_some_iff, ExtTreeMap.getElem?_map] at found
      obtain ⟨before, present, rfl⟩ := Option.map_eq_some_iff.mp found.1
      have fits := kept.fits sender before present
      refine ⟨(shrinks sender before).trans fits.short, ?_⟩
      intro nonce queued inside
      rw [← fresh, ExtTreeMap.getElem?_filter', Option.filter_eq_some_iff] at inside
      exact fits.keyed nonce queued inside.1

omit kept

theorem Promotes.sorted (promotes : Promotes queue after first count promoted)
    (fits : Fits config queue) : (promoted.map fun item => item.1.nonce).Pairwise (· < ·) := by
  rw [promotes.returned, List.map_map]
  have sorted : queue.toList.Pairwise fun one two => one.2.pv.nonce < two.2.pv.nonce := by
    apply List.Pairwise.imp_of_mem ?_ queue.ordered_keys_toList
    intro one two inOne inTwo less
    rw [ExtTreeMap.mem_toList_iff_getElem?_eq_some] at inOne inTwo
    rw [fits.keyed _ _ inOne, fits.keyed _ _ inTwo]
    exact compareOfLessAndEq_eq_lt.mp less
  exact (sorted.filter _).map _ fun _ _ less => less

inductive PoolCall where
  | tryQueue (now : Instant) (pv : PrevalidatedTx) (txHash : Option TxHash) (accountNonce : UInt64)
  | promote (sender : SenderId) (newAccountNonce : UInt64)
  | cleanupExpired (now : Instant)

variable (pool)

def poolStep : PoolCall → QueuedPool × Unit
  | .tryQueue now pv txHash accountNonce => ((pool.tryQueue now pv txHash accountNonce).1, ())
  | .promote sender newAccountNonce => ((pool.promote sender newAccountNonce).1, ())
  | .cleanupExpired now => (pool.cleanupExpired now, ())

/-- No nonce of the queue is the last of its type, so the next one expected does not wrap. -/
def NoncesLeft (sender : SenderId) (first : UInt64) : Prop :=
  first.toNat + (pool.queueOf sender).size < 2 ^ 64 - 1

def InRange : PoolCall → Prop
  | .promote sender newAccountNonce => NoncesLeft pool sender newAccountNonce
  | _ => True

variable {pool}

theorem wellKept_run (kept : WellKept pool) {calls : List PoolCall}
    (inRange : Along poolStep InRange pool calls) : WellKept (run poolStep pool calls) := by
  refine run_invariant_along poolStep InRange WellKept ?_ pool calls kept inRange
  intro pool call kept inRange
  cases call with
  | tryQueue now pv txHash accountNonce => exact kept.tryQueue now pv txHash accountNonce
  | promote sender first => exact (promote_spec kept inRange).2.2
  | cleanupExpired now => exact kept.cleanupExpired now

theorem wellKept_empty {now : Instant} : WellKept { config, lastCleanup := now } :=
  ⟨rfl, Nat.zero_le _, by simp⟩

/-- In every pool that the calls lead to, from the empty one or any that is well kept. -/
theorem promote_takes_maximal_run (start : QueuedPool) (kept : WellKept start)
    (calls : List PoolCall) (inRange : Along poolStep InRange start calls) (pool : QueuedPool)
    (reached : run poolStep start calls = pool) (sender : SenderId) (first : UInt64)
    (room : NoncesLeft pool sender first) :
    (∃ count, Promotes (pool.queueOf sender) ((pool.promote sender first).1.queueOf sender) first
      count (pool.promote sender first).2) ∧
    ((pool.promote sender first).2.map fun item => item.1.nonce).Pairwise (· < ·) ∧
    (∀ other ≠ sender, (pool.promote sender first).1.queueOf other = pool.queueOf other) ∧
    WellKept pool ∧ WellKept (pool.promote sender first).1 := by
  subst reached
  have here := wellKept_run kept inRange
  obtain ⟨⟨count, promotes⟩, others, after⟩ := promote_spec here room
  exact ⟨⟨count, promotes⟩, promotes.sorted (here.queueOf sender), others, here, after⟩

def queueNonce (nonce : UInt64) : PoolCall :=
  .tryQueue 0 { senderId := 1, senderAddress := [], nonce, maxFee := 1, amount := 0, txHandle := 0 }
    none 2

theorem two_of_three_promoted :
    ∃ count, Promotes ((run poolStep {} ([4, 7, 5].map queueNonce)).queueOf 1)
      (((run poolStep {} ([4, 7, 5].map queueNonce)).promote 1 4).1.queueOf 1) 4 count
      ((run poolStep {} ([4, 7, 5].map queueNonce)).promote 1 4).2 :=
  (promote_takes_maximal_run {} wellKept_empty ([4, 7, 5].map queueNonce)
    ⟨trivial, trivial, trivial, trivial⟩ _ rfl 1 4 (by unfold NoncesLeft; decide +kernel)).1

end

end Savitri.QueuedTxs
