import Savitri.ByteWords
import Savitri.Transition

/-!
The treasury of storage/treasury.rs under concurrent calls. A call is cut where it holds
no lock, and any call in progress may take the next turn. Withdrawals and burns compare
the amount with the balance in one section and take it in a later one, and rewards are
not compared at all; the balance stops at zero. Snapshot fields that no operation touches
are left out.
-/
namespace Savitri.TreasuryBalance
open Std (ExtTreeMap)
open MachineInt Transition
variable {overflowChecks : Bool}

abbrev Account := List UInt8

inductive RewardType where
  | blockReward
  | stakeReward
  | governanceReward
  | networkReward
  | incentiveReward

inductive TransactionType where
  | deposit (source : Account) (amount : Nat) (reason : String)
  | withdrawal (target : Account) (amount : Nat) (proposalId : Option UInt64) (reason : String)
  | reward (target : Account) (amount : Nat) (rewardType : RewardType)
  | slash (source : Account) (amount : Nat) (reason : String)
  | burn (amount : Nat) (reason : String)

inductive TransactionStatus where
  | pending
  | approved
  | executed
  | rejected
  | failed

structure Transaction where
  id : UInt64
  txType : TransactionType
  amount : Nat
  timestamp : UInt64
  blockHeight : UInt64 := 0
  executor : List UInt8 := []
  signature : Option (List UInt8) := none
  status : TransactionStatus
  memo : String := ""

structure Snapshot where
  totalBalance : Nat := 0
  availableBalance : Nat := 0
  totalDeposits : Nat := 0
  totalWithdrawals : Nat := 0
  timestamp : UInt64

/-- What was put under the keys of the transactions and of the balance. -/
structure Stored where
  transactions : ExtTreeMap UInt64 Transaction := ∅
  balance : Option Snapshot := none

/-- `poisoned` is the state of the lock around the balance. -/
structure Treasury where
  storage : Option Stored
  nextTransactionId : UInt64 := 1
  cache : ExtTreeMap UInt64 Transaction := ∅
  balance : Snapshot
  poisoned : Bool := false

def Treasury.new (storage : Option Stored) (now : UInt64) : Treasury :=
  { storage, balance := { timestamp := now } }

section
variable (overflowChecks : Bool)

/-- `+=` on `u128`; `none` is a panic. -/
def addAssign (left right : Nat) : Option Nat :=
  if left + right ≤ u128Max then some (left + right)
  else if overflowChecks then none
  else some ((left + right) % 2 ^ 128)

/-- The new balance, and whether the call panicked on the way. -/
def updateBalanceOnDeposit (balance : Snapshot) (amount : Nat) (now : UInt64) : Snapshot × Bool :=
  match addAssign overflowChecks balance.totalBalance amount with
  | none => (balance, true)
  | some totalBalance =>
    match addAssign overflowChecks balance.availableBalance amount with
    | none => ({ balance with totalBalance }, true)
    | some availableBalance =>
      match addAssign overflowChecks balance.totalDeposits amount with
      | none => ({ balance with totalBalance, availableBalance }, true)
      | some totalDeposits =>
        ({ balance with totalBalance, availableBalance, totalDeposits, timestamp := now }, false)

def updateBalanceOnWithdrawal (balance : Snapshot) (amount : Nat) (now : UInt64) : Snapshot × Bool :=
  let balance := { balance with
    totalBalance := balance.totalBalance - amount
    availableBalance := balance.availableBalance - amount }
  match addAssign overflowChecks balance.totalWithdrawals amount with
  | none => (balance, true)
  | some totalWithdrawals => ({ balance with totalWithdrawals, timestamp := now }, false)

end

/-- What the operations differ in: the transaction they save, the text with which they refuse
an amount over the balance if they compare the two, and which way the amount goes. -/
structure Operation where
  txType : TransactionType
  amount : Nat
  status : TransactionStatus
  refusal : Option String
  pays : Bool

def deposit (source : Account) (amount : Nat) (reason : String) : Operation where
  txType := .deposit source amount reason
  amount := amount
  status := .pending
  refusal := none
  pays := false

def withdraw (target : Account) (amount : Nat) (proposalId : Option UInt64) (reason : String) :
    Operation where
  txType := .withdrawal target amount proposalId reason
  amount := amount
  status := .pending
  refusal := some "Insufficient treasury balance"
  pays := true

def distributeReward (target : Account) (amount : Nat) (rewardType : RewardType) : Operation where
  txType := .reward target amount rewardType
  amount := amount
  status := .approved
  refusal := none
  pays := true

def slash (source : Account) (amount : Nat) (reason : String) : Operation where
  txType := .slash source amount reason
  amount := amount
  status := .approved
  refusal := none
  pays := false

def burn (amount : Nat) (reason : String) : Operation where
  txType := .burn amount reason
  amount := amount
  status := .approved
  refusal := some "Insufficient treasury balance for burning"
  pays := true

inductive Outcome where
  | ok (id : UInt64)
  | error (text : String)
  | panic

inductive Stage where
  | check
  | takeId
  | saveCache (id : UInt64)
  | saveStorage (transaction : Transaction)
  | update (id : UInt64)
  | readBalance (id : UInt64)
  | putBalance (id : UInt64) (snapshot : Snapshot)
  | done (outcome : Outcome)

/-- What the surroundings answer in a turn: the time, and the error if a put fails. -/
structure Answer where
  now : UInt64
  putError : Option String := none

section
variable (overflowChecks : Bool)

/-- A poisoned lock is passed over: nothing is compared and nothing is changed. -/
def updateBalance (treasury : Treasury) (operation : Operation) (now : UInt64) : Treasury × Bool :=
  if treasury.poisoned then (treasury, false)
  else
    let (balance, panicked) :=
      if operation.pays then
        updateBalanceOnWithdrawal overflowChecks treasury.balance operation.amount now
      else updateBalanceOnDeposit overflowChecks treasury.balance operation.amount now
    ({ treasury with balance, poisoned := panicked }, panicked)

def turn (treasury : Treasury) (operation : Operation) (answer : Answer) :
    Stage → Treasury × Stage
  | .check =>
    match operation.refusal with
    | some text =>
      if !treasury.poisoned && treasury.balance.availableBalance < operation.amount then
        (treasury, .done (.error text))
      else (treasury, .takeId)
    | none => (treasury, .takeId)
  | .takeId =>
    ({ treasury with nextTransactionId := treasury.nextTransactionId + 1 },
      .saveCache treasury.nextTransactionId)
  | .saveCache id =>
    let transaction : Transaction :=
      { id, txType := operation.txType, amount := operation.amount, timestamp := answer.now,
        status := operation.status }
    ({ treasury with cache := treasury.cache.insert id transaction }, .saveStorage transaction)
  | .saveStorage transaction =>
    match treasury.storage, answer.putError with
    | none, _ => (treasury, .update transaction.id)
    | some stored, none =>
      ({ treasury with storage := some { stored with
          transactions := stored.transactions.insert transaction.id transaction } },
        .update transaction.id)
    | some _, some text => (treasury, .done (.error text))
  | .update id =>
    match updateBalance overflowChecks treasury operation answer.now with
    | (treasury, true) => (treasury, .done .panic)
    | (treasury, false) => (treasury, .readBalance id)
  | .readBalance id =>
    match treasury.storage with
    | none => (treasury, .done (.ok id))
    | some _ =>
      (treasury, .putBalance id
        (if treasury.poisoned then { timestamp := answer.now } else treasury.balance))
  | .putBalance id snapshot =>
    match treasury.storage, answer.putError with
    | none, _ => (treasury, .done (.ok id))
    | some stored, none =>
      ({ treasury with storage := some { stored with balance := some snapshot } }, .done (.ok id))
    | some _, some text => (treasury, .done (.error text))
  | .done outcome => (treasury, .done outcome)

structure System where
  treasury : Treasury
  calls : List (Operation × Stage) := []

inductive Event where
  | call (operation : Operation)
  | turn (index : Nat) (answer : Answer)

def step (system : System) (event : Event) : System × Unit :=
  match event with
  | .call operation => ({ system with calls := system.calls ++ [(operation, .check)] }, ())
  | .turn index answer =>
    match system.calls[index]? with
    | none => (system, ())
    | some (operation, stage) =>
      let (treasury, stage) := turn overflowChecks system.treasury operation answer stage
      ({ treasury, calls := system.calls.set index (operation, stage) }, ())

end

section Books
def moved (pays : Bool) (system : System) (event : Event) : Nat :=
  match event with
  | .turn index _ =>
    match system.calls[index]? with
    | some (operation, .update _) => if operation.pays = pays then operation.amount else 0
    | _ => 0
  | .call _ => 0

def received (overflowChecks : Bool) (start : System) (events : List Event) : Nat :=
  tally (step overflowChecks) (moved false) start events

def paidOut (overflowChecks : Bool) (start : System) (events : List Event) : Nat :=
  tally (step overflowChecks) (moved true) start events

def Covered (system : System) (event : Event) : Prop :=
  moved true system event ≤ system.treasury.balance.availableBalance

instance (system : System) (event : Event) : Decidable (Covered system event) :=
  inferInstanceAs (Decidable (_ ≤ _))

variable {system : System} {event : Event}

inductive Change (overflowChecks : Bool) (before after : Treasury) : Nat → Nat → Prop where
  | idle (balance : after.balance = before.balance) (poisoned : after.poisoned = before.poisoned) :
      Change overflowChecks before after 0 0
  | receipt (operation : Operation) (now : UInt64) (keeps : operation.pays = false)
      (result : after = (updateBalance overflowChecks before operation now).1) :
      Change overflowChecks before after operation.amount 0
  | payment (operation : Operation) (now : UInt64) (pays : operation.pays = true)
      (result : after = (updateBalance overflowChecks before operation now).1) :
      Change overflowChecks before after 0 operation.amount

theorem change_turn {treasury : Treasury} {operation : Operation} {answer : Answer} {stage : Stage}
    (other : ∀ id, stage ≠ .update id) :
    Change overflowChecks treasury (turn overflowChecks treasury operation answer stage).1 0 0 := by
  cases stage with
  | update id => exact absurd rfl (other id)
  | check =>
    rw [turn]
    split
    · split <;> exact .idle rfl rfl
    · exact .idle rfl rfl
  | takeId | saveCache | done => exact .idle rfl rfl
  | saveStorage | readBalance | putBalance =>
    rw [turn]
    split <;> exact .idle rfl rfl

theorem change_step (overflowChecks : Bool) (system : System) (event : Event) :
    Change overflowChecks system.treasury (step overflowChecks system event).1.treasury
      (moved false system event) (moved true system event) := by
  cases event with
  | call operation => exact .idle rfl rfl
  | turn index answer =>
    simp only [moved, step]
    cases system.calls[index]? with
    | none => exact .idle rfl rfl
    | some call =>
      obtain ⟨operation, stage⟩ := call
      cases stage with
      | update id =>
        have result : (turn overflowChecks system.treasury operation answer (.update id)).1 =
            (updateBalance overflowChecks system.treasury operation answer.now).1 := by
          rw [turn]
          split <;> simp_all
        by_cases pays : operation.pays = true
        · simpa [pays] using Change.payment operation answer.now pays result
        · rw [Bool.not_eq_true] at pays
          simpa [pays] using Change.receipt operation answer.now pays result
      | check | takeId | saveCache | saveStorage | readBalance | putBalance | done =>
        exact change_turn (by simp)

end Books

section Accounts
variable {before after : Treasury} {inflow outflow got gave : Nat}

theorem addAssign_of_le {left right : Nat} (fits : left + right ≤ u128Max) :
    addAssign overflowChecks left right = some (left + right) :=
  if_pos fits

variable {operation : Operation} {now : UInt64}

theorem updateBalance_receipt (keeps : operation.pays = false) (sound : before.poisoned = false)
    (total : before.balance.totalBalance + operation.amount ≤ u128Max)
    (available : before.balance.availableBalance + operation.amount ≤ u128Max)
    (deposits : before.balance.totalDeposits + operation.amount ≤ u128Max) :
    (updateBalance overflowChecks before operation now).1 =
      { before with
        balance :=
          { totalBalance := before.balance.totalBalance + operation.amount
            availableBalance := before.balance.availableBalance + operation.amount
            totalDeposits := before.balance.totalDeposits + operation.amount
            totalWithdrawals := before.balance.totalWithdrawals
            timestamp := now }
        poisoned := false } := by
  simp [updateBalance, updateBalanceOnDeposit, sound, keeps, addAssign_of_le total,
    addAssign_of_le available, addAssign_of_le deposits]

theorem updateBalance_payment (pays : operation.pays = true) (sound : before.poisoned = false)
    (withdrawals : before.balance.totalWithdrawals + operation.amount ≤ u128Max) :
    (updateBalance overflowChecks before operation now).1 =
      { before with
        balance :=
          { totalBalance := before.balance.totalBalance - operation.amount
            availableBalance := before.balance.availableBalance - operation.amount
            totalDeposits := before.balance.totalDeposits
            totalWithdrawals := before.balance.totalWithdrawals + operation.amount
            timestamp := now }
        poisoned := false } := by
  simp [updateBalance, updateBalanceOnWithdrawal, sound, pays, addAssign_of_le withdrawals]

def Balanced (got gave : Nat) (treasury : Treasury) : Prop :=
  gave ≤ got ∧ treasury.balance.availableBalance = got - gave ∧
    treasury.balance.totalBalance = got - gave

/-- All counters of the snapshot agree with what was received and paid out. -/
structure Exact (got gave : Nat) (treasury : Treasury) : Prop where
  sound : treasury.poisoned = false
  available : treasury.balance.availableBalance + gave = got
  total : treasury.balance.totalBalance = treasury.balance.availableBalance
  deposits : treasury.balance.totalDeposits = got
  withdrawals : treasury.balance.totalWithdrawals = gave

structure Overdrawn (got gave : Nat) (treasury : Treasury) : Prop where
  sound : treasury.poisoned = false
  missing : got < treasury.balance.availableBalance + gave
  total : treasury.balance.totalBalance = treasury.balance.availableBalance
  available : treasury.balance.availableBalance ≤ got
  deposits : treasury.balance.totalDeposits ≤ got
  withdrawals : treasury.balance.totalWithdrawals ≤ gave

/-- The second case covers a counter that overflows, with its panic. -/
def Broken (got gave : Nat) (treasury : Treasury) : Prop :=
  Overdrawn got gave treasury ∨ u128Max < gave

theorem Exact.balanced (exact : Exact got gave before) : Balanced got gave before := by
  obtain ⟨_, available, total, _, _⟩ := exact
  unfold Balanced
  omega

theorem Broken.not_balanced (broken : Broken got gave before) (fits : got ≤ u128Max) :
    ¬ Balanced got gave before := by
  rintro ⟨less, available, _⟩
  rcases broken with overdrawn | large
  · have := overdrawn.missing
    omega
  · omega

variable (change : Change overflowChecks before after inflow outflow)
include change

theorem Change.exact (exact : Exact got gave before) (fits : got + inflow ≤ u128Max)
    (covered : outflow ≤ before.balance.availableBalance) :
    Exact (got + inflow) (gave + outflow) after := by
  obtain ⟨sound, available, total, deposits, withdrawals⟩ := exact
  cases change with
  | idle balance poisoned =>
    constructor
    · rw [poisoned, sound]
    · rw [balance]
      exact available
    · rw [balance, total]
    · rw [balance, deposits]
      rfl
    · rw [balance, withdrawals]
      rfl
  | receipt operation now keeps result =>
    rw [updateBalance_receipt keeps sound (by omega) (by omega) (by omega)] at result
    subst result
    constructor <;> dsimp only <;> omega
  | payment operation now pays result =>
    rw [updateBalance_payment pays sound (by omega)] at result
    subst result
    constructor <;> dsimp only <;> omega

theorem Change.breaks (exact : Exact got gave before)
    (uncovered : ¬ outflow ≤ before.balance.availableBalance) :
    Broken (got + inflow) (gave + outflow) after := by
  obtain ⟨sound, available, total, deposits, withdrawals⟩ := exact
  cases change with
  | idle | receipt => exact absurd (Nat.zero_le _) uncovered
  | payment operation now pays result =>
    by_cases fits : gave + operation.amount ≤ u128Max
    · rw [updateBalance_payment pays sound (by omega)] at result
      subst result
      left
      constructor <;> dsimp only <;> omega
    · exact Or.inr (Nat.not_le.mp fits)

theorem Change.stays (broken : Broken got gave before) (fits : got + inflow ≤ u128Max) :
    Broken (got + inflow) (gave + outflow) after := by
  by_cases small : gave + outflow ≤ u128Max
  · rcases broken with ⟨sound, missing, total, available, deposits, withdrawals⟩ | large
    · left
      cases change with
      | idle balance poisoned =>
        constructor
        · rw [poisoned, sound]
        · rw [balance]
          exact missing
        · rw [balance, total]
        · rw [balance]
          exact available
        · rw [balance]
          exact deposits
        · rw [balance]
          exact withdrawals
      | receipt operation now keeps result =>
        rw [updateBalance_receipt keeps sound (by omega) (by omega) (by omega)] at result
        subst result
        constructor <;> dsimp only <;> omega
      | payment operation now pays result =>
        rw [updateBalance_payment pays sound (by omega)] at result
        subst result
        constructor <;> dsimp only <;> omega
    · omega
  · exact Or.inr (Nat.not_le.mp small)

end Accounts

section
variable {events : List Event}

theorem broken_run (system : System) (got gave : Nat) (broken : Broken got gave system.treasury)
    (fits : got + received overflowChecks system events ≤ u128Max) :
    Broken (got + received overflowChecks system events)
      (gave + paidOut overflowChecks system events)
      (run (step overflowChecks) system events).treasury := by
  induction events generalizing system got gave with
  | nil => exact broken
  | cons event rest ih =>
    simp only [received, paidOut, tally, ← Nat.add_assoc] at fits ⊢
    have here := (change_step overflowChecks system event).stays broken (Nat.le_of_add_right_le fits)
    exact ih _ _ _ here fits

theorem balanced_run_iff (system : System) (got gave : Nat)
    (exact : Exact got gave system.treasury)
    (fits : got + received overflowChecks system events ≤ u128Max) :
    Balanced (got + received overflowChecks system events)
        (gave + paidOut overflowChecks system events)
        (run (step overflowChecks) system events).treasury ↔
      Along (step overflowChecks) Covered system events := by
  induction events generalizing system got gave with
  | nil =>
    constructor
    · intro _
      trivial
    · intro _
      exact exact.balanced
  | cons event rest ih =>
    simp only [received, paidOut, tally, ← Nat.add_assoc] at fits ⊢
    by_cases covered : Covered system event
    · have here := (change_step overflowChecks system event).exact exact
        (Nat.le_of_add_right_le fits) covered
      rw [Along, ← received, ← paidOut]
      exact (ih _ _ _ here fits).trans (and_iff_right covered).symm
    · have here := (change_step overflowChecks system event).breaks exact covered
      constructor
      · intro balanced
        exact absurd balanced ((broken_run _ _ _ here fits).not_balanced fits)
      · rintro ⟨first, _⟩
        exact absurd first covered

/-- In every interleaving, no more is paid out than was received and the balance is the
difference, exactly if every payment finds its amount when it is taken. -/
theorem treasury_balanced_iff (overflowChecks : Bool) (storage : Option Stored) (now : UInt64)
    (events : List Event)
    (fits : received overflowChecks { treasury := .new storage now } events ≤ u128Max) :
    Balanced (received overflowChecks { treasury := .new storage now } events)
        (paidOut overflowChecks { treasury := .new storage now } events)
        (run (step overflowChecks) { treasury := .new storage now } events).treasury ↔
      Along (step overflowChecks) Covered { treasury := .new storage now } events := by
  have fresh : Exact 0 0 (Treasury.new storage now) := ⟨rfl, rfl, rfl, rfl, rfl⟩
  have account := balanced_run_iff { treasury := .new storage now } 0 0 fresh
    (by rwa [Nat.zero_add])
  rwa [Nat.zero_add, Nat.zero_add] at account

def sampleStart : System := { treasury := .new none 0 }

def sampleTurns (index : Nat) : List Event := List.replicate 6 (.turn index { now := 0 })

def sampleEvents : List Event :=
  .call (deposit [1] 5 "fees") :: sampleTurns 0 ++
    .call (withdraw [2] 3 none "grant") :: sampleTurns 1

theorem sampleEvents_balanced :
    Balanced (received true sampleStart sampleEvents) (paidOut true sampleStart sampleEvents)
      (run (step true) sampleStart sampleEvents).treasury :=
  (treasury_balanced_iff true none 0 sampleEvents (by decide +kernel)).mpr (by decide +kernel)

/-- Both withdrawals are compared with the balance before either of them takes it. -/
def sampleRace : List Event :=
  .call (deposit [1] 5 "fees") :: sampleTurns 0 ++
    [.call (withdraw [2] 5 none "grant"), .call (withdraw [3] 5 none "grant"),
      .turn 1 { now := 0 }, .turn 2 { now := 0 }] ++ sampleTurns 1 ++ sampleTurns 2

/-- Two withdrawals at the same time take the balance twice, and a reward is paid from an
empty treasury. -/
theorem race_and_reward_overpay :
    (received true sampleStart sampleRace = 5 ∧ paidOut true sampleStart sampleRace = 10) ∧
    (received true sampleStart (.call (distributeReward [1] 5 .blockReward) :: sampleTurns 0) = 0 ∧
      paidOut true sampleStart (.call (distributeReward [1] 5 .blockReward) :: sampleTurns 0) =
        5) := by
  decide +kernel

end

end Savitri.TreasuryBalance
