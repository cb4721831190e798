import Koschei.Lib.Checks
import Koschei.Lib.Decimal
import Koschei.Lib.Table
import Koschei.Lib.Transactions

/-!
# Prepaid accounting of runs

`runner_accounting.py` settles runs against prepaid balances, on the balances and
holds of `runner_durable_budget.py`. A tenant is seeded with an amount; a run
reserves the most it may cost, and its settlement charges what the rounded
invoice of the tenant grows by and gives back the rest.

Amounts are in cents. A balance never exceeds what was seeded, so that sums of
balances stay integers of 64 bits.
-/

namespace Koschei.Runner

open Lib

abbrev Checked (α : Type) : Type := Except String α

/-! ## Usage -/

/-- The results of a run. -/
inductive RunResult where
  | succeeded
  | guestFailed
  | guestTimeout
  | hostFailed
  | cancelled
  | rejected
  deriving DecidableEq

/-- `BILLABLE_RESULTS`. -/
def RunResult.billable : RunResult → Bool
  | .succeeded | .guestFailed | .guestTimeout => true
  | .hostFailed | .cancelled | .rejected => false

/-- `RunUsage`, with the checks of its construction. -/
structure RunUsage where
  runId : String
  tenantId : String
  durationMs : Nat
  result : RunResult
  tariffVersion : String
  identified : runId ≠ "" ∧ tenantId ≠ "" ∧ tariffVersion ≠ ""
  deriving DecidableEq

/-- `Decimal(ms) / 1000 * USD_PER_SECOND * 100`, in thousandths. -/
def centThousandths (ms : Nat) : Nat := roundCoefficient ms (-3)

def invoiceCents (ms : Nat) : Nat := halfUpThousand (centThousandths ms)

/-! ## The tables -/

/-- The states of a hold. -/
inductive HoldState where
  | active
  | settled
  deriving DecidableEq

/-- A row of `pilot_hold` but its run. -/
structure Hold where
  tenantId : String
  reservedCents : Int
  maxDurationMs : Int
  state : HoldState
  chargedCents : Option Int
  deriving DecidableEq

/-- A row of `runner_usage` but its run and its tariff. -/
structure UsageRow where
  tenantId : String
  durationMs : Nat
  result : RunResult
  deriving DecidableEq

/-- The tables `pilot_balance`, `pilot_hold` and `runner_usage`. -/
structure Accounts where
  balances : Table String Int
  holds : Table String Hold
  usage : Table (String × String) UsageRow

def Accounts.empty : Accounts := ⟨.empty, .empty, .empty⟩

def Accounts.billableMs (accounts : Accounts) (tenantId tariffVersion : String) : Nat :=
  ((accounts.usage.rows.filter fun entry => decide (entry.1.2 = tariffVersion)).map fun entry =>
    if entry.2.tenantId = tenantId ∧ entry.2.result.billable then entry.2.durationMs else 0).sum

def activeCents (tenantId : String) (hold : Hold) : Int :=
  if hold.tenantId = tenantId ∧ hold.state = .active then hold.reservedCents else 0

def chargedCents (tenantId : String) (hold : Hold) : Int :=
  if hold.tenantId = tenantId ∧ hold.state = .settled then hold.chargedCents.getD 0 else 0

/-- `settled_total_usd`, in cents. -/
def Accounts.settledTotalUsd (accounts : Accounts) (tenantId : String) : Checked Int := do
  raiseIf (tenantId = "") "tenant required"
  let sum := accounts.holds.total (chargedCents tenantId)
  raiseIf (2 ^ 63 ≤ sum ∨ sum < -2 ^ 63) "integer overflow"
  .ok sum

/-- `invoiced_total_usd`, in cents. -/
def Accounts.invoicedTotalUsd (accounts : Accounts) (tenantId tariffVersion : String) :
    Checked Int := do
  raiseIf (tenantId = "" ∨ tariffVersion = "") "tenant and tariff required"
  let cents := invoiceCents (accounts.billableMs tenantId tariffVersion)
  raiseIf (10 ^ contextDigits ≤ cents) "decimal.InvalidOperation"
  .ok cents

/-! ## The calls -/

/-- A call. -/
inductive PilotCall where
  | seedTenant (tenantId : String) (amount : Option Decimal)
  | reserve (tenantId runId : String) (maxDurationMs : Int)
  | settleRun (usage : RunUsage)

/-- A call that passed the checks before its transaction. -/
inductive PilotTransaction where
  | seed (tenantId : String) (amount : Decimal) (cents : Int)
  | reserve (tenantId runId : String) (cents maxDurationMs : Int)
  | settle (usage : RunUsage)

/-- `_to_cents`; an amount that is not finite is none. -/
def toCents (amount : Option Decimal) : Checked (Decimal × Int) := match amount with
  | none => .error "balance must be a finite nonnegative Decimal"
  | some amount => do
    raiseIf (amount.coefficient < 0) "balance must be a finite nonnegative Decimal"
    let cents ← amount.hundredfold
    .ok (amount, cents)

/-- What the calls do before their transactions. -/
def preparePilot : PilotCall → Checked PilotTransaction
  | .seedTenant tenantId amount => do
    raiseIf (tenantId = "") "tenant required"
    let (amount, cents) ← toCents amount
    .ok (.seed tenantId amount cents)
  | .reserve tenantId runId maxDurationMs => do
    raiseIf (tenantId = "" ∨ runId = "" ∨ maxDurationMs ≤ 0) "invalid reservation"
    .ok (.reserve tenantId runId (ceilThousand (centThousandths maxDurationMs.toNat)) maxDurationMs)
  | .settleRun usage => do
    raiseIf (usage.tariffVersion ≠ "pilot-v1") "unsupported prepaid tariff version"
    .ok (.settle usage)

def inserted {K R : Type} [DecidableEq K] (table : Table K R) (key : K) (row : R) (name : String) :
    Checked (Table K R) :=
  match table.insert key row with
  | none => .error ("UNIQUE constraint failed: " ++ name)
  | some after => .ok after

/-- The transaction of `seed_tenant`. -/
def seedTenant (tenantId : String) (cents : Int) (accounts : Accounts) : Checked Accounts := do
  let cents ← sqlInteger cents
  let balances ← inserted accounts.balances tenantId cents "pilot_balance.tenant_id"
  .ok { accounts with balances := balances }

/-- A balance that is enough. -/
def affords (cents available : Int) : Bool := decide (cents ≤ available)

/-- The transaction of `reserve`. -/
def reserve (tenantId runId : String) (cents maxDurationMs : Int) (accounts : Accounts) :
    Checked Accounts := do
  let cents ← sqlInteger cents
  raiseIf (accounts.balances.rowcount tenantId (affords cents) ≠ 1)
    "insufficient budget or unknown tenant"
  let maximum ← sqlInteger maxDurationMs
  let holds ← inserted accounts.holds runId
    { tenantId := tenantId
      reservedCents := cents
      maxDurationMs := maximum
      state := .active
      chargedCents := none } "pilot_hold.run_id"
  .ok {
    accounts with
    balances := accounts.balances.update tenantId (affords cents) fun available => available - cents
    holds := holds }

def activeOf (tenantId : String) (hold : Hold) : Bool :=
  decide (hold.tenantId = tenantId ∧ hold.state = .active)

def Accounts.activeHold (accounts : Accounts) (usage : RunUsage) : Option Hold :=
  (accounts.holds.find usage.runId).filter (activeOf usage.tenantId)

/-- The billable time of the tenant of a run after the run. -/
def Accounts.currentMs (accounts : Accounts) (usage : RunUsage) : Nat :=
  accounts.billableMs usage.tenantId usage.tariffVersion +
    if usage.result.billable then usage.durationMs else 0

/-- The increase of the rounded invoice. -/
def Accounts.charge (accounts : Accounts) (usage : RunUsage) : Int :=
  invoiceCents (accounts.currentMs usage) -
    invoiceCents (accounts.billableMs usage.tenantId usage.tariffVersion)

def Hold.settle (charged : Int) (hold : Hold) : Hold :=
  { hold with state := .settled, chargedCents := some charged }

/-- The transaction of `settle_run`. -/
def settleRun (usage : RunUsage) (accounts : Accounts) : Checked (Accounts × Int) := do
  match accounts.activeHold usage with
  | none => .error "missing or already settled reservation"
  | some hold => do
    raiseIf (hold.maxDurationMs < usage.durationMs) "execution exceeded authorized maximum"
    let cents := accounts.charge usage
    raiseIf (hold.reservedCents < cents) "charge exceeds reservation"
    let _ ← sqlInteger usage.durationMs
    let rows ← inserted accounts.usage (usage.runId, usage.tariffVersion)
      ⟨usage.tenantId, usage.durationMs, usage.result⟩
      "runner_usage.run_id, runner_usage.tariff_version"
    let charged ← sqlInteger cents
    let released ← sqlInteger (hold.reservedCents - cents)
    let balances := accounts.balances.update usage.tenantId (fun _ => true)
      fun available => available + released
    raiseIf ((balances.find usage.tenantId).any fun available => decide (available < 0))
      "CHECK constraint failed: available_cents >= 0"
    .ok ({
      balances := balances
      holds := accounts.holds.update usage.runId (activeOf usage.tenantId) (Hold.settle charged)
      usage := rows }, cents)

/-- The transaction of a call, and the cents the call returns. -/
def runPilot : PilotTransaction → Accounts → Checked (Accounts × Option Int)
  | .seed tenantId _ cents, accounts => do
    let after ← seedTenant tenantId cents accounts
    .ok (after, none)
  | .reserve tenantId runId cents maxDurationMs, accounts => do
    let after ← reserve tenantId runId cents maxDurationMs accounts
    .ok (after, some cents)
  | .settle usage, accounts => do
    let (after, cents) ← settleRun usage accounts
    .ok (after, some cents)

def Accounts.rowsOf (accounts : Accounts) (tenantId : String) :
    Option Int × List (String × Hold) × List ((String × String) × UsageRow) :=
  (accounts.balances.find tenantId,
    accounts.holds.rows.filter fun entry => decide (entry.2.tenantId = tenantId),
    accounts.usage.rows.filter fun entry => decide (entry.2.tenantId = tenantId))

def PilotTransaction.tenantId : PilotTransaction → String
  | .seed tenantId _ _ => tenantId
  | .reserve tenantId _ _ _ => tenantId
  | .settle usage => usage.tenantId

/-- The accounting, as clients use it. -/
def pilotDatabase : Database Accounts PilotCall PilotTransaction (Option Int) String where
  prepare := preparePilot
  body := runPilot
  unavailable := "database is locked"

/-! ## What the transactions do -/

section Transactions

variable {accounts after : Accounts} {tenantId runId : String} {cents maxDurationMs : Int}
  {usage : RunUsage} {name tenant : String}

theorem inserted_eq_ok {K R : Type} [DecidableEq K] {table after : Table K R} {key : K} {row : R}
    (ran : inserted table key row name = .ok after) : table.insert key row = some after := by
  unfold inserted at ran
  split at ran
  · cases ran
  · rename_i isInserted
    cases ran
    exact isInserted

theorem inserted_eq_error {K R : Type} [DecidableEq K] {table : Table K R} {key : K} {row : R}
    {name fault : String} (stopped : inserted table key row name = .error fault) :
    fault = "UNIQUE constraint failed: " ++ name := by
  unfold inserted at stopped
  split at stopped
  · cases stopped
    rfl
  · cases stopped

theorem seedTenant_eq_ok (ran : seedTenant tenantId cents accounts = .ok after) :
    cents < 2 ^ 63 ∧ accounts.balances.insert tenantId cents = some after.balances ∧
      after.holds = accounts.holds ∧ after.usage = accounts.usage := by
  unfold seedTenant at ran
  obtain ⟨bound, small, ran⟩ := bind_eq_ok ran
  obtain ⟨balances, isInserted, ran⟩ := bind_eq_ok ran
  have below := sqlInteger_lt small
  cases ran
  cases sqlInteger_eq_ok small
  exact ⟨below, inserted_eq_ok isInserted, rfl, rfl⟩

theorem reserve_eq_ok (ran : reserve tenantId runId cents maxDurationMs accounts = .ok after) :
    maxDurationMs < 2 ^ 63 ∧
      (∃ available, accounts.balances.find tenantId = some available ∧ cents ≤ available) ∧
      after.balances = accounts.balances.update tenantId (affords cents) (· - cents) ∧
      accounts.holds.insert runId ⟨tenantId, cents, maxDurationMs, .active, none⟩ =
        some after.holds ∧
      after.usage = accounts.usage := by
  unfold reserve at ran
  obtain ⟨bound, small, ran⟩ := bind_eq_ok ran
  obtain ⟨_, changes, ran⟩ := bind_eq_ok ran
  obtain ⟨maximum, maximumSmall, ran⟩ := bind_eq_ok ran
  obtain ⟨holds, isInserted, ran⟩ := bind_eq_ok ran
  have below := sqlInteger_lt maximumSmall
  cases ran
  cases sqlInteger_eq_ok small
  cases sqlInteger_eq_ok maximumSmall
  obtain ⟨available, found, enough⟩ := Table.find_of_rowcount (not_not.mp (raiseIf_eq_ok changes))
  exact ⟨below, ⟨available, found, of_decide_eq_true enough⟩, rfl, inserted_eq_ok isInserted, rfl⟩

variable {hold : Hold}

theorem activeHold_eq_some : accounts.activeHold usage = some hold ↔
    accounts.holds.find usage.runId = some hold ∧ hold.tenantId = usage.tenantId ∧
      hold.state = .active := by
  unfold Accounts.activeHold activeOf
  rw [Option.filter_eq_some_iff, decide_eq_true_eq]

/-- What a settlement finds and does. -/
structure Settles (accounts : Accounts) (usage : RunUsage) (hold : Hold) (after : Accounts) :
    Prop where
  found : accounts.holds.find usage.runId = some hold
  owner : hold.tenantId = usage.tenantId
  active : hold.state = .active
  authorized : usage.durationMs ≤ hold.maxDurationMs
  covered : accounts.charge usage ≤ hold.reservedCents
  recorded : accounts.usage.insert (usage.runId, usage.tariffVersion)
    ⟨usage.tenantId, usage.durationMs, usage.result⟩ = some after.usage
  holds : after.holds = accounts.holds.update usage.runId (activeOf usage.tenantId)
    (Hold.settle (accounts.charge usage))
  balances : after.balances = accounts.balances.update usage.tenantId (fun _ => true)
    (· + (hold.reservedCents - accounts.charge usage))

theorem settleRun_eq_ok (ran : settleRun usage accounts = .ok (after, cents)) :
    ∃ hold, Settles accounts usage hold after := by
  unfold settleRun at ran
  split at ran
  · cases ran
  · rename_i hold found
    obtain ⟨run, owner, active⟩ := activeHold_eq_some.mp found
    obtain ⟨_, authorized, ran⟩ := bind_eq_ok ran
    obtain ⟨_, covered, ran⟩ := bind_eq_ok ran
    obtain ⟨_, -, ran⟩ := bind_eq_ok ran
    obtain ⟨rows, isInserted, ran⟩ := bind_eq_ok ran
    obtain ⟨charged, first, ran⟩ := bind_eq_ok ran
    obtain ⟨released, second, ran⟩ := bind_eq_ok ran
    obtain ⟨_, -, ran⟩ := bind_eq_ok ran
    cases ran
    cases sqlInteger_eq_ok first
    cases sqlInteger_eq_ok second
    exact ⟨hold, run, owner, active, not_lt.mp (raiseIf_eq_ok authorized),
      not_lt.mp (raiseIf_eq_ok covered), inserted_eq_ok isInserted, rfl, rfl⟩

theorem runPilot_seed {amount : Decimal} {answer : Option Int}
    (ran : runPilot (.seed tenantId amount cents) accounts = .ok (after, answer)) :
    seedTenant tenantId cents accounts = .ok after := by
  obtain ⟨_, body, ran⟩ := bind_eq_ok ran
  cases ran
  exact body

variable {answer : Option Int}

theorem runPilot_reserve
    (ran : runPilot (.reserve tenantId runId cents maxDurationMs) accounts = .ok (after, answer)) :
    reserve tenantId runId cents maxDurationMs accounts = .ok after := by
  obtain ⟨_, body, ran⟩ := bind_eq_ok ran
  cases ran
  exact body

theorem runPilot_settle (ran : runPilot (.settle usage) accounts = .ok (after, answer)) :
    ∃ hold, Settles accounts usage hold after := by
  obtain ⟨⟨_, _⟩, body, ran⟩ := bind_eq_ok ran
  cases ran
  exact settleRun_eq_ok body

/-! ## Sums -/

/-- What a tenant has, reserved and charged amounts included. -/
def Accounts.holdings (accounts : Accounts) (tenantId : String) : Int :=
  (accounts.balances.find tenantId).getD 0 + accounts.holds.total (activeCents tenantId) +
    accounts.holds.total (chargedCents tenantId)

theorem seed_holdings (ran : seedTenant tenantId cents accounts = .ok after) (other : String) :
    after.holdings other = if other = tenantId then
      cents + accounts.holds.total (activeCents other) + accounts.holds.total (chargedCents other)
    else accounts.holdings other := by
  obtain ⟨-, isInserted, holds, -⟩ := seedTenant_eq_ok ran
  unfold Accounts.holdings
  rw [find_insert isInserted, holds]
  split
  · rfl
  · rfl

theorem activeCents_of_active (active : hold.state = .active) (tenantId : String) :
    activeCents tenantId hold = if hold.tenantId = tenantId then hold.reservedCents else 0 := by
  simp [activeCents, active]

theorem chargedCents_of_active (active : hold.state = .active) (tenantId : String) :
    chargedCents tenantId hold = 0 := by
  unfold chargedCents
  rw [active]
  exact if_neg fun both => nomatch both.2

@[simp]
theorem activeCents_settle (charged : Int) (hold : Hold) (tenantId : String) :
    activeCents tenantId (hold.settle charged) = 0 :=
  if_neg fun both => nomatch both.2

@[simp]
theorem chargedCents_settle (charged : Int) (hold : Hold) (tenantId : String) :
    chargedCents tenantId (hold.settle charged) = if hold.tenantId = tenantId then charged else 0 := by
  simp [chargedCents, Hold.settle]

theorem reserve_holdings (ran : reserve tenantId runId cents maxDurationMs accounts = .ok after)
    (other : String) : after.holdings other = accounts.holdings other := by
  obtain ⟨-, ⟨available, found, enough⟩, balances, isInserted, -⟩ := reserve_eq_ok ran
  unfold Accounts.holdings
  rw [total_insert isInserted, total_insert isInserted, balances,
    activeCents_of_active rfl, chargedCents_of_active rfl]
  dsimp only
  by_cases same : other = tenantId
  · rw [same, find_update_self found (decide_eq_true enough), found, if_pos rfl,
      getD_some, getD_some]
    omega
  · rw [find_update_of_ne same, if_neg (Ne.symm same)]
    omega

theorem Settles.holdings (settles : Settles accounts usage hold after)
    (owned : ∃ available, accounts.balances.find hold.tenantId = some available) (other : String) :
    after.holdings other = accounts.holdings other := by
  obtain ⟨available, owned⟩ := owned
  have isActive : activeOf usage.tenantId hold = true :=
    decide_eq_true ⟨settles.owner, settles.active⟩
  have active := total_update (activeCents other) (Hold.settle (accounts.charge usage))
    settles.found isActive
  have charged := total_update (chargedCents other) (Hold.settle (accounts.charge usage))
    settles.found isActive
  rw [activeCents_of_active settles.active, activeCents_settle] at active
  rw [chargedCents_of_active settles.active, chargedCents_settle] at charged
  rw [settles.owner] at owned active charged
  unfold Accounts.holdings
  rw [settles.balances, settles.holds]
  by_cases same : other = usage.tenantId
  · subst same
    rw [if_pos rfl] at active charged
    rw [find_update_self owned rfl, owned, getD_some, getD_some]
    omega
  · rw [if_neg (Ne.symm same)] at active charged
    rw [find_update_of_ne same]
    omega

/-! ## Billable time -/

theorem centThousandths_of_lt {ms : Nat} (small : ms < 10 ^ contextDigits) :
    centThousandths ms = ms := roundCoefficient_of_lt small (by decide)

theorem Settles.billableMs (settles : Settles accounts usage hold after)
    (pilot : usage.tariffVersion = "pilot-v1") (other : String) :
    after.billableMs other "pilot-v1" = if other = usage.tenantId then accounts.currentMs usage
      else accounts.billableMs other "pilot-v1" := by
  have rows := (insert_eq_some settles.recorded).2
  unfold Accounts.currentMs Accounts.billableMs
  rw [rows, pilot, filter_append, map_append, sum_append]
  by_cases same : other = usage.tenantId
  · subst same
    simp
  · simp [same, Ne.symm same]

/-- A charge is covered by the reservation of the authorized time. -/
theorem charge_le (below : accounts.currentMs usage < 10 ^ contextDigits) {maximum : Int}
    (authorized : usage.durationMs ≤ maximum) (small : maximum < 2 ^ 63) :
    accounts.charge usage ≤ ceilThousand (centThousandths maximum.toNat) := by
  have prior : accounts.billableMs usage.tenantId usage.tariffVersion < 10 ^ contextDigits :=
    Nat.lt_of_le_of_lt (Nat.le_add_right _ _) below
  have maximumSmall : maximum.toNat < 10 ^ contextDigits := by
    unfold contextDigits
    omega
  unfold Accounts.charge invoiceCents
  rw [centThousandths_of_lt below, centThousandths_of_lt prior, centThousandths_of_lt maximumSmall]
  unfold Accounts.currentMs
  have grows := halfUpThousand_add (accounts.billableMs usage.tenantId usage.tariffVersion)
    (if usage.result.billable then usage.durationMs else 0)
  have most : (if usage.result.billable then usage.durationMs else 0) ≤ maximum.toNat := by
    split
    · omega
    · exact Nat.zero_le _
  have ceiling := ceilThousand_mono most
  omega

/-! ## The checks before a transaction -/

variable {call : PilotCall}

/-- What a transaction is prepared with. -/
def Prepared : PilotTransaction → Prop
  | .seed _ amount cents =>
    0 ≤ amount.coefficient ∧ ∃ n : Nat, amount.hundredfold = .ok n ∧ cents = n
  | .reserve _ _ cents maxDurationMs => cents = ceilThousand (centThousandths maxDurationMs.toNat)
  | .settle usage => usage.tariffVersion = "pilot-v1"

theorem preparePilot_prepared {transaction : PilotTransaction}
    (passed : preparePilot call = .ok transaction) : Prepared transaction := by
  cases call with
  | seedTenant tenant given =>
    obtain ⟨_, -, passed⟩ := bind_eq_ok passed
    obtain ⟨⟨_, _⟩, checked, passed⟩ := bind_eq_ok passed
    cases passed
    cases given with
    | none => cases checked
    | some given =>
      obtain ⟨_, nonnegative, checked⟩ := bind_eq_ok checked
      obtain ⟨n, whole, checked⟩ := bind_eq_ok checked
      cases checked
      exact ⟨not_lt.mp (raiseIf_eq_ok nonnegative), n, whole, rfl⟩
  | reserve tenant run maximum =>
    obtain ⟨_, -, passed⟩ := bind_eq_ok passed
    cases passed
    exact rfl
  | settleRun usage =>
    obtain ⟨_, tariff, passed⟩ := bind_eq_ok passed
    cases passed
    exact show usage.tariffVersion = _ from not_not.mp (raiseIf_eq_ok tariff)

/-! ## What holds between transactions -/

/-- Holds are of tenants with a balance and reserve what their time may cost, balances are not
negative, and the charges of a tenant are its invoice. -/
structure Sound (accounts : Accounts) : Prop where
  owned : ∀ run hold, accounts.holds.find run = some hold →
    ∃ available, accounts.balances.find hold.tenantId = some available
  authorized : ∀ run hold, accounts.holds.find run = some hold → hold.maxDurationMs < 2 ^ 63 ∧
    hold.reservedCents = ceilThousand (centThousandths hold.maxDurationMs.toNat)
  nonneg : ∀ tenant available, accounts.balances.find tenant = some available → 0 ≤ available
  fits : ∀ tenant available, accounts.balances.find tenant = some available →
    accounts.holdings tenant < 2 ^ 63
  small : ∀ tenant, accounts.billableMs tenant "pilot-v1" < 10 ^ contextDigits
  invoiced : ∀ tenant, accounts.holds.total (chargedCents tenant) =
    invoiceCents (accounts.billableMs tenant "pilot-v1")

theorem empty_sound : Sound Accounts.empty where
  owned := fun _ _ found => nomatch found
  authorized := fun _ _ found => nomatch found
  nonneg := fun _ _ found => nomatch found
  fits := fun _ _ found => nomatch found
  small := fun _ => Nat.pow_pos (by decide)
  invoiced := by
    intro tenant
    have none : invoiceCents 0 = 0 := by decide
    exact congrArg Int.ofNat none.symm

theorem Sound.without (sound : Sound accounts) (none : accounts.balances.find tenantId = none) :
    accounts.holds.total (activeCents tenantId) = 0 ∧
      accounts.holds.total (chargedCents tenantId) = 0 := by
  have other : ∀ run hold, accounts.holds.find run = some hold → hold.tenantId ≠ tenantId := by
    rintro run hold found rfl
    obtain ⟨available, owned⟩ := sound.owned run hold found
    rw [none] at owned
    cases owned
  exact ⟨Table.total_eq_zero fun run hold found => if_neg fun both => other run hold found both.1,
    Table.total_eq_zero fun run hold found => if_neg fun both => other run hold found both.1⟩

theorem seed_sound (sound : Sound accounts) (nonneg : 0 ≤ cents)
    (ran : seedTenant tenantId cents accounts = .ok after) :
    Sound after ∧ after.holdings tenantId = cents := by
  obtain ⟨less, isInserted, holds, usage⟩ := seedTenant_eq_ok ran
  obtain ⟨active, charged⟩ := sound.without (insert_eq_some isInserted).1
  have holdings := seed_holdings ran
  have found : ∀ other, after.balances.find other =
      if other = tenantId then some cents else accounts.balances.find other :=
    fun _ => find_insert isInserted
  have seeded : after.holdings tenantId = cents := by
    rw [holdings, if_pos rfl, active, charged]
    omega
  refine ⟨⟨?_, ?_, ?_, ?_, ?_, ?_⟩, seeded⟩
  · intro run hold here
    rw [holds] at here
    obtain ⟨available, owned⟩ := sound.owned run hold here
    rw [found]
    split
    · exact ⟨cents, rfl⟩
    · exact ⟨available, owned⟩
  · rw [holds]
    exact sound.authorized
  · intro other available here
    rw [found] at here
    split at here
    · cases here
      exact nonneg
    · exact sound.nonneg other available here
  · intro other available here
    rw [found] at here
    by_cases same : other = tenantId
    · rw [same, seeded]
      exact less
    · rw [if_neg same] at here
      rw [holdings, if_neg same]
      exact sound.fits other available here
  · intro other
    unfold Accounts.billableMs
    rw [usage]
    exact sound.small other
  · intro other
    unfold Accounts.billableMs
    rw [holds, usage]
    exact sound.invoiced other

theorem reserve_sound (sound : Sound accounts)
    (cost : cents = ceilThousand (centThousandths maxDurationMs.toNat))
    (ran : reserve tenantId runId cents maxDurationMs accounts = .ok after) : Sound after := by
  have holdings := reserve_holdings ran
  obtain ⟨less, ⟨available, here, enough⟩, balances, isInserted, usage⟩ := reserve_eq_ok ran
  have found := fun other => find_update accounts.balances tenantId other (affords cents)
    fun available => available - cents
  rw [← balances] at found
  have holds : ∀ run, after.holds.find run = if run = runId then
      some ⟨tenantId, cents, maxDurationMs, .active, none⟩ else accounts.holds.find run :=
    fun _ => find_insert isInserted
  refine ⟨?_, ?_, ?_, ?_, ?_, ?_⟩
  · intro run hold isHold
    rw [holds] at isHold
    rw [found]
    split at isHold
    · cases isHold
      rw [here]
      exact ⟨_, rfl⟩
    · obtain ⟨other, owned⟩ := sound.owned run hold isHold
      rw [owned]
      exact ⟨_, rfl⟩
  · intro run hold isHold
    rw [holds] at isHold
    split at isHold
    · cases isHold
      exact ⟨less, cost⟩
    · exact sound.authorized run hold isHold
  · intro other balance isBalance
    rw [found] at isBalance
    obtain ⟨before, isBefore, rfl⟩ := map_eq_some_iff.mp isBalance
    have nonneg := sound.nonneg other before isBefore
    split
    · rename_i changed
      have affordable : cents ≤ before := of_decide_eq_true changed.2
      omega
    · exact nonneg
  · intro other balance isBalance
    rw [found] at isBalance
    obtain ⟨before, isBefore, -⟩ := map_eq_some_iff.mp isBalance
    rw [holdings]
    exact sound.fits other before isBefore
  · intro other
    unfold Accounts.billableMs
    rw [usage]
    exact sound.small other
  · intro other
    unfold Accounts.billableMs
    rw [total_insert isInserted, chargedCents_of_active rfl, usage]
    exact (Int.add_zero _).trans (sound.invoiced other)

variable {hold : Hold}

theorem Settles.charged (settles : Settles accounts usage hold after)
    (other : String) : after.holds.total (chargedCents other) =
      accounts.holds.total (chargedCents other) +
        if other = usage.tenantId then accounts.charge usage else 0 := by
  have isActive : activeOf usage.tenantId hold = true :=
    decide_eq_true ⟨settles.owner, settles.active⟩
  have charged := total_update (chargedCents other) (Hold.settle (accounts.charge usage))
    settles.found isActive
  rw [chargedCents_of_active settles.active, chargedCents_settle, settles.owner] at charged
  rw [settles.holds]
  by_cases same : other = usage.tenantId
  · rw [if_pos same.symm] at charged
    rw [if_pos same]
    omega
  · rw [if_neg (Ne.symm same)] at charged
    rw [if_neg same]
    omega

theorem Settles.sound (settles : Settles accounts usage hold after)
    (sound : Sound accounts) (pilot : usage.tariffVersion = "pilot-v1")
    (below : accounts.currentMs usage < 10 ^ contextDigits) : Sound after := by
  have holdings := settles.holdings (sound.owned _ hold settles.found)
  have found := fun other => find_update accounts.balances usage.tenantId other
    (fun _ => true) fun available => available + (hold.reservedCents - accounts.charge usage)
  rw [← settles.balances] at found
  have holds := fun run => find_update accounts.holds usage.runId run
    (activeOf usage.tenantId) (Hold.settle (accounts.charge usage))
  rw [← settles.holds] at holds
  have covered := settles.covered
  refine ⟨?_, ?_, ?_, ?_, ?_, ?_⟩
  · intro run other isHold
    rw [holds] at isHold
    obtain ⟨before, isBefore, rfl⟩ := map_eq_some_iff.mp isHold
    obtain ⟨available, owned⟩ := sound.owned run before isBefore
    have same : (if run = usage.runId ∧ activeOf usage.tenantId before = true then
        before.settle (accounts.charge usage) else before).tenantId = before.tenantId := by
      split <;> rfl
    rw [found, same, owned]
    exact ⟨_, rfl⟩
  · intro run other isHold
    rw [holds] at isHold
    obtain ⟨before, isBefore, rfl⟩ := map_eq_some_iff.mp isHold
    have authorized := sound.authorized run before isBefore
    split
    · exact authorized
    · exact authorized
  · intro other balance isBalance
    rw [found] at isBalance
    obtain ⟨before, isBefore, rfl⟩ := map_eq_some_iff.mp isBalance
    have nonneg := sound.nonneg other before isBefore
    split
    · omega
    · exact nonneg
  · intro other balance isBalance
    rw [found] at isBalance
    obtain ⟨before, isBefore, -⟩ := map_eq_some_iff.mp isBalance
    rw [holdings]
    exact sound.fits other before isBefore
  · intro other
    rw [settles.billableMs pilot]
    split
    · exact below
    · exact sound.small other
  · intro other
    rw [settles.charged, settles.billableMs pilot, sound.invoiced]
    by_cases same : other = usage.tenantId
    · subst same
      rw [if_pos rfl, if_pos rfl]
      unfold Accounts.charge
      rw [pilot]
      omega
    · rw [if_neg same, if_neg same]
      exact Int.add_zero _

theorem Sound.settles_covered (sound : Sound accounts)
    (below : accounts.currentMs usage < 10 ^ contextDigits) :
    settleRun usage accounts ≠ .error "charge exceeds reservation" := by
  intro refused
  unfold settleRun at refused
  split at refused
  · exact absurd (Except.error.inj refused) (by decide)
  · rename_i hold found
    obtain ⟨run, -, -⟩ := activeHold_eq_some.mp found
    obtain ⟨small, reserved⟩ := sound.authorized _ hold run
    rcases bind_eq_error refused with stopped | ⟨_, authorized, refused⟩
    · exact absurd (raiseIf_eq_error stopped).2 (by decide)
    rcases bind_eq_error refused with stopped | ⟨_, -, refused⟩
    · -- the charge is covered by what the longest authorized run may cost
      have covered := charge_le below (not_lt.mp (raiseIf_eq_ok authorized)) small
      have exceeds := (raiseIf_eq_error stopped).1
      omega
    rcases bind_eq_error refused with stopped | ⟨_, -, refused⟩
    · exact absurd (sqlInteger_eq_error stopped) (by decide)
    rcases bind_eq_error refused with stopped | ⟨_, -, refused⟩
    · exact absurd (inserted_eq_error stopped) (by decide)
    rcases bind_eq_error refused with stopped | ⟨_, -, refused⟩
    · exact absurd (sqlInteger_eq_error stopped) (by decide)
    rcases bind_eq_error refused with stopped | ⟨_, -, refused⟩
    · exact absurd (sqlInteger_eq_error stopped) (by decide)
    rcases bind_eq_error refused with stopped | ⟨_, -, refused⟩
    · exact absurd (raiseIf_eq_error stopped).2 (by decide)
    · cases refused

variable {transaction : PilotTransaction}

section

variable (ran : runPilot transaction accounts = .ok (after, answer))

include ran

theorem rowsOf_other {other : String}
    (apart : other ≠ transaction.tenantId) : after.rowsOf other = accounts.rowsOf other := by
  cases transaction with
  | seed tenant amount cents =>
    obtain ⟨-, isInserted, holds, usage⟩ := seedTenant_eq_ok (runPilot_seed ran)
    replace apart : other ≠ tenant := apart
    unfold Accounts.rowsOf
    rw [find_insert isInserted, if_neg apart, holds, usage]
  | reserve tenant run cents maximum =>
    obtain ⟨-, -, balances, isInserted, usage⟩ := reserve_eq_ok (runPilot_reserve ran)
    replace apart : other ≠ tenant := apart
    unfold Accounts.rowsOf
    rw [balances, find_update_of_ne apart, usage,
      Table.filter_insert (fun hold : Hold => decide (hold.tenantId = other)) isInserted
        (decide_eq_false (Ne.symm apart))]
  | settle usage =>
    obtain ⟨hold, settles⟩ := runPilot_settle ran
    replace apart : other ≠ usage.tenantId := apart
    unfold Accounts.rowsOf
    rw [settles.balances, find_update_of_ne apart, settles.holds,
      Table.filter_update fun hold : Hold => decide (hold.tenantId = other),
      Table.filter_insert (fun row : UsageRow => decide (row.tenantId = other)) settles.recorded
        (decide_eq_false (Ne.symm apart))]
    intro row isActive
    have owner := (of_decide_eq_true isActive).1
    have differs : ¬ row.tenantId = other := fun same => apart (same.symm.trans owner)
    exact ⟨decide_eq_false differs, decide_eq_false differs⟩

theorem holdings_kept (sound : Sound accounts)
    {available : Int} (found : accounts.balances.find tenant = some available) :
    (∃ left, after.balances.find tenant = some left) ∧
      after.holdings tenant = accounts.holdings tenant := by
  cases transaction with
  | seed other amount cents =>
    have body := runPilot_seed ran
    have isInserted := (seedTenant_eq_ok body).2.1
    have apart : tenant ≠ other := by
      rintro rfl
      rw [(insert_eq_some isInserted).1] at found
      cases found
    rw [find_insert isInserted, if_neg apart, seed_holdings body, if_neg apart]
    exact ⟨⟨available, found⟩, rfl⟩
  | reserve other run cents maximum =>
    have body := runPilot_reserve ran
    rw [(reserve_eq_ok body).2.2.1, find_update, found]
    exact ⟨⟨_, rfl⟩, reserve_holdings body tenant⟩
  | settle usage =>
    obtain ⟨hold, settles⟩ := runPilot_settle ran
    rw [settles.balances, find_update, found]
    exact ⟨⟨_, rfl⟩, settles.holdings (sound.owned _ hold settles.found) tenant⟩

/-- A balance is there before a transaction, unless the transaction seeds its tenant. -/
theorem balance_cases {left : Int} (found : after.balances.find tenant = some left) :
    (∃ available, accounts.balances.find tenant = some available) ∨
      ∃ amount cents, transaction = .seed tenant amount cents := by
  cases transaction with
  | seed other amount cents =>
    rw [find_insert (seedTenant_eq_ok (runPilot_seed ran)).2.1] at found
    split at found
    · rename_i same
      exact .inr ⟨amount, cents, by rw [same]⟩
    · exact .inl ⟨left, found⟩
  | reserve other run cents maximum =>
    rw [(reserve_eq_ok (runPilot_reserve ran)).2.2.1, find_update] at found
    obtain ⟨available, before, -⟩ := map_eq_some_iff.mp found
    exact .inl ⟨available, before⟩
  | settle usage =>
    obtain ⟨hold, settles⟩ := runPilot_settle ran
    rw [settles.balances, find_update] at found
    obtain ⟨available, before, -⟩ := map_eq_some_iff.mp found
    exact .inl ⟨available, before⟩

theorem settled_kept
    (found : accounts.holds.find runId = some hold) (settled : hold.state = .settled) :
    after.holds.find runId = some hold := by
  cases transaction with
  | seed other amount cents =>
    rw [(seedTenant_eq_ok (runPilot_seed ran)).2.2.1]
    exact found
  | reserve other run cents maximum =>
    have isInserted := (reserve_eq_ok (runPilot_reserve ran)).2.2.2.1
    have apart : runId ≠ run := by
      rintro rfl
      rw [(insert_eq_some isInserted).1] at found
      cases found
    rw [find_insert isInserted, if_neg apart]
    exact found
  | settle usage =>
    obtain ⟨active, settles⟩ := runPilot_settle ran
    have inactive : ¬ (runId = usage.runId ∧ activeOf usage.tenantId hold = true) := by
      rintro ⟨-, isActive⟩
      rw [(of_decide_eq_true isActive).2] at settled
      cases settled
    rw [settles.holds, find_update, found, map_some, if_neg inactive]

end

theorem Settles.settled (settles : Settles accounts usage hold after) :
    ∃ settled, after.holds.find usage.runId = some settled ∧ settled.state = .settled := by
  have isActive : activeOf usage.tenantId hold = true :=
    decide_eq_true ⟨settles.owner, settles.active⟩
  rw [settles.holds, find_update_self settles.found isActive]
  exact ⟨_, rfl, rfl⟩

end Transactions

/-! ## Runs -/

section Runs

abbrev PilotMoment : Type := Database.Event Accounts PilotCall PilotTransaction (Option Int) String

/-- The moments of calls of clients on a new database. -/
def pilotTrace (events : List (ClientEvent PilotCall)) : List PilotMoment :=
  trace pilotDatabase.clientStep ⟨.empty, []⟩ events

def pilotAfter (events : List (ClientEvent PilotCall)) : Accounts :=
  (finalState pilotDatabase.clientStep ⟨.empty, []⟩ events).tables

/-- What a settlement sums up stays below what a decimal holds. -/
def SumFits (moment : PilotMoment) : Prop := match moment.call with
  | .transact client _ =>
    match moment.before.pending.lookup client with
    | some (.settle usage) => moment.before.tables.currentMs usage < 10 ^ contextDigits
    | _ => True
  | _ => True

instance (moment : PilotMoment) : Decidable (SumFits moment) := by
  unfold SumFits
  split
  · split
    · infer_instance
    · infer_instance
  · infer_instance

def Seeded (events : List (ClientEvent PilotCall)) (tenantId : String) (amount : Decimal) : Prop :=
  ∃ moment ∈ pilotTrace events, ∃ cents answer,
    Database.Ran pilotDatabase moment (.seed tenantId amount cents) answer

/-- Money is conserved and reconciled after the calls and at each of them. -/
structure Conserves (events : List (ClientEvent PilotCall)) : Prop where
  available : ∀ tenant available, (pilotAfter events).balances.find tenant = some available →
    0 ≤ available
  conserved : ∀ tenant amount, Seeded events tenant amount → ∃ available,
    (pilotAfter events).balances.find tenant = some available ∧
      amount.Cents (available + (pilotAfter events).holds.total (activeCents tenant) +
        (pilotAfter events).holds.total (chargedCents tenant))
  unseeded : ∀ tenant, (∀ amount, ¬ Seeded events tenant amount) →
    (pilotAfter events).balances.find tenant = none ∧
      (pilotAfter events).holds.total (activeCents tenant) = 0 ∧
      (pilotAfter events).holds.total (chargedCents tenant) = 0
  reconciled : ∀ tenant, tenant ≠ "" → ∃ cents,
    (pilotAfter events).settledTotalUsd tenant = .ok cents ∧
      (pilotAfter events).invoicedTotalUsd tenant "pilot-v1" = .ok cents
  others : ∀ moment ∈ pilotTrace events, ∀ transaction answer,
    Database.Ran pilotDatabase moment transaction answer → ∀ other, other ≠ transaction.tenantId →
      moment.after.tables.rowsOf other = moment.before.tables.rowsOf other
  failing : ∀ moment ∈ pilotTrace events, (∀ answer, moment.answer ≠ some (.ok answer)) →
    moment.after.tables = moment.before.tables
  once : (pilotTrace events).Pairwise fun earlier later => ∀ usage other first second,
    Database.Ran pilotDatabase earlier (.settle usage) first →
      Database.Ran pilotDatabase later (.settle other) second → usage.runId ≠ other.runId
  covered : ∀ usage, usage.tariffVersion = "pilot-v1" →
    (pilotAfter events).currentMs usage < 10 ^ contextDigits →
      settleRun usage (pilotAfter events) ≠ .error "charge exceeds reservation"

variable {events : List (ClientEvent PilotCall)} {moment : PilotMoment}

section

variable (below : ∀ moment ∈ pilotTrace events, SumFits moment)

include below

variable {answer : Option Int}

/-- A transaction of a run came from a call, and what it sums up stays below. -/
theorem ran_sound (member : moment ∈ pilotTrace events) (sound : Sound moment.before.tables)
    {transaction : PilotTransaction}
    (ran : Database.Ran pilotDatabase moment transaction answer) : Sound moment.after.tables := by
  obtain ⟨call, -, passed⟩ := Database.ran_presented member ran
  obtain ⟨client, transact, pending, body⟩ := ran
  replace passed : preparePilot call = .ok transaction := passed
  replace body : runPilot transaction moment.before.tables = .ok (moment.after.tables, answer) := body
  cases transaction with
  | seed tenant amount cents =>
    obtain ⟨-, n, -, rfl⟩ := preparePilot_prepared passed
    exact (seed_sound sound (Int.natCast_nonneg n) (runPilot_seed body)).1
  | reserve tenant run cents maximum =>
    exact reserve_sound sound (preparePilot_prepared passed) (runPilot_reserve body)
  | settle usage =>
    obtain ⟨hold, settles⟩ := runPilot_settle body
    have fits := below moment member
    unfold SumFits at fits
    rw [transact] at fits
    dsimp only at fits
    rw [pending] at fits
    exact settles.sound sound (preparePilot_prepared passed) fits

theorem moment_sound :
    (∀ moment ∈ pilotTrace events, Sound moment.before.tables ∧ Sound moment.after.tables) ∧
      Sound (pilotAfter events) := by
  refine trace_invariant (I := fun system : Clients Accounts PilotTransaction =>
    Sound system.tables) empty_sound fun moment member sound => ?_
  rcases Database.moment_cases member with ⟨same, -⟩ | ⟨transaction, answer, ran, -⟩
  · rw [same]
    exact sound
  · exact ran_sound below member sound ran

theorem seeded_holdings {tenant : String}
    {amount : Decimal} {cents : Int} (member : moment ∈ pilotTrace events)
    (ran : Database.Ran pilotDatabase moment (.seed tenant amount cents) answer) :
    (∃ available, (pilotAfter events).balances.find tenant = some available) ∧
      (pilotAfter events).holdings tenant = cents ∧ cents < 2 ^ 63 ∧
      0 ≤ amount.coefficient ∧ ∃ n : Nat, amount.hundredfold = .ok n ∧ cents = n := by
  have sound := (moment_sound below).1
  obtain ⟨call, -, passed⟩ := Database.ran_presented member ran
  obtain ⟨client, -, -, body⟩ := ran
  obtain ⟨nonneg, n, whole, rfl⟩ := preparePilot_prepared passed
  have seeds : seedTenant tenant n moment.before.tables = .ok moment.after.tables :=
    @runPilot_seed _ _ _ _ amount _ body
  obtain ⟨less, isInserted, -, -⟩ := seedTenant_eq_ok seeds
  have seeded := (seed_sound (sound moment member).1 (Int.natCast_nonneg n) seeds).2
  have found : moment.after.tables.balances.find tenant = some (n : Int) := by
    rw [find_insert isInserted, if_pos rfl]
  have kept := finalState_from_moment
    (R := fun s s' : Clients Accounts PilotTransaction => (∃ available,
        s.tables.balances.find tenant = some available) →
      (∃ left, s'.tables.balances.find tenant = some left) ∧
        s'.tables.holdings tenant = s.tables.holdings tenant)
    (fun _ here => ⟨here, rfl⟩)
    (fun a b c first second here => by
      obtain ⟨there, same⟩ := first here
      obtain ⟨last, same'⟩ := second there
      exact ⟨last, same'.trans same⟩)
    (fun other isMoment => by
      rintro ⟨available, here⟩
      rcases Database.moment_cases isMoment with ⟨same, -⟩ | ⟨transaction, answer, ran, -⟩
      · rw [same]
        exact ⟨⟨available, here⟩, rfl⟩
      · obtain ⟨-, -, -, body⟩ := ran
        exact holdings_kept body (sound other isMoment).1 here) moment member ⟨n, found⟩
  exact ⟨kept.1, kept.2.trans seeded, less, nonneg, n, whole, rfl⟩

end

theorem seeded_of_balance {tenant : String} {available : Int}
    (found : (pilotAfter events).balances.find tenant = some available) :
    ∃ amount, Seeded events tenant amount := by
  have all : ∀ available, (pilotAfter events).balances.find tenant = some available →
      ∃ amount, Seeded events tenant amount := (trace_invariant
    (I := fun system : Clients Accounts PilotTransaction => ∀ available,
      system.tables.balances.find tenant = some available → ∃ amount, Seeded events tenant amount)
    (by rintro left ⟨⟩) (fun moment member earlier left here => by
      rcases Database.moment_cases member with ⟨same, -⟩ | ⟨transaction, answer, ran, -⟩
      · rw [same] at here
        exact earlier left here
      · have body := ran
        obtain ⟨-, -, -, body⟩ := body
        rcases balance_cases body here with ⟨before, isBefore⟩ | ⟨amount, cents, rfl⟩
        · exact earlier before isBefore
        · exact ⟨amount, moment, member, cents, answer, ran⟩)).2
  exact all available found

theorem settled_once : (pilotTrace events).Pairwise fun earlier later =>
    ∀ usage other first second, Database.Ran pilotDatabase earlier (.settle usage) first →
      Database.Ran pilotDatabase later (.settle other) second → usage.runId ≠ other.runId := by
  have kept : (pilotTrace events).Pairwise fun earlier later => ∀ run hold,
      earlier.after.tables.holds.find run = some hold → hold.state = .settled →
        later.before.tables.holds.find run = some hold := trace_pairwise
    (R := fun s s' : Clients Accounts PilotTransaction => ∀ run hold,
      s.tables.holds.find run = some hold → hold.state = .settled →
        s'.tables.holds.find run = some hold)
    (fun _ _ _ found _ => found)
    (fun _ _ _ first second run hold found settled =>
      second run hold (first run hold found settled) settled)
    (fun moment member run hold found settled => by
      rcases Database.moment_cases member with ⟨same, -⟩ | ⟨transaction, answer, ran, -⟩
      · rw [same]
        exact found
      · obtain ⟨-, -, -, body⟩ := ran
        exact settled_kept body found settled)
  refine kept.imp fun stays usage other first second ran again same => ?_
  obtain ⟨-, -, -, body⟩ := ran
  obtain ⟨-, -, -, body'⟩ := again
  obtain ⟨hold, settles⟩ := runPilot_settle body
  obtain ⟨active, settles'⟩ := runPilot_settle body'
  obtain ⟨settled, found, isSettled⟩ := settles.settled
  have still := stays _ _ found isSettled
  rw [same, settles'.found] at still
  cases still
  rw [settles'.active] at isSettled
  cases isSettled

variable {accounts : Accounts}

theorem Sound.active_nonneg (sound : Sound accounts) (tenantId : String) :
    0 ≤ accounts.holds.total (activeCents tenantId) := by
  refine Table.total_nonneg fun run hold found => ?_
  have reserved := (sound.authorized run hold found).2
  unfold activeCents
  split
  · omega
  · exact Int.le_refl 0

theorem Sound.reconciled (sound : Sound accounts) {tenantId : String}
    (named : tenantId ≠ "") : ∃ cents, accounts.settledTotalUsd tenantId = .ok cents ∧
      accounts.invoicedTotalUsd tenantId "pilot-v1" = .ok cents := by
  have invoiced := sound.invoiced tenantId
  have small := sound.small tenantId
  have active := sound.active_nonneg tenantId
  have less : accounts.holds.total (chargedCents tenantId) < 2 ^ 63 := by
    cases found : accounts.balances.find tenantId with
    | none =>
      rw [(sound.without found).2]
      decide
    | some available =>
      have fits := sound.fits tenantId available found
      have nonneg := sound.nonneg tenantId available found
      unfold Accounts.holdings at fits
      rw [found, getD_some] at fits
      omega
  have few : invoiceCents (accounts.billableMs tenantId "pilot-v1") < 10 ^ contextDigits := by
    unfold invoiceCents halfUpThousand
    rw [centThousandths_of_lt small]
    unfold contextDigits at small ⊢
    omega
  unfold Accounts.settledTotalUsd Accounts.invoicedTotalUsd
  refine ⟨accounts.holds.total (chargedCents tenantId), ?_, ?_⟩
  · rw [bind_raiseIf named, bind_raiseIf (by omega)]
  · rw [bind_raiseIf (not_or.mpr ⟨named, by decide⟩), bind_raiseIf (not_le.mpr few), invoiced]

/-- While sums stay below what decimals hold, money is conserved and reconciled exactly when every amount a
tenant is seeded with is a whole number of cents. -/
theorem conserves_iff (events : List (ClientEvent PilotCall))
    (below : ∀ moment ∈ pilotTrace events, SumFits moment) :
    Conserves events ↔ ∀ tenant amount, Seeded events tenant amount → ∃ cents, amount.Cents cents := by
  have sound := (moment_sound below).2
  constructor
  · intro conserves tenant amount seeded
    obtain ⟨available, -, worth⟩ := conserves.conserved tenant amount seeded
    exact ⟨_, worth⟩
  · intro whole
    constructor
    · exact sound.nonneg
    · intro tenant amount seeded
      have worth := whole tenant amount seeded
      obtain ⟨moment, member, cents, answer, ran⟩ := seeded
      obtain ⟨⟨available, found⟩, holdings, less, nonneg, n, isWhole, rfl⟩ :=
        seeded_holdings below member ran
      have few : n < 10 ^ contextDigits := by
        unfold contextDigits
        omega
      have exact := (Decimal.hundredfold_exact_iff nonneg isWhole few).mp worth
      unfold Accounts.holdings at holdings
      rw [found, getD_some] at holdings
      refine ⟨available, found, ?_⟩
      rw [holdings]
      exact exact
    · intro tenant never
      have none : (pilotAfter events).balances.find tenant = none := by
        cases found : (pilotAfter events).balances.find tenant with
        | none => rfl
        | some available =>
          obtain ⟨amount, seeded⟩ := seeded_of_balance found
          exact absurd seeded (never amount)
      exact ⟨none, sound.without none⟩
    · exact fun tenant named => sound.reconciled named
    · rintro moment member transaction answer ⟨client, transact, pending, body⟩ other apart
      exact rowsOf_other body apart
    · intro moment member fails
      rcases Database.moment_cases member with ⟨same, -⟩ | ⟨transaction, answer, -, answered⟩
      · exact same
      · exact absurd answered (fails answer)
    · exact settled_once
    · exact fun usage _ fits => sound.settles_covered fits

end Runs

/-! ## An amount that is no whole number of cents -/

/-- A tenant is seeded on a new database. -/
def seedEvents (tenantId : String) (amount : Decimal) : List (ClientEvent PilotCall) :=
  [.start 0 (.seedTenant tenantId (some amount)), .transact 0 true]

theorem seedEvents_seeded {tenantId : String} {amount : Decimal} {n : Nat} (named : tenantId ≠ "")
    (nonneg : 0 ≤ amount.coefficient) (whole : amount.hundredfold = .ok n) (less : n < 2 ^ 63) :
    Seeded (seedEvents tenantId amount) tenantId amount := by
  have checked : toCents (some amount) = .ok (amount, (n : Int)) := by
    unfold toCents
    dsimp only
    rw [bind_raiseIf (not_lt.mpr nonneg), bind_of_ok whole]
  have passed : preparePilot (.seedTenant tenantId (some amount)) = .ok (.seed tenantId amount n) := by
    unfold preparePilot
    dsimp only
    rw [bind_raiseIf named, bind_of_ok checked]
  obtain ⟨balances, isInserted⟩ := insert_of_absent
    (rfl : (Table.empty : Table String Int).find tenantId = none) (n : Int)
  have body : runPilot (.seed tenantId amount n) .empty =
      .ok ({ Accounts.empty with balances := balances }, none) := by
    have bound := sqlInteger_of_range (Int.natCast_nonneg n) (by omega)
    unfold runPilot seedTenant inserted Accounts.empty
    dsimp only
    rw [bind_of_ok bound, isInserted]
    rfl
  have started : pilotDatabase.clientStep ⟨.empty, []⟩
      (.start 0 (.seedTenant tenantId (some amount))) =
        (none, ⟨.empty, [(0, .seed tenantId amount n)]⟩) := Database.clientStep_start passed
  have last : (⟨_, .transact 0 true, _, _⟩ : PilotMoment) ∈ pilotTrace (seedEvents tenantId amount) :=
    mem_cons_of_mem _ mem_cons_self
  rw [started] at last
  exact ⟨_, last, n, none, Database.ran_of_body last rfl rfl body⟩

/-- One dollar and a fraction that is rounded away. -/
def finerAmount : Decimal := ⟨10 ^ 34 + 1, -34⟩

/-- The fraction is not in the balance. -/
theorem finer_amount_lost : Seeded (seedEvents "t" finerAmount) "t" finerAmount ∧
      (∀ moment ∈ pilotTrace (seedEvents "t" finerAmount), SumFits moment) ∧
      ¬ Conserves (seedEvents "t" finerAmount) := by
  have seeded : Seeded (seedEvents "t" finerAmount) "t" finerAmount :=
    @seedEvents_seeded "t" finerAmount 100 (by decide) (by decide) (by decide +kernel) (by decide)
  refine ⟨seeded, by decide +kernel, fun conserves => ?_⟩
  obtain ⟨available, -, worth⟩ := conserves.conserved "t" finerAmount seeded
  have few : (-34 : Int).toNat = 0 := rfl
  have many : (- -34 : Int).toNat = 34 := rfl
  unfold Decimal.Cents finerAmount at worth
  dsimp only at worth
  rw [few, many] at worth
  omega

/-- A run that is reserved and settled, of a tenant with five dollars. -/
def settledEvents : List (ClientEvent PilotCall) := seedEvents "t" ⟨500, -2⟩ ++
    [.start 0 (.reserve "t" "a" 60000), .transact 0 true,
      .start 0 (.settleRun ⟨"a", "t", 8000, .succeeded, "pilot-v1", by decide⟩), .transact 0 true]

theorem conserves_iff_settled : (∀ moment ∈ pilotTrace settledEvents, SumFits moment) ∧
      (Conserves settledEvents ↔
        ∀ tenant amount, Seeded settledEvents tenant amount → ∃ cents, amount.Cents cents) :=
  have below : ∀ moment ∈ pilotTrace settledEvents, SumFits moment := by decide +kernel
  ⟨below, conserves_iff settledEvents below⟩

end Koschei.Runner
