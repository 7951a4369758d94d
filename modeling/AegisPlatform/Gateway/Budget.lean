import AegisPlatform.Domain.Model
import AegisPlatform.Lib.Calendar
import AegisPlatform.Runtime.Projection

/-!
# The budget tables

The mutations the PostgreSQL gateway repository commits with its events:
admission of a reservation against the tenant's quotas, and its settlement.

* `checkBudget` — the four comparisons of an admission, in their order.
* `reserveRow`, `chargeRow`, `releaseRow` — what `reserve`, `succeed` and
  `record_usage_failure`, and `fail` do to the tables.
* `GatewayMutation` — the mutations by name; `GatewayMutation.run` is what they
  do.
-/

namespace AegisPlatform

open Fallible

/-- A value stored in a `numeric(20, 10)` column: rounded to ten decimals, half
away from zero, refused from `10 ^ 10` on. -/
def numeric20_10 (x : Decimal) : Option Decimal :=
  let n : ℤ := ⌊|x| * 10 ^ 10 + 1 / 2⌋
  if n < 10 ^ 20 then some (if x < 0 then -(n : ℚ) / 10 ^ 10 else (n : ℚ) / 10 ^ 10) else none

/-- A value stored in a `bigint` column. -/
def bigint (n : ℤ) : Option ℤ := if -2 ^ 63 ≤ n ∧ n < 2 ^ 63 then some n else none

/-- `_check_budget`. -/
def checkBudget (quotas : QuotaLimits) (tenantTokens : ℤ) (tenantCost : Decimal)
    (runTokens : ℤ) (runCost : Decimal) (tokenLimit : ℤ) (costLimit : Decimal) :
    Except Raised Unit := do
  raiseIf (quotas.maxRunTokens < runTokens + tokenLimit)
    (.budgetDenied "run_token_budget_exceeded")
  raiseIf (quotas.maxRunCostUsd < Decimal.add runCost costLimit)
    (.budgetDenied "run_cost_budget_exceeded")
  raiseIf (quotas.maxTenantTokensPerPeriod < tenantTokens + tokenLimit)
    (.budgetDenied "tenant_token_budget_exceeded")
  raiseIf (quotas.maxTenantCostUsdPerPeriod < Decimal.add tenantCost costLimit)
    (.budgetDenied "tenant_cost_budget_exceeded")

theorem checkBudget_eq_ok {quotas : QuotaLimits} {tenantTokens : ℤ} {tenantCost : Decimal}
    {runTokens : ℤ} {runCost : Decimal} {tokenLimit : ℤ} {costLimit : Decimal} {u : Unit} :
    checkBudget quotas tenantTokens tenantCost runTokens runCost tokenLimit costLimit = .ok u ↔
      runTokens + tokenLimit ≤ quotas.maxRunTokens ∧
      Decimal.add runCost costLimit ≤ quotas.maxRunCostUsd ∧
      tenantTokens + tokenLimit ≤ quotas.maxTenantTokensPerPeriod ∧
      Decimal.add tenantCost costLimit ≤ quotas.maxTenantCostUsdPerPeriod := by
  simp [checkBudget, bind_eq_ok, raiseIf_eq_ok]

/-- Does the row hold the request's identity: a partial unique index covers the
active and the charged reservations. -/
def ReservationRow.isLive (row : ReservationRow) : Bool :=
  match row.state with
  | .released _ => false
  | _ => true

/-- Is the reservation active? -/
def ReservationRow.isActive (row : ReservationRow) : Bool := row.state = .active

namespace Database

/-! ## Sums -/

/-- The active reservations of a tenant, of one run of it or of all. -/
def activeReservations (db : Database) (tenantId : String) (runId : Option UUID) :
    List ReservationRow :=
  (db.reservations.rows.filter fun row =>
    row.1.1 = tenantId && row.2.isActive && runId.all (row.2.runId = ·)).map (·.2)

/-- The usage rows of a tenant's billing period. -/
def periodUsage (db : Database) (tenantId : String) (at' : Timestamp) : List UsageRow :=
  (db.usage.rows.filter fun row =>
    row.1.1 = tenantId && Calendar.monthStart at' ≤ row.2.recordedAt).map (·.2)

/-- The usage rows of a run. -/
def runUsage (db : Database) (tenantId : String) (runId : UUID) : List UsageRow :=
  (db.usage.rows.filter fun row => row.1.1 = tenantId && row.2.runId = runId).map (·.2)

/-! ## Admission and settlement -/

/-- The mutation of `reserve`: the maintenance probe, the quota comparison, the
four sums, the check and the row. -/
def reserveRow (underMaintenance : String → Bool) (request : ModelRequest) (lease : WorkLease)
    (reservation : BudgetReservation) (quotas : QuotaLimits) (at' : Timestamp) (db : Database) :
    Except Raised Database := do
  raiseIf (underMaintenance request.tenantId)
    (.budgetDenied "model_usage_projection_under_maintenance")
  let configured ← orRaise (.budgetDenied "tenant_quota_not_configured")
    (db.quotas.lookup request.tenantId)
  raiseIf (configured ≠ quotas) (.budgetDenied "policy_quota_projection_mismatch")
  let tenantActive := db.activeReservations request.tenantId none
  let tenantUsed := db.periodUsage request.tenantId at'
  let runActive := db.activeReservations request.tenantId (some request.runId)
  let runUsed := db.runUsage request.tenantId request.runId
  checkBudget quotas
    ((tenantActive.map (·.tokenLimit)).sum + (tenantUsed.map (·.totalTokens)).sum)
    (Decimal.add (tenantActive.map (·.costLimitUsd)).sum (tenantUsed.map (·.costUsd)).sum)
    ((runActive.map (·.tokenLimit)).sum + (runUsed.map (·.totalTokens)).sum)
    (Decimal.add (runActive.map (·.costLimitUsd)).sum (runUsed.map (·.costUsd)).sum)
    reservation.tokenLimit reservation.costLimitUsd
  -- the CHECKs and the partial unique indexes of model_budget_reservations
  raiseIf (reservation.tokenLimit ≤ 0 ∨ reservation.costLimitUsd < 0 ∨
    reservation.priceVersion = "") permanentStorageFailure
  raiseIf (db.reservations.rows.any fun row => row.1.1 = request.tenantId && row.2.isLive &&
      (row.2.requestId = request.requestId || row.2.idempotencyKey = request.idempotencyKey))
    permanentStorageFailure
  let tokenLimit ← orRaise permanentStorageFailure (bigint reservation.tokenLimit)
  let cost ← orRaise permanentStorageFailure (numeric20_10 reservation.costLimitUsd)
  let rows ← orRaise permanentStorageFailure
    (db.reservations.insertNew (request.tenantId, reservation.reservationId) {
      runId := request.runId
      workId := lease.workId
      requestId := request.requestId
      idempotencyKey := request.idempotencyKey
      tokenLimit := tokenLimit
      costLimitUsd := cost
      priceVersion := reservation.priceVersion
      state := .active
      leaseToken := lease.token
      leaseGeneration := lease.generation
      createdAt := at'
      expiresAt := lease.expiresAt })
  return { db with reservations := rows }

/-- `UPDATE model_budget_reservations … WHERE status = 'active'` under the
lease's own token and generation. -/
def settleReservation (tenantId : String) (reservationId : UUID) (lease : WorkLease)
    (state : ReservationState) (db : Database) : Except Raised Database := do
  let rows ← orRaise (.concurrencyError 1 0)
    (db.reservations.updateWhere (tenantId, reservationId)
      (fun row => row.isActive && row.leaseToken = lease.token &&
        row.leaseGeneration = lease.generation)
      (fun row => { row with state := state }))
  return { db with reservations := rows }

/-- The mutation of `succeed` and of `record_usage_failure`. -/
def chargeRow (request : ModelRequest) (lease : WorkLease) (reservation : BudgetReservation)
    (response : ModelResponse) (priceVersion : String) (tokens : ℤ) (cost : Decimal)
    (at' : Timestamp) (db : Database) : Except Raised Database := do
  let db ← db.settleReservation request.tenantId reservation.reservationId lease
    (.charged tokens ((numeric20_10 cost).getD 0) at')
  -- a value the column cannot hold fails the statement
  let total ← orRaise permanentStorageFailure (bigint tokens)
  let stored ← orRaise permanentStorageFailure (numeric20_10 cost)
  let usage ← orRaise permanentStorageFailure
    (db.usage.insertNew (request.tenantId, request.requestId) {
      runId := request.runId
      provider := response.model.provider
      model := response.model.model
      priceVersion := priceVersion
      inputTokens := response.usage.inputTokens
      outputTokens := response.usage.outputTokens
      cacheReadTokens := response.usage.cacheReadTokens
      cacheWriteTokens := response.usage.cacheWriteTokens
      reasoningTokens := response.usage.reasoningTokens
      totalTokens := total
      costUsd := stored
      recordedAt := at' })
  return { db with usage := usage }

/-- The mutation of `fail`. -/
def releaseRow (request : ModelRequest) (lease : WorkLease) (reservation : BudgetReservation)
    (at' : Timestamp) (db : Database) : Except Raised Database :=
  db.settleReservation request.tenantId reservation.reservationId lease (.released at')

end Database

/-! ## Mutations by name -/

/-- The mutations the gateway repository passes to the ledger. -/
inductive GatewayMutation where
  | reserve (request : ModelRequest) (lease : WorkLease) (reservation : BudgetReservation)
      (quotas : QuotaLimits) (at' : Timestamp)
  | charge (request : ModelRequest) (lease : WorkLease) (reservation : BudgetReservation)
      (response : ModelResponse) (priceVersion : String) (tokens : ℤ) (cost : Decimal)
      (at' : Timestamp)
  | release (request : ModelRequest) (lease : WorkLease) (reservation : BudgetReservation)
      (at' : Timestamp)

/-- Run a mutation. -/
def GatewayMutation.run (underMaintenance : String → Bool) (db : Database) :
    GatewayMutation → Except Raised Database
  | reserve request lease reservation quotas at' =>
    db.reserveRow underMaintenance request lease reservation quotas at'
  | charge request lease reservation response priceVersion tokens cost at' =>
    db.chargeRow request lease reservation response priceVersion tokens cost at'
  | release request lease reservation at' => db.releaseRow request lease reservation at'

/-- A mutation writes the budget tables only. -/
theorem GatewayMutation.run_rest {m : GatewayMutation} {underMaintenance : String → Bool}
    {db db' : Database} (h : m.run underMaintenance db = .ok db') :
    db' = { db with reservations := db'.reservations, usage := db'.usage } := by
  cases m with
  | reserve =>
    simp only [run, Database.reserveRow, bind_eq_ok, pure_eq_ok] at h
    obtain ⟨-, -, -, -, -, -, -, -, -, -, -, -, -, -, -, -, rows, -, rfl⟩ := h
    rfl
  | charge =>
    simp only [run, Database.chargeRow, Database.settleReservation, bind_eq_ok, pure_eq_ok] at h
    obtain ⟨db₁, ⟨rows, -, rfl⟩, -, -, -, -, usage, -, rfl⟩ := h
    rfl
  | release =>
    simp only [run, Database.releaseRow, Database.settleReservation, bind_eq_ok, pure_eq_ok] at h
    obtain ⟨rows, -, rfl⟩ := h
    rfl

/-- It reads nothing but the quotas and the budget tables. -/
theorem GatewayMutation.run_frame (m : GatewayMutation) (underMaintenance : String → Bool)
    {db db₁ : Database} (hreservations : db₁.reservations = db.reservations)
    (husage : db₁.usage = db.usage) (hquotas : db₁.quotas = db.quotas) :
    m.run underMaintenance db₁ = (m.run underMaintenance db).map fun db' =>
      { db₁ with reservations := db'.reservations, usage := db'.usage } := by
  cases m with
  | reserve =>
    simp only [run, Database.reserveRow, map_bind, Database.activeReservations,
      Database.periodUsage, Database.runUsage, hreservations, husage, hquotas]
    congr
  | charge =>
    simp only [run, Database.chargeRow, Database.settleReservation, map_bind, hreservations, husage,
      bind_assoc]
    congr
  | release =>
    simp only [run, Database.releaseRow, Database.settleReservation, map_bind, hreservations, husage]
    congr

end AegisPlatform
