import AegisPlatform.Domain.Work
import AegisPlatform.Lib.Decimal
import AegisPlatform.Lib.Table

/-!
# The database

The tables of the platform's schema, one record type a row.  A pair of columns
that a `CHECK` keeps null together is one optional pair here, and the outbox
status carries the columns that go with it, so that a row the schema would
refuse cannot be written down.

* `Database` — the tables.
* `Database.stream` — the events of one work item, in aggregate order.
* `Database.version` — the head of a stream.
-/

namespace AegisPlatform

/-! ## Rows -/

/-- Where an outbox message is: `outbox_messages.status` with the lease and
publication columns that go with it. -/
inductive OutboxState where
  | pending
  | leased (owner : String) (expiresAt : Timestamp)
  | published (publishedAt : Timestamp)
  | deadLetter
  deriving DecidableEq, Repr

/-- Outgoing delivery committed atomically with its causing events. -/
structure OutboxMessage where
  messageId : UUID
  destination : String
  payload : Dict
  headers : Dict
  availableAt : Timestamp
  maxAttempts : ℤ := 8
  eventId : Option UUID := none

/-- A row of `outbox_messages`. -/
structure OutboxRow where
  eventId : Option UUID
  destination : String
  payload : Dict
  headers : Dict
  state : OutboxState
  availableAt : Timestamp
  attemptCount : ℤ
  maxAttempts : ℤ
  lastErrorCode : Option String

/-- A row of `inbox_messages`; `aggregateVersion` is null until it is processed. -/
structure InboxRow where
  receivedAt : Timestamp
  aggregateVersion : Option ℕ
  deriving DecidableEq, Repr

/-- A row of `work_items`. -/
structure WorkItemRow where
  workKind : String
  idempotencyKey : String
  status : WorkStatus
  requestedAt : Timestamp
  availableAt : Timestamp
  attemptCount : ℤ := 0
  maxAttempts : ℤ
  timeoutSeconds : ℤ
  requestEventId : UUID
  correlationId : UUID
  causationId : Option UUID
  requestPayload : Dict
  cancelRequestedAt : Option Timestamp := none
  completedAt : Option Timestamp := none
  lastErrorCode : Option String := none

/-- A row of `work_leases`.  `released` is `released_at` with
`release_reason`. -/
structure WorkLeaseRow where
  token : UUID
  generation : ℤ
  owner : String
  acquiredAt : Timestamp
  heartbeatAt : Timestamp
  expiresAt : Timestamp
  released : Option (Timestamp × String) := none
  deriving DecidableEq, Repr

/-- A row of `work_dead_letters`. -/
structure DeadLetterRow where
  deadLetteredAt : Timestamp
  reasonCode : String
  attempts : ℤ
  requeueCount : ℕ := 0
  lastRequeuedAt : Option Timestamp := none
  deriving DecidableEq, Repr

/-- A row of `work_requeue_approvals`.  `consumed` is `consumed_at` with
`consumed_by`. -/
structure ApprovalRow where
  workId : UUID
  approvedBy : String
  approvedAt : Timestamp
  expiresAt : Timestamp
  consumed : Option (Timestamp × String) := none
  deriving DecidableEq, Repr

/-- Per-run and tenant-period limits: a row of `tenant_quotas`. -/
structure QuotaLimits where
  maxRunTokens : ℤ
  maxRunCostUsd : Decimal
  maxTenantTokensPerPeriod : ℤ
  maxTenantCostUsdPerPeriod : Decimal
  maxConcurrentRuns : ℤ
  valid : 0 ≤ maxRunTokens ∧ 0 ≤ maxTenantTokensPerPeriod ∧ 0 ≤ maxConcurrentRuns ∧
    0 ≤ maxRunCostUsd ∧ 0 ≤ maxTenantCostUsdPerPeriod
  deriving DecidableEq, Repr

/-- What became of a reservation: `model_budget_reservations.status` with the
columns that go with it. -/
inductive ReservationState where
  | active
  | charged (tokens : ℤ) (costUsd : Decimal) (reconciledAt : Timestamp)
  | released (reconciledAt : Timestamp)
  deriving DecidableEq, Repr

/-- A row of `model_budget_reservations`. -/
structure ReservationRow where
  runId : UUID
  workId : UUID
  requestId : UUID
  idempotencyKey : String
  tokenLimit : ℤ
  costLimitUsd : Decimal
  priceVersion : String
  state : ReservationState
  leaseToken : UUID
  leaseGeneration : ℤ
  createdAt : Timestamp
  expiresAt : Timestamp
  deriving DecidableEq, Repr

/-- A row of `model_usage_projection`. -/
structure UsageRow where
  runId : UUID
  provider : String
  model : String
  priceVersion : String
  inputTokens : ℤ
  outputTokens : ℤ
  cacheReadTokens : ℤ
  cacheWriteTokens : ℤ
  reasoningTokens : ℤ
  totalTokens : ℤ
  costUsd : Decimal
  recordedAt : Timestamp
  deriving DecidableEq, Repr

/-! ## Tables -/

/-- The tables.  Events are kept in commit order; every other table is keyed. -/
structure Database where
  tenants : List String
  events : List EventEnvelope := []
  nextPosition : ℕ := 1
  heads : Table (String × String) ℕ := ∅
  inbox : Table (String × String × String) InboxRow := ∅
  outbox : Table (String × UUID) OutboxRow := ∅
  workItems : Table WorkKey WorkItemRow := ∅
  workLeases : Table WorkKey WorkLeaseRow := ∅
  deadLetters : Table WorkKey DeadLetterRow := ∅
  approvals : Table (String × UUID) ApprovalRow := ∅
  quotas : Table String QuotaLimits := ∅
  reservations : Table (String × UUID) ReservationRow := ∅
  usage : Table (String × UUID) UsageRow := ∅

/-- Is the event of the item's stream? -/
def EventEnvelope.isOf (e : EventEnvelope) (key : WorkKey) : Bool :=
  e.tenantId = key.1 && e.aggregateId = key.2.str

/-- Does the payload of the message name the item: `payload->>'work_id' =
work_id::text`? -/
def OutboxRow.isFor (row : OutboxRow) (workId : UUID) : Bool :=
  JsonValue.text? row.payload "work_id" = some workId.str

namespace Database

/-- The events of one work item, in aggregate order. -/
def stream (db : Database) (key : WorkKey) : List EventEnvelope :=
  db.events.filter (·.isOf key)

/-- `current_version` of a stream, `0` when it has no head yet. -/
def version (db : Database) (tenantId aggregateId : String) : ℕ :=
  (db.heads.lookup (tenantId, aggregateId)).getD 0

end Database

theorem EventEnvelope.IsFor.isOf {e : EventEnvelope} {key : WorkKey} {ty : DomainEventType}
    {g : Option ℤ} (h : e.IsFor key ty g) (key' : WorkKey) : e.isOf key' = decide (key = key') := by
  unfold EventEnvelope.isOf
  rw [h.tenantId, h.aggregateId]
  have hkey : (key.1 = key'.1 ∧ key.2.str = key'.2.str) ↔ key = key' := by
    rw [UUID.str_inj, Prod.ext_iff]
  by_cases hk : key = key'
  · subst hk; simp
  · rw [decide_eq_false hk, ← Bool.decide_and, decide_eq_false (fun h => hk (hkey.1 h))]

end AegisPlatform
