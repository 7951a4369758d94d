import AegisPlatform.Domain.Values
import AegisPlatform.Lib.Fallible

/-!
# Events and errors

`DomainEventType` and `EventEnvelope` are the ledger's vocabulary: an event is
appended with no sequence number and no position, and the ledger assigns both.
`Raised` is what the platform's operations raise; `Raised.isConcurrencyError`
is `except ConcurrencyError`, which also catches the fencing errors derived
from it.
-/

namespace AegisPlatform

open Fallible

/-- The event names the ledger stores. -/
inductive DomainEventType where
  | investigationRequested
  | runStarted
  | runStatusChanged
  | runCompleted
  | runFailed
  | artifactRecorded
  | approvalRequested
  | approvalDecided
  | usageRecorded
  | sideEffectIntentRecorded
  | sideEffectCompleted
  | sideEffectFailed
  | outboxDeadLettered
  | tenantRegistered
  | workRequested
  | workPublished
  | workClaimed
  | workStarted
  | workHeartbeat
  | workLeaseExpired
  | workSucceeded
  | workFailed
  | workRetryScheduled
  | workCancelRequested
  | workCancelled
  | workDeadLettered
  | workReconciled
  | modelCallRequested
  | modelCallStarted
  | modelCallAttempted
  | modelCallSucceeded
  | modelCallFailed
  | modelCallTimedOut
  | modelCallRateLimited
  | modelCallCancelled
  | modelUsageRecorded
  | modelRouteDecided
  | modelFallbackSelected
  | modelBudgetReserved
  | modelBudgetReleased
  | modelBudgetCharged
  /-- A name that is none of these. -/
  | other (name : String) (valid : isBlank name = false)
  deriving DecidableEq, Repr

namespace DomainEventType

/-- The stored name of an event type. -/
def value : DomainEventType → String
  | investigationRequested => "investigation.requested.v1"
  | runStarted => "run.started.v1"
  | runStatusChanged => "run.status_changed.v1"
  | runCompleted => "run.completed.v1"
  | runFailed => "run.failed.v1"
  | artifactRecorded => "artifact.recorded.v1"
  | approvalRequested => "approval.requested.v1"
  | approvalDecided => "approval.decided.v1"
  | usageRecorded => "usage.recorded.v1"
  | sideEffectIntentRecorded => "effect.intent_recorded.v1"
  | sideEffectCompleted => "effect.completed.v1"
  | sideEffectFailed => "effect.failed.v1"
  | outboxDeadLettered => "delivery.outbox_dead_lettered.v1"
  | tenantRegistered => "tenant.registered.v1"
  | workRequested => "work.requested.v1"
  | workPublished => "work.published.v1"
  | workClaimed => "work.claimed.v1"
  | workStarted => "work.started.v1"
  | workHeartbeat => "work.heartbeat.v1"
  | workLeaseExpired => "work.lease_expired.v1"
  | workSucceeded => "work.succeeded.v1"
  | workFailed => "work.failed.v1"
  | workRetryScheduled => "work.retry_scheduled.v1"
  | workCancelRequested => "work.cancel_requested.v1"
  | workCancelled => "work.cancelled.v1"
  | workDeadLettered => "work.dead_lettered.v1"
  | workReconciled => "work.reconciled.v1"
  | modelCallRequested => "model.call_requested.v1"
  | modelCallStarted => "model.call_started.v1"
  | modelCallAttempted => "model.call_attempted.v1"
  | modelCallSucceeded => "model.call_succeeded.v1"
  | modelCallFailed => "model.call_failed.v1"
  | modelCallTimedOut => "model.call_timed_out.v1"
  | modelCallRateLimited => "model.call_rate_limited.v1"
  | modelCallCancelled => "model.call_cancelled.v1"
  | modelUsageRecorded => "model.usage_recorded.v1"
  | modelRouteDecided => "model.route_decided.v1"
  | modelFallbackSelected => "model.fallback_selected.v1"
  | modelBudgetReserved => "model.budget_reserved.v1"
  | modelBudgetReleased => "model.budget_released.v1"
  | modelBudgetCharged => "model.budget_charged.v1"
  | other name _ => name

/-- `str(event_type).startswith("work.")`. -/
def isWork : DomainEventType → Bool
  | workRequested | workPublished | workClaimed | workStarted | workHeartbeat
  | workLeaseExpired | workSucceeded | workFailed | workRetryScheduled
  | workCancelRequested | workCancelled | workDeadLettered | workReconciled => true
  | _ => false

theorem isBlank_value (ty : DomainEventType) : isBlank ty.value = false := by
  cases ty
  case other name valid => exact valid
  all_goals decide

end DomainEventType

/-- What an operation raises. -/
inductive Raised where
  | valueError (message : String)
  | concurrencyError (expected actual : ℤ)
  /-- A `ConcurrencyError` for a stale, released or expired lease. -/
  | fencingError (expected actual : ℤ)
  | permanentStorageError (message : String)
  | transientStorageError
  | replayCorruptionError (message : String)
  /-- The private `_ClaimUnavailableError` of `claim`. -/
  | claimUnavailable
  /-- The first element of an empty list. -/
  | indexError
  /-- `PermanentQueueError`. -/
  | permanentQueueError (message : String)
  | budgetDenied (code : String)
  | duplicateCallInProgress
  /-- A classified `ModelGatewayError`. -/
  | modelGatewayError (code : String)
  deriving DecidableEq, Repr

/-- Is it caught by `except ConcurrencyError`? -/
def Raised.isConcurrencyError : Raised → Bool
  | concurrencyError .. | fencingError .. => true
  | _ => false

/-- `freeze_json_mapping`: a mapping is kept as it is unless a number in it is not
finite. -/
def freezeJsonMapping (fields : Dict) : Except Raised Unit :=
  if JsonValue.isFiniteFields fields then .ok ()
  else .error (.valueError "JSON numbers must be finite")

/-- An event.  `aggregateSequence` is `0` and `globalPosition` and `recordedAt`
are absent until the ledger has stored it. -/
structure EventEnvelope where
  eventId : UUID
  tenantId : String
  aggregateId : String
  eventType : DomainEventType
  schemaVersion : ℕ := 1
  occurredAt : Timestamp
  payload : Dict
  correlationId : Option UUID := none
  causationId : Option UUID := none
  aggregateSequence : ℕ := 0
  globalPosition : Option ℕ := none
  recordedAt : Option Timestamp := none
  idempotencyKey : Option String := none
  deriving Repr

namespace EventEnvelope

/-- `EventEnvelope.__post_init__`, for an event that is not stored yet. -/
def make (e : EventEnvelope) : Except Raised EventEnvelope := do
  raiseIf (e.schemaVersion < 1) (.valueError "schema_version must be positive")
  raiseIf (isBlank e.tenantId ∨ isBlank e.aggregateId ∨ isBlank e.eventType.value)
    (.valueError "tenant, aggregate, and event type are required")
  raiseIf (e.idempotencyKey = some "") (.valueError "idempotency_key cannot be empty")
  freezeJsonMapping e.payload
  return e

theorem make_eq {e e' : EventEnvelope} (h : e.make = .ok e') : e' = e := by
  simp only [make, bind_eq_ok, pure_eq_ok] at h
  obtain ⟨-, -, -, -, -, -, -, -, rfl⟩ := h
  rfl

theorem make_eq_ok {e : EventEnvelope} (hversion : e.schemaVersion = 1)
    (htenant : isBlank e.tenantId = false) (haggregate : isBlank e.aggregateId = false)
    (hkey : e.idempotencyKey ≠ some "") (hfinite : JsonValue.isFiniteFields e.payload = true) :
    e.make = .ok e := by
  have htype := e.eventType.isBlank_value
  simp [make, raiseIf, freezeJsonMapping, hversion, htenant, haggregate, htype, hkey, hfinite]
  rfl

/-- The `lease_generation` an event carries, if it carries one. -/
def leaseGeneration? (e : EventEnvelope) : Option ℤ :=
  match e.payload.get? "lease_generation" with
  | some (.int n) => some n
  | _ => none

/-- Is it a `work.*` event? -/
def isWork (e : EventEnvelope) : Bool := e.eventType.isWork

end EventEnvelope

/-- The validated tenant every operation runs under. -/
structure TenantContext where
  tenantId : String
  valid : isIdentifier tenantId = true
  deriving DecidableEq, Repr

/-- The tenant of the samples. -/
theorem isIdentifier_acme : isIdentifier "acme" = true := by decide

end AegisPlatform
