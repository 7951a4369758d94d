import AegisPlatform.Domain.Events

/-!
# Work requests, leases and the work state machine

* `WorkRequest`, `WorkLease` — immutable records that carry the check of their
  own constructor, so an ill-formed one cannot be built.
* `WorkTransition.toEvent` — the event a transition is recorded as, and
  `toEvent_spec`, what is known of it: the stream, the event type and the lease
  generation it carries.
* `nextStatus`, `replay` — the deterministic state machine and its fold over a
  stream, `model.*` events skipped.  `replay_append` is how a batch is replayed.
-/

namespace AegisPlatform

open Fallible

/-! ## Lifecycle states -/

/-- Authoritative lifecycle states reconstructed from work events. -/
inductive WorkStatus where
  | requested
  | published
  | claimed
  | running
  | retryWait
  | succeeded
  | failed
  | cancelled
  | deadLetter
  deriving DecidableEq, Repr

namespace WorkStatus

/-- The stored name of a status. -/
def value : WorkStatus → String
  | requested => "requested"
  | published => "published"
  | claimed => "claimed"
  | running => "running"
  | retryWait => "retry_wait"
  | succeeded => "succeeded"
  | failed => "failed"
  | cancelled => "cancelled"
  | deadLetter => "dead_letter"

/-- `TERMINAL_WORK_STATUSES`. -/
def isTerminal : WorkStatus → Bool
  | succeeded | failed | cancelled | deadLetter => true
  | _ => false

/-- The statuses in which an item waits for a worker. -/
def isQueued : WorkStatus → Bool
  | requested | published | retryWait => true
  | _ => false

/-- The statuses in which a worker holds an item: `IN ('claimed', 'running')`. -/
def isActive : WorkStatus → Bool
  | claimed | running => true
  | _ => false

end WorkStatus

/-- Stable retry policy classification. -/
inductive FailureClass where
  | retryable
  | permanent
  | cancelled
  | timeout
  | workerBug
  deriving DecidableEq, Repr

/-- The stored name of a failure class. -/
def FailureClass.value : FailureClass → String
  | retryable => "retryable"
  | permanent => "permanent"
  | cancelled => "cancelled"
  | timeout => "timeout"
  | workerBug => "worker_bug"

/-! ## Requests and leases -/

/-- The fields of a `WorkRequest`. -/
structure WorkRequestFields where
  workId : UUID
  tenantId : String
  workKind : String
  idempotencyKey : String
  correlationId : UUID
  requestedAt : Timestamp
  payload : Dict
  causationId : Option UUID := none
  maxAttempts : ℤ := 5
  timeoutSeconds : ℤ := 300
  schemaVersion : ℤ := 1

/-- `WorkRequest.__post_init__`. -/
def WorkRequestFields.check (r : WorkRequestFields) : Except Raised Unit := do
  raiseIf (r.tenantId = "" ∨ r.workKind = "" ∨ r.idempotencyKey = "")
    (.valueError "tenant, work kind, and idempotency key are required")
  raiseIf (¬ (1 ≤ r.maxAttempts ∧ r.maxAttempts ≤ 100))
    (.valueError "max_attempts must be between 1 and 100")
  raiseIf (¬ (1 ≤ r.timeoutSeconds ∧ r.timeoutSeconds ≤ 86400))
    (.valueError "timeout_seconds must be between 1 and 86400")
  raiseIf (r.schemaVersion < 1) (.valueError "schema_version must be positive")
  freezeJsonMapping r.payload

/-- Immutable tenant-bound unit of provider-neutral work. -/
structure WorkRequest extends WorkRequestFields where
  valid : toWorkRequestFields.check = .ok ()

/-- Run the constructor of a record: its fields, if they pass its check. -/
def WorkRequestFields.make (r : WorkRequestFields) : Except Raised WorkRequest :=
  match h : r.check with
  | .ok () => .ok ⟨r, h⟩
  | .error e => .error e

/-- `a == b` on requests. -/
def WorkRequest.pyEq (a b : WorkRequest) : Bool :=
  a.workId = b.workId && a.tenantId = b.tenantId && a.workKind = b.workKind &&
  a.idempotencyKey = b.idempotencyKey && a.correlationId = b.correlationId &&
  a.requestedAt = b.requestedAt && JsonValue.pyEq (.obj a.payload) (.obj b.payload) &&
  a.causationId = b.causationId && a.maxAttempts = b.maxAttempts &&
  a.timeoutSeconds = b.timeoutSeconds && a.schemaVersion = b.schemaVersion

/-- The fields of a `WorkLease`. -/
structure WorkLeaseFields where
  workId : UUID
  tenantId : String
  token : UUID
  generation : ℤ
  owner : String
  attempt : ℤ
  acquiredAt : Timestamp
  heartbeatAt : Timestamp
  expiresAt : Timestamp
  deriving DecidableEq, Repr

/-- `WorkLease.__post_init__`. -/
def WorkLeaseFields.check (l : WorkLeaseFields) : Except Raised Unit := do
  raiseIf (l.tenantId = "" ∨ l.owner = "") (.valueError "lease tenant and owner are required")
  raiseIf (l.generation < 1 ∨ l.attempt < 1)
    (.valueError "lease generation and attempt must be positive")
  raiseIf (l.expiresAt ≤ l.heartbeatAt) (.valueError "lease expiry must follow heartbeat")

/-- Renewable lease whose generation is a fencing token. -/
structure WorkLease extends WorkLeaseFields where
  valid : toWorkLeaseFields.check = .ok ()

/-- Run the constructor of a lease. -/
def WorkLeaseFields.make (l : WorkLeaseFields) : Except Raised WorkLease :=
  match h : l.check with
  | .ok () => .ok ⟨l, h⟩
  | .error e => .error e

/-- Which work item of which tenant: the key of the work tables. -/
abbrev WorkKey := String × UUID

/-- The item a request is about. -/
def WorkRequest.key (r : WorkRequest) : WorkKey := (r.tenantId, r.workId)

/-- The item a lease is on. -/
def WorkLease.key (l : WorkLease) : WorkKey := (l.tenantId, l.workId)

theorem WorkRequestFields.make_eq {r : WorkRequestFields} {request : WorkRequest}
    (h : r.make = .ok request) : request.toWorkRequestFields = r := by
  unfold make at h
  split at h
  · cases h; rfl
  · cases h

theorem WorkLeaseFields.make_eq {l : WorkLeaseFields} {lease : WorkLease}
    (h : l.make = .ok lease) : lease.toWorkLeaseFields = l := by
  unfold make at h
  split at h
  · cases h; rfl
  · cases h

theorem WorkRequest.one_le_maxAttempts (r : WorkRequest) : 1 ≤ r.maxAttempts := by
  have h := r.valid
  simp only [WorkRequestFields.check, bind_eq_ok, raiseIf_eq_ok] at h
  obtain ⟨-, -, -, hmax, -⟩ := h
  omega

theorem WorkRequest.tenantId_ne (r : WorkRequest) : r.tenantId ≠ "" := by
  have h := r.valid
  simp only [WorkRequestFields.check, bind_eq_ok, raiseIf_eq_ok] at h
  obtain ⟨-, hempty, -⟩ := h
  exact fun h => hempty (Or.inl h)

theorem WorkLease.one_le_generation (l : WorkLease) : 1 ≤ l.generation := by
  have h := l.valid
  simp only [WorkLeaseFields.check, bind_eq_ok, raiseIf_eq_ok] at h
  obtain ⟨-, -, -, hpos, -⟩ := h
  omega

/-! ## Transitions -/

/-- Data required to append one additive work lifecycle event. -/
structure WorkTransition where
  eventType : DomainEventType
  occurredAt : Timestamp
  details : Dict := []
  lease : Option WorkLease := none
  isWork : eventType.isWork = true := by rfl

namespace WorkTransition

/-- The payload of the event: the details, then the routing fields, then the
fence of the lease. -/
def payload (t : WorkTransition) (request : WorkRequest) : Dict :=
  let routed := ((t.details).set "work_id" (.str request.workId.str)).set "work_kind"
    (.str request.workKind)
  match t.lease with
  | none => routed
  | some lease => ((routed.set "lease_token" (.str lease.token.str)).set "lease_generation"
      (.int lease.generation)).set "attempt" (.int lease.attempt)

/-- The transition as an immutable event, without generating values. -/
def toEvent (t : WorkTransition) (request : WorkRequest) (eventId : UUID)
    (causationId : Option UUID) : Except Raised EventEnvelope := do
  raiseIf (t.lease.any fun lease =>
      lease.workId ≠ request.workId ∨ lease.tenantId ≠ request.tenantId)
    (.valueError "lease does not belong to work request")
  EventEnvelope.make {
    eventId := eventId
    tenantId := request.tenantId
    aggregateId := request.workId.str
    eventType := t.eventType
    occurredAt := t.occurredAt
    payload := t.payload request
    correlationId := some request.correlationId
    causationId := causationId <|> request.causationId
    idempotencyKey := some (request.idempotencyKey ++ ":" ++ t.eventType.value ++ ":" ++
      eventId.str) }

end WorkTransition

/-- An event of type `eventType` for the item `key`, under the lease generation
`generation` if under any. -/
structure EventEnvelope.IsFor (e : EventEnvelope) (key : WorkKey) (eventType : DomainEventType)
    (generation : Option ℤ) : Prop where
  tenantId : e.tenantId = key.1
  aggregateId : e.aggregateId = key.2.str
  eventType : e.eventType = eventType
  generation : e.leaseGeneration? = generation

namespace WorkTransition

theorem generation_payload (t : WorkTransition) (request : WorkRequest)
    (h : t.details.get? "lease_generation" = none) :
    (match (t.payload request).get? "lease_generation" with
      | some (.int n) => some n
      | _ => none) = t.lease.map (·.generation) := by
  unfold payload
  cases t.lease with
  | none =>
    simp only [Option.map_none]
    rw [Dict.get?_set_ne (by decide), Dict.get?_set_ne (by decide), h]
  | some lease =>
    simp only [Option.map_some]
    rw [Dict.get?_set_ne (by decide), Dict.get?_set_self]

/-- What `toEvent` yields: an event of the transition's type for the request's
item, under the lease's generation, and the lease is on that item. -/
theorem toEvent_spec {t : WorkTransition} {request : WorkRequest} {eventId : UUID}
    {causationId : Option UUID} {e : EventEnvelope}
    (h : t.toEvent request eventId causationId = .ok e)
    (hd : t.details.get? "lease_generation" = none) :
    e.IsFor request.key t.eventType (t.lease.map (·.generation)) ∧
      ∀ lease ∈ t.lease, lease.key = request.key := by
  simp only [toEvent, bind_eq_ok, raiseIf_eq_ok] at h
  obtain ⟨-, hlease, h⟩ := h
  have he := EventEnvelope.make_eq h
  subst he
  refine ⟨⟨rfl, rfl, rfl, t.generation_payload request hd⟩, fun lease hl => ?_⟩
  rw [Option.mem_def] at hl
  simp only [hl, Option.any_some, decide_eq_true_eq, not_or, not_not] at hlease
  exact Prod.ext hlease.2 hlease.1

theorem payload_toEvent {t : WorkTransition} {request : WorkRequest} {eventId : UUID}
    {causationId : Option UUID} {e : EventEnvelope}
    (h : t.toEvent request eventId causationId = .ok e) : e.payload = t.payload request := by
  simp only [toEvent, bind_eq_ok] at h
  obtain ⟨-, -, h⟩ := h
  rw [EventEnvelope.make_eq h]

end WorkTransition

/-! ## The state machine -/

/-- `next_status`: apply the deterministic work state machine or reject an
invalid edge. -/
def nextStatus (current : Option WorkStatus) (eventType : DomainEventType) :
    Except Raised WorkStatus :=
  let invalid := Except.error (.valueError (eventType.value ++ " is invalid from " ++
    (match current with
      | some status => status.value
      | none => "None")))
  match eventType, current with
  | .workHeartbeat, some status =>
    if status.isActive then .ok status else invalid
  | .workCancelRequested, some status | .workReconciled, some status =>
    if status.isTerminal then invalid else .ok status
  | .workRequested, none => .ok .requested
  | .workPublished, some .requested => .ok .published
  | .workPublished, some .retryWait => .ok .published
  | .workClaimed, some .published => .ok .claimed
  | .workClaimed, some .retryWait => .ok .claimed
  | .workStarted, some .claimed => .ok .running
  | .workLeaseExpired, some .claimed => .ok .retryWait
  | .workLeaseExpired, some .running => .ok .retryWait
  | .workSucceeded, some .running => .ok .succeeded
  | .workFailed, some .running => .ok .failed
  | .workRetryScheduled, some .failed => .ok .retryWait
  | .workDeadLettered, some .failed => .ok .deadLetter
  | .workRetryScheduled, some .running => .ok .retryWait
  | .workRetryScheduled, some .claimed => .ok .retryWait
  | .workRetryScheduled, some .deadLetter => .ok .retryWait
  | .workCancelled, some .requested => .ok .cancelled
  | .workCancelled, some .published => .ok .cancelled
  | .workCancelled, some .claimed => .ok .cancelled
  | .workCancelled, some .running => .ok .cancelled
  | .workCancelled, some .retryWait => .ok .cancelled
  | .workDeadLettered, some .running => .ok .deadLetter
  | .workDeadLettered, some .retryWait => .ok .deadLetter
  | _, _ => invalid

/-- Fold `nextStatus` over the `work.*` types of a list of event types. -/
def replayTypes (current : Option WorkStatus) :
    List DomainEventType → Except Raised (Option WorkStatus)
  | [] => .ok current
  | ty :: rest =>
    if ty.isWork then do
      let status ← nextStatus current ty
      replayTypes (some status) rest
    else replayTypes current rest

/-- Fold `nextStatus` over the `work.*` events of a stream. -/
def replay (current : Option WorkStatus) (events : List EventEnvelope) :
    Except Raised (Option WorkStatus) := replayTypes current (events.map (·.eventType))

theorem replayTypes_append (current : Option WorkStatus) (xs ys : List DomainEventType) :
    replayTypes current (xs ++ ys) =
      (replayTypes current xs >>= fun status => replayTypes status ys) := by
  induction xs generalizing current with
  | nil => rfl
  | cons ty xs ih =>
    rw [List.cons_append, replayTypes, replayTypes]
    by_cases hty : ty.isWork
    · rw [if_pos hty, if_pos hty, bind_assoc]
      exact bind_congr fun status => ih (some status)
    · rw [if_neg hty, if_neg hty, ih]

theorem replay_append (current : Option WorkStatus) (xs ys : List EventEnvelope) :
    replay current (xs ++ ys) = (replay current xs >>= fun status => replay status ys) := by
  unfold replay
  rw [List.map_append, replayTypes_append]

/-- Events of other kinds do not move the state machine. -/
theorem replay_of_not_isWork {current : Option WorkStatus} {events : List EventEnvelope}
    (h : ∀ e ∈ events, e.isWork = false) : replay current events = .ok current := by
  unfold replay
  induction events with
  | nil => rfl
  | cons e rest ih =>
    have he : e.eventType.isWork = false := h e (List.mem_cons_self ..)
    rw [List.map_cons, replayTypes, he]
    exact ih fun e' he' => h e' (List.mem_cons_of_mem _ he')

end AegisPlatform
