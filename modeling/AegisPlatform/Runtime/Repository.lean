import AegisPlatform.EventStore.Append
import AegisPlatform.Runtime.Delivery

/-!
# The work repository

The operations of `PostgresWorkRepository`, as programs over the shared
database.  What an operation reads, it reads in a transaction before the one it
commits in, so everything it decides may rest on stale reads; each `SELECT` sees
what is committed when it starts.  `ids` are the values the repository's
`uuid_factory` returns, in order.

* `register`, `markPublished`, `claim`, `start`, `heartbeat`, `requestCancel`,
  `succeed`, `cancel`, `fail`, `release`, `cancelById` — the public operations
  that write.
* `verifyDelivery`, `loadRequest`, `appendLease` — their private helpers.
-/

namespace AegisPlatform

open Fallible Interleave

/-- The request a row of `work_items` was registered with. -/
def WorkItemRow.request (row : WorkItemRow) (tenantId : String) (workId : UUID) :
    Except Raised WorkRequest :=
  WorkRequestFields.make {
    workId := workId
    tenantId := tenantId
    workKind := row.workKind
    idempotencyKey := row.idempotencyKey
    requestedAt := row.requestedAt
    maxAttempts := row.maxAttempts
    timeoutSeconds := row.timeoutSeconds
    correlationId := row.correlationId
    causationId := row.causationId
    payload := row.requestPayload }

/-- `_load_request`. -/
def loadRequest (context : TenantContext) (workId : UUID) : Op WorkRequest := do
  let row ← Proc.query fun w => w.db.workItems.lookup (context.tenantId, workId)
  let row ← Proc.ofExcept (orRaise
    (.valueError "work request not found or lacks correlation metadata") row)
  Proc.ofExcept (row.request context.tenantId workId)

/-- The item and the outbox row a delivery names, joined as `_verify_delivery`
joins them. -/
def deliveryRows (w : World) (tenantId : String) (envelope : MessageEnvelope) :
    Option (WorkItemRow × OutboxRow) := do
  let item ← w.db.workItems.lookup (tenantId, envelope.workId)
  let row ← w.db.outbox.lookup (tenantId, envelope.messageId)
  match row.state with
  | .leased .. | .published _ => if row.isFor envelope.workId then some (item, row) else none
  | _ => none

/-- `_append_fenced`: read the head, then append one event under the lease. -/
def appendLease (context : TenantContext) (request : WorkRequest) (transition : WorkTransition)
    (lease : WorkLease) (eventId : UUID) (mutation : WorkMutation) : Op Reply := do
  let version ← currentVersion context request.workId
  let event ← Proc.ofExcept (transition.toEvent request eventId none)
  appendFenced context [event] version lease (.work mutation)

section

variable (py : PyText)

/-- `_verify_delivery`: bind untrusted transport data to the authoritative outbox
and work rows. -/
def verifyDelivery (context : TenantContext) (delivery : QueueDelivery) : Op WorkRequest := do
  let supplied ← Proc.ofExcept (requestFromDelivery py delivery)
  Proc.ofExcept (validateRequestContext context supplied)
  let envelope := delivery.envelope
  let rows ← Proc.query fun w => deliveryRows w context.tenantId envelope
  let (item, row) ← Proc.ofExcept (orRaise
    (.valueError "delivery has no authoritative published outbox row") rows)
  let authoritative ← Proc.ofExcept (item.request context.tenantId envelope.workId)
  Proc.ofExcept (raiseIf (¬ (supplied.pyEq authoritative ∧ row.destination = envelope.destination ∧
      row.eventId = envelope.eventId ∧
      JsonValue.pyEq (.obj row.payload) (.obj envelope.payload) ∧
      JsonValue.pyEq (.obj row.headers) (.obj envelope.headers)))
    (.valueError "delivery does not match authoritative work"))
  return authoritative

/-! ## Registration and publication -/

/-- The headers of a work message. -/
def workHeaders (request : WorkRequest) : Dict :=
  [("tenant_id", .str request.tenantId), ("schema_version", .int 1)]

/-- `register`. -/
def register (context : TenantContext) (request : WorkRequest)
    (requestedEventId outboxMessageId : UUID) : Op ℕ := do
  Proc.ofExcept (validateRequestContext context request)
  Proc.ofExcept (validateTransportSize py {
    messageId := outboxMessageId
    tenantId := request.tenantId
    workId := request.workId
    eventId := some requestedEventId
    destination := "aegis.work"
    correlationId := request.correlationId
    causationId := request.causationId
    occurredAt := request.requestedAt
    payload := requestPayload py request
    headers := workHeaders request
    valid := ⟨request.tenantId_ne, by decide⟩ })
  let event ← Proc.ofExcept (WorkTransition.toEvent {
      eventType := .workRequested
      occurredAt := request.requestedAt
      details := [("max_attempts", .int request.maxAttempts),
        ("timeout_seconds", .int request.timeoutSeconds),
        ("idempotency_key", .str request.idempotencyKey),
        ("request_payload", .obj request.payload)] }
    request requestedEventId request.causationId)
  let reply ← appendAtomic context [event] 0 (.work (.insertWork request requestedEventId)) [{
    messageId := outboxMessageId
    eventId := some requestedEventId
    destination := "aegis.work"
    availableAt := request.requestedAt
    maxAttempts := request.maxAttempts
    payload := requestPayload py request
    headers := workHeaders request }]
  return reply.version

/-- `mark_published`. -/
def markPublished (context : TenantContext) (delivery : QueueDelivery) (at' : Timestamp)
    (ids : ℕ → UUID) : Op Unit := do
  let request ← verifyDelivery py context delivery
  let version ← currentVersion context request.workId
  let event ← Proc.ofExcept (WorkTransition.toEvent
    { eventType := .workPublished, occurredAt := at' } request (ids 0) delivery.envelope.eventId)
  let _ ← appendFromInbox context "redis-stream:aegis:work:v1" delivery.envelope.messageId.str
    [event] version (.work (.markProjection request))

/-! ## Claims -/

/-- `claim`: CAS claim of one exact work item under the tenant's quota. -/
def claim (context : TenantContext) (delivery : QueueDelivery) (owner : String)
    (now expiresAt : Timestamp) (tenantConcurrencyLimit : ℤ) (ids : ℕ → UUID) :
    Op (Option WorkLease) := do
  Proc.ofExcept (raiseIf (owner = "" ∨ expiresAt ≤ now ∨ tenantConcurrencyLimit < 0)
    (.valueError "invalid work claim"))
  let leaseDuration := expiresAt - now
  Proc.ofExcept (raiseIf (¬ (seconds 5 ≤ leaseDuration ∧ leaseDuration ≤ seconds 3600))
    (.valueError "lease duration must be between 5 and 3600 seconds"))
  let request ← verifyDelivery py context delivery
  Proc.ofExcept (validateRequestContext context request)
  if tenantConcurrencyLimit = 0 then return none
  let token := ids 0
  let item ← Proc.query fun w => (w.db.workItems.lookup request.key).filter fun item =>
    (item.status = .published || item.status = .retryWait) && item.cancelRequestedAt = none
  match item with
  | none => return none
  | some item =>
    if item.maxAttempts ≤ item.attemptCount then return none
    let row ← Proc.query fun w => w.db.workLeases.lookup request.key
    let lease ← Proc.ofExcept (WorkLeaseFields.make {
      workId := request.workId
      tenantId := request.tenantId
      token := token
      generation := match row with
        | some row => row.generation + 1
        | none => 1
      owner := owner
      attempt := item.attemptCount + 1
      acquiredAt := now
      heartbeatAt := now
      expiresAt := expiresAt })
    let version ← currentVersion context request.workId
    let event ← Proc.ofExcept (WorkTransition.toEvent
      { eventType := .workClaimed, occurredAt := now, lease := some lease } request (ids 1) none)
    tryCatch (do
        let reply ← appendAtomic context [event] version
          (.work (.claimProjection request lease leaseDuration tenantConcurrencyLimit))
        let (acquiredAt, databaseExpiry) ← Proc.ofExcept (orRaise .indexError reply.times)
        let held ← Proc.ofExcept (WorkLeaseFields.make { lease.toWorkLeaseFields with
          acquiredAt := acquiredAt, heartbeatAt := acquiredAt, expiresAt := databaseExpiry })
        pure (some held))
      fun e => if e = .claimUnavailable ∨ e.isConcurrencyError then pure none else throw e

/-! ## The life of a lease -/

/-- `start`. -/
def start (context : TenantContext) (delivery : QueueDelivery) (lease : WorkLease)
    (at' : Timestamp) (ids : ℕ → UUID) : Op Unit := do
  let request ← Proc.ofExcept (requestFromDelivery py delivery)
  let _ ← appendLease context request
    { eventType := .workStarted, occurredAt := at', lease := some lease } lease (ids 0)
    (.markStarted request lease)

/-- `heartbeat`. -/
def heartbeat (context : TenantContext) (delivery : QueueDelivery) (lease : WorkLease)
    (at' expiresAt : Timestamp) (ids : ℕ → UUID) : Op WorkLease := do
  Proc.ofExcept (raiseIf (expiresAt ≤ at') (.valueError "heartbeat expiry must be in the future"))
  let extension := expiresAt - at'
  Proc.ofExcept (raiseIf (¬ (seconds 5 ≤ extension ∧ extension ≤ seconds 3600))
    (.valueError "heartbeat extension must be between 5 and 3600 seconds"))
  let renewed ← Proc.ofExcept (WorkLeaseFields.make { lease.toWorkLeaseFields with
    heartbeatAt := at', expiresAt := expiresAt })
  let request ← Proc.ofExcept (requestFromDelivery py delivery)
  let reply ← appendLease context request
    { eventType := .workHeartbeat, occurredAt := at', lease := some renewed } renewed (ids 0)
    (.renewLease lease extension)
  let (heartbeatAt, databaseExpiry) ← Proc.ofExcept (orRaise .indexError reply.times)
  Proc.ofExcept (WorkLeaseFields.make { renewed.toWorkLeaseFields with
    heartbeatAt := heartbeatAt, expiresAt := databaseExpiry })

/-- `succeed`. -/
def succeed (context : TenantContext) (delivery : QueueDelivery) (lease : WorkLease)
    (at' : Timestamp) (resultReference : String) (ids : ℕ → UUID) : Op Unit := do
  let request ← Proc.ofExcept (requestFromDelivery py delivery)
  let _ ← appendLease context request
    { eventType := .workSucceeded
      occurredAt := at'
      details := [("result_reference", .str resultReference)]
      lease := some lease } lease (ids 0) (.succeed lease at')

/-- `cancel`. -/
def cancel (context : TenantContext) (delivery : QueueDelivery) (lease : WorkLease)
    (at' : Timestamp) (ids : ℕ → UUID) : Op Unit := do
  let request ← Proc.ofExcept (requestFromDelivery py delivery)
  let _ ← appendLease context request
    { eventType := .workCancelled, occurredAt := at', lease := some lease } lease (ids 0)
    (.cancel lease at')

/-- When a failure is retried: the class allows it, a time was given, and the
lease was not the last attempt. -/
def retryTime (failureClass : FailureClass) (retryAt : Option Timestamp) (attempt : ℤ)
    (maxAttempts : ℤ) : Option Timestamp :=
  if (failureClass = .retryable ∨ failureClass = .timeout) ∧ attempt < maxAttempts then retryAt
  else none

/-- `fail`: record a failure and tell whether the work became terminal. -/
def fail (context : TenantContext) (delivery : QueueDelivery) (lease : WorkLease)
    (at' : Timestamp) (failureClass : FailureClass) (errorCode : String)
    (retryAt : Option Timestamp) (ids : ℕ → UUID) : Op Bool := do
  Proc.ofExcept (validateErrorCode errorCode)
  let request ← Proc.ofExcept (requestFromDelivery py delivery)
  let failed ← Proc.ofExcept (WorkTransition.toEvent {
      eventType := .workFailed
      occurredAt := at'
      details := [("failure_class", .str failureClass.value), ("error_code", .str errorCode)]
      lease := some lease }
    request (ids 0) none)
  match retryTime failureClass retryAt lease.attempt request.maxAttempts with
  | none => do
    let second ← Proc.ofExcept (WorkTransition.toEvent {
        eventType := .workDeadLettered
        occurredAt := at'
        details := [("reason_code", .str errorCode)]
        lease := some lease }
      request (ids 1) (some failed.eventId))
    let version ← currentVersion context request.workId
    let _ ← appendFenced context [failed, second] version lease
      (.work (.deadLetter lease at' errorCode))
    return true
  | some retryAt => do
    let second ← Proc.ofExcept (WorkTransition.toEvent {
        eventType := .workRetryScheduled
        occurredAt := at'
        details := [("retry_at", .str (py.isoformat retryAt))]
        lease := some lease }
      request (ids 1) (some failed.eventId))
    let version ← currentVersion context request.workId
    let _ ← appendFenced context [failed, second] version lease
      (.work (.retry lease at' retryAt)) [{
        messageId := ids 2
        eventId := some second.eventId
        destination := "aegis.work"
        availableAt := retryAt
        maxAttempts := request.maxAttempts
        payload := requestPayload py request
        headers := [("tenant_id", .str request.tenantId)] }]
    return false

/-- `release`. -/
def release (context : TenantContext) (lease : WorkLease) (at' : Timestamp) (reason : String)
    (retryAt : Timestamp) (ids : ℕ → UUID) : Op Unit := do
  Proc.ofExcept (raiseIf (reason = "" ∨ 128 < reason.length)
    (.valueError "bounded release reason is required"))
  let request ← loadRequest context lease.workId
  let _ ← appendLease context request
    { eventType := .workRetryScheduled
      occurredAt := at'
      details := [("retry_at", .str (py.isoformat retryAt)), ("reason_code", .str reason)]
      lease := some lease } lease (ids 0) (.releaseProjection lease at' reason retryAt)

end

/-! ## Cancellation -/

/-- `request_cancel`. -/
def requestCancel (context : TenantContext) (request : WorkRequest) (at' : Timestamp)
    (actorId : Option String) (ids : ℕ → UUID) : Op Unit := do
  let status ← Proc.query fun w => (w.db.workItems.lookup request.key).map (·.status)
  let status ← Proc.ofExcept (orRaise (.valueError "work request not found") status)
  Proc.ofExcept (raiseIf status.isTerminal (.concurrencyError 1 0))
  let requested ← Proc.ofExcept (WorkTransition.toEvent {
      eventType := .workCancelRequested
      occurredAt := at'
      details := match actorId with
        | some actorId => [("requested_by", .str actorId)]
        | none => [] }
    request (ids 0) none)
  let events ← if status.isQueued then do
      let cancelled ← Proc.ofExcept (WorkTransition.toEvent
        { eventType := .workCancelled, occurredAt := at' } request (ids 1) (some requested.eventId))
      pure [requested, cancelled]
    else pure [requested]
  let version ← currentVersion context request.workId
  let _ ← appendAtomic context events version (.work (.cancelProjection request status at'))

/-- `cancel_by_id`. -/
def cancelById (context : TenantContext) (workId : UUID) (at' : Timestamp) (actorId : String)
    (ids : ℕ → UUID) : Op Unit := do
  Proc.ofExcept (raiseIf (actorId = "") (.valueError "actor_id is required"))
  let request ← loadRequest context workId
  requestCancel context request at' (some actorId) ids

end AegisPlatform
