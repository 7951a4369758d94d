import AegisPlatform.EventStore.Database

/-!
# The work projection

Every operation of the work repository appends its events together with one
mutation of the projection tables.  The mutations are translated statement by
statement from the functions the operations pass to the ledger; `now` is the
database's `clock_timestamp()`, `at` the time the caller supplied.

* `updateItem`, `endLease` — the two statements most of them are made of, an
  `UPDATE work_items` and the `UPDATE work_leases … released_at`, each with its
  row count checked.
* `WorkMutation` — the mutations by name, with the values their closures
  capture; `WorkMutation.run` is what they do.  A mutation that raises has the
  transaction rolled back.
-/

namespace AegisPlatform

open Fallible

/-- Explicit approval evidence required for a requeue from the dead letters. -/
structure RequeueApproval where
  approvalId : UUID
  approvedBy : String
  approvedAt : Timestamp
  scope : String
  valid : approvedBy ≠ "" ∧ scope = "dlq:requeue"

/-- Is the row this lease: the same token and generation, and not released? -/
def WorkLeaseRow.holds (row : WorkLeaseRow) (token : UUID) (generation : ℤ) : Bool :=
  row.token = token && row.generation = generation && row.released = none

/-- What a constraint violation is reported as. -/
def permanentStorageFailure : Raised :=
  .permanentStorageError "permanent PostgreSQL storage failure"

namespace Database

/-! ## Statements -/

/-- `UPDATE work_items … WHERE tenant_id, work_id AND p`; a row count other than
one raises. -/
def updateItem (key : WorkKey) (e : Raised) (p : WorkItemRow → Bool)
    (f : WorkItemRow → WorkItemRow) (db : Database) : Except Raised Database := do
  let items ← orRaise e (db.workItems.updateWhere key p f)
  return { db with workItems := items }

/-- `UPDATE work_leases SET released_at, release_reason` of the lease's own row,
under a further condition; a row count other than one raises. -/
def endLease (lease : WorkLease) (at' : Timestamp) (reason : String) (p : WorkLeaseRow → Bool)
    (db : Database) : Except Raised Database := do
  let leases ← orRaise (.fencingError lease.generation 0)
    (db.workLeases.updateWhere lease.key
      (fun row => row.holds lease.token lease.generation && p row)
      (fun row => { row with released := some (at', reason) }))
  return { db with workLeases := leases }

/-- `INSERT INTO work_dead_letters … ON CONFLICT DO UPDATE`. -/
def recordDeadLetter (lease : WorkLease) (at' : Timestamp) (reason : String) (db : Database) :
    Database :=
  let row : DeadLetterRow := match db.deadLetters.lookup lease.key with
    | some row => { row with deadLetteredAt := at', reasonCode := reason, attempts := lease.attempt }
    | none => { deadLetteredAt := at', reasonCode := reason, attempts := lease.attempt }
  { db with deadLetters := db.deadLetters.upsert lease.key row }

/-! ## Requests, publication and claims -/

/-- `insert_work`. -/
def insertWork (request : WorkRequest) (requestedEventId : UUID) (db : Database) :
    Except Raised Database := do
  -- UNIQUE (tenant_id, idempotency_key)
  raiseIf (db.workItems.rows.any fun row =>
      row.1.1 = request.tenantId && row.2.idempotencyKey = request.idempotencyKey)
    permanentStorageFailure
  let items ← orRaise permanentStorageFailure
    (db.workItems.insertNew request.key {
      workKind := request.workKind
      idempotencyKey := request.idempotencyKey
      status := .requested
      requestedAt := request.requestedAt
      availableAt := request.requestedAt
      maxAttempts := request.maxAttempts
      timeoutSeconds := request.timeoutSeconds
      requestEventId := requestedEventId
      correlationId := request.correlationId
      causationId := request.causationId
      requestPayload := request.payload })
  return { db with workItems := items }

/-- `mark_projection`. -/
def markProjection (request : WorkRequest) (db : Database) : Except Raised Database :=
  db.updateItem request.key (.concurrencyError 1 0)
    (fun item => item.status = .requested || item.status = .retryWait)
    (fun item => { item with status := .published })

/-- The number of a tenant's items that a worker holds. -/
def activeCount (db : Database) (tenantId : String) : ℕ :=
  db.workItems.rows.countP fun row => row.1.1 = tenantId && row.2.status.isActive

/-- `INSERT INTO work_leases … ON CONFLICT (tenant_id, work_id) DO UPDATE … WHERE
work_leases.generation = generation - 1`, acquired at the database's time. -/
def acquireLease (key : WorkKey) (lease : WorkLease) (leaseDuration : ℤ) (now : Timestamp)
    (db : Database) : Except Raised Database := do
  raiseIf ((db.workLeases.lookup key).any fun row => row.generation ≠ lease.generation - 1)
    .claimUnavailable
  -- UNIQUE (tenant_id, lease_token)
  raiseIf (db.workLeases.rows.any fun row =>
      row.1.1 = key.1 && row.1 ≠ key && row.2.token = lease.token)
    permanentStorageFailure
  return { db with workLeases := db.workLeases.upsert key {
    token := lease.token
    generation := lease.generation
    owner := lease.owner
    acquiredAt := now
    heartbeatAt := now
    expiresAt := now + leaseDuration } }

/-- `claim_projection`. -/
def claimProjection (request : WorkRequest) (lease : WorkLease) (leaseDuration : ℤ)
    (tenantConcurrencyLimit : ℤ) (now : Timestamp) (db : Database) : Except Raised Database := do
  raiseIf (tenantConcurrencyLimit ≤ db.activeCount request.tenantId) .claimUnavailable
  let db ← db.updateItem request.key .claimUnavailable
    (fun item => item.attemptCount = lease.attempt - 1 &&
      (item.status = .published || item.status = .retryWait) && item.availableAt ≤ now &&
      item.cancelRequestedAt = none)
    (fun item => { item with status := .claimed, attemptCount := lease.attempt })
  db.acquireLease request.key lease leaseDuration now

/-! ## The life of a lease -/

/-- `mark_started`. -/
def markStarted (request : WorkRequest) (lease : WorkLease) (db : Database) :
    Except Raised Database :=
  db.updateItem request.key (.fencingError lease.generation 0)
    (fun item => item.status = .claimed) (fun item => { item with status := .running })

/-- `renew_lease`. -/
def renewLease (lease : WorkLease) (extension : ℤ) (now : Timestamp) (db : Database) :
    Except Raised Database := do
  let leases ← orRaise (.fencingError lease.generation 0)
    (db.workLeases.updateWhere lease.key
      (fun row => row.holds lease.token lease.generation && row.owner = lease.owner &&
        now < row.expiresAt)
      (fun row => { row with heartbeatAt := now, expiresAt := now + extension }))
  return { db with workLeases := leases }

/-- `cancel_projection`: a queued item is cancelled at once, a held one is marked. -/
def cancelProjection (request : WorkRequest) (status : WorkStatus) (at' : Timestamp)
    (db : Database) : Except Raised Database :=
  db.updateItem request.key (.concurrencyError 1 0)
    (fun item => item.status = status)
    (fun item => { item with
      cancelRequestedAt := item.cancelRequestedAt <|> some at'
      status := if status.isQueued then .cancelled else item.status
      completedAt := if status.isQueued then some at' else item.completedAt })

/-- `_complete_in_transaction`. -/
def completeInTransaction (lease : WorkLease) (at' : Timestamp) (status : WorkStatus)
    (reason : String) (db : Database) : Except Raised Database := do
  let db ← db.endLease lease at' reason (fun _ => true)
  db.updateItem lease.key (.fencingError lease.generation 0)
    (fun item => item.status.isActive && item.cancelRequestedAt = none)
    (fun item => { item with status := status, completedAt := some at' })

/-- `_release_in_transaction`. -/
def releaseInTransaction (lease : WorkLease) (at' : Timestamp) (reason : String)
    (retryAt : Timestamp) (runningOnly : Bool) (db : Database) : Except Raised Database := do
  let db ← db.endLease lease at' reason (fun _ => true)
  db.updateItem lease.key (.fencingError lease.generation 0)
    (fun item => (if runningOnly then item.status = .running else item.status.isActive) &&
      item.cancelRequestedAt = none)
    (fun item => { item with status := .retryWait, availableAt := retryAt })

/-- `_cancel_in_transaction`. -/
def cancelInTransaction (lease : WorkLease) (at' : Timestamp) (db : Database) :
    Except Raised Database := do
  let db ← db.endLease lease at' "cancelled" (fun _ => true)
  db.updateItem lease.key (.fencingError lease.generation 0)
    (fun item => item.status.isActive && item.cancelRequestedAt ≠ none)
    (fun item => { item with status := .cancelled, completedAt := some at' })

/-- `_dead_letter_in_transaction`. -/
def deadLetterInTransaction (lease : WorkLease) (at' : Timestamp) (reason : String)
    (db : Database) : Except Raised Database := do
  let db ← db.completeInTransaction lease at' .deadLetter "dead_letter"
  let items := db.workItems.modify lease.key
    (fun item => { item with lastErrorCode := some reason })
  return { db with workItems := items }.recordDeadLetter lease at' reason

/-- `_dead_letter_expired_in_transaction`. -/
def deadLetterExpiredInTransaction (lease : WorkLease) (at' : Timestamp) (reason : String)
    (now : Timestamp) (db : Database) : Except Raised Database := do
  let db ← db.endLease lease at' "dead_letter" (fun row => row.expiresAt ≤ now)
  let db ← db.updateItem lease.key (.fencingError lease.generation 0)
    (fun item => item.status.isActive)
    (fun item => { item with
      status := .deadLetter, completedAt := some at', lastErrorCode := some reason })
  return db.recordDeadLetter lease at' reason

/-! ## Reconciliation -/

/-- Five minutes. -/
def redriveAge : ℤ := seconds 300

/-- Is there a published message for the item that is newer than `(publishedAt,
messageId)`? -/
def hasNewerPublished (db : Database) (key : WorkKey) (publishedAt : Timestamp)
    (messageId : UUID) : Bool :=
  db.outbox.rows.any fun row => row.1.1 = key.1 && row.2.isFor key.2 &&
    match row.2.state with
    | .published p => publishedAt < p || (p = publishedAt && messageId.int < row.1.2.int)
    | _ => false

/-- May the message be sent again: it is the item's latest published message, it
is old enough, and the item is queued and unleased. -/
def redrivable (db : Database) (key : WorkKey) (messageId : UUID) (now : Timestamp)
    (row : OutboxRow) : Bool :=
  (match row.state with
    | .published p => p ≤ now - redriveAge && !db.hasNewerPublished key p messageId
    | _ => false) &&
  (db.workItems.lookup key).any (·.status.isQueued) &&
  !(db.workLeases.lookup key).any (·.released = none)

/-- `redrive_projection`. -/
def redriveProjection (tenantId : String) (messageId workId : UUID) (now : Timestamp)
    (db : Database) : Except Raised Database := do
  let outbox ← orRaise (.concurrencyError 1 0)
    (db.outbox.updateWhere (tenantId, messageId) (db.redrivable (tenantId, workId) messageId now)
      (fun row => { row with
        state := .pending, availableAt := now, attemptCount := 0, lastErrorCode := none }))
  return { db with outbox := outbox }

/-- `expire_projection`. -/
def expireProjection (lease : WorkLease) (cancelRequestedAt : Option Timestamp) (exhausted : Bool)
    (at' : Timestamp) (now : Timestamp) (db : Database) : Except Raised Database := do
  let cancelled := cancelRequestedAt.isSome
  -- cancel_requested_at IS NOT DISTINCT FROM the value the decision was made on
  raiseIf (!(db.workItems.lookup lease.key).any (·.cancelRequestedAt = cancelRequestedAt))
    (.concurrencyError 1 0)
  if exhausted && !cancelled then
    db.deadLetterExpiredInTransaction lease at' "lease_expired_after_max_attempts" now
  else do
    let db ← db.endLease lease at' "lease_expired" (fun row => row.expiresAt ≤ now)
    db.updateItem lease.key (.fencingError lease.generation 0)
      (fun item => item.status.isActive)
      (fun item => { item with
        status := if cancelled then .cancelled else .retryWait
        availableAt := at'
        completedAt := if cancelled then some at' else none })

/-- `requeue_projection`. -/
def requeueProjection (tenantId : String) (workId : UUID) (approval : RequeueApproval)
    (at' : Timestamp) (actorId : String) (now : Timestamp) (db : Database) :
    Except Raised Database := do
  raiseIf (!(db.approvals.lookup (tenantId, approval.approvalId)).any fun row =>
      row.workId = workId && row.approvedBy = approval.approvedBy &&
      row.approvedAt = approval.approvedAt && row.consumed = none && now < row.expiresAt &&
      row.approvedBy ≠ actorId)
    (.concurrencyError 1 0)
  let db ← db.updateItem (tenantId, workId) (.concurrencyError 1 0)
    (fun item => item.status = .deadLetter)
    (fun item => { item with
      status := .retryWait, availableAt := at', attemptCount := 0, completedAt := none
      lastErrorCode := none, cancelRequestedAt := none })
  return { db with
    approvals := db.approvals.modify (tenantId, approval.approvalId)
      (fun row => { row with consumed := some (now, actorId) })
    deadLetters := db.deadLetters.modify (tenantId, workId)
      (fun row => { row with
        requeueCount := row.requeueCount + 1, lastRequeuedAt := some at' }) }

end Database

/-! ## Mutations by name -/

/-- The mutations the work repository passes to the ledger. -/
inductive WorkMutation where
  | insertWork (request : WorkRequest) (requestedEventId : UUID)
  | markProjection (request : WorkRequest)
  | claimProjection (request : WorkRequest) (lease : WorkLease) (leaseDuration : ℤ)
      (tenantConcurrencyLimit : ℤ)
  | markStarted (request : WorkRequest) (lease : WorkLease)
  | renewLease (lease : WorkLease) (extension : ℤ)
  | cancelProjection (request : WorkRequest) (status : WorkStatus) (at' : Timestamp)
  /-- `complete` of `succeed`. -/
  | succeed (lease : WorkLease) (at' : Timestamp)
  /-- `complete` of `cancel`. -/
  | cancel (lease : WorkLease) (at' : Timestamp)
  /-- `update_projection` of a terminal `fail`. -/
  | deadLetter (lease : WorkLease) (at' : Timestamp) (errorCode : String)
  /-- `update_projection` of a `fail` that is retried. -/
  | retry (lease : WorkLease) (at' : Timestamp) (retryAt : Timestamp)
  | releaseProjection (lease : WorkLease) (at' : Timestamp) (reason : String)
      (retryAt : Timestamp)
  | redriveProjection (tenantId : String) (messageId workId : UUID)
  | expireProjection (lease : WorkLease) (cancelRequestedAt : Option Timestamp) (exhausted : Bool)
      (at' : Timestamp)
  | requeueProjection (tenantId : String) (workId : UUID) (approval : RequeueApproval)
      (at' : Timestamp) (actorId : String)

namespace WorkMutation

/-- Run a mutation at the database's time. -/
def run (now : Timestamp) (db : Database) : WorkMutation → Except Raised Database
  | insertWork request id => db.insertWork request id
  | markProjection request => db.markProjection request
  | claimProjection request lease duration limit => db.claimProjection request lease duration limit now
  | markStarted request lease => db.markStarted request lease
  | renewLease lease extension => db.renewLease lease extension now
  | cancelProjection request status at' => db.cancelProjection request status at'
  | succeed lease at' => db.completeInTransaction lease at' .succeeded "succeeded"
  | cancel lease at' => db.cancelInTransaction lease at'
  | deadLetter lease at' errorCode => db.deadLetterInTransaction lease at' errorCode
  | retry lease at' retryAt => db.releaseInTransaction lease at' "retry_scheduled" retryAt true
  | releaseProjection lease at' reason retryAt =>
    db.releaseInTransaction lease at' reason retryAt false
  | redriveProjection tenantId messageId workId => db.redriveProjection tenantId messageId workId now
  | expireProjection lease cancelRequestedAt exhausted at' =>
    db.expireProjection lease cancelRequestedAt exhausted at' now
  | requeueProjection tenantId workId approval at' actorId =>
    db.requeueProjection tenantId workId approval at' actorId now

/-- What a mutation tells its caller: the lease times the database chose. -/
def times (now : Timestamp) : WorkMutation → Option (Timestamp × Timestamp)
  | claimProjection _ _ duration _ => some (now, now + duration)
  | renewLease _ extension => some (now, now + extension)
  | _ => none

end WorkMutation

end AegisPlatform
