import AegisPlatform.Runtime.Repository

/-!
# Reconciliation and the dead letters

`reconcileExpired` reads a page of old publications and a page of expired
leases, and then settles each row in a transaction of its own, skipping the
rows that have moved on in the meantime.  `requeueDeadLetter` returns a dead
letter to the queue under an approval recorded by `approveDeadLetterRequeue`.
-/

namespace AegisPlatform

open Fallible Interleave

/-! ## What a reconciliation reads -/

/-- The later of two published messages. -/
def laterPublished (a b : Timestamp × UUID) : Timestamp × UUID :=
  if a.1 < b.1 ∨ (a.1 = b.1 ∧ a.2.int < b.2.int) then b else a

/-- The item's latest published message, with the time of its publication. -/
def Database.latestPublished (db : Database) (key : WorkKey) : Option (Timestamp × UUID) :=
  (db.outbox.rows.filterMap fun row =>
    if row.1.1 = key.1 ∧ row.2.isFor key.2 then
      match row.2.state with
      | .published p => some (p, row.1.2)
      | _ => none
    else none).foldl (fun best m => some (match best with
      | some b => laterPublished b m
      | none => m)) none

/-- Items that wait although their last message was published five minutes ago:
item and message, oldest publication first. -/
def redriveRows (w : World) (tenantId : String) (limit : ℕ) : List (UUID × UUID) :=
  let rows := w.db.workItems.rows.filterMap fun row =>
    if row.1.1 = tenantId ∧ row.2.status.isQueued ∧
        ¬ (w.db.workLeases.lookup row.1).any (·.released = none) then
      ((w.db.latestPublished row.1).filter fun latest =>
        latest.1 ≤ w.clock - Database.redriveAge).map fun latest => (latest, row.1.2)
    else none
  let before (a b : (Timestamp × UUID) × UUID) : Bool :=
    a.1.1 < b.1.1 || (a.1.1 = b.1.1 && a.1.2.int ≤ b.1.2.int)
  ((rows.mergeSort before).take limit).map fun row => (row.2, row.1.2)

/-- A row of the second query: an unreleased lease that is over, with its item. -/
structure ExpiredLeaseRow where
  workId : UUID
  lease : WorkLeaseRow
  item : WorkItemRow

/-- Unreleased leases that are over by the caller's clock, oldest first. -/
def expiredRows (w : World) (tenantId : String) (now : Timestamp) (limit : ℕ) :
    List ExpiredLeaseRow :=
  let rows := w.db.workLeases.rows.filterMap fun row =>
    if row.1.1 = tenantId ∧ row.2.released = none ∧ row.2.expiresAt ≤ now then
      (w.db.workItems.lookup row.1).map fun item => (⟨row.1.2, row.2, item⟩ : ExpiredLeaseRow)
    else none
  let before (a b : ExpiredLeaseRow) : Bool :=
    a.lease.expiresAt < b.lease.expiresAt ||
      (a.lease.expiresAt = b.lease.expiresAt && a.workId.int ≤ b.workId.int)
  (rows.mergeSort before).take limit

/-! ## Settling one row -/

/-- Run an append and tell whether it committed; a conflict is not an error. -/
def committed (append : Op Reply) : Op Bool :=
  tryCatch (do
      let _ ← append
      pure true)
    fun e => if e.isConcurrencyError then pure false else throw e

/-- Send an item's last message again. -/
def redriveOne (context : TenantContext) (now : Timestamp) (workId messageId : UUID)
    (eventId : UUID) : Op Bool := do
  let request ← loadRequest context workId
  let event ← Proc.ofExcept (WorkTransition.toEvent {
      eventType := .workReconciled
      occurredAt := now
      details := [("outcome", .str "published_transport_redrive")] }
    request eventId none)
  let version ← currentVersion context workId
  committed (appendAtomic context [event] version
    (.work (.redriveProjection context.tenantId messageId workId)))

/-- What an expired lease leads to: the event, the name of the outcome and the
reason that goes with it. -/
def expiryOutcome (cancelRequested exhausted : Bool) : DomainEventType × Dict :=
  if cancelRequested then (.workCancelled, [("outcome", .str "cancelled")])
  else if exhausted then
    (.workDeadLettered, [("outcome", .str "dead_letter"),
      ("reason_code", .str "lease_expired_after_max_attempts")])
  else (.workReconciled, [("outcome", .str "retry_wait")])

theorem isWork_expiryOutcome (cancelRequested exhausted : Bool) :
    (expiryOutcome cancelRequested exhausted).1.isWork = true := by
  cases cancelRequested <;> cases exhausted <;> rfl

/-- End an expired lease. -/
def expireOne (context : TenantContext) (now : Timestamp) (row : ExpiredLeaseRow)
    (eventId outcomeId : UUID) : Op Bool := do
  let lease ← Proc.ofExcept (WorkLeaseFields.make {
    workId := row.workId
    tenantId := context.tenantId
    token := row.lease.token
    generation := row.lease.generation
    owner := row.lease.owner
    attempt := row.item.attemptCount
    acquiredAt := row.lease.acquiredAt
    heartbeatAt := row.lease.heartbeatAt
    expiresAt := row.lease.expiresAt })
  let cancelRequestedAt := row.item.cancelRequestedAt
  let exhausted : Bool := row.item.maxAttempts ≤ row.item.attemptCount
  let request ← loadRequest context row.workId
  let expired ← Proc.ofExcept (WorkTransition.toEvent {
      eventType := .workLeaseExpired
      occurredAt := now
      details := [("reason_code", .str "heartbeat_timeout")]
      lease := some lease }
    request eventId none)
  let outcome ← Proc.ofExcept (WorkTransition.toEvent {
      eventType := (expiryOutcome cancelRequestedAt.isSome exhausted).1
      occurredAt := now
      details := (expiryOutcome cancelRequestedAt.isSome exhausted).2
      lease := some lease
      isWork := isWork_expiryOutcome _ _ }
    request outcomeId (some expired.eventId))
  let version ← currentVersion context row.workId
  committed (appendAtomic context [expired, outcome] version
    (.work (.expireProjection lease cancelRequestedAt exhausted now)))

/-! ## The whole reconciliation -/

/-- The loop over the redriven rows; the `n`-th takes the `n`-th identifier. -/
def redriveAll (context : TenantContext) (now : Timestamp) (ids : ℕ → UUID) :
    ℕ → List (UUID × UUID) → Op (List UUID)
  | _, [] => pure []
  | n, (workId, messageId) :: rest => do
    let done ← redriveOne context now workId messageId (ids n)
    let reconciled ← redriveAll context now ids (n + 1) rest
    return (if done then workId :: reconciled else reconciled)

/-- The loop over the expired rows; each takes two identifiers. -/
def expireAll (context : TenantContext) (now : Timestamp) (ids : ℕ → UUID) :
    ℕ → List ExpiredLeaseRow → Op (List UUID)
  | _, [] => pure []
  | n, row :: rest => do
    let done ← expireOne context now row (ids n) (ids (n + 1))
    let reconciled ← expireAll context now ids (n + 2) rest
    return (if done then row.workId :: reconciled else reconciled)

/-- `reconcile_expired`. -/
def reconcileExpired (context : TenantContext) (now : Timestamp) (limit : ℤ) (ids : ℕ → UUID) :
    Op (List UUID) := do
  Proc.ofExcept (raiseIf (¬ (1 ≤ limit ∧ limit ≤ 1000))
    (.valueError "reconciliation limit must be between 1 and 1000"))
  let redrives ← Proc.query fun w => redriveRows w context.tenantId limit.toNat
  let remaining := limit.toNat - redrives.length
  let expired ← if 0 < remaining then
      Proc.query fun w => expiredRows w context.tenantId now remaining
    else pure []
  let redriven ← redriveAll context now ids 0 redrives
  let released ← expireAll context now ids redrives.length expired
  return redriven ++ released

/-! ## Dead letters -/

theorem isWork_workRetryScheduled : DomainEventType.workRetryScheduled.isWork = true := rfl

/-- `requeue_dead_letter`. -/
def requeueDeadLetter (py : PyText) (context : TenantContext) (workId : UUID) (at' : Timestamp)
    (approval : RequeueApproval) (actorId : String) (ids : ℕ → UUID) : Op Unit := do
  let request ← loadRequest context workId
  let reconciled ← Proc.ofExcept (WorkTransition.toEvent {
      eventType := .workRetryScheduled
      occurredAt := at'
      details := [("retry_at", .str (py.isoformat at')),
        ("reason_code", .str "approved_dlq_requeue"),
        ("approval_id", .str approval.approvalId.str)]
      isWork := isWork_workRetryScheduled }
    request (ids 0) none)
  let version ← currentVersion context workId
  let _ ← appendAtomic context [reconciled] version
    (.work (.requeueProjection request.tenantId workId approval at' actorId)) [{
      messageId := ids 1
      eventId := some reconciled.eventId
      destination := "aegis.work"
      availableAt := at'
      maxAttempts := request.maxAttempts
      payload := requestPayload py request
      headers := workHeaders request }]

/-- `approve_dead_letter_requeue`. -/
def approveDeadLetterRequeue (context : TenantContext) (workId : UUID) (approval : RequeueApproval)
    (expiresAt : Timestamp) : Op Unit := do
  Proc.ofExcept (raiseIf (expiresAt ≤ approval.approvedAt)
    (.valueError "approval expiry must be after approval time"))
  let _ ← Proc.txn (.approveRequeue context.tenantId workId approval expiresAt)

end AegisPlatform
