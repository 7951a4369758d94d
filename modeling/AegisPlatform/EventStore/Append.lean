import AegisPlatform.EventStore.Ledger

/-!
# Operations of the event store

`append_atomic`, `append_from_inbox` and `append_fenced` validate their batch
and then run their transaction; a fenced append runs two.  The outbox operations
validate their arguments and run one statement.
-/

namespace AegisPlatform

open Fallible Interleave

/-- An operation of the platform: a program over the shared database. -/
abbrev Op (α : Type) := Proc World Txn (Except Raised Reply) Raised α

/-- `_validate_append`. -/
def validateAppend (context : TenantContext) (events : List EventEnvelope) : Except Raised Unit := do
  let first ← orRaise (.valueError "at least one event is required") events.head?
  raiseIf (events.any (·.tenantId ≠ context.tenantId))
    (.valueError "event tenant does not match trusted tenant context")
  raiseIf (events.any (·.aggregateId ≠ first.aggregateId))
    (.valueError "an append batch must target one aggregate")
  raiseIf (events.any (·.aggregateSequence ≠ 0))
    (.valueError "new events cannot preassign aggregate sequences")
  raiseIf (events.any (·.globalPosition ≠ none))
    (.valueError "new events cannot preassign global positions")

/-- `append_atomic`. -/
def appendAtomic (context : TenantContext) (events : List EventEnvelope) (expectedVersion : ℕ)
    (mutation : Mutation) (outbox : List OutboxMessage := []) : Op Reply := do
  Proc.ofExcept (validateAppend context events)
  Proc.txn (.append {
    tenantId := context.tenantId
    events := events
    expectedVersion := expectedVersion
    outbox := outbox
    mutation := mutation })

/-- `append_from_inbox`. -/
def appendFromInbox (context : TenantContext) (source messageId : String)
    (events : List EventEnvelope) (expectedVersion : ℕ) (mutation : Mutation) : Op Reply := do
  Proc.ofExcept (raiseIf (source = "" ∨ messageId = "")
    (.valueError "inbox source and message_id are required"))
  Proc.ofExcept (validateAppend context events)
  Proc.txn (.append {
    tenantId := context.tenantId
    events := events
    expectedVersion := expectedVersion
    inbox := some (source, messageId)
    mutation := mutation })

/-- The checks `append_fenced` makes before its transaction. -/
def validateFence (events : List EventEnvelope) (f : Fence) : Except Raised Unit := do
  raiseIf (f.generation < 1) (.valueError "valid fence generation and timestamp are required")
  raiseIf (events.any (·.aggregateId ≠ f.workId.str))
    (.valueError "fenced events must belong to the leased work")
  raiseIf (events.any fun e =>
      !(e.payload.get? "lease_token").any (JsonValue.pyEq (.str f.token.str)) ||
      !(e.payload.get? "lease_generation").any (JsonValue.pyEq (.int f.generation)))
    (.valueError "fenced event payload does not match lease")

/-- `append_fenced`: the check locks the lease row, the rest commits under the
lock. -/
def appendFenced (context : TenantContext) (events : List EventEnvelope) (expectedVersion : ℕ)
    (lease : WorkLease) (mutation : Mutation) (outbox : List OutboxMessage := []) : Op Reply := do
  let fence : Fence := ⟨context.tenantId, lease.workId, lease.token, lease.generation⟩
  Proc.ofExcept (validateAppend context events)
  Proc.ofExcept (validateFence events fence)
  let opened ← Proc.txn (.openFenced fence)
  Proc.txn (.closeFenced opened.tx {
    tenantId := context.tenantId
    events := events
    expectedVersion := expectedVersion
    outbox := outbox
    mutation := mutation })

/-- `current_version`: the head of the item's stream. -/
def currentVersion (context : TenantContext) (workId : UUID) : Op ℕ :=
  Proc.query fun w => w.db.version context.tenantId workId.str

/-! ## The outbox -/

/-- `claim_outbox`. -/
def claimOutbox (context : TenantContext) (leaseOwner : String) (leaseExpiresAt now : Timestamp)
    (limit : ℤ) (destination : Option String) : Op (List ClaimedOutboxMessage) := do
  let leaseDuration := leaseExpiresAt - now
  Proc.ofExcept (raiseIf (leaseOwner = "" ∨
      ¬ (seconds 1 ≤ leaseDuration ∧ leaseDuration ≤ seconds 3600))
    (.valueError "valid lease owner and future expiry are required"))
  Proc.ofExcept (raiseIf (¬ (1 ≤ limit ∧ limit ≤ 100))
    (.valueError "outbox claim limit must be between 1 and 100"))
  let reply ← Proc.txn (.claimOutbox context.tenantId leaseOwner leaseDuration limit.toNat destination)
  return reply.messages

/-- `mark_outbox_published`. -/
def markOutboxPublished (context : TenantContext) (messageId : UUID) (leaseOwner : String)
    (leaseExpiresAt publishedAt : Timestamp) : Op Unit := do
  let _ ← Proc.txn (.markOutboxPublished context.tenantId messageId leaseOwner leaseExpiresAt
    publishedAt)

/-- The check of an error code. -/
def validateErrorCode (errorCode : String) : Except Raised Unit :=
  raiseIf (errorCode = "" ∨ 128 < errorCode.length) (.valueError "bounded error_code is required")

/-- `mark_outbox_failed`. -/
def markOutboxFailed (context : TenantContext) (messageId : UUID) (leaseOwner : String)
    (leaseExpiresAt retryAt : Timestamp) (errorCode : String) : Op Unit := do
  Proc.ofExcept (validateErrorCode errorCode)
  let _ ← Proc.txn (.markOutboxFailed context.tenantId messageId leaseOwner leaseExpiresAt retryAt
    errorCode)

/-- `mark_outbox_dead_lettered`. -/
def markOutboxDeadLettered (context : TenantContext) (messageId : UUID) (leaseOwner : String)
    (leaseExpiresAt : Timestamp) (errorCode : String) : Op Unit := do
  Proc.ofExcept (validateErrorCode errorCode)
  let _ ← Proc.txn (.markOutboxDeadLettered context.tenantId messageId leaseOwner leaseExpiresAt
    errorCode)

end AegisPlatform
