import AegisPlatform.EventStore.Append
import AegisPlatform.Lib.Transactions

/-!
# The ledger, statement by statement

The appends of the event store as PostgreSQL runs them: each statement sees what is
committed when it starts and what its own transaction has written, row locks are kept
to the end, and the sequence of global positions is never rolled back.

* `Ledger` — what is committed, with the sequence and the clock.
* `Writes` — what a transaction has written.
* `Row` — the rows that are locked.
* `Statement`, `ledgerEngine` — the statements and what they do.
* `AppendCall` — `append`, `append_atomic`, `append_from_inbox` and `append_fenced`.
-/

namespace AegisPlatform

open Fallible Transactions

/-! ## What is committed, and what is not yet -/

/-- The committed tables, the rows of `tenant_event_commit_locks`, and the clock.  The
sequence of global positions is `db.nextPosition`. -/
structure Ledger where
  db : Database
  commitLocks : List String := []
  clock : Timestamp := 0

/-- A write of a mutation: it leaves the tables of the ledger alone. -/
structure Projection where
  run : Database → Database
  tenants : ∀ db, (run db).tenants = db.tenants
  events : ∀ db, (run db).events = db.events
  nextPosition : ∀ db, (run db).nextPosition = db.nextPosition
  heads : ∀ db, (run db).heads = db.heads
  inbox : ∀ db, (run db).inbox = db.inbox

/-- What a transaction has written, in the order of its statements. -/
structure Writes where
  /-- `transaction_timestamp()`. -/
  startedAt : Timestamp
  commitLocks : List String := []
  heads : List ((String × String) × ℕ) := []
  events : List EventEnvelope := []
  outbox : List ((String × UUID) × OutboxRow) := []
  inbox : List ((String × String × String) × InboxRow) := []
  projections : List Projection := []

/-- Write rows of a keyed table, one after the other. -/
def writeRows {κ ρ : Type} [DecidableEq κ] (t : Table κ ρ) (rows : List (κ × ρ)) : Table κ ρ :=
  rows.foldl (fun t row => t.upsert row.1 row.2) t

namespace Writes

/-- The ledger with the writes: what their transaction sees, and what is committed when
it ends. -/
def apply (own : Writes) (l : Ledger) : Ledger :=
  { l with
    commitLocks := l.commitLocks ++ own.commitLocks
    db := own.projections.foldl (fun db p => p.run db) { l.db with
      heads := writeRows l.db.heads own.heads
      events := l.db.events ++ own.events
      outbox := writeRows l.db.outbox own.outbox
      inbox := writeRows l.db.inbox own.inbox } }

variable (own : Writes) (l : Ledger)

theorem foldl_projections {β : Type} (f : Database → β)
    (hf : ∀ (p : Projection) (db : Database), f (p.run db) = f db) (ps : List Projection)
    (db : Database) : f (ps.foldl (fun db p => p.run db) db) = f db := by
  induction ps generalizing db with
  | nil => rfl
  | cons p rest ih => rw [List.foldl_cons, ih, hf]

@[simp] theorem apply_commitLocks :
    (own.apply l).commitLocks = l.commitLocks ++ own.commitLocks := rfl

@[simp] theorem apply_clock : (own.apply l).clock = l.clock := rfl

@[simp] theorem apply_tenants : (own.apply l).db.tenants = l.db.tenants :=
  foldl_projections (·.tenants) (fun p => p.tenants) _ _

@[simp] theorem apply_events : (own.apply l).db.events = l.db.events ++ own.events :=
  foldl_projections (·.events) (fun p => p.events) _ _

@[simp] theorem apply_nextPosition : (own.apply l).db.nextPosition = l.db.nextPosition :=
  foldl_projections (·.nextPosition) (fun p => p.nextPosition) _ _

@[simp] theorem apply_heads : (own.apply l).db.heads = writeRows l.db.heads own.heads :=
  foldl_projections (·.heads) (fun p => p.heads) _ _

@[simp] theorem apply_inbox : (own.apply l).db.inbox = writeRows l.db.inbox own.inbox :=
  foldl_projections (·.inbox) (fun p => p.inbox) _ _

end Writes

/-! ## Statements -/

/-- A row that a statement locks: of the table it is named after, by its key.  A row
that is being inserted is locked under each of its unique keys. -/
inductive Row where
  | commitLock (tenantId : String)
  | head (tenantId aggregateId : String)
  | event (tenantId : String) (eventId : UUID)
  | sequence (tenantId aggregateId : String) (sequence : ℕ)
  | idempotency (tenantId key : String)
  | outbox (tenantId : String) (messageId : UUID)
  | inbox (tenantId source messageId : String)
  | lease (key : WorkKey)
  | item (key : WorkKey)
  | deadLetter (key : WorkKey)
  | approval (tenantId : String) (approvalId : UUID)
  | budgetLock (tenantId : String)
  | reservation (tenantId : String) (reservationId : UUID)
  | usage (tenantId : String) (eventId : UUID)
  deriving DecidableEq, Repr

/-- What a transaction fails with: an exception of the event store's own code or of a
statement, or an exception of the mutation it was given. -/
inductive Failed where
  | store (e : Raised)
  | mutation (e : Raised)

/-- The statements of an append. -/
inductive Statement where
  /-- `SELECT generation FROM work_leases … FOR UPDATE`. -/
  | lockLease (fence : Fence)
  /-- `INSERT INTO inbox_messages … ON CONFLICT DO NOTHING RETURNING message_id`. -/
  | insertInbox (tenantId source messageId : String)
  /-- `SELECT aggregate_version FROM inbox_messages`. -/
  | selectInbox (tenantId source messageId : String)
  /-- `INSERT INTO tenant_event_commit_locks … ON CONFLICT DO NOTHING`. -/
  | insertCommitLock (tenantId : String)
  /-- `SELECT tenant_id FROM tenant_event_commit_locks … FOR UPDATE`. -/
  | lockCommitLock (tenantId : String)
  /-- `INSERT INTO event_stream_heads … ON CONFLICT DO NOTHING`. -/
  | insertHead (tenantId aggregateId : String)
  /-- `SELECT current_version FROM event_stream_heads … FOR UPDATE`. -/
  | lockHead (tenantId aggregateId : String)
  /-- `INSERT INTO events`. -/
  | insertEvent (event : EventEnvelope) (version : ℕ)
  /-- `UPDATE event_stream_heads SET current_version`. -/
  | updateHead (tenantId aggregateId : String) (version : ℕ)
  /-- `INSERT INTO outbox_messages`. -/
  | insertOutbox (tenantId : String) (message : OutboxMessage)
  /-- `UPDATE inbox_messages SET processed_at, aggregate_version`. -/
  | updateInbox (tenantId source messageId : String) (version : ℕ)
  /-- A statement of a mutation: the rows it locks and what it writes, on what it
  sees. -/
  | project (rows : List Row) (write : Ledger → Except Raised Projection)

/-- What a statement is answered with; a mutation may read everything. -/
abbrev Statement.Reply : Statement → Type
  | lockLease _ | insertInbox .. => Bool
  | selectInbox .. => Option (Option ℕ)
  | lockHead .. => Option ℕ
  | project .. => Ledger
  | insertCommitLock _ | lockCommitLock _ | insertHead .. | insertEvent .. | updateHead ..
  | insertOutbox .. | updateInbox .. => Unit

/-- A transaction of the event store. -/
abbrev Transaction (α : Type) := Trans Statement Statement.Reply Failed α

namespace Statement

/-- Is the lease of the fence current? -/
def isCurrent (l : Ledger) (f : Fence) : Bool :=
  (l.db.workLeases.lookup f.key).any fun row =>
    row.holds f.token f.generation && l.clock < row.expiresAt

/-- The rows a statement locks, on what its transaction sees.  A row that is there is
not locked by `ON CONFLICT DO NOTHING`, and `FOR UPDATE` locks the rows it finds. -/
def rows (l : Ledger) : Statement → List Row
  | lockLease f => if isCurrent l f then [.lease f.key] else []
  | insertInbox t source messageId =>
    if (l.db.inbox.lookup (t, source, messageId)).isSome then []
    else [.inbox t source messageId]
  | selectInbox .. => []
  | insertCommitLock t => if t ∈ l.commitLocks then [] else [.commitLock t]
  | lockCommitLock t => if t ∈ l.commitLocks then [.commitLock t] else []
  | insertHead t a => if (l.db.heads.lookup (t, a)).isSome then [] else [.head t a]
  | lockHead t a => if (l.db.heads.lookup (t, a)).isSome then [.head t a] else []
  | insertEvent e version =>
    [.event e.tenantId e.eventId, .sequence e.tenantId e.aggregateId version] ++
      (e.idempotencyKey.map (Row.idempotency e.tenantId)).toList
  | updateHead t a _ => [.head t a]
  | insertOutbox t message => [.outbox t message.messageId]
  | updateInbox t source messageId _ => [.inbox t source messageId]
  | project rows _ => rows

/-- The row an outbox message is stored in. -/
def outboxRow (message : OutboxMessage) : OutboxRow where
  eventId := message.eventId
  destination := message.destination
  payload := message.payload
  headers := message.headers
  state := .pending
  availableAt := message.availableAt
  attemptCount := 0
  maxAttempts := message.maxAttempts
  lastErrorCode := none

/-- Run a statement. -/
def run (l : Ledger) (own : Writes) :
    (c : Statement) → Ledger × Writes × Except Failed c.Reply
  | lockLease f => (l, own, .ok (isCurrent (own.apply l) f))
  | insertInbox t source messageId =>
    if ((own.apply l).db.inbox.lookup (t, source, messageId)).isSome then (l, own, .ok false)
    else if t ∉ l.db.tenants then (l, own, .error (.store permanentStorageFailure))
    else
      let row : InboxRow := ⟨l.clock, none⟩
      (l, { own with inbox := own.inbox ++ [((t, source, messageId), row)] }, .ok true)
  | selectInbox t source messageId =>
    (l, own, .ok (((own.apply l).db.inbox.lookup (t, source, messageId)).map (·.aggregateVersion)))
  | insertCommitLock t =>
    if t ∈ (own.apply l).commitLocks then (l, own, .ok ())
    else if t ∉ l.db.tenants then (l, own, .error (.store permanentStorageFailure))
    else (l, { own with commitLocks := own.commitLocks ++ [t] }, .ok ())
  | lockCommitLock _ => (l, own, .ok ())
  | insertHead t a =>
    if ((own.apply l).db.heads.lookup (t, a)).isSome then (l, own, .ok ())
    else if t ∉ l.db.tenants then (l, own, .error (.store permanentStorageFailure))
    else (l, { own with heads := own.heads ++ [((t, a), 0)] }, .ok ())
  | lockHead t a => (l, own, .ok ((own.apply l).db.heads.lookup (t, a)))
  | insertEvent e version =>
    -- the position is drawn before the constraints are checked
    let l' : Ledger := { l with db := { l.db with nextPosition := l.db.nextPosition + 1 } }
    if (own.apply l).db.refuses e version then (l', own, .error (.store permanentStorageFailure))
    else
      let stored := e.stored version l.db.nextPosition own.startedAt
      (l', { own with events := own.events ++ [stored] }, .ok ())
  | updateHead t a version =>
    if ((own.apply l).db.heads.lookup (t, a)).isSome then
      (l, { own with heads := own.heads ++ [((t, a), version)] }, .ok ())
    else (l, own, .ok ())
  | insertOutbox t message =>
    -- FOREIGN KEY (tenant_id, event_id), PRIMARY KEY (tenant_id, message_id)
    if (message.eventId.any fun id =>
        !(own.apply l).db.events.any fun e => e.tenantId = t && e.eventId = id) ||
      ((own.apply l).db.outbox.lookup (t, message.messageId)).isSome then
      (l, own, .error (.store permanentStorageFailure))
    else
      (l, { own with
        outbox := own.outbox ++ [((t, message.messageId), outboxRow message)] }, .ok ())
  | updateInbox t source messageId version =>
    match (own.apply l).db.inbox.lookup (t, source, messageId) with
    | some row => (l, { own with
        inbox := own.inbox ++
          [((t, source, messageId), { row with aggregateVersion := some version })] }, .ok ())
    | none => (l, own, .ok ())
  | project _ write =>
    match write (own.apply l) with
    | .ok p => (l, { own with projections := own.projections ++ [p] }, .ok (own.apply l))
    | .error e => (l, own, .error (.mutation e))

end Statement

/-- PostgreSQL, as far as the appends use it. -/
def ledgerEngine : Engine Statement Statement.Reply Failed Ledger Writes Row where
  start l := { startedAt := l.clock }
  locks c l own := c.rows (own.apply l)
  exec c l own := c.run l own
  commit := Writes.apply
  aborted := .store .transientStorageError
  tick l l' := ∃ clock, ∃ p : Projection, l.clock ≤ clock ∧
    l' = { l with clock := clock, db := p.run l.db }

/-! ## Appends -/

/-- A statement of a mutation. -/
structure MutationStatement where
  rows : List Row
  write : Ledger → Except Raised Projection

/-- A mutation: code that is given the connection, and does not touch the ledger. -/
abbrev MutationCode := Trans MutationStatement (fun _ => Ledger) Raised Unit

/-- Run a mutation inside a transaction of the event store. -/
def MutationCode.run : MutationCode → Transaction Unit
  | .ret a => .ret a
  | .raise e => .raise (.mutation e)
  | .exec c next => .exec (.project c.rows c.write) fun l => run (next l)

/-- A mutation that may be missing. -/
def MutationCode.runOptional : Option MutationCode → Transaction Unit
  | some mutation => mutation.run
  | none => pure ()

/-- What `append_from_inbox` returns. -/
structure AppendResult where
  aggregateVersion : ℕ
  duplicate : Bool := false
  deriving DecidableEq, Repr

namespace Transaction

/-- `self._connection.execute`. -/
abbrev execute (c : Statement) : Transaction c.Reply := Trans.execute c

/-- An exception of the event store's own code. -/
abbrev raise {α : Type} (e : Raised) : Transaction α := Trans.raise (.store e)

/-- A check of the event store's own code. -/
abbrev check (x : Except Raised Unit) : Transaction Unit := Trans.ofExcept (x.mapError .store)

/-- `INSERT INTO events`, one event after the other: the version of the last. -/
def insertEvents : List EventEnvelope → ℕ → Transaction ℕ
  | [], version => pure version
  | event :: rest, version => do
    let _ ← execute (.insertEvent event (version + 1))
    insertEvents rest (version + 1)

/-- `INSERT INTO outbox_messages`, one message after the other. -/
def insertOutbox (tenantId : String) : List OutboxMessage → Transaction Unit
  | [] => pure ()
  | message :: rest => do
    let _ ← execute (.insertOutbox tenantId message)
    insertOutbox tenantId rest

/-- `_append_in_transaction`, once the head has been read: the version check and the
inserts. -/
def appendAtHead (tenantId aggregateId : String) (events : List EventEnvelope)
    (expectedVersion : ℕ) (outbox : List OutboxMessage) : Option ℕ → Transaction ℕ
  | none => raise (.permanentStorageError "aggregate head could not be established")
  | some actual => do
    check (raiseIf (actual ≠ expectedVersion) (.concurrencyError expectedVersion actual))
    let version ← insertEvents events expectedVersion
    let _ ← execute (.updateHead tenantId aggregateId version)
    insertOutbox tenantId outbox
    pure version

/-- `_append_in_transaction`. -/
def appendInTransaction (events : List EventEnvelope) (expectedVersion : ℕ)
    (outbox : List OutboxMessage) : Transaction ℕ :=
  match events with
  | [] => raise (.valueError "at least one event is required")
  | first :: _ => do
    let _ ← execute (.insertCommitLock first.tenantId)
    let _ ← execute (.lockCommitLock first.tenantId)
    let _ ← execute (.insertHead first.tenantId first.aggregateId)
    let row ← execute (.lockHead first.tenantId first.aggregateId)
    appendAtHead first.tenantId first.aggregateId events expectedVersion outbox row

/-- `_validate_append`, for any integer. -/
def validate (context : TenantContext) (events : List EventEnvelope) (expectedVersion : ℤ) :
    Except Raised Unit := do
  raiseIf (expectedVersion < 0) (.valueError "expected_version cannot be negative")
  validateAppend context events

/-- `append`. -/
def append (context : TenantContext) (events : List EventEnvelope) (expectedVersion : ℤ)
    (outbox : List OutboxMessage) : Transaction AppendResult := do
  check (validate context events expectedVersion)
  let version ← appendInTransaction events expectedVersion.toNat outbox
  pure { aggregateVersion := version }

/-- `append_atomic`. -/
def appendAtomic (context : TenantContext) (events : List EventEnvelope) (expectedVersion : ℤ)
    (mutation : MutationCode) (outbox : List OutboxMessage) : Transaction AppendResult := do
  check (validate context events expectedVersion)
  let version ← appendInTransaction events expectedVersion.toNat outbox
  mutation.run
  pure { aggregateVersion := version }

/-- `append_from_inbox`. -/
def appendFromInbox (context : TenantContext) (source messageId : String)
    (events : List EventEnvelope) (expectedVersion : ℤ) (outbox : List OutboxMessage)
    (mutation : Option MutationCode) : Transaction AppendResult := do
  check (raiseIf (source = "" ∨ messageId = "")
    (.valueError "inbox source and message_id are required"))
  check (validate context events expectedVersion)
  let inserted : Bool ← execute (.insertInbox context.tenantId source messageId)
  if inserted then do
    let version ← appendInTransaction events expectedVersion.toNat outbox
    let _ ← execute (.updateInbox context.tenantId source messageId version)
    MutationCode.runOptional mutation
    pure { aggregateVersion := version }
  else do
    let row : Option (Option ℕ) ← execute (.selectInbox context.tenantId source messageId)
    match row with
    | some (some version) => pure { aggregateVersion := version, duplicate := true }
    | _ => raise (.permanentStorageError "duplicate inbox record has no committed result")

/-- `append_fenced`. -/
def appendFenced (context : TenantContext) (events : List EventEnvelope) (expectedVersion : ℤ)
    (workId leaseToken : UUID) (leaseGeneration : ℤ) (outbox : List OutboxMessage)
    (mutation : Option MutationCode) : Transaction AppendResult := do
  let fence : Fence := ⟨context.tenantId, workId, leaseToken, leaseGeneration⟩
  check (validate context events expectedVersion)
  check (validateFence events fence)
  let current : Bool ← execute (.lockLease fence)
  if current then do
    let version ← appendInTransaction events expectedVersion.toNat outbox
    MutationCode.runOptional mutation
    pure { aggregateVersion := version }
  else raise (.fencingError leaseGeneration 0)

end Transaction

/-- A call of one of the four entry points. -/
inductive AppendCall where
  | append (context : TenantContext) (events : List EventEnvelope) (expectedVersion : ℤ)
      (outbox : List OutboxMessage)
  | appendAtomic (context : TenantContext) (events : List EventEnvelope) (expectedVersion : ℤ)
      (mutation : MutationCode) (outbox : List OutboxMessage)
  | appendFromInbox (context : TenantContext) (source messageId : String)
      (events : List EventEnvelope) (expectedVersion : ℤ) (outbox : List OutboxMessage)
      (mutation : Option MutationCode)
  | appendFenced (context : TenantContext) (events : List EventEnvelope) (expectedVersion : ℤ)
      (workId leaseToken : UUID) (leaseGeneration : ℤ) (outbox : List OutboxMessage)
      (mutation : Option MutationCode)

namespace AppendCall

/-- The transaction of a call. -/
def transaction : AppendCall → Transaction AppendResult
  | append context events expectedVersion outbox =>
    Transaction.append context events expectedVersion outbox
  | appendAtomic context events expectedVersion mutation outbox =>
    Transaction.appendAtomic context events expectedVersion mutation outbox
  | appendFromInbox context source messageId events expectedVersion outbox mutation =>
    Transaction.appendFromInbox context source messageId events expectedVersion outbox mutation
  | appendFenced context events expectedVersion workId leaseToken leaseGeneration outbox mutation =>
    Transaction.appendFenced context events expectedVersion workId leaseToken leaseGeneration outbox
      mutation

/-- The tenant the call is trusted for. -/
def tenantId : AppendCall → String
  | append context .. | appendAtomic context .. | appendFromInbox context ..
  | appendFenced context .. => context.tenantId

/-- The events the call was given. -/
def events : AppendCall → List EventEnvelope
  | append _ events .. | appendAtomic _ events .. | appendFromInbox _ _ _ events ..
  | appendFenced _ events .. => events

/-- The version the call expects. -/
def expectedVersion : AppendCall → ℤ
  | append _ _ v _ | appendAtomic _ _ v .. | appendFromInbox _ _ _ _ v .. | appendFenced _ _ v .. => v

/-- The key of the inbox message the call deduplicates. -/
def inboxKey : AppendCall → Option (String × String × String)
  | appendFromInbox context source messageId .. => some (context.tenantId, source, messageId)
  | _ => none

end AppendCall

end AegisPlatform
