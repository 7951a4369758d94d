import AegisPlatform.Gateway.Budget
import AegisPlatform.Lib.Interleave

/-!
# The ledger's transactions

`appendInTransaction` appends a batch to one stream at an expected version, with
its outbox messages.  A transaction of the platform is such an append together
with one mutation, or one of the outbox and approval statements; each is atomic.

A **fenced** append is two: it first checks and locks the lease row, and only
then appends and commits, and other transactions may run in between.  A
transaction that has to write a locked lease row waits.

* `World` — the database, its clock, and the fenced transactions under way with
  the rows they have locked.
* `Txn`, `World.exec`, `postgres` — the transactions and what they do.
-/

namespace AegisPlatform

open Fallible Interleave

/-! ## Appending events -/

/-- The event as the ledger stores it. -/
def EventEnvelope.stored (e : EventEnvelope) (sequence position : ℕ) (recordedAt : Timestamp) :
    EventEnvelope :=
  { e with
    aggregateSequence := sequence
    globalPosition := some position
    recordedAt := some recordedAt }

namespace Database

/-- Would a unique constraint refuse the event at that sequence number? -/
def refuses (db : Database) (e : EventEnvelope) (sequence : ℕ) : Bool :=
  db.events.any fun e' => e'.tenantId = e.tenantId &&
    (e'.eventId = e.eventId ||
      (e'.aggregateId = e.aggregateId && e'.aggregateSequence = sequence) ||
      (e.idempotencyKey ≠ none && e'.idempotencyKey = e.idempotencyKey))

/-- `INSERT INTO events`, one event after the other. -/
def insertEvents (recordedAt : Timestamp) : ℕ → List EventEnvelope → Database →
    Except Raised Database
  | _, [], db => .ok db
  | version, e :: rest, db => do
    raiseIf (db.refuses e (version + 1)) permanentStorageFailure
    insertEvents recordedAt (version + 1) rest { db with
      events := db.events ++ [e.stored (version + 1) db.nextPosition recordedAt]
      nextPosition := db.nextPosition + 1 }

/-- `INSERT INTO outbox_messages`, one message after the other. -/
def insertOutbox (tenantId : String) : List OutboxMessage → Database → Except Raised Database
  | [], db => .ok db
  | message :: rest, db => do
    -- FOREIGN KEY (tenant_id, event_id)
    raiseIf (message.eventId.any fun id =>
        !db.events.any fun e => e.tenantId = tenantId && e.eventId = id)
      permanentStorageFailure
    let outbox ← orRaise permanentStorageFailure
      (db.outbox.insertNew (tenantId, message.messageId) {
        eventId := message.eventId
        destination := message.destination
        payload := message.payload
        headers := message.headers
        state := .pending
        availableAt := message.availableAt
        attemptCount := 0
        maxAttempts := message.maxAttempts
        lastErrorCode := none })
    insertOutbox tenantId rest { db with outbox := outbox }

/-- `_append_in_transaction`. -/
def appendInTransaction (recordedAt : Timestamp) (events : List EventEnvelope)
    (expectedVersion : ℕ) (outbox : List OutboxMessage) (db : Database) :
    Except Raised (Database × ℕ) := do
  let first ← orRaise (.valueError "at least one event is required") events.head?
  raiseIf (first.tenantId ∉ db.tenants) permanentStorageFailure
  let actual := db.version first.tenantId first.aggregateId
  raiseIf (actual ≠ expectedVersion) (.concurrencyError expectedVersion actual)
  let db ← db.insertEvents recordedAt expectedVersion events
  let version := expectedVersion + events.length
  let db := { db with heads := db.heads.upsert (first.tenantId, first.aggregateId) version }
  let db ← db.insertOutbox first.tenantId outbox
  return (db, version)

end Database

/-! ## Transactions -/

/-- A mutation that an append commits with its events. -/
inductive Mutation where
  | none
  | work (m : WorkMutation)
  | gateway (m : GatewayMutation)

namespace Mutation

/-- Run a mutation at the database's time. -/
def run (now : Timestamp) (underMaintenance : String → Bool) (db : Database) :
    Mutation → Except Raised Database
  | none => .ok db
  | work m => m.run now db
  | gateway m => m.run underMaintenance db

/-- The lease times a mutation tells its caller. -/
def times (now : Timestamp) : Mutation → Option (Timestamp × Timestamp)
  | work m => m.times now
  | _ => Option.none

/-- The lease row a mutation has to lock for itself.  The mutations of fenced
appends run under the lock their fence has taken. -/
def locks : Mutation → Option WorkKey
  | work (.claimProjection request ..) => some request.key
  | work (.expireProjection lease ..) => some lease.key
  | _ => Option.none

end Mutation

/-- The arguments of an append. -/
structure Append where
  tenantId : String
  events : List EventEnvelope
  expectedVersion : ℕ
  outbox : List OutboxMessage := []
  /-- Source and message id, for an append that deduplicates a delivery. -/
  inbox : Option (String × String) := none
  mutation : Mutation := .none

/-- The lease a fenced append presents. -/
structure Fence where
  tenantId : String
  workId : UUID
  token : UUID
  generation : ℤ
  deriving DecidableEq, Repr

/-- The item a fence is on. -/
def Fence.key (f : Fence) : WorkKey := (f.tenantId, f.workId)

/-- A fenced transaction that has passed its check and holds its row. -/
structure Inflight where
  fence : Fence
  startedAt : Timestamp
  deriving DecidableEq, Repr

/-- A leased outbox row, as `claim_outbox` returns it. -/
structure ClaimedOutboxMessage where
  messageId : UUID
  row : OutboxRow
  leaseOwner : String
  leaseExpiresAt : Timestamp

/-- The answer of a transaction. -/
structure Reply where
  version : ℕ := 0
  duplicate : Bool := false
  times : Option (Timestamp × Timestamp) := none
  tx : ℕ := 0
  messages : List ClaimedOutboxMessage := []

/-- The transactions of the platform. -/
inductive Txn where
  /-- `append_atomic` and `append_from_inbox`. -/
  | append (a : Append)
  /-- The first half of `append_fenced`: check the lease row and lock it. -/
  | openFenced (f : Fence)
  /-- The second half: append, mutate and commit. -/
  | closeFenced (tx : ℕ) (a : Append)
  | claimOutbox (tenantId leaseOwner : String) (leaseDuration : ℤ) (limit : ℕ)
      (destination : Option String)
  | markOutboxPublished (tenantId : String) (messageId : UUID) (leaseOwner : String)
      (leaseExpiresAt publishedAt : Timestamp)
  | markOutboxFailed (tenantId : String) (messageId : UUID) (leaseOwner : String)
      (leaseExpiresAt retryAt : Timestamp) (errorCode : String)
  | markOutboxDeadLettered (tenantId : String) (messageId : UUID) (leaseOwner : String)
      (leaseExpiresAt : Timestamp) (errorCode : String)
  | approveRequeue (tenantId : String) (workId : UUID) (approval : RequeueApproval)
      (expiresAt : Timestamp)

/-- The database with its clock and the transactions under way. -/
structure World where
  db : Database
  clock : Timestamp
  inflight : Table ℕ Inflight := ∅
  nextTx : ℕ := 0
  /-- The tenants whose usage projection another session is rebuilding. -/
  maintenance : List String := []
  /-- The outbox rows that transactions under way hold locked. -/
  outboxLocked : List (String × UUID) := []

namespace World

/-- Is the lease row held by a fenced transaction under way? -/
def locked (w : World) (key : WorkKey) : Bool :=
  w.inflight.rows.any fun row => row.2.fence.key = key

/-- Append and mutate; `startedAt` is the transaction's own time. -/
def runAppend (w : World) (a : Append) (startedAt : Timestamp) : Except Raised (Database × Reply) := do
  let (db, version) ← w.db.appendInTransaction startedAt a.events a.expectedVersion a.outbox
  let db := match a.inbox with
    | some (source, messageId) =>
      let row : InboxRow := { receivedAt := w.clock, aggregateVersion := some version }
      { db with inbox := db.inbox.upsert (a.tenantId, source, messageId) row }
    | none => db
  let db ← a.mutation.run w.clock (fun tenantId => tenantId ∈ w.maintenance) db
  return (db, { version := version, times := a.mutation.times w.clock })

/-- The recorded answer to a delivery that has been processed before. -/
def duplicate (w : World) (a : Append) : Option (Except Raised Reply) :=
  a.inbox.bind fun (source, messageId) =>
    (w.db.inbox.lookup (a.tenantId, source, messageId)).map fun row =>
      match row.aggregateVersion with
      | some version => .ok { version := version, duplicate := true }
      | none => .error (.permanentStorageError "duplicate inbox record has no committed result")

/-- Commit what a transaction computed, or roll it back. -/
def settle (w : World) : Except Raised (Database × Reply) → World × Except Raised Reply
  | .ok (db, reply) => ({ w with db := db }, .ok reply)
  | .error e => (w, .error e)

/-! ### Outbox statements -/

/-- May a publisher claim the message at this time? -/
def claimable (now : Timestamp) (destination : Option String) (row : OutboxRow) : Bool :=
  destination.all (row.destination = ·) && row.availableAt ≤ now &&
  match row.state with
  | .pending => row.attemptCount < row.maxAttempts
  | .leased _ expiresAt =>
    (row.attemptCount < row.maxAttempts || row.lastErrorCode = none) && expiresAt ≤ now
  | _ => false

/-- Does the message come before the other: `ORDER BY available_at, message_id`? -/
def outboxBefore (a b : (String × UUID) × OutboxRow) : Bool :=
  a.2.availableAt < b.2.availableAt ||
    (a.2.availableAt = b.2.availableAt && a.1.2.int ≤ b.1.2.int)

/-- The rows a claim leases: those it may, in order, up to its limit. -/
def claimCandidates (w : World) (tenantId : String) (limit : ℕ) (destination : Option String) :
    List ((String × UUID) × OutboxRow) :=
  ((w.db.outbox.rows.filter fun row =>
    row.1.1 = tenantId && claimable w.clock destination row.2 &&
      row.1 ∉ w.outboxLocked).mergeSort outboxBefore).take limit

/-- `claim_outbox`; rows that another transaction has locked are skipped. -/
def claimOutbox (w : World) (tenantId leaseOwner : String) (leaseDuration : ℤ) (limit : ℕ)
    (destination : Option String) : Database × List ClaimedOutboxMessage :=
  let candidates := w.claimCandidates tenantId limit destination
  let lease (row : OutboxRow) : OutboxRow := { row with
    state := .leased leaseOwner (w.clock + leaseDuration)
    attemptCount := row.attemptCount + 1
    lastErrorCode := none }
  ({ w.db with outbox := candidates.foldl (fun t row => t.modify row.1 lease) w.db.outbox },
    candidates.map fun row =>
      ⟨row.1.2, lease row.2, leaseOwner, w.clock + leaseDuration⟩)

/-- `_update_outbox_state` of a row under its exact current lease. -/
def updateOutbox (w : World) (tenantId : String) (messageId : UUID) (leaseOwner : String)
    (leaseExpiresAt : Timestamp) (f : OutboxRow → OutboxRow) : Except Raised (Database × Reply) := do
  let outbox ← orRaise (.concurrencyError 1 0)
    (w.db.outbox.updateWhere (tenantId, messageId)
      (fun row => row.state = .leased leaseOwner leaseExpiresAt) f)
  return ({ w.db with outbox := outbox }, {})

/-- `approve_dead_letter_requeue`: an approval of an item that is a dead letter. -/
def approveRequeue (w : World) (tenantId : String) (workId : UUID) (approval : RequeueApproval)
    (expiresAt : Timestamp) : Except Raised (Database × Reply) := do
  raiseIf (!(w.db.deadLetters.lookup (tenantId, workId)).isSome ||
      !(w.db.workItems.lookup (tenantId, workId)).any (·.status = .deadLetter))
    (.concurrencyError 1 0)
  let approvals ← orRaise (.concurrencyError 1 0)
    (w.db.approvals.insertNew (tenantId, approval.approvalId) {
      workId := workId
      approvedBy := approval.approvedBy
      approvedAt := approval.approvedAt
      expiresAt := expiresAt })
  return ({ w.db with approvals := approvals }, {})

/-! ### Running a transaction -/

/-- Check the lease row of a fence and lock it. -/
def openFenced (w : World) (f : Fence) : Option (World × Except Raised Reply) :=
  if (w.db.workLeases.lookup f.key).any fun row =>
      row.holds f.token f.generation && w.clock < row.expiresAt then
    if w.locked f.key then none
    else some ({ w with
      inflight := w.inflight.upsert w.nextTx ⟨f, w.clock⟩
      nextTx := w.nextTx + 1 }, .ok { tx := w.nextTx })
  else some (w, .error (.fencingError f.generation 0))

/-- Append under a fence and end its transaction, whatever comes of it. -/
def closeFenced (w : World) (tx : ℕ) (a : Append) : World × Except Raised Reply :=
  match w.inflight.lookup tx with
  | some t =>
    let w' := { w with inflight := w.inflight.delete tx }
    w'.settle (w.runAppend a t.startedAt)
  | none => (w, .error .transientStorageError)

/-- Run a transaction; `none` while a row it has to write is locked. -/
def exec (c : Txn) (w : World) : Option (World × Except Raised Reply) :=
  match c with
  | .append a =>
    match w.duplicate a with
    | some answer => some (w, answer)
    | none =>
      if (a.mutation.locks).any w.locked then none else some (w.settle (w.runAppend a w.clock))
  | .openFenced f => w.openFenced f
  | .closeFenced tx a => some (w.closeFenced tx a)
  | .claimOutbox tenantId leaseOwner duration limit destination =>
    let (db, messages) := w.claimOutbox tenantId leaseOwner duration limit destination
    some ({ w with db := db }, .ok { messages := messages })
  | .markOutboxPublished tenantId messageId owner expiresAt publishedAt =>
    some (w.settle (w.updateOutbox tenantId messageId owner expiresAt
      fun row => { row with state := .published publishedAt }))
  | .markOutboxFailed tenantId messageId owner expiresAt retryAt errorCode =>
    some (w.settle (w.updateOutbox tenantId messageId owner expiresAt
      fun row => { row with
        state := if row.maxAttempts ≤ row.attemptCount then .deadLetter else .pending
        availableAt := retryAt
        lastErrorCode := some errorCode }))
  | .markOutboxDeadLettered tenantId messageId owner expiresAt errorCode =>
    some (w.settle (w.updateOutbox tenantId messageId owner expiresAt
      fun row => { row with state := .deadLetter, lastErrorCode := some errorCode }))
  | .approveRequeue tenantId workId approval expiresAt =>
    some (w.settle (w.approveRequeue tenantId workId approval expiresAt))

/-- Give a transaction up: a fenced one loses its lock. -/
def abort (c : Txn) (w : World) : World × Except Raised Reply :=
  match c with
  | .closeFenced tx _ => ({ w with inflight := w.inflight.delete tx }, .error .transientStorageError)
  | _ => (w, .error .transientStorageError)

/-- The clock does not go back; rebuilds of the usage projection and locks of outbox
rows come and go. -/
def tick (w w' : World) : Prop :=
  ∃ clock maintenance outboxLocked, w.clock ≤ clock ∧
    w' = { w with clock := clock, maintenance := maintenance, outboxLocked := outboxLocked }

end World

/-- The shared store of the platform's processes. -/
def postgres : Store World Txn (Except Raised Reply) where
  exec := World.exec
  abort := World.abort
  tick := World.tick

end AegisPlatform
