import AegisPlatform.Lib.Effects
import AegisPlatform.Runtime.Delivery

/-!
# The worker supervisor

`WorkerSupervisor._process` takes one delivery from claim to acknowledgement.  Queue,
state store, quota, clock and handler are its environment: each call may be answered
with a value or with any exception, whatever was called before.

The handler runs against a heartbeat and a timeout.  What comes of that race is one
answer, a `Race`: how the heartbeats went while it lasted, and what the handler ended
with if it ended; `Race.result` is what `_execute_handler` makes of it.

* `process`, `recordFailure`, `Race.result` — the code.
* `Thrown` — the exceptions, as the `except` clauses tell them apart.
-/

namespace AegisPlatform

open Effects

/-! ## Exceptions -/

/-- An exception that reaches the supervisor. -/
inductive Thrown where
  /-- An error of the state store. -/
  | raised (e : Raised)
  | timeoutError
  | workerExecutionError (failureClass : FailureClass) (errorCode : String)
  /-- `asyncio.CancelledError`, which `except Exception` does not catch. -/
  | cancelledError
  /-- Any other exception, by its class. -/
  | other (name : String)
  deriving DecidableEq, Repr

namespace Thrown

/-- Is it caught by `except ValueError`? -/
def isValueError : Thrown → Bool
  | raised (.valueError _) => true
  | _ => false

/-- Is it caught by `except ConcurrencyError`? -/
def isConcurrencyError : Thrown → Bool
  | raised e => e.isConcurrencyError
  | _ => false

/-- Is it caught by `except FencingError`? -/
def isFencingError : Thrown → Bool
  | raised (.fencingError ..) => true
  | _ => false

end Thrown

/-! ## The environment -/

/-- Provider-neutral handler result. -/
structure WorkResult where
  resultReference : String
  valid : resultReference ≠ ""
  deriving DecidableEq, Repr

/-- One round of the heartbeat: whether cancellation was requested, and, unless the
race was over by then, the renewal of the lease. -/
structure Beat where
  cancellationRequested : Except Thrown Bool
  heartbeat : Option (Except Thrown WorkLease)

/-- What happened while the supervisor waited for the handler. -/
structure Race where
  beats : List Beat
  /-- How the handler ended, or `none` when the timeout came first. -/
  finished : Option (Except Thrown WorkResult)

/-- The calls `_process` makes. -/
inductive WorkerCall where
  | clock
  | deliveryComplete (tenant : TenantContext) (workId : UUID)
  | acknowledge (delivery : QueueDelivery)
  | quarantine (delivery : QueueDelivery) (reasonCode : String)
  | markPublished (tenant : TenantContext) (delivery : QueueDelivery) (at' : Timestamp)
  | quota (tenant : TenantContext)
  | claim (tenant : TenantContext) (delivery : QueueDelivery) (owner : String)
      (now expiresAt : Timestamp) (tenantConcurrencyLimit : ℤ)
  | start (tenant : TenantContext) (delivery : QueueDelivery) (lease : WorkLease) (at' : Timestamp)
  /-- The race of the handler against heartbeat and timeout. -/
  | execute (tenant : TenantContext) (delivery : QueueDelivery) (lease : WorkLease)
  | cancellationRequested (tenant : TenantContext) (workId : UUID)
  | succeed (tenant : TenantContext) (delivery : QueueDelivery) (lease : WorkLease)
      (at' : Timestamp) (resultReference : String)
  | cancel (tenant : TenantContext) (delivery : QueueDelivery) (lease : WorkLease)
      (at' : Timestamp)
  | fail (tenant : TenantContext) (delivery : QueueDelivery) (lease : WorkLease)
      (at' : Timestamp) (failureClass : FailureClass) (errorCode : String)
      (retryAt : Option Timestamp)

/-- What a call is answered with. -/
abbrev WorkerCall.Reply : WorkerCall → Type
  | clock => Timestamp
  | deliveryComplete .. | cancellationRequested .. | fail .. => Bool
  | quota _ => ℤ
  | claim .. => Option WorkLease
  | execute .. => Race
  | acknowledge _ | quarantine .. | markPublished .. | start .. | succeed .. | cancel .. => Unit

/-- A program of the supervisor. -/
abbrev Worker (α : Type) := Prog WorkerCall WorkerCall.Reply Thrown α

/-- The calls the supervisor has made, with their answers. -/
abbrev WorkerHistory := History WorkerCall WorkerCall.Reply Thrown

/-- One call. -/
abbrev Worker.ask (c : WorkerCall) : Worker c.Reply := Prog.ask c

/-- `self._clock()`. -/
abbrev Worker.clock : Worker Timestamp := ask .clock

/-- How the supervisor was set up, checked as `__init__` does.  `delay` is
`backoff.delay`. -/
structure WorkerSettings where
  workerId : String
  maxConcurrency : ℕ
  leaseDuration : ℤ
  heartbeatInterval : ℤ
  delay : ℤ → ℤ
  identified : workerId ≠ ""
  bounded : 1 ≤ maxConcurrency ∧ maxConcurrency ≤ 1000
  renewed : 0 < heartbeatInterval ∧ heartbeatInterval < leaseDuration

/-! ## Running the handler -/

/-- `_timeout_seconds`. -/
def timeoutSeconds (delivery : QueueDelivery) : Except Thrown ℤ :=
  match (delivery.envelope.payload.get? "timeout_seconds").getD (.int 300) with
  | .int value =>
    if 1 ≤ value ∧ value ≤ 86400 then .ok value
    else .error (.workerExecutionError .permanent "invalid_task_timeout")
  | _ => .error (.workerExecutionError .permanent "invalid_task_timeout")

namespace Race

/-- The heartbeat task: the exception it ended with, or `none` while it runs.  It does
not return by itself before the race is over. -/
def heartbeat : List Beat → Option Thrown
  | [] => none
  | beat :: rest =>
    match beat.cancellationRequested with
    | .error e => some e
    | .ok _ =>
      match beat.heartbeat with
      | some (.error _) => some (.workerExecutionError .retryable "heartbeat_failed")
      | some (.ok _) => heartbeat rest
      | none => none

/-- `_execute_handler`: what the race comes to. -/
def result (delivery : QueueDelivery) (race : Race) : Except Thrown WorkResult := do
  let _ ← timeoutSeconds delivery
  match heartbeat race.beats, race.finished with
  | some e, _ => .error e
  | none, some outcome => outcome
  | none, none => .error .timeoutError

end Race

/-! ## Processing a delivery -/

section

open Worker

variable (settings : WorkerSettings) (tenant : TenantContext) (delivery : QueueDelivery)

/-- `_record_failure`: whether the failure was recorded. -/
def recordFailure (lease : WorkLease) (failureClass : FailureClass) (errorCode : String) :
    Worker Bool := do
  let retryAt ← if failureClass = .retryable ∨ failureClass = .timeout then do
      let now ← clock
      pure (some (now + settings.delay lease.attempt))
    else pure none
  let at' ← clock
  tryCatch (do
      let _terminal ← ask (.fail tenant delivery lease at' failureClass errorCode retryAt)
      pure true)
    fun e => if e.isFencingError then pure false else throw e

/-- Cancel the work, and say that its outcome is durable. -/
def recordCancel (lease : WorkLease) : Worker Bool := do
  let at' ← clock
  let _ ← ask (.cancel tenant delivery lease at')
  return true

/-- Start the handler and record what it ends with. -/
def attempt (lease : WorkLease) : Worker Bool := do
  let at' ← clock
  let _ ← ask (.start tenant delivery lease at')
  let race : Race ← ask (.execute tenant delivery lease)
  let result ← Prog.ofExcept (race.result delivery)
  let requested : Bool ← ask (.cancellationRequested tenant lease.workId)
  if requested then recordCancel tenant delivery lease
  else do
    let at' ← clock
    let _ ← ask (.succeed tenant delivery lease at' result.resultReference)
    let _completedAt ← clock
    return true

/-- The `except` clauses around an attempt, in their order: whether the outcome is
durable. -/
def handleFailure (lease : WorkLease) : Thrown → Worker Bool
  | .timeoutError => recordFailure settings tenant delivery lease .timeout "task_timeout"
  | .workerExecutionError failureClass errorCode =>
    if failureClass = .cancelled then do
      let requested : Bool ← ask (.cancellationRequested tenant lease.workId)
      if requested then recordCancel tenant delivery lease else return false
    else recordFailure settings tenant delivery lease failureClass errorCode
  | .raised (.fencingError _ _) => do
    let requested : Bool ← ask (.cancellationRequested tenant lease.workId)
    if requested then
      tryCatch (recordCancel tenant delivery lease)
        fun e => if e.isFencingError then pure false else throw e
    else return false
  | .cancelledError => throw .cancelledError
  | _ => recordFailure settings tenant delivery lease .workerBug "unhandled_worker_exception"

/-- Acknowledge the delivery if its work is over. -/
def acknowledgeComplete : Worker Unit := do
  let complete : Bool ← ask (.deliveryComplete tenant delivery.envelope.workId)
  if complete then ask (.acknowledge delivery) else return ()

/-- Publish and claim the delivery: the claim's answer, or `none` when the delivery was
refused and the `except` clauses have settled it. -/
def claimDelivery (startedAt : Timestamp) : Worker (Option (Option WorkLease)) :=
  tryCatch (do
      let _ ← ask (.markPublished tenant delivery startedAt)
      let quota : ℤ ← ask (.quota tenant)
      let lease : Option WorkLease ← ask (.claim tenant delivery settings.workerId startedAt
        (startedAt + settings.leaseDuration) quota)
      pure (some lease))
    fun e =>
      if e.isValueError then do
        let _ ← ask (.quarantine delivery "authoritative_delivery_rejected")
        pure none
      else if e.isConcurrencyError then do
        acknowledgeComplete tenant delivery
        pure none
      else throw e

end

/-- `_process`. -/
def process (settings : WorkerSettings) (delivery : QueueDelivery) : Worker Unit :=
  if h : isIdentifier delivery.envelope.tenantId = true then do
    let tenant : TenantContext := ⟨delivery.envelope.tenantId, h⟩
    let startedAt ← Worker.clock
    let complete : Bool ← Worker.ask (.deliveryComplete tenant delivery.envelope.workId)
    if complete then Worker.ask (.acknowledge delivery)
    else do
      match ← claimDelivery settings tenant delivery startedAt with
      | none => return ()
      | some none => acknowledgeComplete tenant delivery
      | some (some lease) => do
        let durable ← tryCatch (attempt tenant delivery lease)
          (handleFailure settings tenant delivery lease)
        if durable then Worker.ask (.acknowledge delivery) else return ()
  else Worker.ask (.quarantine delivery "invalid_tenant_envelope")

end AegisPlatform
