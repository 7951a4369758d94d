import AegisPlatform.Lib.Assoc
import AegisPlatform.Projections.Views
import AegisPlatform.System.Cursor

/-!
# The projection engine

`catch_up` and `rebuild`, one call of the repository or of the event store at a time.  A
call of the engine is kept as the place it has reached in its loop, so that anything may
happen between two of its steps: other engines, resets, appends statement by statement.

* `validatePage` — the checks on a page before it is applied.
* `EngineCall.step` — the next call, and where the engine is afterwards.
* `ProjectionSys`, `ProjectionStep`, `ProjectionRun` — any number of engines beside any
  number of appends.
-/

namespace AegisPlatform

open Fallible Transactions

/-! ## Pages -/

/-- The loop of `_validate_page` over the events. -/
def checkVersions : Assoc String ℕ → List ReplayedEvent → Except Raised (Assoc String ℕ)
  | versions, [] => .ok versions
  | versions, row :: rest => do
    let previous := match versions.lookup row.event.aggregateId with
      | some version => some version
      | none => row.previousAggregateSequence
    raiseIf (previous.any fun previous => row.event.aggregateSequence ≠ previous + 1)
      (.replayCorruptionError "aggregate sequence gap detected during replay")
    checkVersions (versions.set row.event.aggregateId row.event.aggregateSequence) rest

/-- `_validate_page`. -/
def validatePage (events : List ReplayedEvent) (cursor : ℕ) (aggregateVersions : Assoc String ℕ) :
    Except Raised (Assoc String ℕ) := do
  let positions := events.map (·.event.globalPosition)
  raiseIf (positions.any (·.isNone))
    (.replayCorruptionError "projection replay requires global positions")
  let numericPositions := positions.filterMap id
  raiseIf (numericPositions ≠ numericPositions.dedup.mergeSort (· ≤ ·))
    (.replayCorruptionError "global event positions are not strictly monotonic")
  raiseIf (numericPositions.head?.any (· ≤ cursor))
    (.replayCorruptionError "projection page overlaps its checkpoint")
  checkVersions aggregateVersions events

/-! ## The loop -/

/-- Where a call of the engine is: what it waits for, or how it has ended. -/
inductive EngineState where
  /-- `rebuild`, before `reset`. -/
  | resetting
  /-- `catch_up`, before `checkpoint`. -/
  | loading
  /-- In the loop, before `read_all`. -/
  | reading (cursor : ℕ) (aggregateVersions : Assoc String ℕ)
  /-- In the loop, before `apply`. -/
  | applying (cursor : ℕ) (aggregateVersions : Assoc String ℕ) (page : EventPage)
  | returned (checkpoint : ℕ)
  | raised (e : Raised)

/-- A call of an engine. -/
structure EngineCall where
  context : TenantContext
  projection : ProjectionName
  pageSize : ℤ
  /-- The check of the engine's constructor. -/
  valid : 1 ≤ pageSize ∧ pageSize ≤ 1000
  state : EngineState

namespace EngineCall

/-- Has the call not ended yet? -/
def isRunning (c : EngineCall) : Bool :=
  match c.state with
  | .returned _ | .raised _ => false
  | _ => true

/-- After `read_all`. -/
def afterRead (cursor : ℕ) (aggregateVersions : Assoc String ℕ) :
    Except Raised EventPage → EngineState
  | .error e => .raised e
  | .ok page =>
    if page.events.isEmpty then .returned cursor
    else match validatePage page.events cursor aggregateVersions with
      | .error e => .raised e
      | .ok aggregateVersions => .applying cursor aggregateVersions page

/-- The next call of the engine. -/
def step (text : PayloadText) (l : Ledger) (v : Views) (c : EngineCall) : Views × EngineCall :=
  match c.state with
  | .resetting => (v.reset c.context.tenantId c.projection, { c with state := .loading })
  | .loading =>
    (v, { c with state := .reading (v.checkpoint c.context.tenantId c.projection) [] })
  | .reading cursor versions =>
    (v, { c with state := afterRead cursor versions (l.readAll c.context cursor c.pageSize) })
  | .applying cursor versions page =>
    match v.apply text c.context c.projection (page.events.map (·.event)) cursor with
    | .error e => (v, { c with state := .raised e })
    | .ok (cursor, v) =>
      (v, { c with
        state := if page.nextCursor.isNone then .returned cursor else .reading cursor versions })
  | .returned _ | .raised _ => (v, c)

end EngineCall

/-! ## Engines beside appends -/

/-- The event store with its calls, the read models, and the calls of engines. -/
structure ProjectionSys where
  ledger : LedgerSys
  views : Views
  engines : List EngineCall

/-- What a call of an engine starts with. -/
def EngineState.isStart : EngineState → Bool
  | .resetting | .loading => true
  | _ => false

/-- One step: of the event store, a call of `reset`, the start of a `catch_up` or
`rebuild`, or the next call of an engine, which may also fail and take no effect.  An
engine that crashes takes no further step. -/
inductive ProjectionStep (text : PayloadText) : ProjectionSys → ProjectionSys → Prop
  | ledger {s : ProjectionSys} {a : Action AppendCall} {l : LedgerSys} :
      LedgerStep s.ledger a l → ProjectionStep text s { s with ledger := l }
  | reset {s : ProjectionSys} (context : TenantContext) (p : ProjectionName) :
      ProjectionStep text s { s with views := s.views.reset context.tenantId p }
  | call {s : ProjectionSys} (c : EngineCall) : c.state.isStart = true →
      ProjectionStep text s { s with engines := s.engines ++ [c] }
  | engine {s : ProjectionSys} {i : ℕ} {c : EngineCall} : s.engines[i]? = some c →
      ProjectionStep text s { s with
        views := (c.step text s.ledger.shared s.views).1
        engines := s.engines.set i (c.step text s.ledger.shared s.views).2 }
  | fail {s : ProjectionSys} {i : ℕ} {c : EngineCall} (e : Raised) : s.engines[i]? = some c →
      c.isRunning = true →
      ProjectionStep text s { s with engines := s.engines.set i { c with state := .raised e } }

/-- The states that engines and appends reach from an empty database. -/
inductive ProjectionRun (text : PayloadText) (tenants : List String) (clock : Timestamp) :
    ProjectionSys → Prop
  | start : ProjectionRun text tenants clock ⟨⟨Ledger.fresh tenants clock, []⟩, {}, []⟩
  | step {s s' : ProjectionSys} : ProjectionRun text tenants clock s → ProjectionStep text s s' →
      ProjectionRun text tenants clock s'

end AegisPlatform
