import AegisPlatform.Domain.Events

/-!
# Event rows

An event is written to `events` as a tuple of values in the order of the INSERT, and read as a
tuple in the order of a SELECT.

* `PyValue`, `freezeJson`, `thawJson` — JSON as Python holds it, its containers included.
* `Rows.EventEnvelope`, `Rows.make` — the envelope with every field; `make_ofEnvelope` is how the
  envelope of the other modules is one.
* `eventInsertValues`, `eventFromRow` — the code; `insertColumns`, `readStream` and `readAll` are
  the statements' columns.
* `event_row_roundtrip` — what is read back is what was written.
-/

namespace AegisPlatform

open Fallible

/-! ## JSON as Python holds it -/

/-- The class of a mapping. -/
inductive MappingKind where
  | dict
  | proxy
  | other
  deriving DecidableEq, Repr

/-- The class of a sequence that is no text and no bytes. -/
inductive SequenceKind where
  | list
  | tuple
  | other
  deriving DecidableEq, Repr

/-- A key of a mapping. -/
inductive PyKey where
  | str (s : String)
  | other
  deriving DecidableEq, Repr

/-- A Python value given as JSON. -/
inductive PyValue where
  | none
  | bool (b : Bool)
  | int (n : ℤ)
  | float (bits : BitVec 64)
  | str (s : String)
  | sequence (kind : SequenceKind) (items : List PyValue)
  | mapping (kind : MappingKind) (fields : List (PyKey × PyValue))
  /-- Bytes, a set, any other object. -/
  | unsupported (typeName : String)

/-- A mapping given as JSON.  Its keys are distinct. -/
structure PyMapping where
  kind : MappingKind
  fields : List (PyKey × PyValue)

mutual

/-- `freeze_json`. -/
def freezeJson : PyValue → Except Raised PyValue
  | .float bits =>
    if (floatValue bits).isSome then .ok (.float bits)
    else .error (.valueError "JSON numbers must be finite")
  | .mapping _ fields => (freezeFields fields).map (.mapping .proxy)
  | .sequence _ items => (freezeItems items).map (.sequence .tuple)
  | .unsupported typeName => .error (.valueError ("unsupported JSON value type: " ++ typeName))
  | value => .ok value

/-- `freeze_json` of the items of a sequence. -/
def freezeItems : List PyValue → Except Raised (List PyValue)
  | [] => .ok []
  | item :: rest => do
    let item ← freezeJson item
    let rest ← freezeItems rest
    return item :: rest

/-- The loop of `freeze_json_mapping`. -/
def freezeFields : List (PyKey × PyValue) → Except Raised (List (PyKey × PyValue))
  | [] => .ok []
  | (.other, _) :: _ => .error (.valueError "JSON object keys must be strings")
  | (.str key, item) :: rest => do
    let item ← freezeJson item
    let rest ← freezeFields rest
    return (.str key, item) :: rest

end

mutual

/-- `thaw_json`. -/
def thawJson : PyValue → PyValue
  | .mapping _ fields => .mapping .dict (thawFields fields)
  | .sequence _ items => .sequence .list (thawItems items)
  | value => value

/-- `thaw_json` of the items of a sequence. -/
def thawItems : List PyValue → List PyValue
  | [] => []
  | item :: rest => thawJson item :: thawItems rest

/-- `thaw_json` of the fields of a mapping. -/
def thawFields : List (PyKey × PyValue) → List (PyKey × PyValue)
  | [] => []
  | (key, item) :: rest => (key, thawJson item) :: thawFields rest

end

namespace PyMapping

/-- `freeze_json_mapping`. -/
def freeze (m : PyMapping) : Except Raised PyMapping :=
  (freezeFields m.fields).map fun fields => ⟨.proxy, fields⟩

/-- `thaw_json` of a mapping. -/
def thaw (m : PyMapping) : PyMapping := ⟨.dict, thawFields m.fields⟩

end PyMapping

mutual

/-- **Frozen JSON survives thawing.** -/
theorem freezeJson_thawJson : ∀ {v w : PyValue}, freezeJson v = .ok w →
    freezeJson (thawJson w) = .ok w
  | .none, _, h => by cases h; rfl
  | .bool _, _, h => by cases h; rfl
  | .int _, _, h => by cases h; rfl
  | .str _, _, h => by cases h; rfl
  | .unsupported _, _, h => by cases h
  | .float bits, _, h => by
    rw [freezeJson] at h
    by_cases hfinite : (floatValue bits).isSome
    · rw [if_pos hfinite] at h
      cases h
      show freezeJson (.float bits) = _
      rw [freezeJson, if_pos hfinite]
    · rw [if_neg hfinite] at h
      cases h
  | .sequence _ items, _, h => by
    rw [freezeJson, map_eq_ok] at h
    obtain ⟨frozen, hitems, rfl⟩ := h
    rw [thawJson, freezeJson, freezeItems_thawItems hitems]
    rfl
  | .mapping _ fields, _, h => by
    rw [freezeJson, map_eq_ok] at h
    obtain ⟨frozen, hfields, rfl⟩ := h
    rw [thawJson, freezeJson, freezeFields_thawFields hfields]
    rfl

theorem freezeItems_thawItems : ∀ {xs ys : List PyValue}, freezeItems xs = .ok ys →
    freezeItems (thawItems ys) = .ok ys
  | [], _, h => by cases h; rfl
  | x :: xs, _, h => by
    simp only [freezeItems, bind_eq_ok, pure_eq_ok] at h
    obtain ⟨y, hy, ys, hys, rfl⟩ := h
    rw [thawItems, freezeItems, freezeJson_thawJson hy, freezeItems_thawItems hys]
    rfl

theorem freezeFields_thawFields : ∀ {fs gs : List (PyKey × PyValue)}, freezeFields fs = .ok gs →
    freezeFields (thawFields gs) = .ok gs
  | [], _, h => by cases h; rfl
  | (.other, _) :: _, _, h => by cases h
  | (.str key, x) :: rest, _, h => by
    simp only [freezeFields, bind_eq_ok, pure_eq_ok] at h
    obtain ⟨y, hy, ys, hys, rfl⟩ := h
    rw [thawFields, freezeFields, freezeJson_thawJson hy, freezeFields_thawFields hys]
    rfl

end

theorem PyMapping.freeze_thaw {m m' : PyMapping} (h : m.freeze = .ok m') :
    m'.thaw.freeze = .ok m' := by
  rw [freeze, map_eq_ok] at h
  obtain ⟨fields, hfields, rfl⟩ := h
  rw [freeze, thaw, freezeFields_thawFields hfields]
  rfl

/-! ## The envelope -/

/-- The kind of principal that caused an event. -/
inductive ActorKind where
  | user
  | service
  | system
  deriving DecidableEq, Repr

namespace ActorKind

/-- The stored name of a kind. -/
def value : ActorKind → String
  | user => "user"
  | service => "service"
  | system => "system"

/-- `ActorKind(name)`. -/
def ofValue? (name : String) : Option ActorKind :=
  [user, service, system].find? fun kind => kind.value = name

theorem ofValue?_value (kind : ActorKind) : ofValue? kind.value = some kind := by
  cases kind <;> decide

end ActorKind

/-- The actor of an event. -/
structure ActorReference where
  actorId : String
  kind : ActorKind
  valid : actorId ≠ ""

/-- W3C trace context. -/
structure TraceContext where
  traceparent : String
  tracestate : Option String := none
  valid : traceparent ≠ ""

namespace Rows

/-- An event with every field of its envelope. -/
structure EventEnvelope where
  eventId : UUID
  tenantId : String
  aggregateId : String
  eventType : String
  schemaVersion : ℤ
  occurredAt : Timestamp
  payload : PyMapping
  correlationId : Option UUID := none
  causationId : Option UUID := none
  aggregateSequence : ℤ := 0
  globalPosition : Option ℤ := none
  recordedAt : Option Timestamp := none
  actor : Option ActorReference := none
  identityReference : Option String := none
  policyReference : Option String := none
  auditReference : Option UUID := none
  idempotencyKey : Option String := none
  traceContext : Option TraceContext := none
  previousAggregateSequence : Option ℤ := none
  metadata : PyMapping := ⟨.proxy, []⟩

/-- `EventEnvelope.__post_init__`. -/
def make (e : EventEnvelope) : Except Raised EventEnvelope := do
  raiseIf (e.schemaVersion < 1) (.valueError "schema_version must be positive")
  raiseIf (isBlank e.tenantId ∨ isBlank e.aggregateId ∨ isBlank e.eventType)
    (.valueError "tenant, aggregate, and event type are required")
  raiseIf (e.aggregateSequence < 0) (.valueError "aggregate_sequence cannot be negative")
  raiseIf (∃ position ∈ e.globalPosition, position < 1)
    (.valueError "global_position must be positive")
  raiseIf (∃ previous ∈ e.previousAggregateSequence, previous < 0)
    (.valueError "previous_aggregate_sequence cannot be negative")
  raiseIf (e.idempotencyKey = some "") (.valueError "idempotency_key cannot be empty")
  let payload ← e.payload.freeze
  let metadata ← e.metadata.freeze
  return { e with payload := payload, metadata := metadata }

/-- What the constructor has checked of an event. -/
structure Made (e : EventEnvelope) : Prop where
  schemaVersion : 1 ≤ e.schemaVersion
  names : ¬(isBlank e.tenantId ∨ isBlank e.aggregateId ∨ isBlank e.eventType)
  aggregateSequence : 0 ≤ e.aggregateSequence
  globalPosition : ∀ position ∈ e.globalPosition, 1 ≤ position
  previous : ∀ previous ∈ e.previousAggregateSequence, 0 ≤ previous
  idempotencyKey : e.idempotencyKey ≠ some ""
  payload : e.payload.thaw.freeze = .ok e.payload
  metadata : e.metadata.thaw.freeze = .ok e.metadata

theorem make_eq_ok {e : EventEnvelope} {payload metadata : PyMapping}
    (hversion : ¬e.schemaVersion < 1)
    (hnames : ¬(isBlank e.tenantId ∨ isBlank e.aggregateId ∨ isBlank e.eventType))
    (hsequence : ¬e.aggregateSequence < 0)
    (hposition : ¬∃ position ∈ e.globalPosition, position < 1)
    (hprevious : ¬∃ previous ∈ e.previousAggregateSequence, previous < 0)
    (hkey : e.idempotencyKey ≠ some "") (hpayload : e.payload.freeze = .ok payload)
    (hmetadata : e.metadata.freeze = .ok metadata) :
    make e = .ok { e with payload := payload, metadata := metadata } := by
  rw [make, raiseIf_bind, if_neg hversion, raiseIf_bind, if_neg hnames, raiseIf_bind,
    if_neg hsequence, raiseIf_bind, if_neg hposition, raiseIf_bind, if_neg hprevious, raiseIf_bind,
    if_neg hkey, hpayload, hmetadata]
  rfl

theorem made_of_make {given e : EventEnvelope} (h : make given = .ok e) : Made e := by
  simp only [make, bind_eq_ok, raiseIf_eq_ok, pure_eq_ok] at h
  obtain ⟨-, hversion, -, hnames, -, hsequence, -, hposition, -, hprevious, -, hkey, payload,
    hpayload, metadata, hmetadata, rfl⟩ := h
  refine ⟨not_lt.mp hversion, hnames, not_lt.mp hsequence, fun position hp => ?_,
    fun previous hp => ?_, hkey, PyMapping.freeze_thaw hpayload,
    PyMapping.freeze_thaw hmetadata⟩
  · exact not_lt.mp fun hlt => hposition ⟨position, hp, hlt⟩
  · exact not_lt.mp fun hlt => hprevious ⟨previous, hp, hlt⟩

/-! ## Columns -/

/-- The columns of `events`, and the one `_READ_ALL` adds. -/
inductive Column where
  | eventId
  | tenantId
  | aggregateId
  | aggregateSequence
  | globalPosition
  | eventType
  | schemaVersion
  | occurredAt
  | recordedAt
  | payload
  | metadata
  | correlationId
  | causationId
  | actorId
  | actorKind
  | identityReference
  | policyReference
  | auditReference
  | idempotencyKey
  | traceparent
  | tracestate
  | previousAggregateSequence
  deriving DecidableEq, Repr

open Column in
/-- The columns of the INSERT. -/
def insertColumns : List Column :=
  [eventId, tenantId, aggregateId, aggregateSequence, eventType, schemaVersion, occurredAt, payload,
    metadata, correlationId, causationId, actorId, actorKind, identityReference, policyReference,
    auditReference, idempotencyKey, traceparent, tracestate]

open Column in
/-- The columns of `_READ_STREAM`. -/
def readStream : List Column :=
  [eventId, tenantId, aggregateId, aggregateSequence, globalPosition, eventType, schemaVersion,
    occurredAt, recordedAt, payload, metadata, correlationId, causationId, actorId, actorKind,
    identityReference, policyReference, auditReference, idempotencyKey, traceparent, tracestate]

/-- The columns of `_READ_ALL`. -/
def readAll : List Column := readStream ++ [.previousAggregateSequence]

/-- A value of a column. -/
inductive Cell where
  | null
  | uuid (u : UUID)
  | text (s : String)
  | integer (n : ℤ)
  | timestamp (t : Timestamp)
  | jsonb (m : PyMapping)

namespace Cell

def ofOption {α : Type} (cell : α → Cell) : Option α → Cell
  | none => null
  | some a => cell a

def uuid? : Cell → Option UUID
  | uuid u => some u
  | _ => none

def text? : Cell → Option String
  | text s => some s
  | _ => none

def integer? : Cell → Option ℤ
  | integer n => some n
  | _ => none

def timestamp? : Cell → Option Timestamp
  | timestamp t => some t
  | _ => none

def jsonb? : Cell → Option PyMapping
  | jsonb m => some m
  | _ => none

end Cell

/-- `_event_insert_values`. -/
def eventInsertValues (event : EventEnvelope) (aggregateSequence : ℤ) : List Cell :=
  [.uuid event.eventId,
    .text event.tenantId,
    .text event.aggregateId,
    .integer aggregateSequence,
    .text event.eventType,
    .integer event.schemaVersion,
    .timestamp event.occurredAt,
    .jsonb event.payload.thaw,
    .jsonb event.metadata.thaw,
    .ofOption .uuid event.correlationId,
    .ofOption .uuid event.causationId,
    .ofOption .text (event.actor.map (·.actorId)),
    .ofOption .text (event.actor.map (·.kind.value)),
    .ofOption .text event.identityReference,
    .ofOption .text event.policyReference,
    .ofOption .uuid event.auditReference,
    .ofOption .text event.idempotencyKey,
    .ofOption .text (event.traceContext.map (·.traceparent)),
    .ofOption .text (event.traceContext.bind (·.tracestate))]

/-- A column of the row: what was inserted there, or what the database adds. -/
def storedColumn (values : List Cell) (globalPosition : ℤ) (recordedAt : Timestamp)
    (previous : Option ℤ) (column : Column) : Cell :=
  match column with
  | .globalPosition => .integer globalPosition
  | .recordedAt => .timestamp recordedAt
  | .previousAggregateSequence => .ofOption .integer previous
  | column => ((insertColumns.zip values).lookup column).getD .null

/-- A column that is not null. -/
def required {α : Type} (decode : Cell → Option α) (row : List Cell) (i : ℕ) : Except Raised α := do
  let cell ← orRaise .indexError row[i]?
  orRaise (.valueError "column type") (decode cell)

/-- A column that may be null. -/
def nullable {α : Type} (decode : Cell → Option α) (row : List Cell) (i : ℕ) :
    Except Raised (Option α) := do
  match ← orRaise .indexError row[i]? with
  | .null => return none
  | cell => (orRaise (.valueError "column type") (decode cell)).map some

/-- `ActorReference(actor_id=row[13], kind=ActorKind(row[14]))`, or no actor. -/
def actorFromRow (row : List Cell) : Except Raised (Option ActorReference) := do
  match ← nullable Cell.text? row 13 with
  | none => return none
  | some actorId =>
    let kind ← required Cell.text? row 14
    let kind ← orRaise (.valueError (kind ++ " is not a valid ActorKind")) (ActorKind.ofValue? kind)
    if h : actorId ≠ "" then return some ⟨actorId, kind, h⟩
    else throw (.valueError "actor_id is required")

/-- `TraceContext(traceparent=row[19], tracestate=row[20])`, or no trace context. -/
def traceFromRow (row : List Cell) : Except Raised (Option TraceContext) := do
  match ← nullable Cell.text? row 19 with
  | none => return none
  | some traceparent =>
    let tracestate ← nullable Cell.text? row 20
    if h : traceparent ≠ "" then return some ⟨traceparent, tracestate, h⟩
    else throw (.valueError "traceparent is required")

/-- `int(row[21])`, where the row has it. -/
def previousFromRow (row : List Cell) : Except Raised (Option ℤ) :=
  if 21 < row.length then nullable Cell.integer? row 21 else .ok none

/-- `_event_from_row`. -/
def eventFromRow (row : List Cell) : Except Raised EventEnvelope := do
  let actor ← actorFromRow row
  let traceContext ← traceFromRow row
  make {
    eventId := ← required Cell.uuid? row 0
    tenantId := ← required Cell.text? row 1
    aggregateId := ← required Cell.text? row 2
    aggregateSequence := ← required Cell.integer? row 3
    globalPosition := ← nullable Cell.integer? row 4
    eventType := ← required Cell.text? row 5
    schemaVersion := ← required Cell.integer? row 6
    occurredAt := ← required Cell.timestamp? row 7
    recordedAt := ← nullable Cell.timestamp? row 8
    payload := ← required Cell.jsonb? row 9
    metadata := ← required Cell.jsonb? row 10
    correlationId := ← nullable Cell.uuid? row 11
    causationId := ← nullable Cell.uuid? row 12
    actor := actor
    identityReference := ← nullable Cell.text? row 15
    policyReference := ← nullable Cell.text? row 16
    auditReference := ← nullable Cell.uuid? row 17
    idempotencyKey := ← nullable Cell.text? row 18
    traceContext := traceContext
    previousAggregateSequence := ← previousFromRow row }

/-! ## The round trip -/

variable {e : EventEnvelope} {n globalPosition : ℤ} {recordedAt : Timestamp} {previous : Option ℤ}

/-- The event as it is read back. -/
def stored (e : EventEnvelope) (n globalPosition : ℤ) (recordedAt : Timestamp)
    (previous : Option ℤ) : EventEnvelope :=
  { e with
    aggregateSequence := n
    globalPosition := some globalPosition
    recordedAt := some recordedAt
    previousAggregateSequence := previous }

/-- The row of an event, as `_READ_STREAM` and `_READ_ALL` order it.  **The two orders match.** -/
theorem readAll_row : readAll.map (storedColumn (eventInsertValues e n) globalPosition recordedAt
    previous) =
    [.uuid e.eventId, .text e.tenantId, .text e.aggregateId, .integer n, .integer globalPosition,
      .text e.eventType, .integer e.schemaVersion, .timestamp e.occurredAt, .timestamp recordedAt,
      .jsonb e.payload.thaw, .jsonb e.metadata.thaw, .ofOption .uuid e.correlationId,
      .ofOption .uuid e.causationId, .ofOption .text (e.actor.map (·.actorId)),
      .ofOption .text (e.actor.map (·.kind.value)), .ofOption .text e.identityReference,
      .ofOption .text e.policyReference, .ofOption .uuid e.auditReference,
      .ofOption .text e.idempotencyKey, .ofOption .text (e.traceContext.map (·.traceparent)),
      .ofOption .text (e.traceContext.bind (·.tracestate)), .ofOption .integer previous] :=
  rfl

theorem readStream_row : readStream.map (storedColumn (eventInsertValues e n) globalPosition
    recordedAt previous) =
    (readAll.map (storedColumn (eventInsertValues e n) globalPosition recordedAt previous)).take 21 :=
  rfl

theorem required_eq {α : Type} {decode : Cell → Option α} {row : List Cell} {i : ℕ} {cell : Cell}
    {a : α} (hcell : row[i]? = some cell) (ha : decode cell = some a) :
    required decode row i = .ok a := by
  rw [required, hcell]
  simp only [orRaise]
  show orRaise _ (decode cell) = _
  rw [ha]
  rfl

theorem nullable_eq {α : Type} {decode : Cell → Option α} {encode : α → Cell} {row : List Cell}
    {i : ℕ} {x : Option α} (hcell : row[i]? = some (.ofOption encode x))
    (hnull : ∀ a, encode a ≠ .null) (h : ∀ a, decode (encode a) = some a) :
    nullable decode row i = .ok x := by
  rw [nullable, hcell]
  simp only [orRaise]
  cases x with
  | none => rfl
  | some a =>
    have hcell : encode a = .ofOption encode (some a) := rfl
    have hne := hnull a
    rw [← hcell]
    cases hc : encode a with
    | null => exact absurd hc hne
    | _ =>
      have ha := h a
      rw [hc] at ha
      show (orRaise _ (decode _)).map some = _
      rw [ha]
      rfl

theorem text_eq {row : List Cell} {i : ℕ} {x : Option String}
    (h : row[i]? = some (.ofOption .text x)) : nullable Cell.text? row i = .ok x :=
  nullable_eq h (fun _ => Cell.noConfusion) fun _ => rfl

theorem uuid_eq {row : List Cell} {i : ℕ} {x : Option UUID}
    (h : row[i]? = some (.ofOption .uuid x)) : nullable Cell.uuid? row i = .ok x :=
  nullable_eq h (fun _ => Cell.noConfusion) fun _ => rfl

theorem integer_eq {row : List Cell} {i : ℕ} {x : Option ℤ}
    (h : row[i]? = some (.ofOption .integer x)) : nullable Cell.integer? row i = .ok x :=
  nullable_eq h (fun _ => Cell.noConfusion) fun _ => rfl

theorem timestamp_eq {row : List Cell} {i : ℕ} {x : Option Timestamp}
    (h : row[i]? = some (.ofOption .timestamp x)) : nullable Cell.timestamp? row i = .ok x :=
  nullable_eq h (fun _ => Cell.noConfusion) fun _ => rfl

/-- An actor is kept in two columns. -/
theorem actorFromRow_eq {row : List Cell} {actor : Option ActorReference}
    (hid : row[13]? = some (.ofOption .text (actor.map (·.actorId))))
    (hkind : row[14]? = some (.ofOption .text (actor.map (·.kind.value)))) :
    actorFromRow row = .ok actor := by
  rw [actorFromRow, text_eq hid]
  cases actor with
  | none => rfl
  | some actor =>
    obtain ⟨actorId, kind, hvalid⟩ := actor
    have hk : required Cell.text? row 14 = .ok kind.value := required_eq hkind rfl
    show (required Cell.text? row 14 >>= _) = _
    rw [hk]
    show (orRaise _ (ActorKind.ofValue? kind.value) >>= _) = _
    rw [ActorKind.ofValue?_value]
    show (if h : actorId ≠ "" then _ else _) = _
    rw [dif_pos hvalid]
    rfl

/-- A trace context is kept in two columns, the second of which may be null. -/
theorem traceFromRow_eq {row : List Cell} {trace : Option TraceContext}
    (hparent : row[19]? = some (.ofOption .text (trace.map (·.traceparent))))
    (hstate : row[20]? = some (.ofOption .text (trace.bind (·.tracestate)))) :
    traceFromRow row = .ok trace := by
  rw [traceFromRow, text_eq hparent]
  cases trace with
  | none => rfl
  | some trace =>
    obtain ⟨traceparent, tracestate, hvalid⟩ := trace
    have hs : nullable Cell.text? row 20 = .ok tracestate := text_eq hstate
    show (nullable Cell.text? row 20 >>= _) = _
    rw [hs]
    show (if h : traceparent ≠ "" then _ else _) = _
    rw [dif_pos hvalid]
    rfl

/-- What the constructor is given for a row. -/
theorem eventFromRow_eq {row : List Cell} {last : Option ℤ}
    (hrow : ∀ i < 21, row[i]? = (readAll.map (storedColumn (eventInsertValues e n) globalPosition
      recordedAt previous))[i]?) (hprevious : previousFromRow row = .ok last) :
    eventFromRow row = make { stored e n globalPosition recordedAt last with
      payload := e.payload.thaw, metadata := e.metadata.thaw } := by
  rw [readAll_row] at hrow
  have hactor := actorFromRow_eq (hrow 13 (by decide)) (hrow 14 (by decide))
  have htrace := traceFromRow_eq (hrow 19 (by decide)) (hrow 20 (by decide))
  have h0 : required Cell.uuid? row 0 = .ok e.eventId := required_eq (hrow 0 (by decide)) rfl
  have h1 : required Cell.text? row 1 = .ok e.tenantId := required_eq (hrow 1 (by decide)) rfl
  have h2 : required Cell.text? row 2 = .ok e.aggregateId := required_eq (hrow 2 (by decide)) rfl
  have h3 : required Cell.integer? row 3 = .ok n := required_eq (hrow 3 (by decide)) rfl
  have h4 : nullable Cell.integer? row 4 = .ok (some globalPosition) :=
    integer_eq (hrow 4 (by decide))
  have h5 : required Cell.text? row 5 = .ok e.eventType := required_eq (hrow 5 (by decide)) rfl
  have h6 : required Cell.integer? row 6 = .ok e.schemaVersion :=
    required_eq (hrow 6 (by decide)) rfl
  have h7 : required Cell.timestamp? row 7 = .ok e.occurredAt :=
    required_eq (hrow 7 (by decide)) rfl
  have h8 : nullable Cell.timestamp? row 8 = .ok (some recordedAt) :=
    timestamp_eq (hrow 8 (by decide))
  have h9 : required Cell.jsonb? row 9 = .ok e.payload.thaw := required_eq (hrow 9 (by decide)) rfl
  have h10 : required Cell.jsonb? row 10 = .ok e.metadata.thaw :=
    required_eq (hrow 10 (by decide)) rfl
  have h11 := uuid_eq (hrow 11 (by decide))
  have h12 := uuid_eq (hrow 12 (by decide))
  have h15 := text_eq (hrow 15 (by decide))
  have h16 := text_eq (hrow 16 (by decide))
  have h17 := uuid_eq (hrow 17 (by decide))
  have h18 := text_eq (hrow 18 (by decide))
  rw [eventFromRow]
  simp only [hactor, htrace, h0, h1, h2, h3, h4, h5, h6, h7, h8, h9, h10, h11, h12, h15, h16, h17,
    h18, hprevious]
  rfl

/-- What the constructor makes of it: the payload and the metadata frozen again. -/
theorem make_stored (h : Made e) (hn : 1 ≤ n) (hposition : 1 ≤ globalPosition)
    (hprevious : ∀ p ∈ previous, 0 ≤ p) :
    make { stored e n globalPosition recordedAt previous with
      payload := e.payload.thaw, metadata := e.metadata.thaw } =
      .ok (stored e n globalPosition recordedAt previous) := by
  have hpositions : ¬∃ position ∈ some globalPosition, position < 1 := by
    rintro ⟨position, hp, hlt⟩
    cases hp
    omega
  have hpreviouses : ¬∃ p ∈ previous, p < 0 := by
    rintro ⟨p, hp, hlt⟩
    have := hprevious p hp
    omega
  have hsequence : ¬n < 0 := by omega
  exact make_eq_ok (not_lt.mpr h.schemaVersion) h.names hsequence hpositions hpreviouses
    h.idempotencyKey h.payload h.metadata

/-- An event stored at sequence `n` is read back, by either SELECT, as it was but for the
columns that the ledger fills in. -/
theorem eventFromRow_stored (hmade : Made e) (hn : 1 ≤ n) (hposition : 1 ≤ globalPosition)
    (hprevious : ∀ p ∈ previous, 0 ≤ p) :
    eventFromRow (readStream.map (storedColumn (eventInsertValues e n) globalPosition recordedAt
        previous)) = .ok (stored e n globalPosition recordedAt none) ∧
    eventFromRow (readAll.map (storedColumn (eventInsertValues e n) globalPosition recordedAt
        previous)) = .ok (stored e n globalPosition recordedAt previous) := by
  constructor
  · have hrow : ∀ i < 21, (readStream.map (storedColumn (eventInsertValues e n) globalPosition
        recordedAt previous))[i]? = (readAll.map (storedColumn (eventInsertValues e n)
          globalPosition recordedAt previous))[i]? := by
      intro i hi
      rw [readStream_row, List.getElem?_take_of_lt hi]
    exact (eventFromRow_eq hrow rfl).trans
      (make_stored hmade hn hposition fun _ hp => by cases hp)
  · refine (eventFromRow_eq (fun _ _ => rfl) ?_).trans (make_stored hmade hn hposition hprevious)
    rw [readAll_row]
    exact integer_eq rfl

/-! ## The envelope of the other modules -/

mutual

/-- A JSON value as the envelope holds it. -/
def frozenValue : JsonValue → PyValue
  | .null => .none
  | .bool b => .bool b
  | .int n => .int n
  | .float bits => .float bits
  | .str s => .str s
  | .list xs => .sequence .tuple (frozenItems xs)
  | .obj fields => .mapping .proxy (frozenFields fields)

/-- The items of a list as the envelope holds them. -/
def frozenItems : List JsonValue → List PyValue
  | [] => []
  | x :: xs => frozenValue x :: frozenItems xs

/-- The fields of a mapping as the envelope holds them. -/
def frozenFields : Dict → List (PyKey × PyValue)
  | [] => []
  | (key, value) :: rest => (.str key, frozenValue value) :: frozenFields rest

end

mutual

theorem freezeJson_frozenValue : ∀ {v : JsonValue}, v.isFinite = true →
    freezeJson (frozenValue v) = .ok (frozenValue v)
  | .null, _ => rfl
  | .bool _, _ => rfl
  | .int _, _ => rfl
  | .str _, _ => rfl
  | .float bits, h => by
    rw [JsonValue.isFinite] at h
    rw [frozenValue, freezeJson, if_pos h]
  | .list xs, h => by
    rw [JsonValue.isFinite] at h
    rw [frozenValue, freezeJson, freezeItems_frozenItems h]
    rfl
  | .obj fields, h => by
    rw [JsonValue.isFinite] at h
    rw [frozenValue, freezeJson, freezeFields_frozenFields h]
    rfl

theorem freezeItems_frozenItems : ∀ {xs : List JsonValue}, JsonValue.isFiniteList xs = true →
    freezeItems (frozenItems xs) = .ok (frozenItems xs)
  | [], _ => rfl
  | x :: xs, h => by
    rw [JsonValue.isFiniteList, Bool.and_eq_true] at h
    rw [frozenItems, freezeItems, freezeJson_frozenValue h.1, freezeItems_frozenItems h.2]
    rfl

theorem freezeFields_frozenFields : ∀ {d : Dict}, JsonValue.isFiniteFields d = true →
    freezeFields (frozenFields d) = .ok (frozenFields d)
  | [], _ => rfl
  | (key, value) :: rest, h => by
    rw [JsonValue.isFiniteFields, Bool.and_eq_true] at h
    rw [frozenFields, freezeFields, freezeJson_frozenValue h.1, freezeFields_frozenFields h.2]
    rfl

end

/-- An envelope with the fields that the other modules read. -/
def ofEnvelope (e : AegisPlatform.EventEnvelope) : EventEnvelope where
  eventId := e.eventId
  tenantId := e.tenantId
  aggregateId := e.aggregateId
  eventType := e.eventType.value
  schemaVersion := e.schemaVersion
  occurredAt := e.occurredAt
  payload := ⟨.proxy, frozenFields e.payload⟩
  correlationId := e.correlationId
  causationId := e.causationId
  idempotencyKey := e.idempotencyKey

/-- What one constructor accepts the other does. -/
theorem make_ofEnvelope {e e' : AegisPlatform.EventEnvelope} (h : e.make = .ok e') :
    make (ofEnvelope e) = .ok (ofEnvelope e) := by
  have hfinite : JsonValue.isFiniteFields e.payload = true := by
    simp only [AegisPlatform.EventEnvelope.make, bind_eq_ok] at h
    obtain ⟨-, -, -, -, -, -, u, hfreeze, -⟩ := h
    by_contra hnot
    rw [freezeJsonMapping, if_neg hnot] at hfreeze
    cases hfreeze
  simp only [AegisPlatform.EventEnvelope.make, bind_eq_ok, raiseIf_eq_ok] at h
  obtain ⟨-, hversion, -, hnames, -, hkey, -⟩ := h
  have hpayload : (ofEnvelope e).payload.freeze = .ok (ofEnvelope e).payload := by
    show (freezeFields (frozenFields e.payload)).map _ = _
    rw [freezeFields_frozenFields hfinite]
    rfl
  refine make_eq_ok ?_ hnames (lt_irrefl 0) ?_ ?_ hkey hpayload rfl
  · show ¬(e.schemaVersion : ℤ) < 1
    omega
  · rintro ⟨position, hp, -⟩
    cases hp
  · rintro ⟨previous, hp, -⟩
    cases hp

/-- **Event rows round-trip**: what was accepted is read back as it was, but for the columns that
the ledger fills in; in particular frozen JSON survives thawing. -/
theorem event_rows :
    (∀ (given e : EventEnvelope) (n globalPosition : ℤ) (recordedAt : Timestamp)
      (previous : Option ℤ), make given = .ok e → 1 ≤ n → 1 ≤ globalPosition →
      (∀ p ∈ previous, 1 ≤ p) →
      eventFromRow (readStream.map (storedColumn (eventInsertValues e n) globalPosition recordedAt
          previous)) = .ok (stored e n globalPosition recordedAt none) ∧
      eventFromRow (readAll.map (storedColumn (eventInsertValues e n) globalPosition recordedAt
          previous)) = .ok (stored e n globalPosition recordedAt previous)) ∧
    ∀ v w : PyValue, freezeJson v = .ok w → freezeJson (thawJson w) = .ok w := by
  refine ⟨fun given e n globalPosition recordedAt previous hmake hn hposition hprevious => ?_,
    fun v w h => freezeJson_thawJson h⟩
  refine eventFromRow_stored (made_of_make hmake) hn hposition fun p hp => ?_
  have := hprevious p hp
  omega

/-- An event with an actor, no trace context and a nested payload. -/
def sampleEvent : EventEnvelope where
  eventId := UUID.ofNat 1
  tenantId := "acme"
  aggregateId := "run-1"
  eventType := "run.started.v1"
  schemaVersion := 1
  occurredAt := 0
  payload := ⟨.proxy, [(.str "steps", .sequence .tuple [.int 1, .mapping .proxy []])]⟩
  actor := some ⟨"alice", .user, by decide⟩

theorem event_rows_sample :
    eventFromRow (readAll.map (storedColumn (eventInsertValues sampleEvent 2) 7 5 (some 1))) =
      .ok (stored sampleEvent 2 7 5 (some 1)) := by
  have hmake : make sampleEvent = .ok sampleEvent :=
    make_eq_ok (by decide) (by decide) (by decide) (by rintro ⟨_, h, -⟩; cases h)
      (by rintro ⟨_, h, -⟩; cases h) (by decide) rfl rfl
  have hprevious : ∀ p ∈ some (1 : ℤ), 1 ≤ p := by
    rintro p ⟨⟩
    decide
  exact (event_rows.1 sampleEvent sampleEvent 2 7 5 (some 1) hmake (by decide) (by decide)
    hprevious).2

end Rows

end AegisPlatform
