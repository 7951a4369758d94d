import AegisPlatform.EventStore.Ledger

/-!
# Deliveries and the text they carry

A delivery comes from an untrusted transport: it names an outbox message and
carries a copy of the request, which `requestFromDelivery` parses.

Python's conversions between values and text are taken as they come (`PyText`):
nothing here depends on what they print or accept.
-/

namespace AegisPlatform

open Fallible

/-- The conversions of Python's standard library that the code applies to the
values it stores and reads. -/
structure PyText where
  /-- `str(value)` of a JSON value. -/
  str : JsonValue → String
  /-- `int(text)`. -/
  int : String → Option ℤ
  /-- `moment.isoformat()`. -/
  isoformat : Timestamp → String
  /-- `datetime.fromisoformat(text)`. -/
  fromisoformat : String → Option Timestamp
  /-- `str(amount)` of a decimal. -/
  strDecimal : Decimal → String
  /-- `len(json.dumps(value, separators=(",", ":"), sort_keys=True).encode())`. -/
  jsonBytes : JsonValue → ℕ
  /-- `sha256(json.dumps(value, …).encode()).hexdigest()`. -/
  jsonDigest : JsonValue → String

/-- Tenant-bound transport envelope with deterministic message identity. -/
structure MessageEnvelope where
  messageId : UUID
  tenantId : String
  workId : UUID
  eventId : Option UUID
  destination : String
  correlationId : UUID
  causationId : Option UUID
  occurredAt : Timestamp
  payload : Dict
  headers : Dict := []
  valid : tenantId ≠ "" ∧ destination ≠ ""

/-- One delivery from a consumer group. -/
structure QueueDelivery where
  envelope : MessageEnvelope

/-- An identifier as a JSON string, or null. -/
def uuidOrNull : Option UUID → JsonValue
  | some id => .str id.str
  | none => .null

section

variable (py : PyText)

/-- `_request_payload`. -/
def requestPayload (request : WorkRequest) : Dict :=
  [("work_id", .str request.workId.str),
    ("work_kind", .str request.workKind),
    ("correlation_id", .str request.correlationId.str),
    ("causation_id", uuidOrNull request.causationId),
    ("requested_at", .str (py.isoformat request.requestedAt)),
    ("max_attempts", .int request.maxAttempts),
    ("timeout_seconds", .int request.timeoutSeconds),
    ("request_payload", .obj request.payload),
    ("idempotency_key", .str request.idempotencyKey)]

/-- `_request_from_delivery`. -/
def requestFromDelivery (delivery : QueueDelivery) : Except Raised WorkRequest := do
  let envelope := delivery.envelope
  let requestPayload ← match envelope.payload.get? "request_payload" with
    | none => .ok []
    | some (.obj fields) => .ok fields
    | some _ => .error (.valueError "request_payload must be a mapping")
  orRaise (.valueError "delivery has invalid work routing metadata") do
    let workKind ← envelope.payload.get? "work_kind"
    let idempotencyKey ← envelope.payload.get? "idempotency_key"
    let requestedAt ← (envelope.payload.get? "requested_at").bind fun v => py.fromisoformat (py.str v)
    let maxAttempts ← (envelope.payload.get? "max_attempts").bind fun v => py.int (py.str v)
    let timeoutSeconds ← (envelope.payload.get? "timeout_seconds").bind fun v => py.int (py.str v)
    (WorkRequestFields.make {
      workId := envelope.workId
      tenantId := envelope.tenantId
      workKind := py.str workKind
      idempotencyKey := py.str idempotencyKey
      correlationId := envelope.correlationId
      causationId := envelope.causationId
      requestedAt := requestedAt
      payload := requestPayload
      maxAttempts := maxAttempts
      timeoutSeconds := timeoutSeconds }).toOption

/-- `_envelope_body`. -/
def envelopeBody (envelope : MessageEnvelope) : JsonValue :=
  .obj [("schema_version", .int 1),
    ("message_id", .str envelope.messageId.str),
    ("tenant_id", .str envelope.tenantId),
    ("work_id", .str envelope.workId.str),
    ("event_id", uuidOrNull envelope.eventId),
    ("destination", .str envelope.destination),
    ("correlation_id", .str envelope.correlationId.str),
    ("causation_id", uuidOrNull envelope.causationId),
    ("occurred_at", .str (py.isoformat envelope.occurredAt)),
    ("payload", .obj envelope.payload),
    ("headers", .obj envelope.headers)]

/-- `validate_transport_size`. -/
def validateTransportSize (envelope : MessageEnvelope) : Except Raised Unit :=
  raiseIf (262144 < py.jsonBytes (envelopeBody py envelope))
    (.permanentQueueError "message envelope exceeds 256 KiB")

end

/-- `_validate_request_context`. -/
def validateRequestContext (context : TenantContext) (request : WorkRequest) :
    Except Raised Unit :=
  raiseIf (context.tenantId ≠ request.tenantId)
    (.valueError "work request tenant does not match trusted context")

theorem text_requestPayload (py : PyText) (request : WorkRequest) :
    JsonValue.text? (requestPayload py request) "work_id" = some request.workId.str := rfl

end AegisPlatform
