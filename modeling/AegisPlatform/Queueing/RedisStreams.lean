import AegisPlatform.Runtime.Delivery

/-!
# Stream entries

What a consumer reads from the stream is untrusted: `_decode_fields` makes an envelope of an
entry's bytes or raises, and `_decode_entries` quarantines what is no envelope and goes on.

* `PyError`, `PyError.isCaught` — what Python raises while an entry is decoded, and what the
  `except` clause of `_decode_fields` turns into a `PoisonMessageError`.
* `Conversions` — the conversions of the standard library on the way.
* `decodeFields`, `decodeEntries` — the decoder and its loop.
* `Escapes` — the entries whose exception gets past the clause: a text that has no UTF-8
  form, and an envelope whose `schema_version` is an infinity.
* `malformed_contained` — a batch is decoded as it should be exactly if none of its entries
  escapes.
-/

namespace AegisPlatform

open Fallible

/-! ## Exceptions and conversions -/

/-- What is raised while an entry is decoded. -/
inductive PyError where
  | keyError
  | recursionError
  | typeError
  | unicodeDecodeError
  | unicodeEncodeError
  | valueError
  | jsonDecodeError
  | overflowError
  | poisonMessageError (message : String)
  deriving DecidableEq, Repr

/-- Is it caught by the `except` clause of `_decode_fields`?  The two Unicode errors and
`JSONDecodeError` are `ValueError`s; `OverflowError` is an `ArithmeticError`. -/
def PyError.isCaught : PyError → Bool
  | keyError | recursionError | typeError | unicodeDecodeError | unicodeEncodeError | valueError
  | jsonDecodeError => true
  | overflowError | poisonMessageError _ => false

/-- The conversions the decoder calls, beside those of `PyText`. -/
structure Conversions extends PyText where
  /-- `json.loads(raw)`. -/
  loads : List UInt8 → Except PyError JsonValue
  /-- Bytes that are no text, texts that are no JSON, integers with too many digits and
  arrays nested too deeply are what `json.loads` refuses. -/
  loads_raises : ∀ raw e, loads raw = .error e → e = .unicodeDecodeError ∨ e = .jsonDecodeError ∨
    e = .valueError ∨ e = .recursionError
  /-- `UUID(text)`, or a `ValueError`. -/
  uuid : String → Option UUID
  /-- Does `datetime.fromisoformat(text)` return a timezone-naive datetime? -/
  isNaive : String → Bool

/-- Is the float an infinity? -/
def isInfinite (bits : BitVec 64) : Bool :=
  bits.toNat / 2 ^ 52 % 2 ^ 11 = 2047 && bits.toNat % 2 ^ 52 = 0

section

variable (conv : Conversions)

/-- `value[key]`. -/
def item (fields : Dict) (key : String) : Except PyError JsonValue :=
  orRaise .keyError (fields.get? key)

/-- `UUID(str(value))`. -/
def uuidOf (value : JsonValue) : Except PyError UUID :=
  orRaise .valueError (conv.uuid (conv.str value))

/-- `UUID(str(value[key])) if value.get(key) is not None else None`. -/
def optionalUuid (fields : Dict) (key : String) : Except PyError (Option UUID) :=
  match fields.get? key with
  | none | some .null => .ok none
  | some value => some <$> uuidOf conv value

/-- `datetime.fromisoformat(str(value))`; a timezone-naive datetime is `none`. -/
def datetimeOf (value : JsonValue) : Except PyError (Option Timestamp) :=
  match conv.fromisoformat (conv.str value) with
  | some moment => .ok (some moment)
  | none => if conv.isNaive (conv.str value) then .ok none else .error .valueError

/-- `int(value)`. -/
def intOf : JsonValue → Except PyError ℤ
  | .bool b => .ok (if b then 1 else 0)
  | .int n => .ok n
  | .float bits =>
    if isInfinite bits then .error .overflowError
    else match floatValue bits with
      | some q => .ok (q.num.tdiv q.den)
      | none => .error .valueError
  | .str text => orRaise .valueError (conv.int text)
  | .null | .list _ | .obj _ => .error .typeError

/-! ## The decoder -/

/-- What the constructor of the envelope is given, beside its `schema_version`. -/
structure EnvelopeArguments where
  messageId : UUID
  tenantId : String
  workId : UUID
  eventId : Option UUID
  destination : String
  correlationId : UUID
  causationId : Option UUID
  occurredAt : Option Timestamp
  payload : Dict
  headers : Dict

/-- `if not isinstance(payload, dict) or not isinstance(headers, dict): raise TypeError`. -/
def bothObjects : JsonValue → JsonValue → Except PyError (Dict × Dict)
  | .obj payload, .obj headers => .ok (payload, headers)
  | _, _ => .error .typeError

/-- The arguments, converted in the order in which they are written. -/
def readArguments (fields : Dict) : Except PyError EnvelopeArguments := do
  let payload ← item fields "payload"
  let headers ← item fields "headers"
  let (payload, headers) ← bothObjects payload headers
  let messageId ← uuidOf conv (← item fields "message_id")
  let tenantId ← item fields "tenant_id"
  let workId ← uuidOf conv (← item fields "work_id")
  let eventId ← optionalUuid conv fields "event_id"
  let destination ← item fields "destination"
  let correlationId ← uuidOf conv (← item fields "correlation_id")
  let causationId ← optionalUuid conv fields "causation_id"
  let occurredAt ← datetimeOf conv (← item fields "occurred_at")
  return {
    messageId := messageId
    tenantId := conv.str tenantId
    workId := workId
    eventId := eventId
    destination := conv.str destination
    correlationId := correlationId
    causationId := causationId
    occurredAt := occurredAt
    payload := payload
    headers := headers }

/-- `MessageEnvelope.__post_init__`. -/
def EnvelopeArguments.make (a : EnvelopeArguments) (schemaVersion : ℤ) :
    Except PyError MessageEnvelope :=
  if h : a.tenantId ≠ "" ∧ a.destination ≠ "" then do
    let occurredAt ← orRaise .valueError a.occurredAt
    raiseIf (schemaVersion ≠ 1) .valueError
    raiseIf (¬ JsonValue.isFiniteFields a.payload) .valueError
    raiseIf (¬ JsonValue.isFiniteFields a.headers) .valueError
    return {
      messageId := a.messageId
      tenantId := a.tenantId
      workId := a.workId
      eventId := a.eventId
      destination := a.destination
      correlationId := a.correlationId
      causationId := a.causationId
      occurredAt := occurredAt
      payload := a.payload
      headers := a.headers
      valid := h }
  else .error .valueError

/-- The envelope of an object. -/
def envelopeOf (fields : Dict) : Except PyError MessageEnvelope := do
  let arguments ← readArguments conv fields
  let schemaVersion ← intOf conv (← item fields "schema_version")
  arguments.make schemaVersion

/-- The body of the `try`. -/
def decodeBody (raw : List UInt8) : Except PyError MessageEnvelope := do
  match ← conv.loads raw with
  | .obj fields => envelopeOf conv fields
  | _ => throw .typeError

/-- What the envelope field of an entry holds: bytes, or a Python string, code point by code
point. -/
inductive FieldValue where
  | bytes (raw : List UInt8)
  | text (codePoints : List (Fin 1114112))

/-- The field of an entry that is read, under its bytes key or else under its text key. -/
structure StreamFields where
  envelope : Option FieldValue
  textEnvelope : Option FieldValue := none

/-- `fields.get(b"envelope", fields.get("envelope"))`. -/
def StreamFields.encoded (fields : StreamFields) : Option FieldValue :=
  fields.envelope.or fields.textEnvelope

/-- Has every code point a UTF-8 form?  Half a surrogate pair has none. -/
def isEncodable (codePoints : List (Fin 1114112)) : Bool :=
  codePoints.all fun c => Nat.isValidChar c.val

/-- `encoded if isinstance(encoded, bytes) else encoded.encode()`. -/
def FieldValue.raw : FieldValue → Except PyError (List UInt8)
  | bytes raw => .ok raw
  | text codePoints =>
    if isEncodable codePoints then
      .ok (String.ofList (codePoints.map fun c => Char.ofNat c.val)).toUTF8.toList
    else .error .unicodeEncodeError

/-- `_decode_fields`. -/
def decodeFields (fields : StreamFields) : Except PyError MessageEnvelope :=
  match fields.encoded with
  | none => .error (.poisonMessageError "stream entry has no envelope")
  | some encoded => do
    let raw ← encoded.raw
    raiseIf (262144 < raw.length) (.poisonMessageError "message envelope exceeds 256 KiB")
    match decodeBody conv raw with
    | .ok envelope => return envelope
    | .error e =>
      if e.isCaught then throw (.poisonMessageError "invalid message envelope") else throw e

/-! ## The loop -/

/-- A stream entry. -/
structure StreamEntry where
  entryId : String
  fields : StreamFields
  valid : entryId ≠ ""

/-- How often an entry was delivered, and for how long it has been idle. -/
structure DeliveryMetadata where
  deliveryCount : ℤ
  idleMilliseconds : ℤ
  valid : 1 ≤ deliveryCount ∧ 0 ≤ idleMilliseconds

/-- A delivery with its place in the stream. -/
structure StreamDelivery extends QueueDelivery where
  streamEntryId : String
  metadata : DeliveryMetadata

/-- The evidence `_quarantine_poison` records; the entry is acknowledged and deleted with
it. -/
structure Poison where
  sourceEntryId : String
  reasonCode : String
  deriving DecidableEq, Repr

/-- `_decode_entries`: what is quarantined, and what is returned or raised. -/
def decodeEntries (metadata : DeliveryMetadata) :
    List StreamEntry → List Poison × Except PyError (List StreamDelivery)
  | [] => ([], .ok [])
  | entry :: rest =>
    match decodeFields conv entry.fields with
    | .ok envelope =>
      let (poison, deliveries) := decodeEntries metadata rest
      (poison, (⟨⟨envelope⟩, entry.entryId, metadata⟩ :: ·) <$> deliveries)
    | .error (.poisonMessageError _) =>
      let (poison, deliveries) := decodeEntries metadata rest
      (⟨entry.entryId, "invalid_envelope"⟩ :: poison, deliveries)
    | .error e => ([], .error e)

/-! ## What the decoder raises -/

/-- The object has every field before its `schema_version` in a form that converts. -/
structure Readable (fields : Dict) : Prop where
  payload : ∃ payload, fields.get? "payload" = some (.obj payload)
  headers : ∃ headers, fields.get? "headers" = some (.obj headers)
  messageId : ∃ v id, fields.get? "message_id" = some v ∧ conv.uuid (conv.str v) = some id
  tenantId : ∃ v, fields.get? "tenant_id" = some v
  workId : ∃ v id, fields.get? "work_id" = some v ∧ conv.uuid (conv.str v) = some id
  eventId : ∀ v, fields.get? "event_id" = some v → v ≠ .null → ∃ id, conv.uuid (conv.str v) = some id
  destination : ∃ v, fields.get? "destination" = some v
  correlationId : ∃ v id, fields.get? "correlation_id" = some v ∧ conv.uuid (conv.str v) = some id
  causationId : ∀ v, fields.get? "causation_id" = some v → v ≠ .null →
    ∃ id, conv.uuid (conv.str v) = some id
  occurredAt : ∃ v, fields.get? "occurred_at" = some v ∧
    (conv.isNaive (conv.str v) = true ∨ ∃ moment, conv.fromisoformat (conv.str v) = some moment)

/-- Two kinds of entries raise something else than a `PoisonMessageError`: a text with half a
surrogate pair, and an envelope that is fine up to its `schema_version`, which is `Infinity`,
`-Infinity` or a number too large for a float. -/
def Escapes (fields : StreamFields) : Prop :=
  (∃ codePoints, fields.encoded = some (.text codePoints) ∧ isEncodable codePoints = false) ∨
    ∃ encoded raw, ∃ body : Dict, ∃ bits, fields.encoded = some encoded ∧ encoded.raw = .ok raw ∧
      raw.length ≤ 262144 ∧ conv.loads raw = .ok (.obj body) ∧ Readable conv body ∧
      body.get? "schema_version" = some (.float bits) ∧ isInfinite bits = true

variable {conv : Conversions} {fields : Dict}

/-- Caught, as a property of exceptions. -/
abbrev Caught (e : PyError) : Prop := e.isCaught = true

theorem caught_item (fields : Dict) (key : String) : RaisesOnly Caught (item fields key) :=
  raisesOnly_orRaise fun _ => rfl

theorem caught_uuidOf (value : JsonValue) : RaisesOnly Caught (uuidOf conv value) :=
  raisesOnly_orRaise fun _ => rfl

theorem caught_optionalUuid (fields : Dict) (key : String) :
    RaisesOnly Caught (optionalUuid conv fields key) := by
  unfold optionalUuid
  split
  · exact raisesOnly_ok _
  · exact raisesOnly_ok _
  · rename_i value _ _
    exact raisesOnly_bind (caught_uuidOf value) fun _ _ => raisesOnly_ok _

theorem caught_datetimeOf (value : JsonValue) : RaisesOnly Caught (datetimeOf conv value) := by
  unfold datetimeOf
  split
  · exact raisesOnly_ok _
  · split
    · exact raisesOnly_ok _
    · exact raisesOnly_error rfl

theorem caught_bothObjects (payload headers : JsonValue) :
    RaisesOnly Caught (bothObjects payload headers) := by
  unfold bothObjects
  split
  · exact raisesOnly_ok _
  · exact raisesOnly_error rfl

/-- Whatever is wrong with a field before the `schema_version` is caught. -/
theorem caught_readArguments (fields : Dict) : RaisesOnly Caught (readArguments conv fields) := by
  unfold readArguments
  refine raisesOnly_bind (caught_item _ _) fun payload _ => ?_
  refine raisesOnly_bind (caught_item _ _) fun headers _ => ?_
  refine raisesOnly_bind (caught_bothObjects payload headers) fun _ _ => ?_
  refine raisesOnly_bind (caught_item _ _) fun _ _ => ?_
  refine raisesOnly_bind (caught_uuidOf _) fun _ _ => ?_
  refine raisesOnly_bind (caught_item _ _) fun _ _ => ?_
  refine raisesOnly_bind (caught_item _ _) fun _ _ => ?_
  refine raisesOnly_bind (caught_uuidOf _) fun _ _ => ?_
  refine raisesOnly_bind (caught_optionalUuid _ _) fun _ _ => ?_
  refine raisesOnly_bind (caught_item _ _) fun _ _ => ?_
  refine raisesOnly_bind (caught_item _ _) fun _ _ => ?_
  refine raisesOnly_bind (caught_uuidOf _) fun _ _ => ?_
  refine raisesOnly_bind (caught_optionalUuid _ _) fun _ _ => ?_
  refine raisesOnly_bind (caught_item _ _) fun _ _ => ?_
  exact raisesOnly_bind (caught_datetimeOf _) fun _ _ => raisesOnly_ok _

theorem caught_make (a : EnvelopeArguments) (schemaVersion : ℤ) :
    RaisesOnly Caught (a.make schemaVersion) := by
  unfold EnvelopeArguments.make
  split
  · refine raisesOnly_bind (raisesOnly_orRaise fun _ => rfl) fun _ _ => ?_
    refine raisesOnly_bind (raisesOnly_raiseIf fun _ => rfl) fun _ _ => ?_
    refine raisesOnly_bind (raisesOnly_raiseIf fun _ => rfl) fun _ _ => ?_
    exact raisesOnly_bind (raisesOnly_raiseIf fun _ => rfl) fun _ _ => raisesOnly_ok _
  · exact raisesOnly_error rfl

/-- **An infinity is what `int` raises an uncaught exception for**, and nothing else is. -/
theorem intOf_error {value : JsonValue} {e : PyError} (h : intOf conv value = .error e) :
    e.isCaught = true ∨ ∃ bits, value = .float bits ∧ isInfinite bits = true := by
  cases value with
  | bool b => cases h
  | int n => cases h
  | float bits =>
    rw [intOf] at h
    split at h
    · rename_i hinf
      exact Or.inr ⟨bits, rfl, hinf⟩
    · split at h
      · cases h
      · cases h
        exact Or.inl rfl
  | str text => exact Or.inl (raisesOnly_orRaise (P := Caught) (fun _ => rfl) e h)
  | null => cases h; exact Or.inl rfl
  | list xs => cases h; exact Or.inl rfl
  | obj fs => cases h; exact Or.inl rfl

theorem intOf_infinite {bits : BitVec 64} (h : isInfinite bits = true) :
    intOf conv (.float bits) = .error .overflowError := by
  rw [intOf, if_pos h]

theorem item_eq_ok {key : String} {value : JsonValue} :
    item fields key = .ok value ↔ fields.get? key = some value := orRaise_eq_ok

theorem uuidOf_eq_ok {value : JsonValue} {id : UUID} :
    uuidOf conv value = .ok id ↔ conv.uuid (conv.str value) = some id := orRaise_eq_ok

theorem optionalUuid_ok {key : String} : (∃ id, optionalUuid conv fields key = .ok id) ↔
    ∀ value, fields.get? key = some value → value ≠ .null →
      ∃ id, conv.uuid (conv.str value) = some id := by
  unfold optionalUuid
  cases fields.get? key with
  | none => exact ⟨fun _ _ h => (by cases h), fun _ => ⟨none, rfl⟩⟩
  | some value =>
    by_cases hnull : value = .null
    · subst hnull
      exact ⟨fun _ v h hne => absurd (Option.some.inj h).symm hne, fun _ => ⟨none, rfl⟩⟩
    · have hmatch : (match some value with
          | none | some JsonValue.null => Except.ok none
          | some value => some <$> uuidOf conv value) = some <$> uuidOf conv value := by
        cases value with
        | null => exact absurd rfl hnull
        | _ => rfl
      rw [hmatch]
      constructor
      · rintro ⟨id, hid⟩ v h -
        cases h
        obtain ⟨id', hid', -⟩ := bind_eq_ok.1 hid
        exact ⟨id', uuidOf_eq_ok.1 hid'⟩
      · intro h
        obtain ⟨id, hid⟩ := h value rfl hnull
        exact ⟨some id, bind_eq_ok.2 ⟨id, uuidOf_eq_ok.2 hid, rfl⟩⟩

theorem datetimeOf_ok {value : JsonValue} : (∃ moment, datetimeOf conv value = .ok moment) ↔
    conv.isNaive (conv.str value) = true ∨
      ∃ moment, conv.fromisoformat (conv.str value) = some moment := by
  unfold datetimeOf
  cases hiso : conv.fromisoformat (conv.str value) with
  | some moment => exact ⟨fun _ => Or.inr ⟨moment, rfl⟩, fun _ => ⟨some moment, rfl⟩⟩
  | none =>
    by_cases hnaive : conv.isNaive (conv.str value) = true
    · simp [hnaive]
    · simp [hnaive]

theorem bothObjects_eq_ok {payload headers : JsonValue} {r : Dict × Dict} :
    bothObjects payload headers = .ok r ↔ payload = .obj r.1 ∧ headers = .obj r.2 := by
  unfold bothObjects
  split
  · rw [Except.ok.injEq, Prod.ext_iff, JsonValue.obj.injEq, JsonValue.obj.injEq]
  · rename_i hnot
    exact ⟨fun h => (by cases h), fun h => absurd h.2 (hnot _ _ h.1)⟩

/-- The arguments convert exactly if the object is readable. -/
theorem readArguments_ok : (∃ a, readArguments conv fields = .ok a) ↔ Readable conv fields := by
  constructor
  · rintro ⟨a, h⟩
    simp only [readArguments, bind_eq_ok, item_eq_ok, bothObjects_eq_ok, uuidOf_eq_ok] at h
    obtain ⟨_, hpayload, _, hheaders, ⟨payload, headers⟩, ⟨rfl, rfl⟩, message, hmessage, messageId,
      hmessageId, tenant, htenant, work, hwork, workId, hworkId, eventId, hevent, destination,
      hdestination, correlation, hcorrelation, correlationId, hcorrelationId, causationId,
      hcausation, moment, hmoment, occurredAt, hoccurred, -⟩ := h
    exact {
      payload := ⟨payload, hpayload⟩
      headers := ⟨headers, hheaders⟩
      messageId := ⟨message, messageId, hmessage, hmessageId⟩
      tenantId := ⟨tenant, htenant⟩
      workId := ⟨work, workId, hwork, hworkId⟩
      eventId := optionalUuid_ok.1 ⟨eventId, hevent⟩
      destination := ⟨destination, hdestination⟩
      correlationId := ⟨correlation, correlationId, hcorrelation, hcorrelationId⟩
      causationId := optionalUuid_ok.1 ⟨causationId, hcausation⟩
      occurredAt := ⟨moment, hmoment, datetimeOf_ok.1 ⟨occurredAt, hoccurred⟩⟩ }
  · intro h
    obtain ⟨payload, hpayload⟩ := h.payload
    obtain ⟨headers, hheaders⟩ := h.headers
    obtain ⟨message, messageId, hmessage, hmessageId⟩ := h.messageId
    obtain ⟨tenant, htenant⟩ := h.tenantId
    obtain ⟨work, workId, hwork, hworkId⟩ := h.workId
    obtain ⟨eventId, hevent⟩ := optionalUuid_ok.2 h.eventId
    obtain ⟨destination, hdestination⟩ := h.destination
    obtain ⟨correlation, correlationId, hcorrelation, hcorrelationId⟩ := h.correlationId
    obtain ⟨causationId, hcausation⟩ := optionalUuid_ok.2 h.causationId
    obtain ⟨moment, hmoment, hconverts⟩ := h.occurredAt
    obtain ⟨occurredAt, hoccurred⟩ := datetimeOf_ok.2 hconverts
    simp only [readArguments, bind_eq_ok, item_eq_ok, bothObjects_eq_ok, uuidOf_eq_ok, pure_eq_ok]
    exact ⟨_, _, hpayload, _, hheaders, (payload, headers), ⟨rfl, rfl⟩, message, hmessage, messageId,
      hmessageId, tenant, htenant, work, hwork, workId, hworkId, eventId, hevent, destination,
      hdestination, correlation, hcorrelation, correlationId, hcorrelationId, causationId,
      hcausation, moment, hmoment, occurredAt, hoccurred, rfl⟩

/-- An object whose exception is not caught is readable, and its `schema_version` is an
infinity. -/
theorem envelopeOf_uncaught {e : PyError} (h : envelopeOf conv fields = .error e)
    (he : e.isCaught = false) : Readable conv fields ∧
      ∃ bits, fields.get? "schema_version" = some (.float bits) ∧ isInfinite bits = true := by
  have hnot : ¬ Caught e := by rw [Caught, he]; exact Bool.false_ne_true
  unfold envelopeOf at h
  cases hread : readArguments conv fields with
  | error e' =>
    rw [hread] at h
    cases h
    exact absurd (caught_readArguments fields e hread) hnot
  | ok a =>
    refine ⟨readArguments_ok.1 ⟨a, hread⟩, ?_⟩
    rw [hread] at h
    cases hitem : item fields "schema_version" with
    | error e' =>
      simp only [hitem, bind, Except.bind] at h
      cases h
      exact absurd (caught_item _ _ e hitem) hnot
    | ok version =>
      cases hint : intOf conv version with
      | error e' =>
        simp only [hitem, hint, bind, Except.bind] at h
        cases h
        rcases intOf_error hint with hcaught | ⟨bits, rfl, hinf⟩
        · exact absurd hcaught hnot
        · exact ⟨bits, item_eq_ok.1 hitem, hinf⟩
      | ok n =>
        simp only [hitem, hint, bind, Except.bind] at h
        exact absurd (caught_make a n e h) hnot

theorem envelopeOf_infinite {bits : BitVec 64} (hread : Readable conv fields)
    (hversion : fields.get? "schema_version" = some (.float bits)) (hinf : isInfinite bits = true) :
    envelopeOf conv fields = .error .overflowError := by
  obtain ⟨a, ha⟩ := readArguments_ok.2 hread
  unfold envelopeOf
  rw [ha]
  simp only [item_eq_ok.2 hversion, intOf_infinite hinf, bind, Except.bind]

/-- **What gets past the `except` clause.** -/
theorem decodeBody_uncaught {raw : List UInt8} :
    (∃ e, decodeBody conv raw = .error e ∧ e.isCaught = false) ↔
      ∃ body : Dict, ∃ bits, conv.loads raw = .ok (.obj body) ∧ Readable conv body ∧
        body.get? "schema_version" = some (.float bits) ∧ isInfinite bits = true := by
  unfold decodeBody
  constructor
  · rintro ⟨e, h, he⟩
    cases hloads : conv.loads raw with
    | error e' =>
      rw [hloads] at h
      cases h
      rcases conv.loads_raises raw e hloads with rfl | rfl | rfl | rfl <;> cases he
    | ok value =>
      rw [hloads] at h
      cases value with
      | obj body =>
        obtain ⟨hread, bits, hversion, hinf⟩ := envelopeOf_uncaught h he
        exact ⟨body, bits, rfl, hread, hversion, hinf⟩
      | _ =>
        cases h
        cases he
  · rintro ⟨body, bits, hloads, hread, hversion, hinf⟩
    refine ⟨.overflowError, ?_, rfl⟩
    rw [hloads]
    exact envelopeOf_infinite hread hversion hinf

/-! ## Fields and batches -/

/-- The decoder returns an envelope or raises a `PoisonMessageError`. -/
def Contained (conv : Conversions) (fields : StreamFields) : Prop :=
  (∃ envelope, decodeFields conv fields = .ok envelope) ∨
    ∃ message, decodeFields conv fields = .error (.poisonMessageError message)

/-- What `_decode_fields` makes of the body of its `try`. -/
theorem decodeFields_body {fields : StreamFields} {encoded : FieldValue} {raw : List UInt8}
    (hencoded : fields.encoded = some encoded) (hraw : encoded.raw = .ok raw)
    (hsize : raw.length ≤ 262144) : decodeFields conv fields = match decodeBody conv raw with
      | .ok envelope => .ok envelope
      | .error e => .error
          (if e.isCaught then .poisonMessageError "invalid message envelope" else e) := by
  unfold decodeFields
  rw [hencoded]
  simp only [hraw, bind, Except.bind, raiseIf, if_neg (not_lt.2 hsize)]
  cases decodeBody conv raw with
  | ok envelope => rfl
  | error e =>
    by_cases he : e.isCaught = true
    · simp only [he, if_true]; rfl
    · simp only [he]; rfl

theorem decodeBody_ne_poison {raw : List UInt8} {message : String} :
    decodeBody conv raw ≠ .error (.poisonMessageError message) := by
  intro h
  obtain ⟨body, bits, hloads, hread, hversion, hinf⟩ := decodeBody_uncaught.1 ⟨_, h, rfl⟩
  unfold decodeBody at h
  rw [hloads] at h
  have hoverflow := envelopeOf_infinite hread hversion hinf
  exact absurd (hoverflow.symm.trans h) (by simp)

/-- An entry that has bytes escapes exactly if the body of the `try` does. -/
theorem escapes_iff_body {fields : StreamFields} {encoded : FieldValue} {raw : List UInt8}
    (hencoded : fields.encoded = some encoded) (hraw : encoded.raw = .ok raw) :
    Escapes conv fields ↔ raw.length ≤ 262144 ∧
      ∃ e, decodeBody conv raw = .error e ∧ e.isCaught = false := by
  rw [decodeBody_uncaught]
  constructor
  · rintro (⟨codePoints, htext, hnot⟩ | ⟨encoded', raw', body, bits, hencoded', hraw', hsize, hrest⟩)
    · rw [hencoded, Option.some.injEq] at htext
      subst htext
      rw [FieldValue.raw, hnot] at hraw
      cases hraw
    · rw [hencoded, Option.some.injEq] at hencoded'
      subst hencoded'
      rw [hraw, Except.ok.injEq] at hraw'
      subst hraw'
      exact ⟨hsize, body, bits, hrest⟩
  · rintro ⟨hsize, body, bits, hrest⟩
    exact Or.inr ⟨encoded, raw, body, bits, hencoded, hraw, hsize, hrest⟩

/-- A text without a UTF-8 form escapes. -/
theorem escapes_of_raw_error {fields : StreamFields} {encoded : FieldValue} {e : PyError}
    (hencoded : fields.encoded = some encoded) (hraw : encoded.raw = .error e) :
    Escapes conv fields ∧ ¬ Contained conv fields := by
  cases encoded with
  | bytes raw => cases hraw
  | text codePoints =>
    have herror : decodeFields conv fields = .error e := by
      unfold decodeFields
      rw [hencoded]
      simp only [hraw, bind, Except.bind]
    rw [FieldValue.raw] at hraw
    split at hraw
    · cases hraw
    · rename_i hnot
      cases hraw
      refine ⟨Or.inl ⟨codePoints, hencoded, by simpa using hnot⟩, ?_⟩
      rintro (⟨envelope, h⟩ | ⟨message, h⟩)
      · rw [herror] at h; cases h
      · rw [herror] at h; cases h

/-- **An entry is contained exactly if it does not escape.** -/
theorem contained_iff {fields : StreamFields} : Contained conv fields ↔ ¬ Escapes conv fields := by
  cases hencoded : fields.encoded with
  | none =>
    have hpoison : decodeFields conv fields =
        .error (.poisonMessageError "stream entry has no envelope") := by
      unfold decodeFields
      rw [hencoded]
    refine ⟨fun _ h => ?_, fun _ => Or.inr ⟨_, hpoison⟩⟩
    unfold Escapes at h
    rw [hencoded] at h
    rcases h with ⟨_, h, -⟩ | ⟨_, _, _, _, h, -⟩ <;> cases h
  | some encoded =>
    cases hraw : encoded.raw with
    | error e =>
      obtain ⟨hescapes, hnot⟩ : Escapes conv fields ∧ ¬ Contained conv fields :=
        escapes_of_raw_error hencoded hraw
      exact ⟨fun h => absurd h hnot, fun h => absurd hescapes h⟩
    | ok raw =>
      rw [escapes_iff_body hencoded hraw]
      by_cases hsize : raw.length ≤ 262144
      · rw [Contained, decodeFields_body hencoded hraw hsize]
        cases hbody : decodeBody conv raw with
        | ok envelope =>
          exact ⟨fun _ h => (by obtain ⟨-, e, h, -⟩ := h; cases h), fun _ => Or.inl ⟨envelope, rfl⟩⟩
        | error e =>
          by_cases he : e.isCaught = true
          · refine ⟨fun _ h => ?_, fun _ => Or.inr ⟨"invalid message envelope", ?_⟩⟩
            · obtain ⟨-, e', h, he'⟩ := h
              cases h
              rw [he] at he'
              cases he'
            · simp only [he, if_true]
          · refine ⟨?_, fun h => absurd ⟨hsize, e, rfl, by simpa using he⟩ h⟩
            rintro (⟨envelope, h⟩ | ⟨message, h⟩)
            · cases h
            · simp only [he, Except.error.injEq] at h
              subst h
              exact absurd hbody decodeBody_ne_poison
      · have hpoison : decodeFields conv fields =
            .error (.poisonMessageError "message envelope exceeds 256 KiB") := by
          unfold decodeFields
          rw [hencoded]
          simp only [hraw, bind, Except.bind, raiseIf, if_pos (not_le.1 hsize)]
        exact ⟨fun _ h => hsize h.1, fun _ => Or.inr ⟨_, hpoison⟩⟩

/-- The delivery of an entry that decodes. -/
def StreamEntry.delivery? (conv : Conversions) (metadata : DeliveryMetadata) (entry : StreamEntry) :
    Option StreamDelivery :=
  match decodeFields conv entry.fields with
  | .ok envelope => some ⟨⟨envelope⟩, entry.entryId, metadata⟩
  | .error _ => none

/-- The evidence of an entry that does not. -/
def StreamEntry.poison? (conv : Conversions) (entry : StreamEntry) : Option Poison :=
  match decodeFields conv entry.fields with
  | .ok _ => none
  | .error _ => some ⟨entry.entryId, "invalid_envelope"⟩

/-- A batch of contained entries is decoded to its end. -/
theorem decodeEntries_eq (metadata : DeliveryMetadata) {entries : List StreamEntry}
    (h : ∀ entry ∈ entries, Contained conv entry.fields) :
    decodeEntries conv metadata entries = (entries.filterMap (·.poison? conv),
      .ok (entries.filterMap (·.delivery? conv metadata))) := by
  induction entries with
  | nil => rfl
  | cons entry rest ih =>
    have ih := ih fun entry' hentry' => h entry' (List.mem_cons_of_mem _ hentry')
    rw [decodeEntries, ih]
    rcases h entry (List.mem_cons_self ..) with ⟨envelope, hok⟩ | ⟨message, herror⟩
    · simp only [hok, StreamEntry.poison?, StreamEntry.delivery?, List.filterMap_cons]
      rfl
    · simp only [herror, StreamEntry.poison?, StreamEntry.delivery?, List.filterMap_cons]

/-- A batch that is decoded to its end has contained entries only. -/
theorem contained_of_decodeEntries {metadata : DeliveryMetadata} {entries : List StreamEntry}
    {poison : List Poison} {deliveries : List StreamDelivery}
    (h : decodeEntries conv metadata entries = (poison, .ok deliveries)) :
    ∀ entry ∈ entries, Contained conv entry.fields := by
  induction entries generalizing poison deliveries with
  | nil => exact fun entry hentry => (by cases hentry)
  | cons entry rest ih =>
    have hrest : Contained conv entry.fields ∧
        ∃ poison deliveries, decodeEntries conv metadata rest = (poison, .ok deliveries) := by
      rw [decodeEntries] at h
      split at h
      · rename_i envelope hok
        refine ⟨Or.inl ⟨envelope, hok⟩, ?_⟩
        rw [Prod.mk.injEq] at h
        obtain ⟨ds, hds, -⟩ := bind_eq_ok.1 h.2
        exact ⟨_, ds, Prod.ext rfl hds⟩
      · rename_i message herror
        rw [Prod.mk.injEq] at h
        exact ⟨Or.inr ⟨message, herror⟩, _, deliveries, Prod.ext rfl h.2⟩
      · cases h
    obtain ⟨hfirst, poison', deliveries', hdecoded⟩ := hrest
    intro entry' hentry'
    rcases List.mem_cons.1 hentry' with rfl | hentry'
    · exact hfirst
    · exact ih hdecoded entry' hentry'

end

/-- **Malformed entries block the stream exactly if one of them escapes.**  Otherwise a batch
returns, in order, the deliveries of the entries that decode, quarantines each other entry
once, and raises nothing; and an entry decodes or raises a `PoisonMessageError` exactly if it
does not escape. -/
theorem malformed_contained (conv : Conversions) (metadata : DeliveryMetadata) :
    (∀ entries : List StreamEntry,
      decodeEntries conv metadata entries = (entries.filterMap (·.poison? conv),
        .ok (entries.filterMap (·.delivery? conv metadata))) ↔
      ∀ entry ∈ entries, ¬ Escapes conv entry.fields) ∧
    ∀ fields : StreamFields, Contained conv fields ↔ ¬ Escapes conv fields := by
  refine ⟨fun entries => ⟨fun h entry hentry => ?_, fun h => ?_⟩, fun fields => contained_iff⟩
  · exact contained_iff.1 (contained_of_decodeEntries h entry hentry)
  · exact decodeEntries_eq metadata fun entry hentry => contained_iff.2 (h entry hentry)

/-! An envelope that is fine up to its `schema_version`, which is `Infinity`. -/

/-- The fields of the envelope. -/
def infiniteVersion : Dict :=
  [("message_id", .str (UUID.ofNat 1).str),
    ("tenant_id", .str "acme"),
    ("work_id", .str (UUID.ofNat 2).str),
    ("event_id", .null),
    ("destination", .str "aegis.work"),
    ("correlation_id", .str (UUID.ofNat 3).str),
    ("causation_id", .null),
    ("occurred_at", .str "2025-01-01T00:00:00+00:00"),
    ("payload", .obj []),
    ("headers", .obj []),
    ("schema_version", .float 0x7FF0000000000000#64)]

/-- The text of the envelope. -/
def infiniteText : String :=
  "\x7b\"message_id\":\"00000000-0000-0000-0000-000000000001\",\"tenant_id\":\"acme\"," ++
  "\"work_id\":\"00000000-0000-0000-0000-000000000002\",\"event_id\":null," ++
  "\"destination\":\"aegis.work\"," ++
  "\"correlation_id\":\"00000000-0000-0000-0000-000000000003\",\"causation_id\":null," ++
  "\"occurred_at\":\"2025-01-01T00:00:00+00:00\",\"payload\":\x7b\x7d,\"headers\":\x7b\x7d," ++
  "\"schema_version\":Infinity\x7d"

/-- The conversions, as they behave on the envelope. -/
def versionConversions : Conversions where
  str
    | .str text => text
    | _ => ""
  int _ := none
  isoformat _ := "2025-01-01T00:00:00+00:00"
  fromisoformat text := if text = "2025-01-01T00:00:00+00:00" then some 1735689600000000 else none
  strDecimal _ := ""
  jsonBytes _ := 0
  jsonDigest _ := ""
  loads raw :=
    if raw = infiniteText.toUTF8.toList then .ok (.obj infiniteVersion) else .error .jsonDecodeError
  loads_raises raw e h := by
    split at h
    · cases h
    · cases h
      exact Or.inr (Or.inl rfl)
  uuid text := [UUID.ofNat 1, UUID.ofNat 2, UUID.ofNat 3].find? (·.str = text)
  isNaive _ := false

theorem readable_infiniteVersion : Readable versionConversions infiniteVersion where
  payload := ⟨[], rfl⟩
  headers := ⟨[], rfl⟩
  messageId := ⟨_, UUID.ofNat 1, rfl, by decide⟩
  tenantId := ⟨_, rfl⟩
  workId := ⟨_, UUID.ofNat 2, rfl, by decide⟩
  eventId v h hne := absurd (Option.some.inj h).symm hne
  destination := ⟨_, rfl⟩
  correlationId := ⟨_, UUID.ofNat 3, rfl, by decide⟩
  causationId v h hne := absurd (Option.some.inj h).symm hne
  occurredAt := ⟨_, rfl, Or.inr ⟨1735689600000000, rfl⟩⟩

/-- The entry of the envelope. -/
def infiniteEntry : StreamEntry where
  entryId := "1-0"
  fields := ⟨some (.bytes infiniteText.toUTF8.toList), none⟩
  valid := by decide

theorem infinite_version_raises : ¬ Contained versionConversions infiniteEntry.fields ∧
    decodeFields versionConversions infiniteEntry.fields = .error .overflowError ∧
    decodeEntries versionConversions ⟨1, 0, by decide⟩ [infiniteEntry] =
      ([], .error .overflowError) := by
  have hloads : versionConversions.loads infiniteText.toUTF8.toList = .ok (.obj infiniteVersion) :=
    if_pos rfl
  have hbody : decodeBody versionConversions infiniteText.toUTF8.toList =
      .error .overflowError := by
    unfold decodeBody
    rw [hloads]
    exact envelopeOf_infinite readable_infiniteVersion rfl (by decide)
  have hfields : decodeFields versionConversions infiniteEntry.fields = .error .overflowError := by
    rw [decodeFields_body rfl rfl (by decide +kernel), hbody]
    rfl
  refine ⟨?_, hfields, ?_⟩
  · rintro (⟨envelope, h⟩ | ⟨message, h⟩)
    · rw [hfields] at h; cases h
    · rw [hfields] at h; cases h
  · rw [decodeEntries, hfields]

end AegisPlatform
