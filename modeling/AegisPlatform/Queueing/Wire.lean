import AegisPlatform.Queueing.JsonText
import AegisPlatform.Queueing.Publisher

/-!
# Envelopes on the wire

What the publisher writes to the stream is the JSON text of an envelope, with its keys in order;
the consumer reads it back as bytes that it does not trust.

* `Dict.sorted` — the fields of a mapping as they arrive, and what is found among them.
* `encodeEnvelope` — the code; `decodeFields` is the other direction.
* `Conversions.Wired` — `json.dumps` and `json.loads`.
* `decodeFields_encodeEnvelope` — an envelope arrives as it was sent, but for the order of keys.
-/

namespace AegisPlatform

open Fallible

/-! ## Fields in order -/

/-- The fields in the order of their keys, at every depth. -/
def Dict.sorted (d : Dict) : Dict :=
  (JsonValue.sortKeysFields d).insertionSort fun p q => p.1 ≤ q.1

namespace JsonValue

variable {d : Dict} {key : String} {v w : JsonValue}

theorem sortKeys_obj (d : Dict) : sortKeys (obj d) = obj d.sorted := rfl

/-- The order of the keys matters to no lookup. -/
theorem get?_sorted (hkeys : (d.map (·.1)).Nodup) (h : d.get? key = some v) :
    d.sorted.get? key = some v.sortKeys := by
  refine lookup_of_mem ((keys_perm d).nodup_iff.2 hkeys) ?_
  rw [List.mem_insertionSort]
  exact mem_sortKeysFields.2 ⟨(key, v), mem_of_lookup h, rfl⟩

theorem isFiniteFields_sorted (h : isFiniteFields d = true) : isFiniteFields d.sorted = true := by
  have hobj : isFinite (obj d) = true := h
  have hsorted := isFinite_sortKeys hobj
  rwa [sortKeys_obj, isFinite] at hsorted

theorem sortKeysList_eq_map (xs : List JsonValue) : sortKeysList xs = xs.map sortKeys := by
  induction xs with
  | nil => rfl
  | cons x xs ih => rw [sortKeysList, ih, List.map_cons]

/-- Lists that are equal stay equal under what keeps their items equal. -/
theorem pyEqList_map {f g : JsonValue → JsonValue} {xs ys : List JsonValue}
    (h : pyEqList xs ys = true)
    (hfg : ∀ x ∈ xs, ∀ y ∈ ys, pyEq x y = true → pyEq (f x) (g y) = true) :
    pyEqList (xs.map f) (ys.map g) = true := by
  induction xs generalizing ys with
  | nil =>
    cases ys with
    | nil => rfl
    | cons y ys => cases h
  | cons x xs ih =>
    cases ys with
    | nil => cases h
    | cons y ys =>
      rw [pyEqList, Bool.and_eq_true] at h
      rw [List.map_cons, List.map_cons, pyEqList, Bool.and_eq_true]
      exact ⟨hfg x List.mem_cons_self y List.mem_cons_self h.1, ih h.2 fun x' hx y' hy =>
        hfg x' (List.mem_cons_of_mem _ hx) y' (List.mem_cons_of_mem _ hy)⟩

theorem length_sorted (d : Dict) : d.sorted.length = d.length := by
  have hperm := (keys_perm d).length_eq
  rwa [List.length_map, List.length_map] at hperm

/-- What is equal to a value is equal to it in order. -/
theorem pyEq_sortKeys_left (h : pyEq v w = true) : pyEq v.sortKeys w = true := by
  induction v using induct generalizing w with
  | list xs ih =>
    cases w with
    | list ys =>
      rw [pyEq] at h
      rw [sortKeys, pyEq, sortKeysList_eq_map, ← List.map_id ys]
      exact pyEqList_map h fun x hx y _ hequal => ih x hx hequal
    | _ => exact h
  | obj fields ih =>
    cases w with
    | obj others =>
      obtain ⟨hlength, hfields⟩ := pyEq_obj_iff.1 h
      rw [sortKeys_obj]
      refine pyEq_obj_iff.2 ⟨(length_sorted fields).trans hlength, fun p hp => ?_⟩
      rw [Dict.sorted, List.mem_insertionSort] at hp
      obtain ⟨field, hfield, rfl⟩ := mem_sortKeysFields.1 hp
      obtain ⟨w, hw, hequal⟩ := hfields field hfield
      exact ⟨w, hw, ih field hfield hequal⟩
    | _ => exact h
  | _ => exact h

/-- The same, the other way round. -/
theorem pyEq_sortKeys_right (hdict : w.isDict = true) (h : pyEq v w = true) :
    pyEq v w.sortKeys = true := by
  induction v using induct generalizing w with
  | list xs ih =>
    cases w with
    | list ys =>
      rw [isDict, isDictList_iff] at hdict
      rw [pyEq] at h
      rw [sortKeys, pyEq, sortKeysList_eq_map, ← List.map_id xs]
      exact pyEqList_map h fun x hx y hy hequal => ih x hx (hdict y hy) hequal
    | _ => exact h
  | obj fields ih =>
    cases w with
    | obj others =>
      obtain ⟨hkeys, hdicts⟩ := isDict_obj_iff.1 hdict
      obtain ⟨hlength, hfields⟩ := pyEq_obj_iff.1 h
      rw [sortKeys_obj]
      refine pyEq_obj_iff.2 ⟨hlength.trans (length_sorted others).symm, fun field hfield => ?_⟩
      obtain ⟨w, hw, hequal⟩ := hfields field hfield
      exact ⟨w.sortKeys, get?_sorted hkeys hw,
        ih field hfield (hdicts _ (mem_of_lookup hw)) hequal⟩
    | _ => exact h
  | _ => cases w <;> exact h

end JsonValue

/-! ## The code -/

/-- `text.encode()`. -/
def utf8 (text : List Char) : List UInt8 := text.flatMap String.utf8EncodeChar

/-- The interpreter's limits, on the digits of an integer and on the depth of arrays, are not what
keeps `json.loads` from reading the bytes. -/
def Conversions.Within (conv : Conversions) (raw : List UInt8) : Prop :=
  conv.loads raw ≠ .error .valueError ∧ conv.loads raw ≠ .error .recursionError

/-- `json.dumps(value, separators=(",", ":"), sort_keys=True)` and `json.loads`, of bytes. -/
structure Conversions.Wired (conv : Conversions) (F : Json.FloatText) : Prop where
  jsonBytes : ∀ v, conv.jsonBytes v = (utf8 (Json.dumps F v)).length
  loads : ∀ text v, Json.loads F text = some v → conv.Within (utf8 text) →
    conv.loads (utf8 text) = .ok v

section

variable (F : Json.FloatText) (conv : Conversions)

/-- `_encode_envelope`. -/
def encodeEnvelope (envelope : MessageEnvelope) : Except Raised (List UInt8) := do
  validateTransportSize conv.toPyText envelope
  return utf8 (Json.dumps F (envelopeBody conv.toPyText envelope))

end

/-- The envelope with its keys in order. -/
def MessageEnvelope.sorted (envelope : MessageEnvelope) : MessageEnvelope :=
  { envelope with payload := envelope.payload.sorted, headers := envelope.headers.sorted }

/-- What an envelope carries is plain JSON. -/
structure MessageEnvelope.Plain (envelope : MessageEnvelope) : Prop where
  payload : (JsonValue.obj envelope.payload).isFinite = true ∧
    (JsonValue.obj envelope.payload).isDict = true
  headers : (JsonValue.obj envelope.headers).isFinite = true ∧
    (JsonValue.obj envelope.headers).isDict = true

section

variable {F : Json.FloatText} {conv : Conversions} {envelope : MessageEnvelope}

theorem isDict_uuidOrNull (id : Option UUID) : (uuidOrNull id).isDict = true := by
  cases id <;> rfl

theorem get?_sorted_uuid {d : Dict} (hkeys : (d.map (·.1)).Nodup) {key : String} {id : Option UUID}
    (h : d.get? key = some (uuidOrNull id)) : d.sorted.get? key = some (uuidOrNull id) := by
  have hsorted := JsonValue.get?_sorted hkeys h
  cases id <;> exact hsorted

theorem plain_envelopeBody (h : envelope.Plain) :
    (envelopeBody conv.toPyText envelope).isFinite = true ∧
      (envelopeBody conv.toPyText envelope).isDict = true := by
  obtain ⟨⟨hpayload, hpayload'⟩, hheaders, hheaders'⟩ := h
  constructor
  · simpa [envelopeBody, JsonValue.isFinite, JsonValue.isFiniteFields, isFinite_uuidOrNull]
      using And.intro hpayload hheaders
  · simpa [envelopeBody, JsonValue.isDict, JsonValue.isDictFields, isDict_uuidOrNull]
      using And.intro hpayload' hheaders'

/-- The fields of an envelope, found in whatever order. -/
structure Carries (conv : Conversions) (fields : Dict) (envelope : MessageEnvelope) : Prop where
  schemaVersion : fields.get? "schema_version" = some (.int 1)
  messageId : fields.get? "message_id" = some (.str envelope.messageId.str)
  tenantId : fields.get? "tenant_id" = some (.str envelope.tenantId)
  workId : fields.get? "work_id" = some (.str envelope.workId.str)
  eventId : fields.get? "event_id" = some (uuidOrNull envelope.eventId)
  destination : fields.get? "destination" = some (.str envelope.destination)
  correlationId : fields.get? "correlation_id" = some (.str envelope.correlationId.str)
  causationId : fields.get? "causation_id" = some (uuidOrNull envelope.causationId)
  occurredAt : fields.get? "occurred_at" = some (.str (conv.isoformat envelope.occurredAt))
  payload : fields.get? "payload" = some (.obj envelope.payload)
  headers : fields.get? "headers" = some (.obj envelope.headers)

/-- What carries an envelope is read as it. -/
theorem envelopeOf_carries (hfaithful : conv.Faithful) {fields : Dict}
    (h : Carries conv fields envelope) (hpayload : JsonValue.isFiniteFields envelope.payload = true)
    (hheaders : JsonValue.isFiniteFields envelope.headers = true) :
    envelopeOf conv fields = .ok envelope := by
  have hdatetime : datetimeOf conv (.str (conv.isoformat envelope.occurredAt)) =
      .ok (some envelope.occurredAt) := by
    rw [datetimeOf, hfaithful.text.str_str, hfaithful.text.fromisoformat_isoformat]
  have harguments : readArguments conv fields = .ok ⟨envelope.messageId, envelope.tenantId,
      envelope.workId, envelope.eventId, envelope.destination, envelope.correlationId,
      envelope.causationId, some envelope.occurredAt, envelope.payload, envelope.headers⟩ := by
    simp only [readArguments, item, h.payload, h.headers, h.messageId, h.tenantId, h.workId,
      h.destination, h.correlationId, h.occurredAt, orRaise, ok_bind, bothObjects,
      uuidOf_str hfaithful, optionalUuid_uuidOrNull hfaithful h.eventId,
      optionalUuid_uuidOrNull hfaithful h.causationId, hdatetime, hfaithful.text.str_str]
    rfl
  simp only [envelopeOf, harguments, item, h.schemaVersion, orRaise, ok_bind, intOf,
    EnvelopeArguments.make, dif_pos envelope.valid, raiseIf_bind, hpayload, hheaders]
  rfl

/-- **An envelope arrives as it was sent**, but for the order of keys. -/
theorem decodeFields_encodeEnvelope (hfaithful : conv.Faithful) (hwired : conv.Wired F)
    (hplain : envelope.Plain) {raw : List UInt8} (hencode : encodeEnvelope F conv envelope = .ok raw)
    (hwithin : conv.Within raw) (textEnvelope : Option FieldValue) :
    decodeFields conv ⟨some (.bytes raw), textEnvelope⟩ = .ok envelope.sorted := by
  simp only [encodeEnvelope, validateTransportSize, bind_eq_ok, raiseIf_eq_ok, pure_eq_ok] at hencode
  obtain ⟨-, hsize, rfl⟩ := hencode
  rw [hwired.jsonBytes] at hsize
  have hbodyPlain : (envelopeBody conv.toPyText envelope).isFinite = true ∧
      (envelopeBody conv.toPyText envelope).isDict = true := plain_envelopeBody hplain
  obtain ⟨hfinite, hdict⟩ := hbodyPlain
  have hloads := hwired.loads _ _ (Json.loads_dumps F hfinite hdict) hwithin
  have hkeys := (JsonValue.isDict_obj_iff.1 hdict).1
  have hstr : ∀ {key text : String}, Dict.get? _ key = some (.str text) →
      (Dict.sorted _).get? key = some (.str text) := JsonValue.get?_sorted hkeys
  have hobj : ∀ {key : String} {d : Dict}, Dict.get? _ key = some (.obj d) →
      (Dict.sorted _).get? key = some (.obj d.sorted) := JsonValue.get?_sorted hkeys
  have hid : ∀ {key : String} {id : Option UUID}, Dict.get? _ key = some (uuidOrNull id) →
      (Dict.sorted _).get? key = some (uuidOrNull id) := get?_sorted_uuid hkeys
  have hcarries : Carries conv (Dict.sorted _) envelope.sorted :=
    ⟨JsonValue.get?_sorted (v := .int 1) hkeys rfl, hstr rfl, hstr rfl, hstr rfl, hid rfl, hstr rfl,
      hstr rfl, hid rfl, hstr rfl, hobj rfl, hobj rfl⟩
  have hbody : decodeBody conv (utf8 (Json.dumps F (envelopeBody conv.toPyText envelope))) =
      .ok envelope.sorted := by
    rw [decodeBody, hloads, ok_bind]
    exact envelopeOf_carries hfaithful hcarries
      (JsonValue.isFiniteFields_sorted hplain.payload.1)
      (JsonValue.isFiniteFields_sorted hplain.headers.1)
  simp only [decodeFields, StreamFields.encoded, Option.some_or, FieldValue.raw, ok_bind,
    raiseIf_bind, if_neg hsize, hbody]
  rfl

end

end AegisPlatform
