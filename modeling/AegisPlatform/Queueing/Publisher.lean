import AegisPlatform.Lib.Numeral
import AegisPlatform.Queueing.Json
import AegisPlatform.Queueing.RedisStreams
import AegisPlatform.Runtime.Repository

/-!
# The publisher's envelopes

`_envelope` makes the envelope of a claimed outbox row: the identifiers are read back from the
row's payload, and payload and headers are taken over as they are.

* `PyText.Faithful`, `Conversions.Faithful` — what a conversion has written another one reads
  back.
* `Publisher.envelope` — the code.
* `envelope_eq_ok` — the envelope of a row that announces a request.
-/

namespace AegisPlatform

open Fallible

/-! ## Conversions that read back what they write -/

/-- `str` keeps a string, and `int` and `fromisoformat` read back what `str` and `isoformat`
have written. -/
structure PyText.Faithful (py : PyText) : Prop where
  str_str : ∀ s, py.str (.str s) = s
  int_str : ∀ n, py.int (py.str (.int n)) = some n
  fromisoformat_isoformat : ∀ t, py.fromisoformat (py.isoformat t) = some t

/-- So does `UUID`. -/
structure Conversions.Faithful (conv : Conversions) : Prop where
  text : conv.toPyText.Faithful
  uuid_str : ∀ id : UUID, conv.uuid id.str = some id

/-! ## Building an envelope -/

namespace Publisher

variable (conv : Conversions)

/-- The identifiers of a payload: work, correlation and causation. -/
def routing (payload : Dict) : Except PyError (UUID × UUID × Option UUID) := do
  let workId ← uuidOf conv (← item payload "work_id")
  let correlationId ← uuidOf conv (← item payload "correlation_id")
  let causationId ← optionalUuid conv payload "causation_id"
  return (workId, correlationId, causationId)

/-- `headers.get("tenant_id")`, if it is neither absent nor `None`. -/
def tenantHeader (headers : Dict) : Option JsonValue :=
  match headers.get? "tenant_id" with
  | some .null | none => none
  | some value => some value

/-- `_envelope`. -/
def envelope (context : TenantContext) (claim : ClaimedOutboxMessage) (now : Timestamp) :
    Except Raised MessageEnvelope := do
  let payload := claim.row.payload
  let (workId, correlationId, causationId) ←
    match routing conv payload with
    | .ok ids => .ok ids
    | .error _ => .error (.permanentQueueError "outbox payload lacks work routing metadata")
  raiseIf ((tenantHeader claim.row.headers).any fun value => conv.str value ≠ context.tenantId)
    (.permanentQueueError "outbox tenant header mismatch")
  -- `MessageEnvelope.__post_init__`
  if h : context.tenantId ≠ "" ∧ claim.row.destination ≠ "" then do
    freezeJsonMapping payload
    freezeJsonMapping claim.row.headers
    return {
      messageId := claim.messageId
      tenantId := context.tenantId
      workId := workId
      eventId := claim.row.eventId
      destination := claim.row.destination
      correlationId := correlationId
      causationId := causationId
      occurredAt := now
      payload := payload
      headers := claim.row.headers
      valid := h }
  else .error (.valueError "message tenant and destination are required")

theorem tenantId_envelope {conv : Conversions} {context : TenantContext}
    {claim : ClaimedOutboxMessage} {now : Timestamp} {built : MessageEnvelope}
    (h : envelope conv context claim now = .ok built) : built.tenantId = context.tenantId := by
  simp only [envelope] at h
  split at h
  · simp only [bind_eq_ok] at h
    obtain ⟨_, -, _, -, h⟩ := h
    split at h
    · simp only [bind_eq_ok, pure_eq_ok] at h
      obtain ⟨-, -, -, -, rfl⟩ := h
      rfl
    · cases h
  · cases h

end Publisher

/-! ## Envelopes of rows that announce a request -/

/-- The headers of a message: those of a registration or a requeue, or those of a retry. -/
def announcedHeaders (request : WorkRequest) (retry : Bool) : Dict :=
  if retry then [("tenant_id", .str request.tenantId)] else workHeaders request

section

variable {conv : Conversions} {request : WorkRequest}

theorem uuidOf_str (h : conv.Faithful) (id : UUID) : uuidOf conv (.str id.str) = .ok id := by
  rw [uuidOf, h.text.str_str, h.uuid_str]
  rfl

theorem optionalUuid_uuidOrNull (h : conv.Faithful) {fields : Dict} {key : String}
    {id : Option UUID} (hfield : fields.get? key = some (uuidOrNull id)) :
    optionalUuid conv fields key = .ok id := by
  rw [optionalUuid, hfield]
  cases id with
  | none => rfl
  | some id =>
    show some <$> uuidOf conv (.str id.str) = _
    rw [uuidOf_str h]
    rfl

theorem routing_requestPayload (h : conv.Faithful) :
    Publisher.routing conv (requestPayload conv.toPyText request) =
      .ok (request.workId, request.correlationId, request.causationId) := by
  have hwork : item (requestPayload conv.toPyText request) "work_id" =
      .ok (.str request.workId.str) := rfl
  have hcorrelation : item (requestPayload conv.toPyText request) "correlation_id" =
      .ok (.str request.correlationId.str) := rfl
  have hcausation : optionalUuid conv (requestPayload conv.toPyText request) "causation_id" =
      .ok request.causationId := optionalUuid_uuidOrNull h rfl
  simp only [Publisher.routing, hwork, hcorrelation, hcausation]
  show (uuidOf conv (.str request.workId.str) >>= fun workId =>
    uuidOf conv (.str request.correlationId.str) >>= fun correlationId =>
      (.ok (workId, correlationId, request.causationId) : Except PyError _)) = _
  rw [uuidOf_str h, uuidOf_str h]
  rfl

theorem isFinite_uuidOrNull (id : Option UUID) : (uuidOrNull id).isFinite = true := by
  cases id <;> rfl

theorem WorkRequest.isFinite_payload (request : WorkRequest) :
    JsonValue.isFiniteFields request.payload = true := by
  have hvalid := request.valid
  simp only [WorkRequestFields.check, bind_eq_ok] at hvalid
  obtain ⟨-, -, -, -, -, -, -, -, hfrozen⟩ := hvalid
  unfold freezeJsonMapping at hfrozen
  split at hfrozen
  · assumption
  · cases hfrozen

theorem isFiniteFields_requestPayload (py : PyText) :
    JsonValue.isFiniteFields (requestPayload py request) = true := by
  simp [requestPayload, JsonValue.isFiniteFields, JsonValue.isFinite, isFinite_uuidOrNull,
    request.isFinite_payload]

/-- **The envelope of a row that announces a request**: the identifiers are the request's. -/
theorem envelope_eq_ok (h : conv.Faithful) {context : TenantContext} {claim : ClaimedOutboxMessage}
    {retry : Bool} (htenant : request.tenantId = context.tenantId)
    (hpayload : claim.row.payload = requestPayload conv.toPyText request)
    (hheaders : claim.row.headers = announcedHeaders request retry)
    (hdestination : claim.row.destination = "aegis.work") (now : Timestamp) :
    ∃ envelope : MessageEnvelope, Publisher.envelope conv context claim now = .ok envelope ∧
      envelope.messageId = claim.messageId ∧ envelope.tenantId = context.tenantId ∧
      envelope.workId = request.workId ∧ envelope.eventId = claim.row.eventId ∧
      envelope.destination = claim.row.destination ∧
      envelope.correlationId = request.correlationId ∧
      envelope.causationId = request.causationId ∧ envelope.occurredAt = now ∧
      envelope.payload = claim.row.payload ∧ envelope.headers = claim.row.headers := by
  have hheader : ((Publisher.tenantHeader claim.row.headers).any fun value =>
      conv.str value ≠ context.tenantId) = false := by
    rw [hheaders]
    cases retry <;>
      simp [announcedHeaders, workHeaders, Publisher.tenantHeader, Dict.get?, h.text.str_str, htenant]
  have hfinite : JsonValue.isFiniteFields claim.row.headers = true := by
    rw [hheaders]
    cases retry <;> rfl
  have hvalid : context.tenantId ≠ "" ∧ claim.row.destination ≠ "" := by
    rw [← htenant, hdestination]
    exact ⟨request.tenantId_ne, by decide⟩
  refine ⟨⟨claim.messageId, context.tenantId, request.workId, claim.row.eventId,
    claim.row.destination, request.correlationId, request.causationId, now, claim.row.payload,
    claim.row.headers, hvalid⟩, ?_, rfl, rfl, rfl, rfl, rfl, rfl, rfl, rfl, rfl, rfl⟩
  have hpayloadFinite : freezeJsonMapping claim.row.payload = .ok () := by
    rw [hpayload, freezeJsonMapping, if_pos (isFiniteFields_requestPayload _)]
  have hheadersFinite : freezeJsonMapping claim.row.headers = .ok () := by
    rw [freezeJsonMapping, if_pos hfinite]
  have hrouting : Publisher.routing conv claim.row.payload =
      .ok (request.workId, request.correlationId, request.causationId) := by
    rw [hpayload]
    exact routing_requestPayload h
  simp only [Publisher.envelope, hrouting, hheader, hpayloadFinite, hheadersFinite, dif_pos hvalid]
  rfl

end

/-! ## Conversions that are faithful -/

/-- The number a text of hexadecimal digits stands for. -/
def readHex (digits : List Char) : Option ℕ :=
  digits.foldlM (fun n c => (Json.hexValue c).map fun d => n * 16 + d) 0

/-- `UUID(text)`, for texts without a prefix: 32 hexadecimal digits, hyphens ignored. -/
def UUID.parse (text : String) : Option UUID :=
  let digits := text.toList.filter (· ≠ '-')
  if digits.length = 32 then (readHex digits).map UUID.ofNat else none

theorem readHex_hexDigits (n k : ℕ) : readHex (hexDigits n k) = some (n % 16 ^ k) := by
  induction k generalizing n with
  | zero => simp [readHex, hexDigits, Nat.mod_one]
  | succ k ih =>
    have hdigit : Json.hexValue (hexDigit (n % 16)) = some (n % 16) :=
      Json.hexValue_hexDigit (Nat.mod_lt _ (by decide))
    unfold readHex at ih ⊢
    rw [hexDigits, List.foldlM_append, ih]
    simp only [Option.bind_eq_bind, Option.bind_some, List.foldlM_cons, List.foldlM_nil, hdigit,
      Option.map_some]
    rw [Nat.pow_succ', Nat.mod_mul]
    exact congrArg some (by omega)

/-- What holds of the sixteen digits holds of every one written. -/
theorem forall_mem_hexDigits {P : Char → Prop} (hP : ∀ n < 16, P (hexDigit n)) {n k : ℕ} {c : Char}
    (h : c ∈ hexDigits n k) : P c := by
  induction k generalizing n with
  | zero => cases h
  | succ k ih =>
    rcases List.mem_append.1 h with h | h
    · exact ih h
    · rw [List.mem_singleton.1 h]
      exact hP _ (Nat.mod_lt _ (by decide))

/-- The digits of an identifier, without the hyphens between them. -/
theorem UUID.filter_str (id : UUID) : id.str.toList.filter (· ≠ '-') = id.hex := by
  have hkeep : ∀ l : List Char, (∀ c ∈ l, c ∈ id.hex) → l.filter (· ≠ '-') = l := by
    intro l hl
    refine List.filter_eq_self.2 fun c hc => ?_
    exact decide_eq_true (forall_mem_hexDigits (P := (· ≠ '-')) (by decide) (hl c hc))
  have htake : ∀ m n, ∀ c ∈ (id.hex.drop m).take n, c ∈ id.hex := fun m n c hc =>
    List.mem_of_mem_drop (List.mem_of_mem_take hc)
  rw [UUID.str, String.toList_ofList, List.filter_append, List.filter_cons_of_neg (by decide),
    List.filter_append, List.filter_cons_of_neg (by decide), List.filter_append,
    List.filter_cons_of_neg (by decide), List.filter_append, List.filter_cons_of_neg (by decide),
    hkeep _ fun c hc => List.mem_of_mem_take hc, hkeep _ (htake 8 4), hkeep _ (htake 12 4),
    hkeep _ (htake 16 4),
    hkeep _ fun c hc => List.mem_of_mem_drop hc]
  exact UUID.groups id.hex

theorem UUID.parse_str (id : UUID) : UUID.parse id.str = some id := by
  have hpow : (16 : ℕ) ^ 32 = 2 ^ 128 := by norm_num
  rw [UUID.parse]
  simp only [UUID.filter_str, UUID.length_hex, if_true]
  rw [UUID.hex, readHex_hexDigits, hpow, Nat.mod_eq_of_lt id.int.isLt]
  simp [UUID.ofNat]

/-- The text of the first instant of the epoch. -/
def epochText : String := "1970-01-01T00:00:00+00:00"

/-- Conversions that read back what they write.  Strings, integers, identifiers and the first
instant of the epoch are written as Python writes them. -/
def plainConversions : Conversions where
  str
    | .str s => s
    | .int n => String.ofList (Numeral.integer n)
    | _ => "None"
  int text := Numeral.readInteger text.toList
  isoformat t := if t = 0 then epochText else String.ofList (Numeral.integer t)
  fromisoformat text := if text = epochText then some 0 else Numeral.readInteger text.toList
  strDecimal x := String.ofList (Numeral.integer x.num)
  jsonBytes _ := 0
  jsonDigest _ := ""
  loads _ := .error .jsonDecodeError
  loads_raises _ e h := by
    cases h
    exact Or.inr (Or.inl rfl)
  uuid := UUID.parse
  isNaive _ := false

theorem readInteger_epochText : Numeral.readInteger epochText.toList = none := by decide

theorem fromisoformat_plain (t : Timestamp) :
    plainConversions.fromisoformat (plainConversions.isoformat t) = some t := by
  by_cases ht : t = 0
  · simp [plainConversions, ht]
  · have hne : String.ofList (Numeral.integer t) ≠ epochText := by
      intro h
      have hread := Numeral.readInteger_integer t
      rw [← String.toList_ofList (l := Numeral.integer t), h, readInteger_epochText] at hread
      cases hread
    simp [plainConversions, ht, hne, Numeral.readInteger_integer]

theorem plainConversions_faithful : plainConversions.Faithful := by
  have huuid : plainConversions.uuid = UUID.parse := rfl
  refine ⟨⟨fun s => ?_, fun n => ?_, fromisoformat_plain⟩, fun id => ?_⟩
  · simp [plainConversions]
  · simp [plainConversions, Numeral.readInteger_integer]
  · rw [huuid, UUID.parse_str]

end AegisPlatform
