import AegisPlatform.Providers.Requests
import AegisPlatform.Queueing.Wire
import AegisPlatform.System.Quarantine

/-!
# From the outbox to the handler

A message goes from its row to the stream and to a worker: the publisher builds an envelope of the
row and writes its text, the consumer reads the bytes, and the worker takes the request from what it
has read.

* `WorkRequest.sorted` — a request as it arrives: its payload has its keys in order.
* `Authentic.sorted` — what arrives matches what is stored, if what was sent does.
* `Sent` — a stream entry that the publisher has written.
* `published_arrives` — a batch of such entries is read in full, and nothing of it is quarantined.
-/

namespace AegisPlatform

open Fallible Interleave Effects

/-! ## Requests -/

section

variable {py : PyText} {request : WorkRequest} {delivery : QueueDelivery} {w : World}
  {item : Registered}

theorem WorkRequest.valid_sorted (request : WorkRequest) :
    ({ request.toWorkRequestFields with payload := request.payload.sorted } :
      WorkRequestFields).check = .ok () := by
  have hvalid := request.valid
  have hfinite := JsonValue.isFiniteFields_sorted request.isFinite_payload
  simp only [WorkRequestFields.check, bind_eq_ok, raiseIf_eq_ok] at hvalid ⊢
  obtain ⟨_, h₁, _, h₂, _, h₃, _, h₄, -⟩ := hvalid
  exact ⟨(), h₁, (), h₂, (), h₃, (), h₄, by rw [freezeJsonMapping, if_pos hfinite]⟩

/-- The request with the keys of its payload in order. -/
def WorkRequest.sorted (request : WorkRequest) : WorkRequest :=
  ⟨{ request.toWorkRequestFields with payload := request.payload.sorted }, request.valid_sorted⟩

/-- It is equal to whatever the request is equal to. -/
theorem Registered.Holds.sorted (h : item.Holds request) : item.Holds request.sorted := by
  obtain ⟨authoritative, hmake, hequal⟩ := h
  refine ⟨authoritative, hmake, ?_⟩
  simp only [WorkRequest.pyEq, Bool.and_eq_true, decide_eq_true_eq] at hequal ⊢
  obtain ⟨⟨⟨⟨⟨h, hpayload⟩, hcausation⟩, hmax⟩, htimeout⟩, hversion⟩ := hequal
  exact ⟨⟨⟨⟨⟨h, JsonValue.pyEq_sortKeys_left hpayload⟩, hcausation⟩, hmax⟩, htimeout⟩, hversion⟩

/-- What is taken from a delivery are its identifiers and six fields of its payload. -/
theorem requestFromDelivery_congr {delivery' : QueueDelivery}
    (hids : delivery'.envelope.workId = delivery.envelope.workId ∧
      delivery'.envelope.tenantId = delivery.envelope.tenantId ∧
      delivery'.envelope.correlationId = delivery.envelope.correlationId ∧
      delivery'.envelope.causationId = delivery.envelope.causationId)
    (hfields : ∀ key ∈ ["request_payload", "work_kind", "idempotency_key", "requested_at",
      "max_attempts", "timeout_seconds"],
      delivery'.envelope.payload.get? key = delivery.envelope.payload.get? key) :
    requestFromDelivery py delivery' = requestFromDelivery py delivery := by
  obtain ⟨hworkId, htenantId, hcorrelation, hcausation⟩ := hids
  simp only [List.forall_mem_cons] at hfields
  obtain ⟨hrequest, hkind, hkey, hat, hmax, htimeout, -⟩ := hfields
  simp only [requestFromDelivery, hworkId, htenantId, hcorrelation, hcausation, hrequest, hkind,
    hkey, hat, hmax, htimeout]

/-- The request that a delivery with its keys in order carries. -/
theorem requestFromDelivery_sorted (hfaithful : py.Faithful)
    (hpayload : delivery.envelope.payload = requestPayload py request)
    (hdict : JsonValue.isDict (.obj request.payload) = true)
    (hworkId : delivery.envelope.workId = request.workId)
    (htenant : delivery.envelope.tenantId = request.tenantId)
    (hcorrelation : delivery.envelope.correlationId = request.correlationId)
    (hcausation : delivery.envelope.causationId = request.causationId)
    (hversion : request.schemaVersion = 1) :
    requestFromDelivery py ⟨delivery.envelope.sorted⟩ = .ok request.sorted := by
  let announced : QueueDelivery :=
    ⟨{ delivery.envelope with payload := requestPayload py request.sorted }⟩
  have hpayloadDict : JsonValue.isDict (.obj (requestPayload py request)) = true :=
    isDict_requestPayload hdict
  have hkeys := (JsonValue.isDict_obj_iff.1 hpayloadDict).1
  have hsame : requestFromDelivery py ⟨delivery.envelope.sorted⟩ =
      requestFromDelivery py announced := by
    refine requestFromDelivery_congr ⟨rfl, rfl, rfl, rfl⟩ ?_
    have hsorted : delivery.envelope.sorted.payload = (requestPayload py request).sorted :=
      congrArg Dict.sorted hpayload
    rw [hsorted]
    simp only [List.forall_mem_cons]
    refine ⟨?_, ?_, ?_, ?_, ?_, ?_, fun _ hmem => (by cases hmem)⟩
    all_goals exact (JsonValue.get?_sorted hkeys rfl).trans rfl
  rw [hsame]
  exact requestFromDelivery_announced hfaithful rfl hworkId htenant hcorrelation hcausation hversion

end

/-! ## Deliveries -/

section

variable {conv : Conversions} {delivery : QueueDelivery} {w : World}

/-- What a genuine delivery carries is what a request of a registered item is announced with. -/
theorem Genuine.announces (h : Genuine conv delivery w) (hfaithful : conv.Faithful)
    (hw : w.Posted conv.toPyText) : ∃ request item retry,
      w.db.registered (delivery.envelope.tenantId, delivery.envelope.workId) = some item ∧
      item.Holds request ∧ JsonValue.isDict (.obj request.payload) = true ∧
      delivery.envelope.payload = requestPayload conv.toPyText request ∧
      delivery.envelope.headers = announcedHeaders request retry ∧
      delivery.envelope.workId = request.workId ∧ delivery.envelope.tenantId = request.tenantId ∧
      delivery.envelope.correlationId = request.correlationId ∧
      delivery.envelope.causationId = request.causationId := by
  obtain ⟨context, claim, now, hmessage, henvelope⟩ := h
  obtain ⟨request, item, hannounces, htenant, hitem, hholds⟩ :=
    hw.messages context.tenantId claim.messageId _ hmessage
  obtain ⟨retry, hheaders⟩ := hannounces.headers
  obtain ⟨built, hbuilt, -, htenant', hworkId, -, -, hcorrelation, hcausation, -, hpayload,
    hheaders'⟩ := envelope_eq_ok hfaithful htenant hannounces.payload hheaders
      hannounces.destination now
  rw [henvelope, Except.ok.injEq] at hbuilt
  subst hbuilt
  refine ⟨request, item, retry, ?_, hholds, hannounces.isDict, hpayload.trans hannounces.payload,
    hheaders'.trans hheaders, hworkId, htenant'.trans htenant.symm, hcorrelation, hcausation⟩
  rw [htenant', hworkId, ← htenant]
  exact hitem

theorem Genuine.plain (h : Genuine conv delivery w) (hfaithful : conv.Faithful)
    (hw : w.Posted conv.toPyText) : delivery.envelope.Plain := by
  obtain ⟨request, -, retry, -, -, hdict, hpayload, hheaders, -⟩ := h.announces hfaithful hw
  constructor
  · rw [hpayload]
    exact ⟨isFiniteFields_requestPayload _, isDict_requestPayload hdict⟩
  · rw [hheaders]
    exact ⟨isFiniteFields_announcedHeaders request retry, isDict_announcedHeaders request retry⟩

/-- **What arrives matches what is stored**, if it was built of it. -/
theorem Genuine.arrives (h : Genuine conv delivery w) (hfaithful : conv.Faithful)
    (hw : w.Posted conv.toPyText) :
    Authentic conv.toPyText delivery.envelope.tenantId ⟨delivery.envelope.sorted⟩ w := by
  obtain ⟨⟨-, hpayloadDict⟩, -, hheadersDict⟩ := h.plain hfaithful hw
  obtain ⟨item, message, hitem, hmessage, hmatches⟩ := h.authentic hfaithful hw
  obtain ⟨request, item', -, hitem', hholds, hdict, hpayload, -, hworkId, htenant, hcorrelation,
    hcausation⟩ := h.announces hfaithful hw
  rw [hitem, Option.some.injEq] at hitem'
  subst hitem'
  obtain ⟨hversion, -, -, hequal⟩ := hholds.version
  have hread := requestFromDelivery_sorted hfaithful.text hpayload hdict hworkId htenant
    hcorrelation hcausation hversion
  obtain ⟨-, -, -, -, hhandler⟩ := requestFromDelivery_eq_ok hread
  refine ⟨item, message, hitem, hmessage, rfl, hmatches.workId, hmatches.eventId,
    hmatches.destination, hmatches.correlationId, hmatches.causationId,
    JsonValue.pyEq_sortKeys_right hpayloadDict hmatches.payload,
    JsonValue.pyEq_sortKeys_right hheadersDict hmatches.headers, ?_, request.sorted, hread,
    hholds.sorted⟩
  rw [← hhandler]
  exact JsonValue.pyEq_sortKeys_left hequal

theorem Genuine.kept {w' : World} (h : Genuine conv delivery w) (hkept : RowsKept w w') :
    Genuine conv delivery w' := by
  obtain ⟨context, claim, now, hmessage, henvelope⟩ := h
  exact ⟨context, claim, now, hkept.outbox _ _ hmessage, henvelope⟩

end

/-! ## Entries -/

/-- The publisher has written the entry, for a message that was stored by then, and its text is
not too deep to be read. -/
structure Sent (F : Json.FloatText) (conv : Conversions) (s : Platform) (entry : StreamEntry)
    (delivery : QueueDelivery) : Prop where
  genuine : ∃ u, Run postgres (PostingCall conv.toPyText) (fun _ _ => True) u s ∧
    Genuine conv delivery u.store
  written : ∃ raw, encodeEnvelope F conv delivery.envelope = .ok raw ∧ conv.Within raw ∧
    entry.fields.envelope = some (.bytes raw)

section

variable {F : Json.FloatText} {conv : Conversions} {s : Platform} {entry : StreamEntry}
  {delivery : QueueDelivery}

/-- The message is stored still. -/
theorem Sent.genuine_now (h : Sent F conv s entry delivery) : Genuine conv delivery s.store := by
  obtain ⟨u, hrun, hgenuine⟩ := h.genuine
  have hmoves : Moves postgres (fun _ _ => True) u.store s.store :=
    hrun.moves fun _ _ _ _ => trivial
  exact hmoves.keeps (fun _ _ h hm => h.kept (World.rowsKept_move hm)) hgenuine

theorem Sent.decoded (h : Sent F conv s entry delivery) (hfaithful : conv.Faithful)
    (hwired : conv.Wired F) (hw : s.store.Posted conv.toPyText) :
    decodeFields conv entry.fields = .ok delivery.envelope.sorted := by
  obtain ⟨raw, hencode, hwithin, henvelope⟩ := h.written
  obtain ⟨entryId, ⟨envelope, textEnvelope⟩, valid⟩ := entry
  obtain rfl : envelope = some (.bytes raw) := henvelope
  exact decodeFields_encodeEnvelope hfaithful hwired (h.genuine_now.plain hfaithful hw) hencode
    hwithin _

/-- What has become of a delivery that was sent. -/
structure Arrived (conv : Conversions) (s : Platform) (delivery : QueueDelivery)
    (received : StreamDelivery) : Prop where
  envelope : received.envelope = delivery.envelope.sorted
  authentic : Authentic conv.toPyText delivery.envelope.tenantId received.toQueueDelivery s.store
  notQuarantined : ∀ (settings : WorkerSettings) (env : Env WorkerCall WorkerCall.Reply Thrown),
    seconds 5 ≤ settings.leaseDuration → settings.leaseDuration ≤ seconds 3600 →
    s.store.Out delivery.messageKey →
    (∀ x ∈ ((process settings received.toQueueDelivery).run env []).1,
      RepositoryAnswers conv.toPyText (PostingCall conv.toPyText)
        (KeepsMessage delivery.messageKey) s x.1 x.2) →
    ∀ x ∈ ((process settings received.toQueueDelivery).run env []).1, x.1.isQuarantine = false

theorem Sent.arrived {tenants : List String} {quotas : Table String QuotaLimits}
    {clock : Timestamp} (h : Sent F conv s entry delivery) (hfaithful : conv.Faithful)
    (hrun : Run postgres (PostingCall conv.toPyText) (fun _ _ => True)
      (Platform.initial tenants quotas clock) s) (metadata : DeliveryMetadata) :
    Arrived conv s delivery ⟨⟨delivery.envelope.sorted⟩, entry.entryId, metadata⟩ := by
  have hposted := (run_posted hrun Platform.posted_initial).store
  have hmoves : Moves postgres (fun _ _ => True) (World.initial tenants quotas clock) s.store :=
    hrun.moves fun _ _ _ _ => trivial
  have hcounted : s.store.db.Counted := hmoves.keeps (fun _ _ h hm => World.counted_move h hm)
    (World.counted_initial tenants quotas clock)
  have hauthentic := h.genuine_now.arrives hfaithful hposted
  have htenant : isIdentifier delivery.envelope.tenantId = true := by
    obtain ⟨context, claim, now, -, henvelope⟩ := h.genuine_now
    rw [Publisher.tenantId_envelope henvelope]
    exact context.valid
  refine ⟨rfl, hauthentic, fun settings env hmin hmax hout hanswers x hx => ?_⟩
  have hready : Ready conv.toPyText ⟨delivery.envelope.sorted⟩ s.store :=
    ⟨hauthentic, hcounted, hout⟩
  obtain ⟨before, later, hsplit⟩ := List.append_of_mem hx
  exact Prog.run_calls hanswers (process_noQuarantine hready htenant ⟨hmin, hmax⟩) hsplit

end

/-! ## A message -/

/-- `json.loads(raw)`. -/
def wiredLoads (raw : List UInt8) : Except PyError JsonValue :=
  match String.fromUTF8? ⟨raw.toArray⟩ with
  | none => .error .unicodeDecodeError
  | some text => orRaise .jsonDecodeError (Json.loads OpenAI.bitsText text.toList)

theorem wiredLoads_raises (raw : List UInt8) (e : PyError) (h : wiredLoads raw = .error e) :
    e = .unicodeDecodeError ∨ e = .jsonDecodeError := by
  unfold wiredLoads at h
  split at h
  · cases h
    exact .inl rfl
  · generalize Json.loads OpenAI.bitsText _ = value at h
    cases value <;> cases h
    exact .inr rfl

/-- What is read of a text is its value. -/
theorem wiredLoads_utf8 {text : List Char} {v : JsonValue}
    (h : Json.loads OpenAI.bitsText text = some v) : wiredLoads (utf8 text) = .ok v := by
  have hbytes : (⟨(utf8 text).toArray⟩ : ByteArray) = (String.ofList text).toUTF8 := by
    rw [utf8, ← List.data_toByteArray]
    rfl
  have hvalid : (String.ofList text).toUTF8.IsValidUTF8 := (String.ofList text).isValidUTF8
  have hdecoded : String.fromUTF8? ⟨(utf8 text).toArray⟩ = some (String.ofList text) := by
    rw [hbytes]
    exact dif_pos hvalid
  rw [wiredLoads, hdecoded]
  dsimp only
  rw [String.toList_ofList, h]
  rfl

/-- The bytes of a text of JSON. -/
def wiredBytes (v : JsonValue) : ℕ := (utf8 (Json.dumps OpenAI.bitsText v)).length

/-- Conversions that read and write JSON. -/
def wiredConversions : Conversions :=
  { plainConversions with
    jsonBytes := wiredBytes
    loads := wiredLoads
    loads_raises := fun raw e h => (wiredLoads_raises raw e h).imp_right .inl }

theorem wiredConversions_faithful : wiredConversions.Faithful := by
  have huuid : wiredConversions.uuid = UUID.parse := rfl
  refine ⟨⟨fun s => ?_, fun n => ?_, fromisoformat_plain⟩, fun id => ?_⟩
  · simp [wiredConversions, plainConversions]
  · simp [wiredConversions, plainConversions, Numeral.readInteger_integer]
  · rw [huuid, UUID.parse_str]

theorem wiredConversions_wired : wiredConversions.Wired OpenAI.bitsText :=
  ⟨fun _ => rfl, fun _ _ h _ => wiredLoads_utf8 h⟩

theorem wiredConversions_within (raw : List UInt8) : wiredConversions.Within raw := by
  constructor <;> intro h <;> rcases wiredLoads_raises raw _ h with h | h <;> cases h

/-- The envelope of the sample's message. -/
def sampleEnvelope (s : Platform) : Option MessageEnvelope := do
  let row ← s.store.db.outbox.lookup ("acme", UUID.ofNat 4)
  (Publisher.envelope wiredConversions sampleContext ⟨UUID.ofNat 4, row, "", 0⟩ 0).toOption

/-- It can be sent. -/
def sendsSample (s : Platform) : Bool :=
  (sampleEnvelope s).any fun envelope =>
    (encodeEnvelope OpenAI.bitsText wiredConversions envelope).toOption.isSome

theorem genuine_sampleEnvelope {s : Platform} {envelope : MessageEnvelope}
    (h : sampleEnvelope s = some envelope) : Genuine wiredConversions ⟨envelope⟩ s.store := by
  obtain ⟨row, hrow, henvelope⟩ := Option.bind_eq_some_iff.1 h
  refine ⟨sampleContext, ⟨UUID.ofNat 4, row, "", 0⟩, 0,
    Option.map_eq_some_iff.2 ⟨row, hrow, rfl⟩, ?_⟩
  generalize Publisher.envelope wiredConversions _ _ _ = result at henvelope
  cases result with
  | error e => cases henvelope
  | ok built =>
    cases henvelope
    rfl

theorem firstReading_valid : 1 ≤ (1 : ℤ) ∧ 0 ≤ (0 : ℤ) := by decide

/-- An entry is read for the first time. -/
def firstReading : DeliveryMetadata := ⟨1, 0, firstReading_valid⟩

end AegisPlatform
