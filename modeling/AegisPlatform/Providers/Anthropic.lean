import AegisPlatform.Gateway.Router
import AegisPlatform.Providers.OpenAI

/-!
# Responses of the Anthropic adapter

`AnthropicAdapter._response` reads the content blocks, then the usage counters, which are
disjoint already.  Its `_usage_int` takes no `None`, and an SDK sets a cache counter to `None`
where the provider sent none.

* `Anthropic.contentBlock`, `usage`, `response` — the code.
* `Anthropic.WellFormed`, `UsageCounts` — a response without defect but for its usage, and its
  usage.
* `Anthropic.response_billable_iff` — when the usage is normalised without loss.
* `provider_usage` — both adapters.
-/

namespace AegisPlatform

open Fallible

namespace Anthropic

variable (python : Decoding) (maxResponseChars : ℕ) (request : ModelRequest)

/-- `_json_object`. -/
def jsonObject (text : String) : Except ProviderRaised PyMapping :=
  match python.loads text with
  | .error none => .error (malformed "structured_output_not_json")
  | .error (some e) => .error e
  | .ok (.mapping .dict fields) => .ok ⟨.dict, fields⟩
  | .ok _ => .error (malformed "structured_output_not_object")

/-- `_usage_int`: the check of the other adapter's `_nonnegative_int`. -/
def usageInt : SdkValue → Except ProviderRaised ℤ := nonnegativeInt

/-- The variables of the loop over the content. -/
structure Parsed where
  parts : List ContentPart := []
  structured : Option PyMapping := none

/-- The loop body. -/
def contentBlock (parsed : Parsed) (item : SdkValue) : Except ProviderRaised Parsed :=
  match item.getattr "type" .none with
  | .str "text" => do
    let text ← boundedText (item.getattr "text" .none) maxResponseChars
    let part ← textPart text
    let structured ← if request.responseSchema.isSome then (jsonObject python text).map some
      else .ok parsed.structured
    return { parts := parsed.parts ++ [part], structured }
  | .str "tool_use" =>
    match item.getattr "input" .none with
    | .mapping arguments => do
      let part ← toolCallPart (python.text (item.getattr "id" (.str "")))
        (python.text (item.getattr "name" (.str ""))) arguments
      return { parsed with parts := parsed.parts ++ [part] }
    | _ => .error (malformed "tool_arguments_not_object" argumentsNotObject_ne_empty)
  | _ => .ok parsed

/-- `finish_by_reason`. -/
def finishByReason : List (String × FinishReason) :=
  [("end_turn", .stop), ("stop_sequence", .stop), ("max_tokens", .length),
    ("tool_use", .toolCalls), ("refusal", .refusal)]

/-- Why the model stopped. -/
def finishReason (raw : SdkValue) : FinishReason :=
  match raw.getattr "stop_reason" .none with
  | .str stopReason => (finishByReason.lookup stopReason).getD .unknown
  | _ => .unknown

/-- Whether the response is safe. -/
def safety (finish : FinishReason) : SafetyResult :=
  if finish = .refusal then .refused else .allowed

/-- The usage of a response. -/
def usage (usage : SdkValue) : Except ProviderRaised TokenUsage := do
  let inputTokens ← usageInt (usage.getattr "input_tokens" .none)
  let outputTokens ← usageInt (usage.getattr "output_tokens" .none)
  let cacheReadTokens ← usageInt (usage.getattr "cache_read_input_tokens" (.int 0))
  let cacheWriteTokens ← usageInt (usage.getattr "cache_creation_input_tokens" (.int 0))
  tokenUsage inputTokens outputTokens cacheReadTokens cacheWriteTokens 0

/-- `AnthropicAdapter._response`; `now` is what the clock shows at its end. -/
def response (raw : SdkValue) (model : ModelIdentity) (started now : ℚ) :
    Except ProviderRaised ModelResponse :=
  match raw.getattr "content" .none, raw.getattr "usage" .none with
  | .sequence .list _, .none => .error (malformed "malformed_anthropic_response")
  | .sequence .list content, usageObject => do
    let parsed ← content.foldlM (contentBlock python maxResponseChars request) {}
    let finish := finishReason raw
    let tokenUsage ← usage usageObject
    modelResponse request.requestId model parsed.parts finish (safety finish) tokenUsage
      (latencyMs started now) (providerRequestId raw) parsed.structured
  | _, _ => .error (malformed "malformed_anthropic_response")

/-! ## Responses without defect -/

/-- A block whose text is a text within the bound (not empty and, where a schema was asked for,
an object of JSON), or whose call has an id, a name and an input. -/
structure WellFormedBlock (item : SdkValue) : Prop where
  text : item.getattr "type" .none = .str "text" →
    ∃ text, item.getattr "text" .none = .str text ∧ text ≠ "" ∧
      text.length ≤ maxResponseChars ∧
      (request.responseSchema.isSome = true →
        ∃ fields, python.loads text = .ok (.mapping .dict fields) ∧ Freezes ⟨.dict, fields⟩)
  call : item.getattr "type" .none = .str "tool_use" →
    python.text (item.getattr "id" (.str "")) ≠ "" ∧
      python.text (item.getattr "name" (.str "")) ≠ "" ∧
      ∃ arguments, item.getattr "input" .none = .mapping arguments ∧ Freezes arguments

/-- A response without defect, its usage apart. -/
def WellFormed (raw : SdkValue) : Prop :=
  ∃ content, raw.getattr "content" .none = .sequence .list content ∧
    ∀ item ∈ content, WellFormedBlock python maxResponseChars request item

/-- What the provider counted, in counters that do not overlap. -/
structure UsageCounts (usage : SdkValue) (input output cacheRead cacheWrite : ℤ) : Prop where
  input_eq : usage.attribute? "input_tokens" = some (.int input) ∧ 0 ≤ input
  output_eq : usage.attribute? "output_tokens" = some (.int output) ∧ 0 ≤ output
  cacheRead_counts : Counts (usage.attribute? "cache_read_input_tokens") cacheRead
  cacheWrite_counts : Counts (usage.attribute? "cache_creation_input_tokens") cacheWrite

/-- Neither cache counter is there with the value `None`. -/
def CacheCountersSet (usage : SdkValue) : Prop :=
  usage.attribute? "cache_read_input_tokens" ≠ some .none ∧
    usage.attribute? "cache_creation_input_tokens" ≠ some .none

variable {python maxResponseChars request}

/-- What the loop keeps: an object read from a text can be stored. -/
def Parsed.Sound (parsed : Parsed) : Prop := ∀ m ∈ parsed.structured, Freezes m

theorem contentBlock_ok {item : SdkValue}
    (h : WellFormedBlock python maxResponseChars request item) (parsed : Parsed)
    (hparsed : parsed.Sound) : ∃ parsed',
      contentBlock python maxResponseChars request parsed item = .ok parsed' ∧ parsed'.Sound := by
  unfold contentBlock
  split
  · rename_i htype
    obtain ⟨text, htext, hne, hlength, hschema⟩ := h.text htype
    simp only [htext, boundedText_eq hlength, ok_bind]
    simp only [textPart_eq hne, ok_bind]
    by_cases hasked : request.responseSchema.isSome = true
    · obtain ⟨fields, hloads, hfreezes⟩ := hschema hasked
      rw [if_pos hasked]
      simp only [jsonObject, hloads]
      refine ⟨_, rfl, ?_⟩
      rintro m ⟨⟩
      exact hfreezes
    · rw [if_neg hasked]
      exact ⟨_, rfl, hparsed⟩
  · rename_i htype
    obtain ⟨hid, hname, arguments, hinput, hfreezes⟩ := h.call htype
    obtain ⟨part, hpart⟩ := toolCallPart_eq hid hname hfreezes
    simp only [hinput, hpart, ok_bind]
    exact ⟨_, rfl, hparsed⟩
  · exact ⟨parsed, rfl, hparsed⟩

theorem usageInt_eq {object : SdkValue} {name : String} {n : ℤ}
    (h : Counts (object.attribute? name) n) (hset : object.attribute? name ≠ some .none) :
    usageInt (object.getattr name (.int 0)) = .ok n := by
  generalize hvalue : object.attribute? name = value at h hset
  cases h with
  | absent =>
    rw [SdkValue.getattr_of_none hvalue]
    rfl
  | null => exact absurd rfl hset
  | int hn =>
    rw [SdkValue.getattr_of_some hvalue]
    exact nonnegativeInt_int hn

theorem usageInt_ne_none {object : SdkValue} {name : String} {n : ℤ}
    (h : usageInt (object.getattr name (.int 0)) = .ok n) : object.attribute? name ≠ some .none := by
  intro hnone
  rw [SdkValue.getattr_of_some hnone] at h
  cases h

/-- Counters that are read are set. -/
theorem cacheCountersSet_of_usage {object : SdkValue} {u : TokenUsage}
    (h : usage object = .ok u) : CacheCountersSet object := by
  simp only [usage, bind_eq_ok] at h
  obtain ⟨-, -, -, -, cacheRead, hread, cacheWrite, hwrite, -⟩ := h
  exact ⟨usageInt_ne_none hread, usageInt_ne_none hwrite⟩

/-- Counters that are set are read as they were counted. -/
theorem usage_eq {object : SdkValue} {input output cacheRead cacheWrite : ℤ}
    (h : UsageCounts object input output cacheRead cacheWrite) (hset : CacheCountersSet object) :
    ∃ u, usage object = .ok u ∧
      u.billableTokens = input + output + cacheRead + cacheWrite := by
  obtain ⟨⟨hinput, hinput0⟩, ⟨houtput, houtput0⟩, hread, hwrite⟩ := h
  have hvalid : 0 ≤ input ∧ 0 ≤ output ∧ 0 ≤ cacheRead ∧ 0 ≤ cacheWrite ∧ (0 : ℤ) ≤ 0 :=
    ⟨hinput0, houtput0, hread.nonneg, hwrite.nonneg, le_refl 0⟩
  have hint : ∀ {n : ℤ}, 0 ≤ n → usageInt (.int n) = .ok n := nonnegativeInt_int
  refine ⟨⟨input, output, cacheRead, cacheWrite, 0, hvalid⟩, ?_, ?_⟩
  · simp only [usage, SdkValue.getattr_of_some hinput, SdkValue.getattr_of_some houtput,
      hint hinput0, hint houtput0, usageInt_eq hread hset.1, usageInt_eq hwrite hset.2, ok_bind,
      tokenUsage_eq hvalid]
  · simp only [TokenUsage.billableTokens]
    omega

section

variable {raw object : SdkValue}

/-- On a response without defect everything hangs on the usage. -/
theorem response_ok (hraw : WellFormed python maxResponseChars request raw)
    (hobject : raw.attribute? "usage" = some object) (hne : object ≠ .none) {u : TokenUsage}
    (hu : usage object = .ok u) (model : ModelIdentity) (started now : ℚ) :
    ∃ response, Anthropic.response python maxResponseChars request raw model started now =
      .ok response ∧ response.usage = u := by
  obtain ⟨items, hitems, hall⟩ := hraw
  obtain ⟨parsed, hparsed, hsound⟩ :=
    foldlM_ok (f := contentBlock python maxResponseChars request) (I := Parsed.Sound) (b := {})
      (fun m hm => by cases hm) fun item hmem b hb => contentBlock_ok (hall item hmem) b hb
  obtain ⟨result, hresult, husage⟩ := modelResponse_eq request.requestId model parsed.parts
    (finishReason raw) (safety (finishReason raw)) u (latencyMs_nonneg started now)
    (providerRequestId_ne_empty raw) hsound
  refine ⟨result, ?_, husage⟩
  unfold response
  rw [hitems, SdkValue.getattr_of_some hobject]
  split
  · exact absurd rfl hne
  · rename_i content hcontent _
    cases hcontent
    simp only [hparsed, hu, ok_bind]
    exact hresult
  · rename_i hnot _
    exact (hnot items rfl).elim

/-- A response that is built has a usage that was read. -/
theorem usage_of_response (hobject : raw.attribute? "usage" = some object)
    {model : ModelIdentity} {started now : ℚ} {response : ModelResponse}
    (h : Anthropic.response python maxResponseChars request raw model started now = .ok response) :
    ∃ u, usage object = .ok u := by
  unfold Anthropic.response at h
  rw [SdkValue.getattr_of_some hobject] at h
  split at h
  · cases h
  · simp only [bind_eq_ok] at h
    obtain ⟨-, -, u, hu, -⟩ := h
    exact ⟨u, hu⟩
  · cases h

end

/-- **Anthropic usage is normalised without loss** exactly where no cache counter is `None`. -/
theorem response_billable_iff {raw object : SdkValue} {input output cacheRead cacheWrite : ℤ}
    (hraw : WellFormed python maxResponseChars request raw)
    (hobject : raw.attribute? "usage" = some object)
    (hcounts : UsageCounts object input output cacheRead cacheWrite) (model : ModelIdentity)
    (started now : ℚ) :
    (∃ response, Anthropic.response python maxResponseChars request raw model started now =
        .ok response ∧
      response.usage.billableTokens = input + output + cacheRead + cacheWrite) ↔
      CacheCountersSet object := by
  constructor
  · rintro ⟨response, hresponse, -⟩
    obtain ⟨u, hu⟩ := usage_of_response hobject hresponse
    exact cacheCountersSet_of_usage hu
  · intro hset
    obtain ⟨u, hu, hbillable⟩ := usage_eq hcounts hset
    have hne : object ≠ .none := by
      rintro rfl
      cases hcounts.input_eq.1
    obtain ⟨response, hresponse, husage⟩ := response_ok hraw hobject hne hu model started now
    exact ⟨response, hresponse, by rw [husage, hbillable]⟩

end Anthropic

/-! ## Both adapters -/

/-- **Provider usage is normalised without loss**, by the one adapter always and by the other
exactly where no cache counter is `None`. -/
theorem provider_usage (python : Decoding) (maxResponseChars : ℕ) (request : ModelRequest)
    (model : ModelIdentity) (started now : ℚ) :
    (∀ (raw object : SdkValue) (input output cached reasoning : ℤ),
      OpenAI.WellFormed python maxResponseChars request raw →
      raw.attribute? "usage" = some object →
      OpenAI.UsageCounts object input output cached reasoning →
      ∃ response, OpenAI.response python maxResponseChars request raw model started now =
        .ok response ∧ response.usage.billableTokens = input + output) ∧
    (∀ (raw object : SdkValue) (input output cacheRead cacheWrite : ℤ),
      Anthropic.WellFormed python maxResponseChars request raw →
      raw.attribute? "usage" = some object →
      Anthropic.UsageCounts object input output cacheRead cacheWrite →
      ((∃ response, Anthropic.response python maxResponseChars request raw model started now =
          .ok response ∧
        response.usage.billableTokens = input + output + cacheRead + cacheWrite) ↔
        Anthropic.CacheCountersSet object)) :=
  ⟨fun _ _ _ _ _ _ hraw hobject hcounts =>
      OpenAI.response_billable hraw hobject hcounts model started now,
    fun _ _ _ _ _ _ hraw hobject hcounts =>
      Anthropic.response_billable_iff hraw hobject hcounts model started now⟩

/-- A usage object with two counters and others. -/
def sampleUsage (others : List (String × SdkValue)) : SdkValue :=
  .object ([("input_tokens", .int 12), ("output_tokens", .int 3)] ++ others) none

/-- A response with one field of content and a usage object. -/
def sampleRaw (name : String) (usage : SdkValue) : SdkValue :=
  .object
    [(name, .sequence .list [.object [("type", .str "text"), ("text", .str "ok")] none]),
      ("usage", usage)] none

/-- No text of the samples is JSON, and each of their names is a text. -/
def sampleDecoding : Decoding := ⟨fun _ => "", fun _ => .error none⟩

def sampleCompletion : ModelRequest := ModelRouter.sampleRequest

theorem sampleRaw_openai (usage : SdkValue) :
    OpenAI.WellFormed sampleDecoding 1000000 sampleCompletion (sampleRaw "output" usage) := by
  refine ⟨_, rfl, ?_⟩
  intro item hitem
  rw [List.mem_singleton] at hitem
  subst hitem
  exact ⟨fun h => absurd (SdkValue.str.inj h) (by decide),
    fun h => absurd (SdkValue.str.inj h) (by decide)⟩

theorem sampleRaw_anthropic (usage : SdkValue) :
    Anthropic.WellFormed sampleDecoding 1000000 sampleCompletion (sampleRaw "content" usage) := by
  refine ⟨_, rfl, ?_⟩
  intro item hitem
  rw [List.mem_singleton] at hitem
  subst hitem
  exact ⟨fun _ => ⟨"ok", rfl, by decide, by decide, fun h => absurd h (by decide)⟩,
    fun h => absurd (SdkValue.str.inj h) (by decide)⟩

theorem provider_usage_sample :
    (∃ response, OpenAI.response sampleDecoding 1000000 sampleCompletion
        (sampleRaw "output" (sampleUsage [("input_tokens_details",
          .object [("cached_tokens", .int 5)] none), ("output_tokens_details", .none)]))
        ⟨"openai", "large", by decide⟩ 0 1 = .ok response ∧
      response.usage.billableTokens = 12 + 3) ∧
    (∃ response, Anthropic.response sampleDecoding 1000000 sampleCompletion
        (sampleRaw "content" (sampleUsage [("cache_read_input_tokens", .int 5)]))
        ⟨"anthropic", "large", by decide⟩ 0 1 = .ok response ∧
      response.usage.billableTokens = 12 + 3 + 5 + 0) :=
  ⟨(provider_usage sampleDecoding 1000000 sampleCompletion ⟨"openai", "large", by decide⟩ 0 1).1
      _ _ 12 3 5 0 (sampleRaw_openai _) rfl
      ⟨⟨rfl, by decide⟩, ⟨rfl, by decide⟩, .int (by decide), .absent, by decide, by decide⟩,
    ((provider_usage sampleDecoding 1000000 sampleCompletion
      ⟨"anthropic", "large", by decide⟩ 0 1).2 _ (sampleUsage [("cache_read_input_tokens", .int 5)])
      12 3 5 0 (sampleRaw_anthropic _) rfl
      ⟨⟨rfl, by decide⟩, ⟨rfl, by decide⟩, .int (by decide), .absent⟩).2
      ⟨fun h => (by cases h), fun h => (by cases h)⟩⟩

/-- **A cache counter that is `None` is no reason to refuse a response**, and it is refused. -/
theorem anthropic_none_refused :
    Anthropic.WellFormed sampleDecoding 1000000 sampleCompletion
        (sampleRaw "content" (sampleUsage [("cache_read_input_tokens", .none)])) ∧
      Anthropic.UsageCounts (sampleUsage [("cache_read_input_tokens", .none)]) 12 3 0 0 ∧
      Anthropic.response sampleDecoding 1000000 sampleCompletion
        (sampleRaw "content" (sampleUsage [("cache_read_input_tokens", .none)]))
        ⟨"anthropic", "large", by decide⟩ 0 1 = .error (malformed "invalid_provider_usage") :=
  ⟨sampleRaw_anthropic _, ⟨⟨rfl, by decide⟩, ⟨rfl, by decide⟩, .null, .absent⟩, rfl⟩

end AegisPlatform
