import AegisPlatform.Providers.Objects

/-!
# Responses of the OpenAI adapter

`OpenAIAdapter._response` reads the output items one after the other, then the usage counters.
The cached tokens are a part of the input tokens and the reasoning tokens a part of the output
tokens; a `TokenUsage` holds disjoint counters.

* `OpenAI.outputItem`, `usage`, `response` — the code.
* `OpenAI.WellFormed`, `UsageCounts` — a response without defect but for its usage, and its usage.
* `OpenAI.response_billable` — nothing the provider counted is lost or counted twice.
-/

namespace AegisPlatform

open Fallible

namespace OpenAI

variable (python : Decoding) (maxResponseChars : ℕ) (request : ModelRequest)

/-- `_json_arguments`. -/
def jsonArguments : SdkValue → Except ProviderRaised PyMapping
  | .mapping m => .ok m
  | .str text =>
    match python.loads text with
    | .error none => .error (malformed "tool_arguments_not_json")
    | .error (some e) => .error e
    | .ok (.mapping .dict fields) => .ok ⟨.dict, fields⟩
    | .ok _ => .error (malformed "tool_arguments_not_object" argumentsNotObject_ne_empty)
  | _ => .error (malformed "tool_arguments_not_json")

/-- `_optional_nonnegative_int`. -/
def optionalNonnegativeInt : SdkValue → Except ProviderRaised ℤ
  | .none => .ok 0
  | value => nonnegativeInt value

/-- The variables of the loop over the output. -/
structure Parsed where
  parts : List ContentPart := []
  refusal : Option String := none
  structured : Option PyMapping := none

/-- The loop body for an entry of a message. -/
def messageContent (parsed : Parsed) (content : SdkValue) : Except ProviderRaised Parsed :=
  match content.getattr "type" .none with
  | .str "output_text" => do
    let text ← boundedText (content.getattr "text" .none) maxResponseChars
    let part ← textPart text
    let structured ← if request.responseSchema.isSome then
        (jsonArguments python (.str text)).map some
      else .ok parsed.structured
    return { parsed with parts := parsed.parts ++ [part], structured }
  | .str "refusal" => do
    let refusal ← boundedText (content.getattr "refusal" .none) maxResponseChars
    return { parsed with refusal := some refusal }
  | _ => .ok parsed

/-- The loop body for an item of the output. -/
def outputItem (parsed : Parsed) (item : SdkValue) : Except ProviderRaised Parsed :=
  match item.getattr "type" .none with
  | .str "function_call" => do
    let arguments ← jsonArguments python (item.getattr "arguments" .none)
    let part ← toolCallPart (python.text (item.getattr "call_id" (.str "")))
      (python.text (item.getattr "name" (.str ""))) arguments
    return { parsed with parts := parsed.parts ++ [part] }
  | .str "message" => do
    let contents ← (item.getattr "content" (.sequence .tuple [])).iterate
    contents.foldlM (messageContent python maxResponseChars request) parsed
  | _ => .ok parsed

/-- The usage of a response. -/
def usage (usage : SdkValue) : Except ProviderRaised TokenUsage := do
  let inputDetails := usage.getattr "input_tokens_details" .none
  let outputDetails := usage.getattr "output_tokens_details" .none
  let totalInputTokens ← nonnegativeInt (usage.getattr "input_tokens" .none)
  let cacheReadTokens ← optionalNonnegativeInt (inputDetails.getattr "cached_tokens" (.int 0))
  raiseIf (totalInputTokens < cacheReadTokens) (malformed "cached_tokens_exceed_input_tokens")
  let totalOutputTokens ← nonnegativeInt (usage.getattr "output_tokens" .none)
  let reasoningTokens ← optionalNonnegativeInt (outputDetails.getattr "reasoning_tokens" (.int 0))
  raiseIf (totalOutputTokens < reasoningTokens) (malformed "reasoning_tokens_exceed_output_tokens")
  tokenUsage (totalInputTokens - cacheReadTokens) (totalOutputTokens - reasoningTokens)
    cacheReadTokens 0 reasoningTokens

/-- Why the model stopped. -/
def finishReason (raw : SdkValue) (parsed : Parsed) : FinishReason :=
  let incompleteDetails := raw.getattr "incomplete_details" .none
  if parsed.refusal.isSome then .refusal
  else match incompleteDetails.getattr "reason" .none with
    | .str "max_output_tokens" => .length
    | .str "content_filter" => .contentFilter
    | _ =>
      if parsed.parts.any (fun | .toolCall _ => true | _ => false) then .toolCalls else .stop

/-- Whether the response is safe. -/
def safety (refused : Bool) (finish : FinishReason) : SafetyResult :=
  if refused then .refused
  else if finish = .contentFilter then ⟨.filtered, some "provider_content_filter", by decide⟩
  else .allowed

/-- `OpenAIAdapter._response`; `now` is what the clock shows at its end. -/
def response (raw : SdkValue) (model : ModelIdentity) (started now : ℚ) :
    Except ProviderRaised ModelResponse :=
  match raw.getattr "output" .none, raw.getattr "usage" .none with
  | .sequence .list _, .none => .error (malformed "malformed_openai_response")
  | .sequence .list output, usageObject => do
    let parsed ← output.foldlM (outputItem python maxResponseChars request) {}
    let tokenUsage ← usage usageObject
    let finish := finishReason raw parsed
    modelResponse request.requestId model parsed.parts finish
      (safety parsed.refusal.isSome finish) tokenUsage (latencyMs started now)
      (providerRequestId raw) parsed.structured
  | _, _ => .error (malformed "malformed_openai_response")

/-! ## Responses without defect -/

/-- Arguments that are an object of JSON, or the text of one. -/
def WellFormedArguments (value : SdkValue) : Prop :=
  ∃ m, Freezes m ∧ (value = .mapping m ∨
    ∃ text, value = .str text ∧ python.loads text = .ok (.mapping .dict m.fields))

/-- An entry of a message whose text is a text within the bound: not empty and, where a schema
was asked for, an object of JSON. -/
structure WellFormedContent (content : SdkValue) : Prop where
  text : content.getattr "type" .none = .str "output_text" →
    ∃ text, content.getattr "text" .none = .str text ∧ text ≠ "" ∧
      text.length ≤ maxResponseChars ∧
      (request.responseSchema.isSome = true → WellFormedArguments python (.str text))
  refusal : content.getattr "type" .none = .str "refusal" →
    ∃ text, content.getattr "refusal" .none = .str text ∧ text.length ≤ maxResponseChars

/-- An item whose call has an id, a name and arguments, or whose entries are well formed. -/
structure WellFormedItem (item : SdkValue) : Prop where
  call : item.getattr "type" .none = .str "function_call" →
    python.text (item.getattr "call_id" (.str "")) ≠ "" ∧
      python.text (item.getattr "name" (.str "")) ≠ "" ∧
      WellFormedArguments python (item.getattr "arguments" .none)
  message : item.getattr "type" .none = .str "message" →
    ∃ contents, (item.getattr "content" (.sequence .tuple [])).iterate = .ok contents ∧
      ∀ content ∈ contents, WellFormedContent python maxResponseChars request content

/-- A response without defect, its usage apart. -/
def WellFormed (raw : SdkValue) : Prop :=
  ∃ output, raw.getattr "output" .none = .sequence .list output ∧
    ∀ item ∈ output, WellFormedItem python maxResponseChars request item

/-- What the provider counted: the cached tokens are some of the input tokens, the reasoning
tokens some of the output tokens. -/
structure UsageCounts (usage : SdkValue) (input output cached reasoning : ℤ) : Prop where
  input_eq : usage.attribute? "input_tokens" = some (.int input) ∧ 0 ≤ input
  output_eq : usage.attribute? "output_tokens" = some (.int output) ∧ 0 ≤ output
  cached_counts : Counts
    ((usage.getattr "input_tokens_details" .none).attribute? "cached_tokens") cached
  reasoning_counts : Counts
    ((usage.getattr "output_tokens_details" .none).attribute? "reasoning_tokens") reasoning
  cached_le : cached ≤ input
  reasoning_le : reasoning ≤ output

variable {python maxResponseChars request}

theorem jsonArguments_eq {value : SdkValue} (h : WellFormedArguments python value) :
    ∃ m, jsonArguments python value = .ok m ∧ Freezes m := by
  obtain ⟨m, hm, rfl | ⟨text, rfl, hloads⟩⟩ := h
  · exact ⟨m, rfl, hm⟩
  · refine ⟨⟨.dict, m.fields⟩, ?_, hm⟩
    simp only [jsonArguments, hloads]

/-- What the loop keeps: an object read from a text can be stored. -/
def Parsed.Sound (parsed : Parsed) : Prop := ∀ m ∈ parsed.structured, Freezes m

theorem messageContent_ok {content : SdkValue}
    (h : WellFormedContent python maxResponseChars request content) (parsed : Parsed)
    (hparsed : parsed.Sound) : ∃ parsed',
      messageContent python maxResponseChars request parsed content = .ok parsed' ∧
        parsed'.Sound := by
  unfold messageContent
  split
  · rename_i htype
    obtain ⟨text, htext, hne, hlength, hschema⟩ := h.text htype
    simp only [htext, boundedText_eq hlength, ok_bind]
    simp only [textPart_eq hne, ok_bind]
    by_cases hasked : request.responseSchema.isSome = true
    · obtain ⟨m, hm, hfreezes⟩ := jsonArguments_eq (hschema hasked)
      rw [if_pos hasked, hm]
      refine ⟨_, rfl, ?_⟩
      rintro m' ⟨⟩
      exact hfreezes
    · rw [if_neg hasked]
      exact ⟨_, rfl, hparsed⟩
  · rename_i htype
    obtain ⟨text, htext, hlength⟩ := h.refusal htype
    simp only [htext, boundedText_eq hlength]
    exact ⟨_, rfl, hparsed⟩
  · exact ⟨parsed, rfl, hparsed⟩

theorem outputItem_ok {item : SdkValue} (h : WellFormedItem python maxResponseChars request item)
    (parsed : Parsed) (hparsed : parsed.Sound) : ∃ parsed',
      outputItem python maxResponseChars request parsed item = .ok parsed' ∧ parsed'.Sound := by
  unfold outputItem
  split
  · rename_i htype
    obtain ⟨hid, hname, harguments⟩ := h.call htype
    obtain ⟨m, hm, hfreezes⟩ := jsonArguments_eq harguments
    obtain ⟨part, hpart⟩ := toolCallPart_eq hid hname hfreezes
    simp only [hm]
    refine ⟨{ parsed with parts := parsed.parts ++ [part] }, ?_, hparsed⟩
    show (toolCallPart _ _ m >>= _) = _
    rw [hpart]
    rfl
  · rename_i htype
    obtain ⟨contents, hcontents, hall⟩ := h.message htype
    rw [hcontents]
    exact foldlM_ok hparsed fun content hmem b hb => messageContent_ok (hall content hmem) b hb
  · exact ⟨parsed, rfl, hparsed⟩

theorem optionalNonnegativeInt_eq {object : SdkValue} {name : String} {n : ℤ}
    (h : Counts (object.attribute? name) n) :
    optionalNonnegativeInt (object.getattr name (.int 0)) = .ok n := by
  generalize hvalue : object.attribute? name = value at h
  cases h with
  | absent =>
    rw [SdkValue.getattr_of_none hvalue]
    rfl
  | null =>
    rw [SdkValue.getattr_of_some hvalue]
    rfl
  | int hn =>
    rw [SdkValue.getattr_of_some hvalue]
    exact nonnegativeInt_int hn

/-- The counters of a provider become disjoint counters. -/
theorem usage_eq {object : SdkValue} {input output cached reasoning : ℤ}
    (h : UsageCounts object input output cached reasoning) :
    ∃ u, usage object = .ok u ∧ u.billableTokens = input + output := by
  obtain ⟨⟨hinput, hinput0⟩, ⟨houtput, houtput0⟩, hcached, hreasoning, hle, hle'⟩ := h
  have hvalid : 0 ≤ input - cached ∧ 0 ≤ output - reasoning ∧ 0 ≤ cached ∧ (0 : ℤ) ≤ 0 ∧
      0 ≤ reasoning :=
    ⟨by omega, by omega, hcached.nonneg, le_refl 0, hreasoning.nonneg⟩
  refine ⟨⟨input - cached, output - reasoning, cached, 0, reasoning, hvalid⟩, ?_, ?_⟩
  · simp only [usage, SdkValue.getattr_of_some hinput, SdkValue.getattr_of_some houtput,
      nonnegativeInt_int hinput0, nonnegativeInt_int houtput0, optionalNonnegativeInt_eq hcached,
      optionalNonnegativeInt_eq hreasoning, ok_bind, raiseIf_bind, if_neg (not_lt.2 hle),
      if_neg (not_lt.2 hle'), tokenUsage_eq hvalid]
  · simp only [TokenUsage.billableTokens]
    omega

/-- **OpenAI usage is normalised without loss.** -/
theorem response_billable {raw object : SdkValue} {input output cached reasoning : ℤ}
    (hraw : WellFormed python maxResponseChars request raw)
    (hobject : raw.attribute? "usage" = some object)
    (hcounts : UsageCounts object input output cached reasoning) (model : ModelIdentity)
    (started now : ℚ) :
    ∃ response, OpenAI.response python maxResponseChars request raw model started now =
      .ok response ∧ response.usage.billableTokens = input + output := by
  obtain ⟨items, hitems, hall⟩ := hraw
  obtain ⟨u, hu, hbillable⟩ := usage_eq hcounts
  obtain ⟨parsed, hparsed, hsound⟩ :=
    foldlM_ok (f := outputItem python maxResponseChars request) (I := Parsed.Sound) (b := {})
      (fun m hm => by cases hm) fun item hmem b hb => outputItem_ok (hall item hmem) b hb
  obtain ⟨result, hresult, husage⟩ := modelResponse_eq request.requestId model parsed.parts
    (finishReason raw parsed) (safety parsed.refusal.isSome (finishReason raw parsed)) u
    (latencyMs_nonneg started now) (providerRequestId_ne_empty raw) hsound
  refine ⟨result, ?_, by rw [husage, hbillable]⟩
  obtain ⟨attributes, iterated, rfl⟩ := SdkValue.eq_object hcounts.input_eq.1
  unfold response
  rw [hitems, SdkValue.getattr_of_some hobject]
  simp only [hparsed, hu, ok_bind]
  exact hresult

end OpenAI

end AegisPlatform
