import AegisPlatform.Domain.Model
import AegisPlatform.EventStore.Rows

/-!
# What a provider's SDK hands over

An SDK answers with objects whose attributes may be anything.  An adapter reads them with
`getattr` and builds the provider-neutral records, whose constructors check.

* `SdkValue`, `attribute?`, `getattr`, `iterate` — the objects.
* `ProviderRaised`, `malformed` — what building a response raises.
* `frozenJson` — `freeze_json`, with what it gives as a `JsonValue`; `freezeJson_eq` says that
  it is the one of the event rows.
* `textPart`, `toolCallPart`, `tokenUsage`, `modelResponse` — the constructors.
* `boundedText`, `nonnegativeInt`, `optionalText` — what both adapters do with a value.
* `Counts` — what an optional counter of a usage object counts.
-/

namespace AegisPlatform

open Fallible

/-! ## Objects -/

/-- A value an SDK hands over. -/
inductive SdkValue where
  | none
  | bool (b : Bool)
  | int (n : ℤ)
  | float (bits : BitVec 64)
  | str (s : String)
  | sequence (kind : SequenceKind) (items : List SdkValue)
  | mapping (m : PyMapping)
  /-- Any other object; `items` is what iterating over it gives, where it can be iterated. -/
  | object (attributes : List (String × SdkValue)) (items : Option (List SdkValue))

/-- What building a response raises. -/
inductive ProviderRaised where
  | gateway (error : ModelGatewayError)
  | valueError (message : String)
  | typeError

/-- The `ModelGatewayError` of a response that makes no sense. -/
def malformed (code : String) (hcode : code ≠ "" := by decide) : ProviderRaised :=
  .gateway
    { errorClass := .malformedResponse
      code
      retryable := false
      billingAmbiguous := true
      valid := ModelGatewayError.valid_undelayed hcode }

theorem argumentsNotObject_ne_empty : "tool_arguments_not_object" ≠ "" := by decide

namespace SdkValue

/-- The attribute of a name, where there is one. -/
def attribute? : SdkValue → String → Option SdkValue
  | object attributes _, name => attributes.lookup name
  | _, _ => Option.none

/-- `getattr(value, name, default)`. -/
def getattr (value : SdkValue) (name : String) (default : SdkValue) : SdkValue :=
  (value.attribute? name).getD default

/-- `list(value)`. -/
def iterate : SdkValue → Except ProviderRaised (List SdkValue)
  | str s => .ok (s.toList.map fun c => str c.toString)
  | sequence _ items => .ok items
  | mapping m => .ok (m.fields.map fun
      | (.str key, _) => str key
      | (.other, _) => object [] Option.none)
  | object _ (some items) => .ok items
  | _ => .error .typeError

/-- `bool(value)`. -/
def truthy : SdkValue → Bool
  | none => false
  | bool b => b
  | int n => n ≠ 0
  | float bits => floatValue bits ≠ some 0
  | str s => s ≠ ""
  | sequence _ items => !items.isEmpty
  | mapping m => !m.fields.isEmpty
  | object .. => true

/-- Only an object has attributes. -/
theorem eq_object {value v : SdkValue} {name : String} (h : value.attribute? name = some v) :
    ∃ attributes items, value = object attributes items := by
  cases value with
  | object attributes items => exact ⟨attributes, items, rfl⟩
  | _ => cases h

@[simp] theorem getattr_none (name : String) (default : SdkValue) :
    none.getattr name default = default := rfl

theorem getattr_of_some {value v : SdkValue} {name : String} (h : value.attribute? name = some v)
    (default : SdkValue) : value.getattr name default = v := by
  simp [getattr, h]

theorem getattr_of_none {value : SdkValue} {name : String} (h : value.attribute? name = Option.none)
    (default : SdkValue) : value.getattr name default = default := by
  simp [getattr, h]

/-- `_optional_text`. -/
def optionalText : SdkValue → Option String
  | str s => if s = "" then Option.none else some s
  | _ => Option.none

theorem optionalText_ne_empty (value : SdkValue) : value.optionalText ≠ some "" := by
  cases value with
  | str s =>
    by_cases hs : s = ""
    · simp [optionalText, hs]
    · simp [optionalText, hs]
  | _ => simp [optionalText]

end SdkValue

/-! ## Frozen JSON -/

mutual

/-- `freeze_json`, with the frozen value as a `JsonValue`. -/
def frozenJson : PyValue → Except Raised JsonValue
  | .none => .ok .null
  | .bool b => .ok (.bool b)
  | .int n => .ok (.int n)
  | .float bits =>
    if (floatValue bits).isSome then .ok (.float bits)
    else .error (.valueError "JSON numbers must be finite")
  | .str s => .ok (.str s)
  | .sequence _ items => (frozenList items).map .list
  | .mapping _ fields => (frozenDict fields).map .obj
  | .unsupported typeName => .error (.valueError ("unsupported JSON value type: " ++ typeName))

/-- The items of a sequence, frozen. -/
def frozenList : List PyValue → Except Raised (List JsonValue)
  | [] => .ok []
  | item :: rest => do
    let item ← frozenJson item
    let rest ← frozenList rest
    return item :: rest

/-- `freeze_json_mapping`, of the fields of a mapping. -/
def frozenDict : List (PyKey × PyValue) → Except Raised Dict
  | [] => .ok []
  | (.other, _) :: _ => .error (.valueError "JSON object keys must be strings")
  | (.str key, item) :: rest => do
    let item ← frozenJson item
    let rest ← frozenDict rest
    return (key, item) :: rest

end

mutual

theorem freezeJson_eq : ∀ v : PyValue, freezeJson v = (frozenJson v).map Rows.frozenValue
  | .none => rfl
  | .bool _ => rfl
  | .int _ => rfl
  | .str _ => rfl
  | .unsupported _ => rfl
  | .float bits => by
    rw [freezeJson, frozenJson]
    split <;> rfl
  | .sequence _ items => by
    rw [freezeJson, frozenJson, freezeItems_eq items]
    cases frozenList items <;> rfl
  | .mapping _ fields => by
    rw [freezeJson, frozenJson, freezeFields_eq fields]
    cases frozenDict fields <;> rfl

theorem freezeItems_eq : ∀ items : List PyValue,
    freezeItems items = (frozenList items).map Rows.frozenItems
  | [] => rfl
  | item :: rest => by
    rw [freezeItems, frozenList, freezeJson_eq item, freezeItems_eq rest]
    cases frozenJson item with
    | error e => rfl
    | ok v => cases frozenList rest <;> rfl

theorem freezeFields_eq : ∀ fields : List (PyKey × PyValue),
    freezeFields fields = (frozenDict fields).map Rows.frozenFields
  | [] => rfl
  | (.other, _) :: _ => rfl
  | (.str key, item) :: rest => by
    rw [freezeFields, frozenDict, freezeJson_eq item, freezeFields_eq rest]
    cases frozenJson item with
    | error e => rfl
    | ok v => cases frozenDict rest <;> rfl

end

mutual

theorem isFinite_frozenJson : ∀ {v : PyValue} {w : JsonValue}, frozenJson v = .ok w →
    w.isFinite = true
  | .none, _, h => by cases h; rfl
  | .bool _, _, h => by cases h; rfl
  | .int _, _, h => by cases h; rfl
  | .str _, _, h => by cases h; rfl
  | .unsupported _, _, h => by cases h
  | .float bits, w, h => by
    rw [frozenJson] at h
    by_cases hfinite : (floatValue bits).isSome
    · rw [if_pos hfinite] at h
      cases h
      exact hfinite
    · rw [if_neg hfinite] at h
      cases h
  | .sequence _ items, w, h => by
    rw [frozenJson, map_eq_ok] at h
    obtain ⟨xs, hxs, rfl⟩ := h
    exact isFiniteList_frozenList hxs
  | .mapping _ fields, w, h => by
    rw [frozenJson, map_eq_ok] at h
    obtain ⟨d, hd, rfl⟩ := h
    exact isFiniteFields_frozenDict hd

theorem isFiniteList_frozenList : ∀ {items : List PyValue} {xs : List JsonValue},
    frozenList items = .ok xs → JsonValue.isFiniteList xs = true
  | [], _, h => by cases h; rfl
  | item :: rest, xs, h => by
    simp only [frozenList, bind_eq_ok, pure_eq_ok] at h
    obtain ⟨v, hv, vs, hvs, rfl⟩ := h
    rw [JsonValue.isFiniteList, isFinite_frozenJson hv, isFiniteList_frozenList hvs]
    rfl

theorem isFiniteFields_frozenDict : ∀ {fields : List (PyKey × PyValue)} {d : Dict},
    frozenDict fields = .ok d → JsonValue.isFiniteFields d = true
  | [], _, h => by cases h; rfl
  | (.other, _) :: _, _, h => by cases h
  | (.str key, item) :: rest, d, h => by
    simp only [frozenDict, bind_eq_ok, pure_eq_ok] at h
    obtain ⟨v, hv, vs, hvs, rfl⟩ := h
    rw [JsonValue.isFiniteFields, isFinite_frozenJson hv, isFiniteFields_frozenDict hvs]
    rfl

end

/-- `freeze_json_mapping` takes the mapping. -/
def Freezes (m : PyMapping) : Prop := ∃ d, frozenDict m.fields = .ok d

/-! ## Constructors -/

/-- What a constructor raises, as a response raises it. -/
def raisedAs : Raised → ProviderRaised
  | .valueError message => .valueError message
  | _ => .typeError

/-- `TextPart(text)`. -/
def textPart (text : String) : Except ProviderRaised ContentPart :=
  if h : text = "" then .error (.valueError "text content cannot be empty")
  else .ok (.text text h)

/-- `ToolCallPart(ToolCallProposal(call_id, tool_name, arguments))`. -/
def toolCallPart (callId toolName : String) (arguments : PyMapping) :
    Except ProviderRaised ContentPart :=
  if hnames : callId = "" ∨ toolName = "" then
    .error (.valueError "tool call id and name are required")
  else
    match harguments : frozenDict arguments.fields with
    | .error e => .error (raisedAs e)
    | .ok arguments =>
      .ok (.toolCall
        { callId, toolName, arguments
          valid := ⟨fun h => hnames (.inl h), fun h => hnames (.inr h),
            isFiniteFields_frozenDict harguments⟩ })

/-- `TokenUsage(…)`. -/
def tokenUsage (inputTokens outputTokens cacheReadTokens cacheWriteTokens reasoningTokens : ℤ) :
    Except ProviderRaised TokenUsage :=
  if valid : 0 ≤ inputTokens ∧ 0 ≤ outputTokens ∧ 0 ≤ cacheReadTokens ∧ 0 ≤ cacheWriteTokens ∧
      0 ≤ reasoningTokens then
    .ok { inputTokens, outputTokens, cacheReadTokens, cacheWriteTokens, reasoningTokens, valid }
  else .error (.valueError "token usage cannot be negative")

theorem textPart_eq {text : String} (h : text ≠ "") : textPart text = .ok (.text text h) := by
  rw [textPart, dif_neg h]

theorem toolCallPart_eq {callId toolName : String} {arguments : PyMapping} (hid : callId ≠ "")
    (hname : toolName ≠ "") (harguments : Freezes arguments) :
    ∃ part, toolCallPart callId toolName arguments = .ok part := by
  obtain ⟨d, hd⟩ := harguments
  have hnames : ¬(callId = "" ∨ toolName = "") := by
    rintro (h | h)
    · exact hid h
    · exact hname h
  rw [toolCallPart, dif_neg hnames]
  split
  · rename_i e he
    rw [hd] at he
    cases he
  · exact ⟨_, rfl⟩

theorem tokenUsage_eq {input output cacheRead cacheWrite reasoning : ℤ}
    (h : 0 ≤ input ∧ 0 ≤ output ∧ 0 ≤ cacheRead ∧ 0 ≤ cacheWrite ∧ 0 ≤ reasoning) :
    tokenUsage input output cacheRead cacheWrite reasoning =
      .ok ⟨input, output, cacheRead, cacheWrite, reasoning, h⟩ := by
  rw [tokenUsage, dif_pos h]

/-- `FinishReason`. -/
inductive FinishReason where
  | stop
  | length
  | toolCalls
  | refusal
  | contentFilter
  | cancelled
  | unknown
  deriving DecidableEq, Repr

/-- The stored name of a finish reason. -/
def FinishReason.value : FinishReason → String
  | stop => "stop"
  | length => "length"
  | toolCalls => "tool_calls"
  | refusal => "refusal"
  | contentFilter => "content_filter"
  | cancelled => "cancelled"
  | unknown => "unknown"

/-- `SafetyOutcome`. -/
inductive SafetyOutcome where
  | allowed
  | refused
  | filtered
  deriving DecidableEq, Repr

/-- The stored name of an outcome. -/
def SafetyOutcome.value : SafetyOutcome → String
  | allowed => "allowed"
  | refused => "refused"
  | filtered => "filtered"

/-- Whether a response is safe, and why not. -/
structure SafetyResult where
  outcome : SafetyOutcome
  reasonCode : Option String := none
  valid : if outcome = .allowed then reasonCode = none
    else reasonCode ≠ none ∧ reasonCode ≠ some ""

namespace SafetyResult

def allowed : SafetyResult := ⟨.allowed, none, by decide⟩

def refused : SafetyResult := ⟨.refused, some "provider_refusal", by decide⟩

end SafetyResult

/-- `ModelResponse(…)`. -/
def modelResponse (requestId : UUID) (model : ModelIdentity) (content : List ContentPart)
    (finishReason : FinishReason) (safety : SafetyResult) (usage : TokenUsage) (latencyMs : ℤ)
    (providerRequestId : Option String) (structuredOutput : Option PyMapping) :
    Except ProviderRaised ModelResponse := do
  raiseIf (latencyMs < 0) (.valueError "latency cannot be negative")
  raiseIf (providerRequestId = some "") (.valueError "provider request id cannot be empty")
  let structuredOutput ← match structuredOutput with
    | none => .ok none
    | some m => ((frozenDict m.fields).mapError raisedAs).map some
  return {
    requestId, model, content
    finishReason := finishReason.value
    safetyOutcome := safety.outcome.value
    usage, latencyMs, providerRequestId, structuredOutput }

/-- A response that passes its checks holds the usage it was given. -/
theorem modelResponse_eq (requestId : UUID) (model : ModelIdentity) (content : List ContentPart)
    (finishReason : FinishReason) (safety : SafetyResult) (usage : TokenUsage) {latencyMs : ℤ}
    {providerRequestId : Option String} {structuredOutput : Option PyMapping}
    (hlatency : 0 ≤ latencyMs) (hid : providerRequestId ≠ some "")
    (hstructured : ∀ m ∈ structuredOutput, Freezes m) :
    ∃ response, modelResponse requestId model content finishReason safety usage latencyMs
      providerRequestId structuredOutput = .ok response ∧ response.usage = usage := by
  unfold modelResponse
  rw [raiseIf_bind, if_neg (not_lt.2 hlatency), raiseIf_bind, if_neg hid]
  cases structuredOutput with
  | none => exact ⟨_, rfl, rfl⟩
  | some m =>
    obtain ⟨d, hd⟩ := hstructured m rfl
    simp only [hd]
    exact ⟨_, rfl, rfl⟩

/-! ## What both adapters do with a value -/

/-- `bounded_text`. -/
def boundedText (value : SdkValue) (maxResponseChars : ℕ) : Except ProviderRaised String :=
  match value with
  | .str text =>
    if maxResponseChars < text.length then .error (malformed "provider_response_too_large")
    else .ok text
  | _ => .error (malformed "provider_text_is_not_string")

/-- `_nonnegative_int`.  A `bool` is no integer here. -/
def nonnegativeInt : SdkValue → Except ProviderRaised ℤ
  | .int n => if n < 0 then .error (malformed "invalid_provider_usage") else .ok n
  | _ => .error (malformed "invalid_provider_usage")

theorem boundedText_eq {text : String} {maxResponseChars : ℕ}
    (h : text.length ≤ maxResponseChars) :
    boundedText (.str text) maxResponseChars = .ok text := by
  rw [boundedText, if_neg (not_lt.2 h)]

theorem nonnegativeInt_int {n : ℤ} (h : 0 ≤ n) : nonnegativeInt (.int n) = .ok n := by
  rw [nonnegativeInt, if_neg (not_lt.2 h)]

/-- `int(value)`. -/
def truncate (x : ℚ) : ℤ := if 0 ≤ x then ⌊x⌋ else ⌈x⌉

/-- `max(0, int((clock() - started) * 1000))`. -/
def latencyMs (started now : ℚ) : ℤ := max 0 (truncate ((now - started) * 1000))

theorem latencyMs_nonneg (started now : ℚ) : 0 ≤ latencyMs started now := le_max_left ..

/-- `_optional_text(getattr(raw, "_request_id", None) or getattr(raw, "id", None))`. -/
def providerRequestId (raw : SdkValue) : Option String :=
  let requestId := raw.getattr "_request_id" .none
  (if requestId.truthy then requestId else raw.getattr "id" .none).optionalText

theorem providerRequestId_ne_empty (raw : SdkValue) : providerRequestId raw ≠ some "" :=
  SdkValue.optionalText_ne_empty _

/-- What the adapters take from Python: `str` of a value that is no text, and `json.loads`. -/
structure Decoding where
  str : SdkValue → String
  /-- The error is `none` for a `JSONDecodeError`; a text may fail in other ways, as a number
  with too many digits does. -/
  loads : String → Except (Option ProviderRaised) PyValue

/-- `str(value)`. -/
def Decoding.text (python : Decoding) : SdkValue → String
  | .str s => s
  | value => python.str value

/-- An optional counter that is absent, `None` or a nonnegative integer, and what it counts. -/
inductive Counts : Option SdkValue → ℤ → Prop
  | absent : Counts none 0
  | null : Counts (some .none) 0
  | int {n : ℤ} (h : 0 ≤ n) : Counts (some (.int n)) n

theorem Counts.nonneg {value : Option SdkValue} {n : ℤ} (h : Counts value n) : 0 ≤ n := by
  cases h with
  | absent => exact le_refl 0
  | null => exact le_refl 0
  | int hn => exact hn

end AegisPlatform
