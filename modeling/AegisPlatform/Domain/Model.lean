import AegisPlatform.EventStore.Database

/-!
# Model calls and what they cost

The provider-neutral records of the model gateway.

* `ModelMessage`, `ToolDefinition`, `JsonSchema`, `ModelRequest` — what is asked of a
  model; `ModelResponse` is what it answers.
* `TokenUsage`, `PricingVersion` — with the checks of their constructors;
  `PricingVersion.cost` is decimal arithmetic, rounded at every step, and
  `cost_nonneg` is what the budgets rely on.
* `usageTotals`, `actualUsage` — what a response is charged.
-/

namespace AegisPlatform

open Fallible

/-- Secret-safe classification of a model failure. -/
inductive ModelErrorClass where
  | authentication
  | authorization
  | invalidRequest
  | capability
  | schema
  | safety
  | rateLimit
  | timeout
  | cancelled
  | transient
  | providerUnavailable
  | malformedResponse
  | providerBug
  deriving DecidableEq, Repr

/-- The stored name of an error class. -/
def ModelErrorClass.value : ModelErrorClass → String
  | authentication => "authentication"
  | authorization => "authorization"
  | invalidRequest => "invalid_request"
  | capability => "capability"
  | schema => "schema"
  | safety => "safety"
  | rateLimit => "rate_limit"
  | timeout => "timeout"
  | cancelled => "cancelled"
  | transient => "transient"
  | providerUnavailable => "provider_unavailable"
  | malformedResponse => "malformed_response"
  | providerBug => "provider_bug"

/-- A classified model failure. -/
structure ModelGatewayError where
  errorClass : ModelErrorClass
  code : String
  retryable : Bool
  billingAmbiguous : Bool := false
  retryAfterSeconds : Option ℚ := none
  valid : code ≠ "" ∧ ∀ seconds ∈ retryAfterSeconds, 0 ≤ seconds

/-- Without a retry delay there is none to check. -/
theorem ModelGatewayError.valid_undelayed {code : String} (h : code ≠ "") :
    code ≠ "" ∧ ∀ seconds ∈ (none : Option ℚ), 0 ≤ seconds :=
  ⟨h, by simp⟩

/-- `_failure_event_type`. -/
def failureEventType (error : ModelGatewayError) : DomainEventType :=
  match error.errorClass with
  | .timeout => .modelCallTimedOut
  | .rateLimit => .modelCallRateLimited
  | .cancelled => .modelCallCancelled
  | _ => .modelCallFailed

/-- A provider and a model of it. -/
structure ModelIdentity where
  provider : String
  model : String
  valid : provider ≠ "" ∧ model ≠ ""
  deriving DecidableEq, Repr

/-- A routing decision: the model chosen, how many were considered, and why. -/
structure RouteDecision where
  selected : ModelIdentity
  candidateCount : ℕ
  rationale : List String

/-! ## What is asked of a model -/

/-- Who speaks in a message. -/
inductive MessageRole where
  | system
  | user
  | assistant
  | tool
  deriving DecidableEq, Repr

/-- The stored name of a role. -/
def MessageRole.value : MessageRole → String
  | system => "system"
  | user => "user"
  | assistant => "assistant"
  | tool => "tool"

/-- A call of a tool that a model proposes. -/
structure ToolCallProposal where
  callId : String
  toolName : String
  arguments : Dict
  valid : callId ≠ "" ∧ toolName ≠ "" ∧ JsonValue.isFiniteFields arguments = true

/-- A part of a message or of a response. -/
inductive ContentPart where
  | text (text : String) (valid : text ≠ "")
  | image (mediaType uri : String)
      (valid : mediaType ∈ ["image/jpeg", "image/png", "image/gif", "image/webp"] ∧
        "https://".toList <+: uri.toList)
  | toolCall (proposal : ToolCallProposal)
  | toolResult (callId : String) (content : JsonValue) (isError : Bool)
      (valid : callId ≠ "" ∧ content.isFinite = true)

namespace ContentPart

def isText : ContentPart → Bool
  | text .. => true
  | _ => false

def isImage : ContentPart → Bool
  | image .. => true
  | _ => false

def isToolResult : ContentPart → Bool
  | toolResult .. => true
  | _ => false

end ContentPart

/-- A message of a conversation. -/
structure ModelMessage where
  role : MessageRole
  content : List ContentPart
  name : Option String := none
  valid : content ≠ [] ∧ name ≠ some "" ∧
    (role = .system → content.all (·.isText) = true) ∧
    (role = .tool → content.all (·.isToolResult) = true)

/-- A named schema whose root is an object. -/
structure JsonSchema where
  name : String
  schema : Dict
  strict : Bool := true
  valid : name ≠ "" ∧ JsonValue.text? schema "type" = some "object" ∧
    JsonValue.isFiniteFields schema = true

/-- A tool a model may call. -/
structure ToolDefinition where
  name : String
  description : String
  inputSchema : JsonSchema
  valid : name ≠ "" ∧ description ≠ ""

theorem defaultTimeout_valid : (0 : ℚ) < 30 ∧ (30 : ℚ) ≤ 600 := by norm_num

/-- A model call. -/
structure ModelRequest where
  requestId : UUID
  tenantId : String
  runId : UUID
  messages : List ModelMessage
  maxOutputTokens : ℤ
  promptTokenEstimate : ℤ
  requestedModel : Option ModelIdentity := none
  tools : List ToolDefinition := []
  responseSchema : Option JsonSchema := none
  temperature : String := "0"
  timeoutSeconds : ℚ := 30
  idempotencyKey : String
  valid : tenantId ≠ "" ∧ messages ≠ [] ∧ idempotencyKey ≠ "" ∧ 1 ≤ maxOutputTokens ∧
    1 ≤ promptTokenEstimate
  timeout_valid : 0 < timeoutSeconds ∧ timeoutSeconds ≤ 600 := by exact defaultTimeout_valid
  tools_valid : (tools.map (·.name)).Nodup := by exact List.nodup_nil

/-! ## Usage and prices -/

/-- Tokens a call used. -/
structure TokenUsage where
  inputTokens : ℤ
  outputTokens : ℤ
  cacheReadTokens : ℤ := 0
  cacheWriteTokens : ℤ := 0
  reasoningTokens : ℤ := 0
  valid : 0 ≤ inputTokens ∧ 0 ≤ outputTokens ∧ 0 ≤ cacheReadTokens ∧ 0 ≤ cacheWriteTokens ∧
    0 ≤ reasoningTokens

/-- `billable_tokens`. -/
def TokenUsage.billableTokens (u : TokenUsage) : ℤ :=
  u.inputTokens + u.outputTokens + u.cacheReadTokens + u.cacheWriteTokens + u.reasoningTokens

/-- Prices per million tokens. -/
structure PricingVersion where
  version : String
  inputPerMillionUsd : Decimal
  outputPerMillionUsd : Decimal
  cacheReadPerMillionUsd : Decimal := 0
  cacheWritePerMillionUsd : Decimal := 0
  reasoningPerMillionUsd : Decimal := 0
  valid : version ≠ "" ∧ 0 ≤ inputPerMillionUsd ∧ 0 ≤ outputPerMillionUsd ∧
    0 ≤ cacheReadPerMillionUsd ∧ 0 ≤ cacheWritePerMillionUsd ∧ 0 ≤ reasoningPerMillionUsd

/-- `PricingVersion.cost`. -/
def PricingVersion.cost (p : PricingVersion) (u : TokenUsage) : Decimal :=
  Decimal.div
    (Decimal.add (Decimal.add (Decimal.add (Decimal.add
      (Decimal.mul u.inputTokens p.inputPerMillionUsd)
      (Decimal.mul u.outputTokens p.outputPerMillionUsd))
      (Decimal.mul u.cacheReadTokens p.cacheReadPerMillionUsd))
      (Decimal.mul u.cacheWriteTokens p.cacheWritePerMillionUsd))
      (Decimal.mul u.reasoningTokens p.reasoningPerMillionUsd))
    1000000

/-- What a provider answered. -/
structure ModelResponse where
  requestId : UUID
  model : ModelIdentity
  content : List ContentPart := []
  finishReason : String
  safetyOutcome : String
  usage : TokenUsage
  latencyMs : ℤ
  providerRequestId : Option String := none
  structuredOutput : Option Dict := none

/-- Tokens and money set aside for a call. -/
structure BudgetReservation where
  reservationId : UUID
  tenantId : String
  runId : UUID
  requestId : UUID
  tokenLimit : ℤ
  costLimitUsd : Decimal
  priceVersion : String
  /-- `status`, with `active`, the charges and `reconciled_at`. -/
  state : ReservationState := .active
  createdAt : Option Timestamp := none
  expiresAt : Option Timestamp := none
  deriving DecidableEq

/-- `_usage_totals`. -/
def usageTotals (pricing : PricingVersion) (response : ModelResponse) : ℤ × Decimal :=
  (response.usage.billableTokens, pricing.cost response.usage)

/-- `_actual_usage`: usage beyond the reservation is the provider's fault. -/
def actualUsage (pricing : PricingVersion) (response : ModelResponse)
    (reservation : BudgetReservation) : Except Raised (ℤ × Decimal) := do
  let (tokens, cost) := usageTotals pricing response
  raiseIf (reservation.tokenLimit < tokens) (.modelGatewayError "usage_exceeded_token_reservation")
  raiseIf (reservation.costLimitUsd < cost) (.modelGatewayError "usage_exceeded_cost_reservation")
  return (tokens, cost)

theorem TokenUsage.billableTokens_nonneg (u : TokenUsage) : 0 ≤ u.billableTokens := by
  obtain ⟨h1, h2, h3, h4, h5⟩ := u.valid
  unfold billableTokens
  omega

theorem PricingVersion.cost_nonneg (p : PricingVersion) (u : TokenUsage) : 0 ≤ p.cost u := by
  obtain ⟨hu1, hu2, hu3, hu4, hu5⟩ := u.valid
  obtain ⟨-, hp1, hp2, hp3, hp4, hp5⟩ := p.valid
  have hmul : ∀ {n : ℤ} {x : ℚ}, 0 ≤ n → 0 ≤ x → 0 ≤ Decimal.mul n x := fun hn hx =>
    Decimal.round_nonneg (mul_nonneg (by exact_mod_cast hn) hx)
  have hadd : ∀ {x y : ℚ}, 0 ≤ x → 0 ≤ y → 0 ≤ Decimal.add x y := fun hx hy =>
    Decimal.round_nonneg (add_nonneg hx hy)
  refine Decimal.round_nonneg (div_nonneg ?_ (by norm_num))
  exact hadd (hadd (hadd (hadd (hmul hu1 hp1) (hmul hu2 hp2)) (hmul hu3 hp3)) (hmul hu4 hp4))
    (hmul hu5 hp5)

theorem actualUsage_eq_ok {pricing : PricingVersion} {response : ModelResponse}
    {reservation : BudgetReservation} {totals : ℤ × Decimal} :
    actualUsage pricing response reservation = .ok totals ↔
      totals = usageTotals pricing response ∧ totals.1 ≤ reservation.tokenLimit ∧
        totals.2 ≤ reservation.costLimitUsd := by
  simp only [actualUsage, bind_eq_ok, raiseIf_eq_ok, pure_eq_ok, not_lt]
  constructor
  · rintro ⟨-, ht, -, hc, rfl⟩
    exact ⟨rfl, ht, hc⟩
  · rintro ⟨rfl, ht, hc⟩
    exact ⟨(), ht, (), hc, rfl⟩

end AegisPlatform
