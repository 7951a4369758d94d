import AegisPlatform.EventStore.Append
import AegisPlatform.Runtime.Delivery

/-!
# The gateway repository

The operations of `PostgresGatewayRepository`.  Each appends its `model.*`
events to the stream of the leased work item, under the item's lease and in one
transaction with the budget rows: it reads the head of the stream and then
appends at that version.

* `reserve`, `recordAttempt`, `recordAttemptFailure`, `succeed`,
  `recordUsageFailure`, `fail` — the operations, in the namespace `Gateway`.
* `Gateway.events_isFor` — what is known of the events they append.
-/

namespace AegisPlatform

open Fallible Interleave

namespace Gateway

/-- `_validate`. -/
def validate (context : TenantContext) (request : ModelRequest) (lease : WorkLease) :
    Except Raised Unit :=
  raiseIf (context.tenantId ≠ request.tenantId ∨ request.tenantId ≠ lease.tenantId ∨
      request.runId ≠ lease.workId)
    (.valueError "tenant, request, run, and fence must match")

theorem validate_eq_ok {context : TenantContext} {request : ModelRequest} {lease : WorkLease}
    {u : Unit} (h : validate context request lease = .ok u) :
    context.tenantId = request.tenantId ∧ request.tenantId = lease.tenantId ∧
      request.runId = lease.workId := by
  have h' := raiseIf_eq_ok.1 h
  simpa [not_or] using h'

/-- `_common`. -/
def common (request : ModelRequest) (lease : WorkLease) (reservation : BudgetReservation) : Dict :=
  [("work_id", .str lease.workId.str),
    ("run_id", .str request.runId.str),
    ("lease_token", .str lease.token.str),
    ("lease_generation", .int lease.generation),
    ("request_id", .str request.requestId.str),
    ("reservation_id", .str reservation.reservationId.str)]

/-- `_usage`. -/
def usagePayload (u : TokenUsage) : Dict :=
  [("input_tokens", .int u.inputTokens),
    ("output_tokens", .int u.outputTokens),
    ("cache_read_tokens", .int u.cacheReadTokens),
    ("cache_write_tokens", .int u.cacheWriteTokens),
    ("reasoning_tokens", .int u.reasoningTokens)]

/-- The fields that describe a failure. -/
def errorPayload (error : ModelGatewayError) : Dict :=
  [("error_class", .str error.errorClass.value),
    ("error_code", .str error.code),
    ("retryable", .bool error.retryable),
    ("billing_ambiguous", .bool error.billingAmbiguous)]

section

variable (py : PyText)

/-- `_content_part_payload`. -/
def contentPartPayload : ContentPart → JsonValue
  | .text text _ => .obj [("kind", .str "text"), ("text", .str text)]
  | .image mediaType uri _ =>
    .obj [("kind", .str "image"), ("media_type", .str mediaType), ("uri", .str uri)]
  | .toolCall proposal => .obj [("kind", .str "tool_call"), ("call_id", .str proposal.callId),
      ("tool_name", .str proposal.toolName), ("arguments", .obj proposal.arguments)]
  | .toolResult callId content isError _ => .obj [("kind", .str "tool_result"),
      ("call_id", .str callId), ("content", content), ("is_error", .bool isError)]

/-- `_message_payload`. -/
def messagePayload (message : ModelMessage) : JsonValue :=
  .obj [("role", .str message.role.value),
    ("name", match message.name with
      | some name => .str name
      | none => .null),
    ("content", .list (message.content.map contentPartPayload))]

/-- What the digest says of a tool. -/
def toolPayload (tool : ToolDefinition) : JsonValue :=
  .obj [("name", .str tool.name), ("description", .str tool.description),
    ("strict", .bool tool.inputSchema.strict), ("schema", .obj tool.inputSchema.schema)]

/-- What the digest says of a response schema. -/
def schemaPayload (schema : JsonSchema) : JsonValue :=
  .obj [("name", .str schema.name), ("strict", .bool schema.strict), ("schema", .obj schema.schema)]

/-- What the digest of a request is taken of. -/
def contentPayload (request : ModelRequest) : JsonValue :=
  .obj [("messages", .list (request.messages.map messagePayload)),
    ("requested_model", match request.requestedModel with
      | some identity => .obj [("provider", .str identity.provider), ("model", .str identity.model)]
      | none => .null),
    ("max_output_tokens", .int request.maxOutputTokens),
    ("prompt_token_estimate", .int request.promptTokenEstimate),
    ("temperature", .str request.temperature),
    ("tools", .list (request.tools.map toolPayload)),
    ("response_schema", match request.responseSchema with
      | some schema => schemaPayload schema
      | none => .null)]

/-- `request_content_digest`. -/
def requestContentDigest (request : ModelRequest) : String :=
  py.jsonDigest (contentPayload request)

/-- `_event_idempotency_key`. -/
def eventIdempotencyKey (request : ModelRequest) (eventType : DomainEventType) (payload : Dict)
    (index : ℕ) : String :=
  let parts := [request.idempotencyKey, eventType.value,
    py.str ((payload.get? "fallback_index").getD (.int 0)),
    py.str ((payload.get? "attempt").getD (.int 0)),
    py.str ((payload.get? "reservation_id").getD (.str "")),
    py.str (.int index)]
  let named (key : String) : List String := match payload.get? key with
    | some (.str s) => if s = "" then [] else [s]
    | _ => []
  ":".intercalate (parts ++ named "provider" ++ named "model")

/-- `_events`: the values as events of the work item's stream, each caused by the
one before; the `n`-th value of `ids` names the first. -/
def events (request : ModelRequest) (lease : WorkLease) (at' : Timestamp) (ids : ℕ → UUID) :
    ℕ → Option UUID → List (DomainEventType × Dict) → Except Raised (List EventEnvelope)
  | _, _, [] => .ok []
  | index, causation, (eventType, payload) :: rest => do
    let event ← EventEnvelope.make {
      eventId := ids index
      tenantId := request.tenantId
      aggregateId := lease.workId.str
      eventType := eventType
      occurredAt := at'
      payload := payload
      correlationId := some request.runId
      causationId := causation
      idempotencyKey := some (eventIdempotencyKey py request eventType payload index) }
    let later ← events request lease at' ids (index + 1) (some event.eventId) rest
    return event :: later

/-- `_append_fenced`: read the head of the stream, then append at it. -/
def appendFenced (context : TenantContext) (lease : WorkLease) (events : List EventEnvelope)
    (mutation : Mutation) : Op Unit := do
  let expected ← currentVersion context lease.workId
  let _ ← AegisPlatform.appendFenced context events expected lease mutation

/-- Both `_events` and `_append_fenced`, for values that share the common
fields. -/
def record (context : TenantContext) (request : ModelRequest) (lease : WorkLease)
    (reservation : BudgetReservation) (at' : Timestamp) (ids : ℕ → UUID)
    (values : List (DomainEventType × Dict)) (mutation : Mutation) : Op Unit := do
  let batch ← Proc.ofExcept (events py request lease at' ids 1 none
    (values.map fun v => (v.1, common request lease reservation ++ v.2)))
  appendFenced context lease batch mutation

/-! ## Reservation and attempts -/

/-- `reserve`. -/
def reserve (context : TenantContext) (request : ModelRequest) (lease : WorkLease)
    (route : RouteDecision) (quotas : QuotaLimits) (tokenLimit : ℤ) (costLimitUsd : Decimal)
    (priceVersion : String) (at' : Timestamp) (ids : ℕ → UUID) : Op BudgetReservation := do
  Proc.ofExcept (validate context request lease)
  let reservation : BudgetReservation := {
    reservationId := ids 0
    tenantId := request.tenantId
    runId := request.runId
    requestId := request.requestId
    tokenLimit := tokenLimit
    costLimitUsd := costLimitUsd
    priceVersion := priceVersion }
  let selected : Dict := [("provider", .str route.selected.provider),
    ("model", .str route.selected.model)]
  record py context request lease reservation at' ids
    [(.modelRouteDecided, selected ++ [("candidate_count", .int route.candidateCount),
        ("rationale", .list (route.rationale.map .str))]),
      (.modelCallRequested, selected ++ [("message_count", .int request.messages.length),
        ("content_digest", .str (requestContentDigest py request)),
        ("max_output_tokens", .int request.maxOutputTokens),
        ("prompt_token_estimate", .int request.promptTokenEstimate),
        ("has_tools", .bool !request.tools.isEmpty),
        ("has_structured_output", .bool request.responseSchema.isSome),
        ("persistence_policy", .str "metadata_and_digest_only")]),
      (.modelBudgetReserved, [("token_limit", .int tokenLimit),
        ("cost_limit_usd", .str (py.strDecimal costLimitUsd)),
        ("price_version", .str priceVersion)])]
    (.gateway (.reserve request lease reservation quotas at'))
  return reservation

/-- `record_attempt`. -/
def recordAttempt (context : TenantContext) (request : ModelRequest) (lease : WorkLease)
    (reservation : BudgetReservation) (provider model : String) (attempt fallbackIndex : ℤ)
    (at' : Timestamp) (ids : ℕ → UUID) : Op Unit := do
  Proc.ofExcept (validate context request lease)
  let named : Dict := [("provider", .str provider), ("model", .str model)]
  let fallback : List (DomainEventType × Dict) :=
    if 0 < fallbackIndex ∧ attempt = 1 then
      [(.modelFallbackSelected, named ++ [("fallback_index", .int fallbackIndex)])]
    else []
  let eventType : DomainEventType :=
    if fallbackIndex = 0 ∧ attempt = 1 then .modelCallStarted else .modelCallAttempted
  record py context request lease reservation at' ids
    (fallback ++ [(eventType, named ++ [("attempt", .int attempt),
      ("fallback_index", .int fallbackIndex)])])
    .none

/-- `record_attempt_failure`. -/
def recordAttemptFailure (context : TenantContext) (request : ModelRequest) (lease : WorkLease)
    (reservation : BudgetReservation) (error : ModelGatewayError) (provider model : String)
    (attempt fallbackIndex : ℤ) (at' : Timestamp) (ids : ℕ → UUID) : Op Unit := do
  Proc.ofExcept (validate context request lease)
  record py context request lease reservation at' ids
    [(failureEventType error, [("provider", .str provider), ("model", .str model),
      ("attempt", .int attempt), ("fallback_index", .int fallbackIndex)] ++ errorPayload error)]
    .none

/-! ## Settlement -/

/-- The fields that name a response and its price. -/
def responsePayload (response : ModelResponse) (pricing : PricingVersion) : Dict :=
  [("provider", .str response.model.provider), ("model", .str response.model.model),
    ("price_version", .str pricing.version)]

/-- `succeed`. -/
def succeed (context : TenantContext) (request : ModelRequest) (lease : WorkLease)
    (reservation : BudgetReservation) (response : ModelResponse) (pricing : PricingVersion)
    (at' : Timestamp) (ids : ℕ → UUID) : Op Unit := do
  Proc.ofExcept (validate context request lease)
  let (tokens, cost) ← Proc.ofExcept (actualUsage pricing response reservation)
  let shared := responsePayload response pricing
  record py context request lease reservation at' ids
    [(.modelCallSucceeded, shared ++ [("finish_reason", .str response.finishReason),
        ("safety_outcome", .str response.safetyOutcome),
        ("latency_ms", .int response.latencyMs),
        ("provider_request_id", match response.providerRequestId with
          | some id => .str id
          | none => .null)]),
      (.modelUsageRecorded, shared ++ usagePayload response.usage ++
        [("cost_usd", .str (py.strDecimal cost))]),
      (.modelBudgetCharged, shared ++ [("tokens", .int tokens),
        ("cost_usd", .str (py.strDecimal cost))]),
      (.modelBudgetReleased, shared ++ [("tokens_released", .int (reservation.tokenLimit - tokens)),
        ("cost_released_usd", .str (py.strDecimal (Decimal.sub reservation.costLimitUsd cost)))])]
    (.gateway (.charge request lease reservation response pricing.version tokens cost at'))

/-- `record_usage_failure`. -/
def recordUsageFailure (context : TenantContext) (request : ModelRequest) (lease : WorkLease)
    (reservation : BudgetReservation) (response : ModelResponse) (pricing : PricingVersion)
    (error : ModelGatewayError) (at' : Timestamp) (ids : ℕ → UUID) : Op Unit := do
  Proc.ofExcept (validate context request lease)
  let (tokens, cost) := usageTotals pricing response
  let shared := responsePayload response pricing
  record py context request lease reservation at' ids
    [(failureEventType error, shared ++ errorPayload error),
      (.modelUsageRecorded, shared ++ usagePayload response.usage ++
        [("cost_usd", .str (py.strDecimal cost))]),
      (.modelBudgetCharged, shared ++ [("tokens", .int tokens),
        ("cost_usd", .str (py.strDecimal cost))]),
      (.modelBudgetReleased, shared ++
        [("tokens_released", .int (max (reservation.tokenLimit - tokens) 0)),
          ("cost_released_usd",
            .str (py.strDecimal (max (Decimal.sub reservation.costLimitUsd cost) 0))),
          ("reason", .str "validation_failed_after_provider_response")])]
    (.gateway (.charge request lease reservation response pricing.version tokens cost at'))

/-- `fail`. -/
def fail (context : TenantContext) (request : ModelRequest) (lease : WorkLease)
    (reservation : BudgetReservation) (error : ModelGatewayError) (at' : Timestamp)
    (ids : ℕ → UUID) : Op Unit := do
  Proc.ofExcept (validate context request lease)
  record py context request lease reservation at' ids
    [(failureEventType error, errorPayload error),
      (.modelBudgetReleased, errorPayload error ++
        [("tokens_released", .int reservation.tokenLimit),
          ("cost_released_usd", .str (py.strDecimal reservation.costLimitUsd)),
          ("reason", .str "model_call_failed")])]
    (.gateway (.release request lease reservation at'))

end

/-! ## What is known of the events -/

theorem isWork_failureEventType (error : ModelGatewayError) :
    (failureEventType error).isWork = false := by
  unfold failureEventType
  cases error.errorClass <;> rfl

theorem generation_common (request : ModelRequest) (lease : WorkLease)
    (reservation : BudgetReservation) (rest : Dict) :
    Dict.get? (common request lease reservation ++ rest) "lease_generation" =
      some (.int lease.generation) := rfl

/-- The events of a batch carry the lease's generation, belong to the leased
item's stream, and are of the types asked for. -/
theorem events_isFor {py : PyText} {request : ModelRequest} {lease : WorkLease}
    {reservation : BudgetReservation} {at' : Timestamp} {ids : ℕ → UUID} {index : ℕ}
    {causation : Option UUID} {values : List (DomainEventType × Dict)}
    {batch : List EventEnvelope} (htenant : request.tenantId = lease.tenantId)
    (h : events py request lease at' ids index causation
      (values.map fun v => (v.1, common request lease reservation ++ v.2)) = .ok batch) :
    ∀ e ∈ batch, ∃ v ∈ values, e.IsFor lease.key v.1 (some lease.generation) := by
  induction values generalizing index causation batch with
  | nil =>
    simp only [List.map_nil, events, Except.ok.injEq] at h
    subst h
    intro e he
    cases he
  | cons v rest ih =>
    simp only [List.map_cons, events, bind_eq_ok, pure_eq_ok] at h
    obtain ⟨event, hevent, later, hlater, rfl⟩ := h
    have heq := EventEnvelope.make_eq hevent
    intro e he
    rcases List.mem_cons.1 he with rfl | he
    · refine ⟨v, List.mem_cons_self .., ?_⟩
      rw [heq]
      refine ⟨htenant, rfl, rfl, ?_⟩
      simp only [EventEnvelope.leaseGeneration?, generation_common]
    · obtain ⟨v', hv', hfor⟩ := ih hlater e he
      exact ⟨v', List.mem_cons_of_mem _ hv', hfor⟩

end Gateway

end AegisPlatform
