import AegisPlatform.Gateway.Postgres
import AegisPlatform.Lib.Assoc

/-!
# The in-memory gateway repository

`InMemoryGatewayRepository`: event truth and the budget projection in one
object.  Every operation runs under the repository's lock, so operations follow
one another; what an operation has assigned stays assigned when it raises later.
`ids` are the values the repository's `uuid_factory` returns, in order.

* `MemoryRepository` — the object.
* `reserve`, `recordAttempt`, `recordAttemptFailure`, `succeed`,
  `recordUsageFailure`, `fail`, `replaceLease` — its operations.
* `append_eq` — no event of theirs is refused, so an operation that raises has
  changed nothing.
* `MemoryCall` — the operations with their arguments; `MemoryCall.does` is what a
  call may do to the repository.
-/

namespace AegisPlatform

open Fallible

/-- Is an event of the type about a budget? -/
def DomainEventType.isBudget : DomainEventType → Bool
  | modelBudgetReserved | modelBudgetCharged | modelBudgetReleased => true
  | _ => false

/-- The fields of the repository.  `reservations` is in insertion order, in which
the sums are taken. -/
structure MemoryRepository where
  activeLeases : Table WorkKey WorkLease := ∅
  events : List EventEnvelope := []
  reservations : Assoc UUID BudgetReservation := []
  /-- Reservation and digest of the call in progress, by tenant and idempotency
  key. -/
  inflight : Table (String × String) (UUID × String) := ∅
  /-- Digest and response of a completed call. -/
  completed : Table (String × String) (String × ModelResponse) := ∅

/-- An operation on the repository: what was assigned before an exception stays. -/
abbrev Memory := EStateM Raised MemoryRepository

/-- A check, or a computation that may raise. -/
def Memory.check {α : Type} : Except Raised α → Memory α
  | .ok a => pure a
  | .error e => throw e

/-- Is the reservation active? -/
def BudgetReservation.isActive (r : BudgetReservation) : Bool := r.state = .active

/-- `charged_tokens`. -/
def BudgetReservation.chargedTokens (r : BudgetReservation) : ℤ :=
  match r.state with
  | .charged tokens .. => tokens
  | _ => 0

/-- `charged_cost_usd`. -/
def BudgetReservation.chargedCostUsd (r : BudgetReservation) : Decimal :=
  match r.state with
  | .charged _ cost _ => cost
  | _ => 0

/-- Was the reservation charged, at or after the given instant if there is one? -/
def BudgetReservation.isChargedSince (since : Option Timestamp) (r : BudgetReservation) : Bool :=
  match r.state with
  | .charged _ _ reconciledAt => since.all (· ≤ reconciledAt)
  | _ => false

namespace MemoryRepository

/-- The repository of the given active leases. -/
def initial (activeLeases : List WorkLease) : MemoryRepository where
  activeLeases := activeLeases.foldl (fun leases lease => leases.upsert lease.key lease) ∅

/-- `replace_lease`. -/
def replaceLease (lease : WorkLease) : Memory Unit :=
  modify fun r => { r with activeLeases := r.activeLeases.upsert lease.key lease }

/-- The active reservations of a tenant, of one run of it or of all. -/
def active (r : MemoryRepository) (tenantId : String) (runId : Option UUID) :
    List BudgetReservation :=
  r.reservations.values.filter fun item =>
    item.tenantId = tenantId && runId.all (item.runId = ·) && item.isActive

/-- The charged reservations of a tenant, of one run of it or of all, and from an
instant on or of all time. -/
def charged (r : MemoryRepository) (tenantId : String) (runId : Option UUID)
    (since : Option Timestamp) : List BudgetReservation :=
  r.reservations.values.filter fun item =>
    item.tenantId = tenantId && runId.all (item.runId = ·) && item.isChargedSince since

/-- `usage_summary`. -/
def usageSummary (py : PyText) (context : TenantContext) (r : MemoryRepository) : Dict :=
  let charged := r.charged context.tenantId none none
  [("tokens", .int (charged.map (·.chargedTokens)).sum),
    ("cost_usd", .str (py.strDecimal (Decimal.sum (charged.map (·.chargedCostUsd))))),
    ("calls", .int charged.length)]

/-- `_require_fence`. -/
def requireFence (r : MemoryRepository) (lease : WorkLease) (at' : Timestamp) :
    Except Raised Unit :=
  match r.activeLeases.lookup lease.key with
  | none => .error (.fencingError lease.generation 0)
  | some current => raiseIf (current.token ≠ lease.token ∨ current.generation ≠ lease.generation ∨
      current.expiresAt ≤ at') (.fencingError lease.generation current.generation)

/-- `_require_active`. -/
def requireActive (r : MemoryRepository) (reservation : BudgetReservation) : Except Raised Unit :=
  raiseIf (!(r.reservations.lookup reservation.reservationId).any (·.isActive))
    (.valueError "budget reservation is not active")

/-- `_validate_request_context`. -/
def validateRequestContext (context : TenantContext) (request : ModelRequest) (lease : WorkLease) :
    Except Raised Unit := do
  raiseIf (context.tenantId ≠ request.tenantId ∨ context.tenantId ≠ lease.tenantId)
    (.valueError "gateway tenant context, request, and lease must match")
  raiseIf (request.runId ≠ lease.workId)
    (.valueError "model run must be the fenced work aggregate")

/-- The event `_append` builds from an event type and its details. -/
def nextEvent (request : ModelRequest) (lease : WorkLease) (at' : Timestamp) (eventId : UUID)
    (sequence : ℕ) (causation : Option UUID) (eventType : DomainEventType) (details : Dict) :
    EventEnvelope where
  eventId := eventId
  tenantId := request.tenantId
  aggregateId := lease.workId.str
  eventType := eventType
  occurredAt := at'
  payload := details.update [("work_id", .str lease.workId.str),
    ("run_id", .str request.runId.str),
    ("lease_token", .str lease.token.str),
    ("lease_generation", .int lease.generation)]
  correlationId := some request.runId
  causationId := causation
  aggregateSequence := sequence
  idempotencyKey := some (request.idempotencyKey ++ ":" ++ eventType.value ++ ":" ++
    toString sequence)

/-- The loop of `_append`: the events one after the other, each caused by the one
before; the `n`-th value of `ids` names the first. -/
def appendFrom (request : ModelRequest) (lease : WorkLease) (at' : Timestamp) (ids : ℕ → UUID) :
    ℕ → ℕ → Option UUID → List (DomainEventType × Dict) → Memory Unit
  | _, _, _, [] => pure ()
  | n, sequence, causation, (eventType, details) :: rest => do
    let event ← Memory.check (EventEnvelope.make
      (nextEvent request lease at' (ids n) (sequence + 1) causation eventType details))
    modify fun r => { r with events := r.events ++ [event] }
    appendFrom request lease at' ids (n + 1) (sequence + 1) (some (ids n)) rest

/-- `_append`. -/
def append (request : ModelRequest) (lease : WorkLease) (at' : Timestamp) (ids : ℕ → UUID)
    (n : ℕ) (events : List (DomainEventType × Dict)) : Memory Unit := do
  let r ← get
  let sequence := r.events.countP fun event => event.aggregateId = lease.workId.str
  appendFrom request lease at' ids n sequence none events

section

variable (py : PyText)

/-! ## Reservation and attempts -/

/-- The events of a reservation. -/
def reservedEvents (request : ModelRequest) (lease : WorkLease) (route : RouteDecision)
    (reservation : BudgetReservation) : List (DomainEventType × Dict) :=
  let base : Dict := [("work_id", .str lease.workId.str),
    ("lease_token", .str lease.token.str),
    ("lease_generation", .int lease.generation),
    ("request_id", .str request.requestId.str)]
  let selected : Dict := [("provider", .str route.selected.provider),
    ("model", .str route.selected.model)]
  [(.modelRouteDecided, base ++ selected ++ [("candidate_count", .int route.candidateCount),
      ("rationale", .list (route.rationale.map .str))]),
    (.modelCallRequested, base ++ selected ++ [("message_count", .int request.messages.length),
      ("content_digest", .str (Gateway.requestContentDigest py request)),
      ("max_output_tokens", .int request.maxOutputTokens),
      ("prompt_token_estimate", .int request.promptTokenEstimate),
      ("has_tools", .bool !request.tools.isEmpty),
      ("has_structured_output", .bool request.responseSchema.isSome),
      ("persistence_policy", .str "metadata_and_digest_only")]),
    (.modelBudgetReserved, base ++ [("reservation_id", .str reservation.reservationId.str),
      ("token_limit", .int reservation.tokenLimit),
      ("cost_limit_usd", .str (py.strDecimal reservation.costLimitUsd)),
      ("price_version", .str reservation.priceVersion)])]

/-- The checks of `reserve` against the repository: the fence, the idempotency key
and the four limits. -/
def admission (r : MemoryRepository) (request : ModelRequest) (lease : WorkLease)
    (quotas : QuotaLimits) (tokenLimit : ℤ) (costLimitUsd : Decimal) (at' : Timestamp) :
    Except Raised Unit := do
  r.requireFence lease at'
  let duplicateKey := (request.tenantId, request.idempotencyKey)
  match r.completed.lookup duplicateKey with
  | some (digest, _) => .error (.valueError
      (if digest ≠ Gateway.requestContentDigest py request then
        "idempotency key already belongs to another request"
      else "completed duplicate must be read before reservation"))
  | none =>
    raiseIf (r.inflight.lookup duplicateKey).isSome .duplicateCallInProgress
    let active := r.active request.tenantId none
    let charged := r.charged request.tenantId none (some (Calendar.monthStart at'))
    let runActive := r.active request.tenantId (some request.runId)
    let runCharged := r.charged request.tenantId (some request.runId) none
    checkBudget quotas
      ((active.map (·.tokenLimit)).sum + (charged.map (·.chargedTokens)).sum)
      (Decimal.add (Decimal.sum (active.map (·.costLimitUsd)))
        (Decimal.sum (charged.map (·.chargedCostUsd))))
      ((runActive.map (·.tokenLimit)).sum + (runCharged.map (·.chargedTokens)).sum)
      (Decimal.add (Decimal.sum (runActive.map (·.costLimitUsd)))
        (Decimal.sum (runCharged.map (·.chargedCostUsd))))
      tokenLimit costLimitUsd

/-- The reservation `reserve` makes. -/
def newReservation (request : ModelRequest) (lease : WorkLease) (tokenLimit : ℤ)
    (costLimitUsd : Decimal) (priceVersion : String) (at' : Timestamp) (reservationId : UUID) :
    BudgetReservation where
  reservationId := reservationId
  tenantId := request.tenantId
  runId := request.runId
  requestId := request.requestId
  tokenLimit := tokenLimit
  costLimitUsd := costLimitUsd
  priceVersion := priceVersion
  createdAt := some at'
  expiresAt := some lease.expiresAt

/-- `reserve`. -/
def reserve (context : TenantContext) (request : ModelRequest) (lease : WorkLease)
    (route : RouteDecision) (quotas : QuotaLimits) (tokenLimit : ℤ) (costLimitUsd : Decimal)
    (priceVersion : String) (at' : Timestamp) (ids : ℕ → UUID) : Memory BudgetReservation := do
  Memory.check (validateRequestContext context request lease)
  Memory.check (raiseIf (tokenLimit < 1 ∨ costLimitUsd < 0 ∨ priceVersion = "")
    (.valueError "reservation values and price version are required"))
  let r ← get
  Memory.check (r.admission py request lease quotas tokenLimit costLimitUsd at')
  let reservation := newReservation request lease tokenLimit costLimitUsd priceVersion at' (ids 0)
  set { r with
    reservations := r.reservations.set reservation.reservationId reservation
    inflight := r.inflight.upsert (request.tenantId, request.idempotencyKey)
      (reservation.reservationId, Gateway.requestContentDigest py request) }
  append request lease at' ids 1 (reservedEvents py request lease route reservation)
  return reservation

/-- `record_attempt`. -/
def recordAttempt (context : TenantContext) (request : ModelRequest) (lease : WorkLease)
    (reservation : BudgetReservation) (provider model : String) (attempt fallbackIndex : ℤ)
    (at' : Timestamp) (ids : ℕ → UUID) : Memory Unit := do
  Memory.check (validateRequestContext context request lease)
  Memory.check (raiseIf (attempt < 1 ∨ fallbackIndex < 0)
    (.valueError "attempt and fallback index are invalid"))
  let r ← get
  Memory.check (r.requireActive reservation)
  Memory.check (r.requireFence lease at')
  let named : Dict := [("provider", .str provider), ("model", .str model)]
  let fallback : List (DomainEventType × Dict) :=
    if 0 < fallbackIndex ∧ attempt = 1 then
      [(.modelFallbackSelected, named ++ [("fallback_index", .int fallbackIndex)])]
    else []
  let eventType : DomainEventType :=
    if attempt = 1 ∧ fallbackIndex = 0 then .modelCallStarted else .modelCallAttempted
  append request lease at' ids 0 (fallback ++ [(eventType, named ++ [("attempt", .int attempt),
    ("fallback_index", .int fallbackIndex),
    ("reservation_id", .str reservation.reservationId.str)])])

/-- `record_attempt_failure`. -/
def recordAttemptFailure (context : TenantContext) (request : ModelRequest) (lease : WorkLease)
    (reservation : BudgetReservation) (error : ModelGatewayError) (provider model : String)
    (attempt fallbackIndex : ℤ) (at' : Timestamp) (ids : ℕ → UUID) : Memory Unit := do
  Memory.check (validateRequestContext context request lease)
  let r ← get
  Memory.check (r.requireActive reservation)
  Memory.check (r.requireFence lease at')
  append request lease at' ids 0 [(failureEventType error,
    [("reservation_id", .str reservation.reservationId.str),
      ("request_id", .str request.requestId.str),
      ("provider", .str provider), ("model", .str model),
      ("attempt", .int attempt), ("fallback_index", .int fallbackIndex)] ++
      Gateway.errorPayload error)]

/-! ## Settlement -/

/-- What the three settlements share: the reservation must be active and the fence
valid; it is stored in its new state, the call is no longer in progress, a
completed one is remembered, and the events are appended. -/
def settle (request : ModelRequest) (lease : WorkLease) (reservation : BudgetReservation)
    (state : ReservationState) (response : Option ModelResponse) (at' : Timestamp)
    (ids : ℕ → UUID) (events : List (DomainEventType × Dict)) : Memory Unit := do
  let r ← get
  Memory.check (r.requireActive reservation)
  Memory.check (r.requireFence lease at')
  let key := (request.tenantId, request.idempotencyKey)
  set { r with
    reservations := r.reservations.set reservation.reservationId { reservation with state := state }
    completed := match response with
      | some response =>
        r.completed.upsert key (Gateway.requestContentDigest py request, response)
      | none => r.completed
    inflight := r.inflight.delete key }
  append request lease at' ids 0 events

/-- The fields that name a response, its reservation and its price. -/
def responseDetails (request : ModelRequest) (reservation : BudgetReservation)
    (response : ModelResponse) (pricing : PricingVersion) : Dict :=
  [("reservation_id", .str reservation.reservationId.str),
    ("request_id", .str request.requestId.str),
    ("provider", .str response.model.provider),
    ("model", .str response.model.model),
    ("price_version", .str pricing.version)]

/-- `succeed`. -/
def succeed (context : TenantContext) (request : ModelRequest) (lease : WorkLease)
    (reservation : BudgetReservation) (response : ModelResponse) (pricing : PricingVersion)
    (at' : Timestamp) (ids : ℕ → UUID) : Memory Unit := do
  Memory.check (validateRequestContext context request lease)
  let (tokens, cost) ← Memory.check (actualUsage pricing response reservation)
  let details := responseDetails request reservation response pricing
  settle py request lease reservation (.charged tokens cost at') (some response) at' ids
    [(.modelCallSucceeded, details ++ [("finish_reason", .str response.finishReason),
        ("safety_outcome", .str response.safetyOutcome),
        ("latency_ms", .int response.latencyMs),
        ("provider_request_id", match response.providerRequestId with
          | some id => .str id
          | none => .null)]),
      (.modelUsageRecorded, details ++ Gateway.usagePayload response.usage ++
        [("cost_usd", .str (py.strDecimal cost))]),
      (.modelBudgetCharged, details ++ [("tokens", .int tokens),
        ("cost_usd", .str (py.strDecimal cost))]),
      (.modelBudgetReleased, details ++
        [("tokens_released", .int (reservation.tokenLimit - tokens)),
          ("cost_released_usd", .str (py.strDecimal (Decimal.sub reservation.costLimitUsd cost)))])]

/-- `record_usage_failure`. -/
def recordUsageFailure (context : TenantContext) (request : ModelRequest) (lease : WorkLease)
    (reservation : BudgetReservation) (response : ModelResponse) (pricing : PricingVersion)
    (error : ModelGatewayError) (at' : Timestamp) (ids : ℕ → UUID) : Memory Unit := do
  Memory.check (validateRequestContext context request lease)
  let (tokens, cost) := usageTotals pricing response
  let details := responseDetails request reservation response pricing
  settle py request lease reservation (.charged tokens cost at') none at' ids
    [(failureEventType error, details ++ Gateway.errorPayload error),
      (.modelUsageRecorded, details ++ Gateway.usagePayload response.usage ++
        [("cost_usd", .str (py.strDecimal cost))]),
      (.modelBudgetCharged, details ++ [("tokens", .int tokens),
        ("cost_usd", .str (py.strDecimal cost))]),
      (.modelBudgetReleased, details ++
        [("tokens_released", .int (max (reservation.tokenLimit - tokens) 0)),
          ("cost_released_usd",
            .str (py.strDecimal (max (Decimal.sub reservation.costLimitUsd cost) 0))),
          ("reason", .str "validation_failed_after_provider_response")])]

/-- `fail`. -/
def fail (context : TenantContext) (request : ModelRequest) (lease : WorkLease)
    (reservation : BudgetReservation) (error : ModelGatewayError) (at' : Timestamp)
    (ids : ℕ → UUID) : Memory Unit := do
  Memory.check (validateRequestContext context request lease)
  let details : Dict := [("reservation_id", .str reservation.reservationId.str),
    ("request_id", .str request.requestId.str)] ++ Gateway.errorPayload error
  settle py request lease reservation (.released at') none at' ids
    [(failureEventType error, details),
      (.modelBudgetReleased, details ++
        [("tokens_released", .int reservation.tokenLimit),
          ("cost_released_usd", .str (py.strDecimal reservation.costLimitUsd)),
          ("reason", .str "model_call_failed")])]

end

/-! ## No event is refused -/

theorem validateRequestContext_eq_ok {context : TenantContext} {request : ModelRequest}
    {lease : WorkLease} {u : Unit} (h : validateRequestContext context request lease = .ok u) :
    context.tenantId = request.tenantId ∧ request.runId = lease.workId := by
  simp only [validateRequestContext, bind_eq_ok, raiseIf_eq_ok, not_or, not_not] at h
  obtain ⟨-, ⟨htenant, -⟩, hrun⟩ := h
  exact ⟨htenant, hrun⟩

variable {request : ModelRequest} {lease : WorkLease} {at' : Timestamp} {ids : ℕ → UUID}

theorem make_nextEvent (htenant : isBlank request.tenantId = false) {eventId : UUID}
    {sequence : ℕ} {causation : Option UUID} {eventType : DomainEventType} {details : Dict}
    (hfinite : JsonValue.isFiniteFields details = true) :
    EventEnvelope.make (nextEvent request lease at' eventId sequence causation eventType details) =
      .ok (nextEvent request lease at' eventId sequence causation eventType details) := by
  refine EventEnvelope.make_eq_ok rfl htenant (UUID.isBlank_str lease.workId) ?_ ?_
  · intro h
    have hlist := congrArg String.toList (Option.some.inj h)
    simp at hlist
  · exact JsonValue.isFiniteFields_update hfinite rfl

/-- What `_append` makes of an event type and its details, its identifiers apart. -/
structure Posts (request : ModelRequest) (at' : Timestamp) (v : DomainEventType × Dict)
    (e : EventEnvelope) : Prop where
  eventType : e.eventType = v.1
  tenantId : e.tenantId = request.tenantId
  occurredAt : e.occurredAt = at'
  payload : ∀ field ∉ ["work_id", "run_id", "lease_token", "lease_generation"],
    e.payload.get? field = v.2.get? field

theorem appendFrom_eq (htenant : isBlank request.tenantId = false)
    {events : List (DomainEventType × Dict)}
    (hfinite : ∀ v ∈ events, JsonValue.isFiniteFields v.2 = true) (n sequence : ℕ)
    (causation : Option UUID) (r : MemoryRepository) :
    ∃ es, List.Forall₂ (Posts request at') events es ∧
      appendFrom request lease at' ids n sequence causation events r =
        .ok () { r with events := r.events ++ es } := by
  induction events generalizing n sequence causation r with
  | nil => exact ⟨[], .nil, by rw [List.append_nil]; rfl⟩
  | cons v rest ih =>
    obtain ⟨eventType, details⟩ := v
    rw [appendFrom, make_nextEvent htenant (hfinite (eventType, details) (List.mem_cons_self ..))]
    obtain ⟨es, hposts, hes⟩ := ih (fun v hv => hfinite v (List.mem_cons_of_mem _ hv)) (n + 1)
      (sequence + 1) (some (ids n)) { r with
        events := r.events ++
          [nextEvent request lease at' (ids n) (sequence + 1) causation eventType details] }
    rw [List.append_assoc] at hes
    refine ⟨_, .cons ⟨rfl, rfl, rfl, fun field hfield => ?_⟩ hposts, hes⟩
    exact Dict.get?_update_of_not_mem hfield

/-- **Appending the events of an operation cannot fail**, and changes nothing but
the events. -/
theorem append_eq (htenant : isBlank request.tenantId = false)
    {events : List (DomainEventType × Dict)}
    (hfinite : ∀ v ∈ events, JsonValue.isFiniteFields v.2 = true) (lease : WorkLease)
    (at' : Timestamp) (ids : ℕ → UUID) (n : ℕ) (r : MemoryRepository) :
    ∃ es, List.Forall₂ (Posts request at') events es ∧
      append request lease at' ids n events r = .ok () { r with events := r.events ++ es } :=
  appendFrom_eq htenant hfinite _ _ _ r

/-! ## What an operation does -/

theorem check_bind {α β : Type} (x : Except Raised α) (f : α → Memory β) (r : MemoryRepository) :
    (Memory.check x >>= f) r = match x with
      | .ok a => f a r
      | .error e => .error e r := by
  cases x <;> rfl

theorem get_bind {β : Type} (f : MemoryRepository → Memory β) (r : MemoryRepository) :
    (get >>= f) r = f r r := rfl

theorem set_bind {β : Type} (r' : MemoryRepository) (f : PUnit → Memory β)
    (r : MemoryRepository) : (set r' >>= f) r = f ⟨⟩ r' := rfl

theorem bind_ok {α β : Type} {x : Memory α} {f : α → Memory β} {r r' : MemoryRepository} {a : α}
    (h : x r = .ok a r') : (x >>= f) r = f a r' := by
  change EStateM.bind x f r = f a r'
  rw [EStateM.bind, h]

theorem bind_error {α β : Type} {x : Memory α} {f : α → Memory β} {r r' : MemoryRepository}
    {e : Raised} (h : x r = .error e r') : (x >>= f) r = .error e r' := by
  change EStateM.bind x f r = .error e r'
  rw [EStateM.bind, h]

theorem eq_ok_of_bind {α β : Type} {x : Memory α} {f : α → Memory β} {r r' : MemoryRepository}
    {b : β} (h : (x >>= f) r = .ok b r') : ∃ a r₁, x r = .ok a r₁ ∧ f a r₁ = .ok b r' := by
  cases hx : x r with
  | ok a r₁ => exact ⟨a, r₁, rfl, (bind_ok hx).symm.trans h⟩
  | error e r₁ =>
    change EStateM.bind x f r = .ok b r' at h
    rw [EStateM.bind, hx] at h
    cases h

theorem eq_ok_of_check {α β : Type} {x : Except Raised α} {f : α → Memory β}
    {r r' : MemoryRepository} {b : β} (h : (Memory.check x >>= f) r = .ok b r') :
    ∃ a, x = .ok a ∧ f a r = .ok b r' := by
  cases x with
  | ok a => exact ⟨a, rfl, h⟩
  | error e => cases h

variable {py : PyText} {context : TenantContext} {reservation : BudgetReservation}

theorem notBlank_of_valid {u : Unit} (h : validateRequestContext context request lease = .ok u) :
    isBlank request.tenantId = false := by
  rw [← (validateRequestContext_eq_ok h).1]
  exact isBlank_of_isIdentifier context.valid

theorem isFinite_reservedEvents (py : PyText) (request : ModelRequest) (lease : WorkLease)
    (route : RouteDecision) (reservation : BudgetReservation) :
    ∀ v ∈ reservedEvents py request lease route reservation,
      JsonValue.isFiniteFields v.2 = true := by
  intro v hv
  simp only [reservedEvents, List.mem_cons, List.not_mem_nil, or_false] at hv
  rcases hv with rfl | rfl | rfl
  · simp [JsonValue.isFiniteFields, JsonValue.isFinite, JsonValue.isFiniteList_map_str]
  · rfl
  · rfl

/-- What `reserve` checks. -/
def reserveCheck (py : PyText) (r : MemoryRepository) (context : TenantContext)
    (request : ModelRequest) (lease : WorkLease) (quotas : QuotaLimits) (tokenLimit : ℤ)
    (costLimitUsd : Decimal) (priceVersion : String) (at' : Timestamp) : Except Raised Unit := do
  validateRequestContext context request lease
  raiseIf (tokenLimit < 1 ∨ costLimitUsd < 0 ∨ priceVersion = "")
    (.valueError "reservation values and price version are required")
  r.admission py request lease quotas tokenLimit costLimitUsd at'

theorem reserveCheck_eq_ok {r : MemoryRepository} {quotas : QuotaLimits} {tokenLimit : ℤ}
    {costLimitUsd : Decimal} {priceVersion : String} {u : Unit} :
    reserveCheck py r context request lease quotas tokenLimit costLimitUsd priceVersion at' = .ok u ↔
      validateRequestContext context request lease = .ok () ∧ 1 ≤ tokenLimit ∧ 0 ≤ costLimitUsd ∧
        priceVersion ≠ "" ∧
        r.admission py request lease quotas tokenLimit costLimitUsd at' = .ok () := by
  simp only [reserveCheck, bind_eq_ok, raiseIf_eq_ok, not_or, not_lt]
  constructor
  · rintro ⟨_, hvalid, _, ⟨htokens, hcost, hprice⟩, hadmission⟩
    exact ⟨hvalid, htokens, hcost, hprice, hadmission⟩
  · rintro ⟨hvalid, htokens, hcost, hprice, hadmission⟩
    exact ⟨(), hvalid, (), ⟨htokens, hcost, hprice⟩, hadmission⟩

/-- A reservation is refused and nothing has changed, or it passes the checks and is
stored. -/
theorem reserve_eq (py : PyText) (context : TenantContext) (request : ModelRequest)
    (lease : WorkLease) (route : RouteDecision) (quotas : QuotaLimits) (tokenLimit : ℤ)
    (costLimitUsd : Decimal) (priceVersion : String) (at' : Timestamp) (ids : ℕ → UUID)
    (r : MemoryRepository) :
    (∃ e, reserveCheck py r context request lease quotas tokenLimit costLimitUsd priceVersion at' =
        .error e ∧
      reserve py context request lease route quotas tokenLimit costLimitUsd priceVersion at' ids
        r = .error e r) ∨
    (reserveCheck py r context request lease quotas tokenLimit costLimitUsd priceVersion at' =
        .ok () ∧
      ∃ es, List.Forall₂ (Posts request at') (reservedEvents py request lease route
          (newReservation request lease tokenLimit costLimitUsd priceVersion at' (ids 0))) es ∧
        reserve py context request lease route quotas tokenLimit costLimitUsd priceVersion at'
        ids r =
        .ok (newReservation request lease tokenLimit costLimitUsd priceVersion at' (ids 0)) { r with
          reservations := r.reservations.set (ids 0)
            (newReservation request lease tokenLimit costLimitUsd priceVersion at' (ids 0))
          inflight := r.inflight.upsert (request.tenantId, request.idempotencyKey)
            (ids 0, Gateway.requestContentDigest py request)
          events := r.events ++ es }) := by
  unfold reserve reserveCheck
  rw [check_bind]
  cases hvalid : validateRequestContext context request lease with
  | error e => exact Or.inl ⟨e, rfl, rfl⟩
  | ok u =>
    dsimp only
    rw [check_bind]
    cases raiseIf (tokenLimit < 1 ∨ costLimitUsd < 0 ∨ priceVersion = "")
        (Raised.valueError "reservation values and price version are required") with
    | error e => exact Or.inl ⟨e, rfl, rfl⟩
    | ok u' =>
      dsimp only
      rw [get_bind, check_bind]
      cases r.admission py request lease quotas tokenLimit costLimitUsd at' with
      | error e => exact Or.inl ⟨e, rfl, rfl⟩
      | ok u'' =>
        refine Or.inr ⟨rfl, ?_⟩
        dsimp only
        rw [set_bind]
        obtain ⟨es, hposts, hes⟩ := append_eq (notBlank_of_valid hvalid)
          (isFinite_reservedEvents py request lease route
            (newReservation request lease tokenLimit costLimitUsd priceVersion at' (ids 0)))
          lease at' ids 1 _
        exact ⟨es, hposts, bind_ok hes⟩

/-- What an admitted reservation has passed, and where it is stored. -/
theorem reserve_cases (py : PyText) (context : TenantContext) (request : ModelRequest)
    (lease : WorkLease) (route : RouteDecision) (quotas : QuotaLimits) (tokenLimit : ℤ)
    (costLimitUsd : Decimal) (priceVersion : String) (at' : Timestamp) (ids : ℕ → UUID)
    (r : MemoryRepository) :
    (∃ e, reserve py context request lease route quotas tokenLimit costLimitUsd priceVersion at' ids
      r = .error e r) ∨
    1 ≤ tokenLimit ∧ 0 ≤ costLimitUsd ∧
      r.admission py request lease quotas tokenLimit costLimitUsd at' = .ok () ∧
      ∃ r', reserve py context request lease route quotas tokenLimit costLimitUsd priceVersion at'
        ids r = .ok (newReservation request lease tokenLimit costLimitUsd priceVersion at' (ids 0)) r' ∧
        r'.reservations = r.reservations.set (ids 0)
          (newReservation request lease tokenLimit costLimitUsd priceVersion at' (ids 0)) := by
  rcases reserve_eq py context request lease route quotas tokenLimit costLimitUsd priceVersion at'
    ids r with ⟨e, -, he⟩ | ⟨hcheck, es, -, hok⟩
  · exact Or.inl ⟨e, he⟩
  · obtain ⟨-, htokens, hcost, -, hadmission⟩ := reserveCheck_eq_ok.1 hcheck
    exact Or.inr ⟨htokens, hcost, hadmission, _, hok, rfl⟩

/-- The repository after a settlement, but for its events. -/
def settledBy (py : PyText) (r : MemoryRepository) (request : ModelRequest)
    (reservation : BudgetReservation) (state : ReservationState) (response : Option ModelResponse) :
    MemoryRepository :=
  { r with
    reservations := r.reservations.set reservation.reservationId { reservation with state := state }
    completed := match response with
      | some response => r.completed.upsert (request.tenantId, request.idempotencyKey)
          (Gateway.requestContentDigest py request, response)
      | none => r.completed
    inflight := r.inflight.delete (request.tenantId, request.idempotencyKey) }

/-- A settlement is refused and nothing has changed, or the reservation was active, the
fence is valid, and the settlement is stored. -/
theorem settle_eq {state : ReservationState} {response : Option ModelResponse}
    {events : List (DomainEventType × Dict)} (htenant : isBlank request.tenantId = false)
    (hfinite : ∀ v ∈ events, JsonValue.isFiniteFields v.2 = true) (r : MemoryRepository) :
    ((r.requireActive reservation ≠ .ok () ∨ r.requireFence lease at' ≠ .ok ()) ∧
      ∃ e, settle py request lease reservation state response at' ids events r = .error e r) ∨
    (r.requireActive reservation = .ok () ∧ r.requireFence lease at' = .ok () ∧
      ∃ es, List.Forall₂ (Posts request at') events es ∧
        settle py request lease reservation state response at' ids events r =
        .ok () { settledBy py r request reservation state response with events := r.events ++ es }) := by
  unfold settle
  rw [get_bind, check_bind]
  cases hactive : r.requireActive reservation with
  | error e => exact Or.inl ⟨Or.inl (by simp), e, rfl⟩
  | ok u =>
    dsimp only
    rw [check_bind]
    cases hfence : r.requireFence lease at' with
    | error e => exact Or.inl ⟨Or.inr (by simp), e, rfl⟩
    | ok u' =>
      dsimp only
      rw [set_bind]
      obtain ⟨es, hposts, hes⟩ := append_eq htenant hfinite lease at' ids 0 _
      exact Or.inr ⟨rfl, rfl, es, hposts, hes⟩

/-! What each settlement comes down to, once its arguments are valid, and the events about
the budget it appends. -/

theorem isBudget_failureEventType (error : ModelGatewayError) :
    (failureEventType error).isBudget = false := by
  unfold failureEventType
  cases error.errorClass <;> rfl

theorem succeed_eq_settle (py : PyText) (reservation : BudgetReservation) (at' : Timestamp)
    (ids : ℕ → UUID) (hvalid : validateRequestContext context request lease = .ok ())
    {response : ModelResponse} {pricing : PricingVersion}
    (husage : actualUsage pricing response reservation = .ok (usageTotals pricing response)) :
    ∃ events : List (DomainEventType × Dict),
      (∀ v ∈ events, JsonValue.isFiniteFields v.2 = true) ∧
      events.filter (·.1.isBudget) =
        [(.modelBudgetCharged, responseDetails request reservation response pricing ++
            [("tokens", .int (usageTotals pricing response).1),
              ("cost_usd", .str (py.strDecimal (usageTotals pricing response).2))]),
          (.modelBudgetReleased, responseDetails request reservation response pricing ++
            [("tokens_released", .int (reservation.tokenLimit - (usageTotals pricing response).1)),
              ("cost_released_usd", .str (py.strDecimal (Decimal.sub reservation.costLimitUsd
                (usageTotals pricing response).2)))])] ∧
      succeed py context request lease reservation response pricing at' ids =
        settle py request lease reservation (.charged (usageTotals pricing response).1
          (usageTotals pricing response).2 at') (some response) at' ids events := by
  simp only [succeed, hvalid, husage]
  refine ⟨_, ?_, ?_, rfl⟩
  · simp only [List.forall_mem_cons, List.not_mem_nil, false_implies, implies_true, and_true]
    refine ⟨?_, rfl, rfl, rfl⟩
    cases response.providerRequestId <;> rfl
  · rfl

theorem recordUsageFailure_eq_settle (py : PyText) (reservation : BudgetReservation)
    (at' : Timestamp) (ids : ℕ → UUID)
    (hvalid : validateRequestContext context request lease = .ok ()) (response : ModelResponse)
    (pricing : PricingVersion) (error : ModelGatewayError) :
    ∃ events : List (DomainEventType × Dict),
      (∀ v ∈ events, JsonValue.isFiniteFields v.2 = true) ∧
      events.filter (·.1.isBudget) =
        [(.modelBudgetCharged, responseDetails request reservation response pricing ++
            [("tokens", .int (usageTotals pricing response).1),
              ("cost_usd", .str (py.strDecimal (usageTotals pricing response).2))]),
          (.modelBudgetReleased, responseDetails request reservation response pricing ++
            [("tokens_released",
                .int (max (reservation.tokenLimit - (usageTotals pricing response).1) 0)),
              ("cost_released_usd", .str (py.strDecimal (max (Decimal.sub reservation.costLimitUsd
                (usageTotals pricing response).2) 0))),
              ("reason", .str "validation_failed_after_provider_response")])] ∧
      recordUsageFailure py context request lease reservation response pricing error at' ids =
        settle py request lease reservation (.charged (usageTotals pricing response).1
          (usageTotals pricing response).2 at') none at' ids events := by
  simp only [recordUsageFailure, hvalid]
  refine ⟨_, ?_, ?_, rfl⟩
  · simp only [List.forall_mem_cons, List.not_mem_nil, false_implies, implies_true, and_true]
    exact ⟨rfl, rfl, rfl, rfl⟩
  · rw [List.filter_cons_of_neg (by simp [isBudget_failureEventType])]
    rfl

theorem fail_eq_settle (py : PyText) (reservation : BudgetReservation) (at' : Timestamp)
    (ids : ℕ → UUID) (hvalid : validateRequestContext context request lease = .ok ())
    (error : ModelGatewayError) :
    ∃ events : List (DomainEventType × Dict),
      (∀ v ∈ events, JsonValue.isFiniteFields v.2 = true) ∧
      events.filter (·.1.isBudget) =
        [(.modelBudgetReleased, [("reservation_id", .str reservation.reservationId.str),
            ("request_id", .str request.requestId.str)] ++ Gateway.errorPayload error ++
          [("tokens_released", .int reservation.tokenLimit),
            ("cost_released_usd", .str (py.strDecimal reservation.costLimitUsd)),
            ("reason", .str "model_call_failed")])] ∧
      fail py context request lease reservation error at' ids =
        settle py request lease reservation (.released at') none at' ids events := by
  simp only [fail, hvalid]
  refine ⟨_, ?_, ?_, rfl⟩
  · simp only [List.forall_mem_cons, List.not_mem_nil, false_implies, implies_true, and_true]
    exact ⟨rfl, rfl⟩
  · rw [List.filter_cons_of_neg (by simp [isBudget_failureEventType])]
    rfl

theorem requireActive_eq_ok {r : MemoryRepository} {u : Unit} :
    r.requireActive reservation = .ok u ↔
      ∃ current, r.reservations.lookup reservation.reservationId = some current ∧
        current.isActive = true := by
  rw [requireActive, raiseIf_eq_ok, Bool.not_eq_true, Bool.not_eq_false', Option.any_eq_true]

/-- A settlement is refused and nothing has changed, or the reservation was active and
is stored in its new state. -/
theorem settle_cases {state : ReservationState} {response : Option ModelResponse}
    {events : List (DomainEventType × Dict)} (htenant : isBlank request.tenantId = false)
    (hfinite : ∀ v ∈ events, JsonValue.isFiniteFields v.2 = true) (r : MemoryRepository) :
    (∃ e, settle py request lease reservation state response at' ids events r = .error e r) ∨
    ∃ current r', r.reservations.lookup reservation.reservationId = some current ∧
      current.isActive = true ∧
      settle py request lease reservation state response at' ids events r = .ok () r' ∧
      r'.reservations = r.reservations.set reservation.reservationId
        { reservation with state := state } := by
  rcases settle_eq htenant hfinite r with ⟨-, he⟩ | ⟨hactive, -, es, -, hok⟩
  · exact Or.inl he
  · obtain ⟨current, hcurrent, hact⟩ := requireActive_eq_ok.1 hactive
    exact Or.inr ⟨current, _, hcurrent, hact, hok, rfl⟩

/-- What `record_attempt` and `record_attempt_failure` share. -/
def record (request : ModelRequest) (lease : WorkLease) (reservation : BudgetReservation)
    (at' : Timestamp) (ids : ℕ → UUID) (events : List (DomainEventType × Dict)) : Memory Unit := do
  let r ← get
  Memory.check (r.requireActive reservation)
  Memory.check (r.requireFence lease at')
  append request lease at' ids 0 events

/-- An attempt is refused and nothing has changed, or the reservation is active, the fence is
valid, and only events are appended. -/
theorem record_eq {events : List (DomainEventType × Dict)}
    (htenant : isBlank request.tenantId = false)
    (hfinite : ∀ v ∈ events, JsonValue.isFiniteFields v.2 = true) (r : MemoryRepository) :
    ((r.requireActive reservation ≠ .ok () ∨ r.requireFence lease at' ≠ .ok ()) ∧
      ∃ e, record request lease reservation at' ids events r = .error e r) ∨
    (r.requireActive reservation = .ok () ∧ r.requireFence lease at' = .ok () ∧
      ∃ es, record request lease reservation at' ids events r =
        .ok () { r with events := r.events ++ es }) := by
  unfold record
  rw [get_bind, check_bind]
  cases hactive : r.requireActive reservation with
  | error e => exact Or.inl ⟨Or.inl (by simp), e, rfl⟩
  | ok u =>
    dsimp only
    rw [check_bind]
    cases hfence : r.requireFence lease at' with
    | error e => exact Or.inl ⟨Or.inr (by simp), e, rfl⟩
    | ok u' =>
      obtain ⟨es, hposts, hes⟩ := append_eq htenant hfinite lease at' ids 0 r
      exact Or.inr ⟨rfl, rfl, es, hes⟩

theorem recordAttempt_eq_record (reservation : BudgetReservation) (at' : Timestamp) (ids : ℕ → UUID)
    (hvalid : validateRequestContext context request lease = .ok ()) (provider model : String)
    {attempt fallbackIndex : ℤ} (hargs : ¬ (attempt < 1 ∨ fallbackIndex < 0)) :
    ∃ events : List (DomainEventType × Dict),
      (∀ v ∈ events, JsonValue.isFiniteFields v.2 = true) ∧
      recordAttempt context request lease reservation provider model attempt fallbackIndex at' ids =
        record request lease reservation at' ids events := by
  simp only [recordAttempt, hvalid, raiseIf, if_neg hargs]
  refine ⟨_, fun v hv => ?_, rfl⟩
  rcases List.mem_append.1 hv with hv | hv
  · split at hv
    · rw [List.mem_singleton.1 hv]; rfl
    · cases hv
  · rw [List.mem_singleton.1 hv]; rfl

theorem recordAttemptFailure_eq_record (reservation : BudgetReservation) (at' : Timestamp)
    (ids : ℕ → UUID) (hvalid : validateRequestContext context request lease = .ok ())
    (error : ModelGatewayError) (provider model : String) (attempt fallbackIndex : ℤ) :
    ∃ events : List (DomainEventType × Dict),
      (∀ v ∈ events, JsonValue.isFiniteFields v.2 = true) ∧
      recordAttemptFailure context request lease reservation error provider model attempt
        fallbackIndex at' ids = record request lease reservation at' ids events := by
  simp only [recordAttemptFailure, hvalid]
  refine ⟨_, fun v hv => ?_, rfl⟩
  rw [List.mem_singleton.1 hv]
  rfl

theorem record_cases {events : List (DomainEventType × Dict)}
    (htenant : isBlank request.tenantId = false)
    (hfinite : ∀ v ∈ events, JsonValue.isFiniteFields v.2 = true) (r : MemoryRepository) :
    (∃ e, record request lease reservation at' ids events r = .error e r) ∨
    ∃ r', record request lease reservation at' ids events r = .ok () r' ∧
      r'.reservations = r.reservations := by
  rcases record_eq htenant hfinite r with ⟨-, he⟩ | ⟨-, -, es, hok⟩
  · exact Or.inl he
  · exact Or.inr ⟨_, hok, rfl⟩

end MemoryRepository

/-! ## Calls -/

/-- The operations of the repository with their arguments. -/
inductive MemoryCall where
  | reserve (context : TenantContext) (request : ModelRequest) (lease : WorkLease)
      (route : RouteDecision) (quotas : QuotaLimits) (tokenLimit : ℤ) (costLimitUsd : Decimal)
      (priceVersion : String) (at' : Timestamp) (ids : ℕ → UUID)
  | recordAttempt (context : TenantContext) (request : ModelRequest) (lease : WorkLease)
      (reservation : BudgetReservation) (provider model : String) (attempt fallbackIndex : ℤ)
      (at' : Timestamp) (ids : ℕ → UUID)
  | recordAttemptFailure (context : TenantContext) (request : ModelRequest) (lease : WorkLease)
      (reservation : BudgetReservation) (error : ModelGatewayError) (provider model : String)
      (attempt fallbackIndex : ℤ) (at' : Timestamp) (ids : ℕ → UUID)
  | succeed (context : TenantContext) (request : ModelRequest) (lease : WorkLease)
      (reservation : BudgetReservation) (response : ModelResponse) (pricing : PricingVersion)
      (at' : Timestamp) (ids : ℕ → UUID)
  | recordUsageFailure (context : TenantContext) (request : ModelRequest) (lease : WorkLease)
      (reservation : BudgetReservation) (response : ModelResponse) (pricing : PricingVersion)
      (error : ModelGatewayError) (at' : Timestamp) (ids : ℕ → UUID)
  | fail (context : TenantContext) (request : ModelRequest) (lease : WorkLease)
      (reservation : BudgetReservation) (error : ModelGatewayError) (at' : Timestamp)
      (ids : ℕ → UUID)
  | replaceLease (lease : WorkLease)

namespace MemoryCall

/-- Run a call.  A reservation is what `reserve` returns. -/
def exec (py : PyText) : MemoryCall → Memory (Option BudgetReservation)
  | reserve context request lease route quotas tokenLimit costLimitUsd priceVersion at' ids => do
    let reservation ← MemoryRepository.reserve py context request lease route quotas tokenLimit
      costLimitUsd priceVersion at' ids
    return some reservation
  | recordAttempt context request lease reservation provider model attempt fallbackIndex at' ids => do
    MemoryRepository.recordAttempt context request lease reservation provider model attempt
      fallbackIndex at' ids
    return none
  | recordAttemptFailure context request lease reservation error provider model attempt
      fallbackIndex at' ids => do
    MemoryRepository.recordAttemptFailure context request lease reservation error provider model
      attempt fallbackIndex at' ids
    return none
  | succeed context request lease reservation response pricing at' ids => do
    MemoryRepository.succeed py context request lease reservation response pricing at' ids
    return none
  | recordUsageFailure context request lease reservation response pricing error at' ids => do
    MemoryRepository.recordUsageFailure py context request lease reservation response pricing error
      at' ids
    return none
  | fail context request lease reservation error at' ids => do
    MemoryRepository.fail py context request lease reservation error at' ids
    return none
  | replaceLease lease => do
    MemoryRepository.replaceLease lease
    return none

/-- The instant a call is made at. -/
def at? : MemoryCall → Option Timestamp
  | reserve _ _ _ _ _ _ _ _ at' _ | recordAttempt _ _ _ _ _ _ _ _ at' _ |
    recordAttemptFailure _ _ _ _ _ _ _ _ _ at' _ | succeed _ _ _ _ _ _ at' _ |
    recordUsageFailure _ _ _ _ _ _ _ at' _ | fail _ _ _ _ _ at' _ => some at'
  | replaceLease _ => none

/-- The request of a `reserve`. -/
def reserving? : MemoryCall → Option ModelRequest
  | reserve _ request .. => some request
  | _ => none

/-- The request and the reservation a settlement is given, and the state it leaves the
reservation in. -/
def settlement? : MemoryCall → Option (ModelRequest × BudgetReservation × ReservationState)
  | succeed _ request _ reservation response pricing at' _ |
    recordUsageFailure _ request _ reservation response pricing _ at' _ =>
    some (request, reservation, .charged (usageTotals pricing response).1
      (usageTotals pricing response).2 at')
  | fail _ request _ reservation _ at' _ => some (request, reservation, .released at')
  | _ => none

/-- What a call may do to the repository. -/
inductive Does (py : PyText) (r : MemoryRepository) :
    MemoryCall → EStateM.Result Raised MemoryRepository (Option BudgetReservation) → Prop
  /-- It raises and has changed nothing. -/
  | refused {c : MemoryCall} {e : Raised} : Does py r c (.error e r)
  /-- It is no reservation and no settlement, and leaves the reservations as they are. -/
  | kept {c : MemoryCall} {r' : MemoryRepository} : c.reserving? = none → c.settlement? = none →
      r'.reservations = r.reservations → Does py r c (.ok none r')
  /-- It admits a reservation. -/
  | reserved {context : TenantContext} {request : ModelRequest} {lease : WorkLease}
      {route : RouteDecision} {quotas : QuotaLimits} {tokenLimit : ℤ} {costLimitUsd : Decimal}
      {priceVersion : String} {at' : Timestamp} {ids : ℕ → UUID} {new : BudgetReservation}
      {r' : MemoryRepository} :
      1 ≤ tokenLimit → 0 ≤ costLimitUsd →
      r.admission py request lease quotas tokenLimit costLimitUsd at' = .ok () →
      new = MemoryRepository.newReservation request lease tokenLimit costLimitUsd priceVersion at'
        (ids 0) → r'.reservations = r.reservations.set (ids 0) new →
      Does py r (.reserve context request lease route quotas tokenLimit costLimitUsd priceVersion
        at' ids) (.ok (some new) r')
  /-- It settles a reservation that was active. -/
  | settled {c : MemoryCall} {request : ModelRequest} {reservation current : BudgetReservation}
      {state : ReservationState} {r' : MemoryRepository} :
      c.settlement? = some (request, reservation, state) →
      r.reservations.lookup reservation.reservationId = some current →
      current.isActive = true →
      r'.reservations = r.reservations.set reservation.reservationId
        { reservation with state := state } → Does py r c (.ok none r')

section

variable {py : PyText} {r : MemoryRepository} {c : MemoryCall} {x : Memory Unit}

theorem does_of_settle {request : ModelRequest} {reservation : BudgetReservation}
    {state : ReservationState} (hc : c.settlement? = some (request, reservation, state))
    (hx : (∃ e, x r = .error e r) ∨ ∃ current r',
      r.reservations.lookup reservation.reservationId = some current ∧ current.isActive = true ∧
      x r = .ok () r' ∧ r'.reservations = r.reservations.set reservation.reservationId
        { reservation with state := state }) :
    Does py r c ((x >>= fun _ => pure none) r) := by
  rcases hx with ⟨e, hx⟩ | ⟨current, r', hcurrent, hactive, hx, hr'⟩
  · rw [MemoryRepository.bind_error hx]
    exact .refused
  · rw [MemoryRepository.bind_ok hx]
    exact .settled hc hcurrent hactive hr'

theorem does_of_record (hreserving : c.reserving? = none) (hsettlement : c.settlement? = none)
    (hx : (∃ e, x r = .error e r) ∨ ∃ r', x r = .ok () r' ∧ r'.reservations = r.reservations) :
    Does py r c ((x >>= fun _ => pure none) r) := by
  rcases hx with ⟨e, hx⟩ | ⟨r', hx, hr'⟩
  · rw [MemoryRepository.bind_error hx]
    exact .refused
  · rw [MemoryRepository.bind_ok hx]
    exact .kept hreserving hsettlement hr'

/-- A check at the start of an operation: it raises, or the rest decides. -/
theorem does_of_check {α : Type} {y : Except Raised α} {f : α → Memory Unit}
    {g : Unit → Memory (Option BudgetReservation)}
    (h : ∀ a, y = .ok a → Does py r c ((f a >>= g) r)) :
    Does py r c ((Memory.check y >>= f >>= g) r) := by
  cases y with
  | error e => exact .refused
  | ok a => exact h a rfl

end

/-- **What every call may do to the repository.** -/
theorem does (py : PyText) (c : MemoryCall) (r : MemoryRepository) : Does py r c (c.exec py r) := by
  cases c with
  | reserve context request lease route quotas tokenLimit costLimitUsd priceVersion at' ids =>
    rw [exec]
    rcases MemoryRepository.reserve_cases py context request lease route quotas tokenLimit
      costLimitUsd priceVersion at' ids r with ⟨e, he⟩ | ⟨htokens, hcost, hadmission, r', hok, hr'⟩
    · rw [MemoryRepository.bind_error he]
      exact .refused
    · rw [MemoryRepository.bind_ok hok]
      exact .reserved htokens hcost hadmission rfl hr'
  | recordAttempt context request lease reservation provider model attempt fallbackIndex at' ids =>
    refine does_of_check fun _ hvalid => does_of_check fun _ _ => does_of_record rfl rfl ?_
    refine MemoryRepository.record_cases (MemoryRepository.notBlank_of_valid hvalid) ?_ r
    intro v hv
    rcases List.mem_append.1 hv with hv | hv
    · split at hv
      · rw [List.mem_singleton.1 hv]; rfl
      · cases hv
    · rw [List.mem_singleton.1 hv]; rfl
  | recordAttemptFailure context request lease reservation error provider model attempt fallbackIndex
      at' ids =>
    refine does_of_check fun _ hvalid => does_of_record rfl rfl ?_
    refine MemoryRepository.record_cases (MemoryRepository.notBlank_of_valid hvalid) ?_ r
    intro v hv
    rw [List.mem_singleton.1 hv]
    rfl
  | succeed context request lease reservation response pricing at' ids =>
    refine does_of_check fun _ hvalid => does_of_check fun totals htotals => ?_
    obtain ⟨rfl, -⟩ := actualUsage_eq_ok.1 htotals
    refine does_of_settle rfl
      (MemoryRepository.settle_cases (MemoryRepository.notBlank_of_valid hvalid) ?_ r)
    simp only [List.forall_mem_cons, List.not_mem_nil, false_implies, implies_true, and_true]
    refine ⟨?_, rfl, rfl, rfl⟩
    cases response.providerRequestId <;> rfl
  | recordUsageFailure context request lease reservation response pricing error at' ids =>
    refine does_of_check fun _ hvalid => does_of_settle rfl
      (MemoryRepository.settle_cases (MemoryRepository.notBlank_of_valid hvalid) ?_ r)
    simp only [List.forall_mem_cons, List.not_mem_nil, false_implies, implies_true, and_true]
    exact ⟨rfl, rfl, rfl, rfl⟩
  | fail context request lease reservation error at' ids =>
    refine does_of_check fun _ hvalid => does_of_settle rfl
      (MemoryRepository.settle_cases (MemoryRepository.notBlank_of_valid hvalid) ?_ r)
    simp only [List.forall_mem_cons, List.not_mem_nil, false_implies, implies_true, and_true]
    exact ⟨rfl, rfl⟩
  | replaceLease lease => exact .kept rfl rfl rfl

end MemoryCall

end AegisPlatform
