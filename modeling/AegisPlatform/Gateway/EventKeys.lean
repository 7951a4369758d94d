import AegisPlatform.Gateway.Recorded
import AegisPlatform.Gateway.Settlement
import AegisPlatform.Queueing.Publisher

/-!
# Keys of the gateway's events

The ledger refuses an event whose idempotency key it has seen.  The events of all the calls that
are made for a request have keys of their own, whatever the providers do.

* `program`, `built` — what `PostgresGatewayRepository` does for an operation of a call, and the
  events it builds.
* `Tagged` — what a key tells: the type, the attempt, the reservation.
* `Answers` — what the repository may answer.
* `GatewayRun.event_keys_distinct` — the keys of all the events.
-/

namespace AegisPlatform

open Fallible Interleave Effects Effects.Prog

namespace Gateway

/-! ## The events of an operation -/

section

variable (py : PyText) (c : Completion) (ids : ℕ → UUID)

/-- The program of the repository for an operation of a call. -/
def program : (op : GatewayOp) → Option (Op op.Reply)
  | .completed _ => some (.ret none)
  | .reserve route quotas tokenLimit costLimitUsd priceVersion at' =>
    some (reserve py c.context c.request c.lease route quotas tokenLimit costLimitUsd priceVersion
      at' ids)
  | .recordAttempt r model attempt fallbackIndex at' =>
    some (recordAttempt py c.context c.request c.lease r model.provider model.model attempt
      fallbackIndex at' ids)
  | .recordAttemptFailure r error model attempt fallbackIndex at' =>
    some (recordAttemptFailure py c.context c.request c.lease r error model.provider model.model
      attempt fallbackIndex at' ids)
  | .succeed r response pricing at' =>
    some (succeed py c.context c.request c.lease r response pricing at' ids)
  | .recordUsageFailure r response pricing error at' =>
    some (recordUsageFailure py c.context c.request c.lease r response pricing error at' ids)
  | .fail r error at' => some (fail py c.context c.request c.lease r error at' ids)
  | _ => none

/-- The reservation an operation is about, and its time. -/
def about : GatewayOp → Option (BudgetReservation × Timestamp)
  | .reserve _ _ tokenLimit costLimitUsd priceVersion at' =>
    some (newReservation c.request tokenLimit costLimitUsd priceVersion (ids 0), at')
  | .recordAttempt r _ _ _ at' => some (r, at')
  | .recordAttemptFailure r _ _ _ _ at' => some (r, at')
  | .succeed r _ _ at' => some (r, at')
  | .recordUsageFailure r _ _ _ at' => some (r, at')
  | .fail r _ at' => some (r, at')
  | _ => none

/-- What is checked before the events are built. -/
def checked : GatewayOp → Except Raised Unit
  | .succeed r response pricing _ => do
    validate c.context c.request c.lease
    let _ ← actualUsage pricing response r
  | _ => validate c.context c.request c.lease

/-- The types of an operation's events, with what each carries beside the common fields. -/
def values : GatewayOp → List (DomainEventType × Dict)
  | .reserve route _ tokenLimit costLimitUsd priceVersion _ =>
    let selected : Dict := [("provider", .str route.selected.provider),
      ("model", .str route.selected.model)]
    [(.modelRouteDecided, selected ++ [("candidate_count", .int route.candidateCount),
        ("rationale", .list (route.rationale.map .str))]),
      (.modelCallRequested, selected ++ [("message_count", .int c.request.messages.length),
        ("content_digest", .str (requestContentDigest py c.request)),
        ("max_output_tokens", .int c.request.maxOutputTokens),
        ("prompt_token_estimate", .int c.request.promptTokenEstimate),
        ("has_tools", .bool !c.request.tools.isEmpty),
        ("has_structured_output", .bool c.request.responseSchema.isSome),
        ("persistence_policy", .str "metadata_and_digest_only")]),
      (.modelBudgetReserved, [("token_limit", .int tokenLimit),
        ("cost_limit_usd", .str (py.strDecimal costLimitUsd)),
        ("price_version", .str priceVersion)])]
  | .recordAttempt _ model attempt fallbackIndex _ =>
    let named : Dict := [("provider", .str model.provider), ("model", .str model.model)]
    (if 0 < (fallbackIndex : ℤ) ∧ (attempt : ℤ) = 1 then
      [(.modelFallbackSelected, named ++ [("fallback_index", .int fallbackIndex)])] else []) ++
    [(if (fallbackIndex : ℤ) = 0 ∧ (attempt : ℤ) = 1 then .modelCallStarted else .modelCallAttempted,
      named ++ [("attempt", .int attempt), ("fallback_index", .int fallbackIndex)])]
  | .recordAttemptFailure _ error model attempt fallbackIndex _ =>
    [(failureEventType error, [("provider", .str model.provider), ("model", .str model.model),
      ("attempt", .int attempt), ("fallback_index", .int fallbackIndex)] ++ errorPayload error)]
  | .succeed r response pricing _ =>
    let (tokens, cost) := usageTotals pricing response
    let shared := responsePayload response pricing
    [(.modelCallSucceeded, shared ++ [("finish_reason", .str response.finishReason),
        ("safety_outcome", .str response.safetyOutcome),
        ("latency_ms", .int response.latencyMs),
        ("provider_request_id", match response.providerRequestId with
          | some id => .str id
          | none => .null)]),
      (.modelUsageRecorded, shared ++ usagePayload response.usage ++
        [("cost_usd", .str (py.strDecimal cost))]),
      (.modelBudgetCharged, shared ++ [("tokens", .int tokens),
        ("cost_usd", .str (py.strDecimal cost))]),
      (.modelBudgetReleased, shared ++ [("tokens_released", .int (r.tokenLimit - tokens)),
        ("cost_released_usd", .str (py.strDecimal (Decimal.sub r.costLimitUsd cost)))])]
  | .recordUsageFailure r response pricing error _ =>
    let (tokens, cost) := usageTotals pricing response
    let shared := responsePayload response pricing
    [(failureEventType error, shared ++ errorPayload error),
      (.modelUsageRecorded, shared ++ usagePayload response.usage ++
        [("cost_usd", .str (py.strDecimal cost))]),
      (.modelBudgetCharged, shared ++ [("tokens", .int tokens),
        ("cost_usd", .str (py.strDecimal cost))]),
      (.modelBudgetReleased, shared ++ [("tokens_released", .int (max (r.tokenLimit - tokens) 0)),
          ("cost_released_usd", .str (py.strDecimal (max (Decimal.sub r.costLimitUsd cost) 0))),
          ("reason", .str "validation_failed_after_provider_response")])]
  | .fail r error _ =>
    [(failureEventType error, errorPayload error),
      (.modelBudgetReleased, errorPayload error ++ [("tokens_released", .int r.tokenLimit),
          ("cost_released_usd", .str (py.strDecimal r.costLimitUsd)),
          ("reason", .str "model_call_failed")])]
  | _ => []

/-- The events the repository builds for an operation. -/
def built (op : GatewayOp) : List EventEnvelope :=
  match checked c op, about c ids op with
  | .ok _, some (r, at') =>
    (events py c.request c.lease at' ids 1 none
      ((values py c op).map fun v => (v.1, common c.request c.lease r ++ v.2))).toOption.getD []
  | _, _ => []

end

variable {py : PyText} {c : Completion} {ids : ℕ → UUID} {op : GatewayOp} {r : BudgetReservation}
  {at' : Timestamp}

/-- A success is recorded once its usage is within the reservation. -/
theorem succeed_eq (py : PyText) (c : Completion) (ids : ℕ → UUID) (r : BudgetReservation)
    (response : ModelResponse) (pricing : PricingVersion) (at' : Timestamp) :
    succeed py c.context c.request c.lease r response pricing at' ids =
      (Proc.ofExcept (checked c (.succeed r response pricing at'))).bind fun _ =>
        record py c.context c.request c.lease r at' ids
          (values py c (.succeed r response pricing at'))
          (.gateway (.charge c.request c.lease r response pricing.version
            (usageTotals pricing response).1 (usageTotals pricing response).2 at')) := by
  simp only [succeed, checked]
  cases validate c.context c.request c.lease with
  | error e => rfl
  | ok u =>
    cases husage : actualUsage pricing response r with
    | error e => rfl
    | ok totals =>
      obtain rfl := (actualUsage_eq_ok.1 husage).1
      rfl

/-- **The program of an operation records its values**, once the checks have passed. -/
theorem program_eq {p : Op op.Reply} (hp : program py c ids op = some p)
    (habout : about c ids op = some (r, at')) :
    ∃ mutation reply, p = (Proc.ofExcept (checked c op)).bind fun _ =>
      (record py c.context c.request c.lease r at' ids (values py c op) mutation).bind fun _ =>
        .ret reply := by
  have hret : ∀ p : Op Unit, p = p.bind fun _ => .ret () := fun p => (Proc.bind_ret p).symm
  cases op with
  | reserve route quotas tokenLimit costLimitUsd priceVersion at' =>
    cases hp
    cases habout
    exact ⟨_, _, rfl⟩
  | recordAttempt r model attempt fallbackIndex at' =>
    cases hp
    cases habout
    exact ⟨_, (), congrArg (Proc.bind _) (funext fun _ => hret _)⟩
  | recordAttemptFailure r error model attempt fallbackIndex at' =>
    cases hp
    cases habout
    exact ⟨_, (), congrArg (Proc.bind _) (funext fun _ => hret _)⟩
  | succeed r response pricing at' =>
    cases hp
    cases habout
    rw [succeed_eq]
    exact ⟨_, (), congrArg (Proc.bind _) (funext fun _ => hret _)⟩
  | recordUsageFailure r response pricing error at' =>
    cases hp
    cases habout
    exact ⟨_, (), congrArg (Proc.bind _) (funext fun _ => hret _)⟩
  | fail r error at' =>
    cases hp
    cases habout
    exact ⟨_, (), congrArg (Proc.bind _) (funext fun _ => hret _)⟩
  | _ => cases habout

/-! ## What a key tells -/

/-- What `str` makes of the parts of a key. -/
structure KeyText (py : PyText) : Prop where
  str_str : ∀ s, py.str (.str s) = s
  str_int : ∀ n, py.str (.int n) = String.ofList (Numeral.integer n)

/-- The types of the gateway's events. -/
def modelTypes : List DomainEventType :=
  [.modelCallRequested, .modelCallStarted, .modelCallAttempted, .modelCallSucceeded,
    .modelCallFailed, .modelCallTimedOut, .modelCallRateLimited, .modelCallCancelled,
    .modelUsageRecorded, .modelRouteDecided, .modelFallbackSelected, .modelBudgetReserved,
    .modelBudgetReleased, .modelBudgetCharged]

theorem modelTypes_plain : ∀ ty ∈ modelTypes, Plain ty := by decide

theorem modelTypes_value {ty ty' : DomainEventType} (hty : ty ∈ modelTypes)
    (hty' : ty' ∈ modelTypes) (h : ty.value = ty'.value) : ty = ty' :=
  List.inj_on_of_nodup_map (f := DomainEventType.value) (by decide) hty hty' h

/-- The event is of this type, of this attempt and of this reservation, as its key tells. -/
structure Tagged (py : PyText) (request : ModelRequest) (ty : DomainEventType)
    (fallbackIndex attempt : ℕ) (reservationId : UUID) (e : EventEnvelope) : Prop where
  type : ty ∈ modelTypes
  key : ∃ payload index, e.idempotencyKey = some (eventIdempotencyKey py request ty payload index) ∧
    (payload.get? "fallback_index").getD (.int 0) = .int fallbackIndex ∧
    (payload.get? "attempt").getD (.int 0) = .int attempt ∧
    (payload.get? "reservation_id").getD (.str "") = .str reservationId.str

theorem colon_notMem_integer (n : ℤ) : ':' ∉ Numeral.integer n := fun h =>
  Numeral.ne_of_mem_integer (d := ':') (by decide) (by decide) h rfl

theorem colon_notMem_str (id : UUID) : ':' ∉ id.str.toList := by
  intro h
  have hmem : ':' ∈ id.str.toList.filter (· ≠ '-') := List.mem_filter.2 ⟨h, by decide⟩
  rw [UUID.filter_str] at hmem
  exact forall_mem_hexDigits (P := (· ≠ ':')) (by decide) hmem rfl

/-- **Equal keys tell the same**, whatever the strings in them are. -/
theorem Tagged.eq_of_key (hpy : KeyText py) {request : ModelRequest} {ty ty' : DomainEventType}
    {fallbackIndex fallbackIndex' attempt attempt' : ℕ} {id id' : UUID} {e e' : EventEnvelope}
    (h : Tagged py request ty fallbackIndex attempt id e)
    (h' : Tagged py request ty' fallbackIndex' attempt' id' e')
    (hkey : e.idempotencyKey = e'.idempotencyKey) :
    ty = ty' ∧ fallbackIndex = fallbackIndex' ∧ attempt = attempt' ∧ id = id' := by
  obtain ⟨htype, payload, index, hkey₁, hfallback, hattempt, hid⟩ := h
  obtain ⟨htype', payload', index', hkey₂, hfallback', hattempt', hid'⟩ := h'
  obtain ⟨rest, hparts⟩ := eventIdempotencyKey_parts py request ty payload index
  obtain ⟨rest', hparts'⟩ := eventIdempotencyKey_parts py request ty' payload' index'
  rw [hkey₁, hkey₂, Option.some.injEq, hparts, hparts', hfallback, hfallback', hattempt, hattempt',
    hid, hid'] at hkey
  simp only [hpy.str_str, hpy.str_int] at hkey
  have hlist := congrArg String.toList hkey
  have hcolon : ":".toList = [':'] := rfl
  simp only [String.toList_append, String.toList_ofList, hcolon, List.append_assoc,
    List.append_cancel_left_eq, List.cons_append, List.nil_append, List.cons.injEq, true_and] at hlist
  obtain ⟨hvalue, hlist⟩ := colon_inj (modelTypes_plain ty htype) (modelTypes_plain ty' htype') hlist
  obtain ⟨hfallback, hlist⟩ := colon_inj (colon_notMem_integer _) (colon_notMem_integer _) hlist
  obtain ⟨hattempt, hlist⟩ := colon_inj (colon_notMem_integer _) (colon_notMem_integer _) hlist
  obtain ⟨hid, -⟩ := colon_inj (colon_notMem_str id) (colon_notMem_str id') hlist
  exact ⟨modelTypes_value htype htype' (String.toList_injective hvalue),
    Int.ofNat_inj.1 (Numeral.integer_injective hfallback),
    Int.ofNat_inj.1 (Numeral.integer_injective hattempt),
    UUID.str_injective (String.toList_injective hid)⟩

/-! ## The keys of an operation -/

open ModelGateway in
/-- The stage that is told with such an event; none comes with the reservation. -/
def stageOf (ty : DomainEventType) (fallbackIndex attempt : ℕ) : Option Stage :=
  match ty with
  | .modelRouteDecided | .modelCallRequested | .modelBudgetReserved => none
  | .modelFallbackSelected => some (attemptStage fallbackIndex 1)
  | .modelCallStarted | .modelCallAttempted => some (attemptStage fallbackIndex attempt)
  | _ => some (if attempt = 0 then ⊤ else failureStage fallbackIndex attempt)

/-- The value carries the place of an attempt. -/
structure Carries (v : DomainEventType × Dict) (fallbackIndex attempt : ℕ) : Prop where
  type : v.1 ∈ modelTypes
  fallbackIndex : (v.2.get? "fallback_index").getD (.int 0) = .int fallbackIndex
  attempt : (v.2.get? "attempt").getD (.int 0) = .int attempt

theorem failureEventType_mem (error : ModelGatewayError) : failureEventType error ∈ modelTypes := by
  unfold failureEventType
  cases error.errorClass <;> decide

theorem stageOf_failure (error : ModelGatewayError) (fallbackIndex attempt : ℕ) :
    stageOf (failureEventType error) fallbackIndex attempt =
      some (if attempt = 0 then ⊤ else ModelGateway.failureStage fallbackIndex attempt) := by
  unfold failureEventType
  cases error.errorClass <;> rfl

/-- What is told in its turn carries the stage it is told at. -/
theorem values_carry {g : ModelGateway} {h : ModelGateway.Calls}
    (hturn : ModelGateway.InTurn g c h op) {v : DomainEventType × Dict} (hv : v ∈ values py c op) :
    ∃ fallbackIndex attempt, Carries v fallbackIndex attempt ∧
      stageOf v.1 fallbackIndex attempt = (ModelGateway.told? op).map (·.1) := by
  cases op with
  | reserve route quotas tokenLimit costLimitUsd priceVersion at' =>
    simp only [values, List.mem_cons, List.not_mem_nil, or_false] at hv
    rcases hv with rfl | rfl | rfl <;> exact ⟨0, 0, ⟨by simp [modelTypes], rfl, rfl⟩, rfl⟩
  | recordAttempt r model attempt fallbackIndex at' =>
    simp only [values] at hv
    rcases List.mem_append.1 hv with hv | hv
    · split at hv
      · rename_i hfirst
        rw [List.mem_singleton.1 hv]
        refine ⟨fallbackIndex, 0, ⟨by simp [modelTypes], rfl, rfl⟩, ?_⟩
        obtain rfl : attempt = 1 := by exact_mod_cast hfirst.2
        rfl
      · cases hv
    · rw [List.mem_singleton.1 hv]
      refine ⟨fallbackIndex, attempt, ⟨?_, rfl, rfl⟩, ?_⟩
      · split <;> simp [modelTypes]
      · split <;> rfl
  | recordAttemptFailure r error model attempt fallbackIndex at' =>
    rw [List.mem_singleton.1 hv]
    refine ⟨fallbackIndex, attempt, ⟨failureEventType_mem error, rfl, rfl⟩, ?_⟩
    rw [stageOf_failure, if_neg (Nat.one_le_iff_ne_zero.1 hturn.1)]
    rfl
  | succeed r response pricing at' =>
    simp only [values, List.mem_cons, List.not_mem_nil, or_false] at hv
    rcases hv with rfl | rfl | rfl | rfl <;> exact ⟨0, 0, ⟨by simp [modelTypes], rfl, rfl⟩, rfl⟩
  | recordUsageFailure r response pricing error at' =>
    simp only [values, List.mem_cons, List.not_mem_nil, or_false] at hv
    rcases hv with rfl | rfl | rfl | rfl
    · exact ⟨0, 0, ⟨failureEventType_mem error, rfl, rfl⟩, stageOf_failure error 0 0⟩
    all_goals exact ⟨0, 0, ⟨by simp [modelTypes], rfl, rfl⟩, rfl⟩
  | fail r error at' =>
    simp only [values, List.mem_cons, List.not_mem_nil, or_false] at hv
    rcases hv with rfl | rfl
    · exact ⟨0, 0, ⟨failureEventType_mem error, rfl, rfl⟩, stageOf_failure error 0 0⟩
    · exact ⟨0, 0, ⟨by simp [modelTypes], rfl, rfl⟩, rfl⟩
  | _ => cases hv

/-- The types of an operation's events differ. -/
theorem values_types (py : PyText) (c : Completion) (op : GatewayOp) :
    ((values py c op).map (·.1.value)).Nodup := by
  cases op with
  | recordAttempt r model attempt fallbackIndex at' =>
    simp only [values]
    split <;> split <;> simp only [List.map_cons, List.map_nil, List.nil_append, List.cons_append] <;>
      decide
  | recordAttemptFailure => exact List.nodup_singleton _
  | recordUsageFailure r response pricing error at' => exact (plainTypes_failure error).1.2.2.2
  | fail r error at' => exact (plainTypes_failure error).2.2.2.2
  | reserve => exact plainTypes_reserve.2.2.2
  | succeed => exact plainTypes_succeed.2.2.2
  | _ => exact List.nodup_nil

theorem events_keys {request : ModelRequest} {lease : WorkLease} {index : ℕ}
    {causation : Option UUID} {values : List (DomainEventType × Dict)} {batch : List EventEnvelope}
    (hplain : ∀ v ∈ values, Plain v.1) (hnodup : (values.map (·.1.value)).Nodup)
    (h : events py request lease at' ids index causation values = .ok batch) :
    (batch.map (·.idempotencyKey)).Nodup ∧ ∀ e ∈ batch, ∃ v ∈ values, ∃ n,
      e.idempotencyKey = some (eventIdempotencyKey py request v.1 v.2 n) := by
  induction values generalizing index causation batch with
  | nil =>
    cases h
    exact ⟨List.nodup_nil, fun e he => by cases he⟩
  | cons v rest ih =>
    simp only [events, bind_eq_ok, pure_eq_ok] at h
    obtain ⟨event, hevent, later, hlater, rfl⟩ := h
    rw [List.map_cons, List.nodup_cons] at hnodup
    obtain ⟨hkeys, hbuilt⟩ := ih (fun v hv => hplain v (List.mem_cons_of_mem _ hv)) hnodup.2 hlater
    have hkey : event.idempotencyKey = some (eventIdempotencyKey py request v.1 v.2 index) := by
      rw [EventEnvelope.make_eq hevent]
    constructor
    · refine List.nodup_cons.2 ⟨fun hmem => ?_, hkeys⟩
      obtain ⟨e, he, hsame⟩ := List.mem_map.1 hmem
      obtain ⟨v', hv', n, hkey'⟩ := hbuilt e he
      have hvalue := eventIdempotencyKey_inj (hplain v' (List.mem_cons_of_mem _ hv'))
        (hplain v List.mem_cons_self) (Option.some.inj (hkey'.symm.trans (hsame.trans hkey)))
      exact hnodup.1 (List.mem_map.2 ⟨v', hv', hvalue⟩)
    · intro e he
      rcases List.mem_cons.1 he with rfl | he
      · exact ⟨v, List.mem_cons_self, index, hkey⟩
      · obtain ⟨v', hv', hkey'⟩ := hbuilt e he
        exact ⟨v', List.mem_cons_of_mem _ hv', hkey'⟩

/-- **The keys of an operation differ, and tell its stage and its reservation.** -/
theorem built_tagged {g : ModelGateway} {h : ModelGateway.Calls}
    (hturn : ModelGateway.InTurn g c h op) :
    ((built py c ids op).map (·.idempotencyKey)).Nodup ∧ ∀ e ∈ built py c ids op,
      ∃ r at' ty fallbackIndex attempt, about c ids op = some (r, at') ∧
        Tagged py c.request ty fallbackIndex attempt r.reservationId e ∧
        stageOf ty fallbackIndex attempt = (ModelGateway.told? op).map (·.1) := by
  unfold built
  split
  · rename_i r at' _ habout
    cases hevents : events py c.request c.lease at' ids 1 none
        ((values py c op).map fun v => (v.1, common c.request c.lease r ++ v.2)) with
    | error e => exact ⟨List.nodup_nil, fun e he => by cases he⟩
    | ok batch =>
      have htypes : ∀ v ∈ (values py c op).map fun v => (v.1, common c.request c.lease r ++ v.2),
          Plain v.1 := by
        intro v hv
        obtain ⟨v', hv', rfl⟩ := List.mem_map.1 hv
        obtain ⟨_, _, hcarries, -⟩ := values_carry hturn hv'
        exact modelTypes_plain _ hcarries.type
      have hnodup : (((values py c op).map fun v => (v.1, common c.request c.lease r ++ v.2)).map
          (·.1.value)).Nodup := by
        rw [List.map_map]
        exact values_types py c op
      obtain ⟨hkeys, hbuilt⟩ := events_keys htypes hnodup hevents
      refine ⟨hkeys, fun e he => ?_⟩
      obtain ⟨v, hv, n, hkey⟩ := hbuilt e he
      obtain ⟨v', hv', rfl⟩ := List.mem_map.1 hv
      obtain ⟨fallbackIndex, attempt, hcarries, hstage⟩ := values_carry hturn hv'
      exact ⟨r, at', v'.1, fallbackIndex, attempt, habout, ⟨hcarries.type, _, n, hkey,
        hcarries.fallbackIndex, hcarries.attempt, rfl⟩, hstage⟩
  · exact ⟨List.nodup_nil, fun e he => by cases he⟩

/-! ## What the repository answers -/

/-- No `ModelGatewayError`. -/
def Ordinary (e : Raised) : Prop := ∀ code, e ≠ .modelGatewayError code

theorem ordinary_validateAppend (context : TenantContext) (batch : List EventEnvelope) :
    RaisesOnly Ordinary (validateAppend context batch) := by
  have hvalue : ∀ message, Ordinary (.valueError message) := fun message code h => by cases h
  unfold validateAppend
  refine raisesOnly_bind (raisesOnly_orRaise fun _ => hvalue _) fun first _ => ?_
  refine raisesOnly_bind (raisesOnly_raiseIf fun _ => hvalue _) fun _ _ => ?_
  refine raisesOnly_bind (raisesOnly_raiseIf fun _ => hvalue _) fun _ _ => ?_
  refine raisesOnly_bind (raisesOnly_raiseIf fun _ => hvalue _) fun _ _ => ?_
  exact raisesOnly_raiseIf fun _ => hvalue _

theorem ordinary_validateFence (batch : List EventEnvelope) (f : Fence) :
    RaisesOnly Ordinary (validateFence batch f) := by
  have hvalue : ∀ message, Ordinary (.valueError message) := fun message code h => by cases h
  unfold validateFence
  refine raisesOnly_bind (raisesOnly_raiseIf fun _ => hvalue _) fun _ _ => ?_
  refine raisesOnly_bind (raisesOnly_raiseIf fun _ => hvalue _) fun _ _ => ?_
  exact raisesOnly_raiseIf fun _ => hvalue _

theorem ordinary_storage : Ordinary permanentStorageFailure := fun code h => by cases h

theorem ordinary_insertEvents (recordedAt : Timestamp) (version : ℕ) (batch : List EventEnvelope)
    (db : Database) : RaisesOnly Ordinary (db.insertEvents recordedAt version batch) := by
  induction batch generalizing version db with
  | nil => exact raisesOnly_ok _
  | cons e rest ih =>
    exact raisesOnly_bind (raisesOnly_raiseIf fun _ => ordinary_storage) fun _ _ => ih _ _

theorem ordinary_appendInTransaction (recordedAt : Timestamp) (batch : List EventEnvelope)
    (version : ℕ) (db : Database) :
    RaisesOnly Ordinary (db.appendInTransaction recordedAt batch version []) := by
  unfold Database.appendInTransaction
  refine raisesOnly_bind (raisesOnly_orRaise fun _ code h => by cases h) fun first _ => ?_
  refine raisesOnly_bind (raisesOnly_raiseIf fun _ => ordinary_storage) fun _ _ => ?_
  refine raisesOnly_bind (raisesOnly_raiseIf fun _ code h => by cases h) fun _ _ => ?_
  refine raisesOnly_bind (ordinary_insertEvents _ _ _ _) fun db _ => ?_
  exact raisesOnly_ok _

theorem ordinary_chargeRow (request : ModelRequest) (lease : WorkLease) (r : BudgetReservation)
    (response : ModelResponse) (priceVersion : String) (tokens : ℤ) (cost : Decimal)
    (at' : Timestamp) (db : Database) : RaisesOnly Ordinary
      (db.chargeRow request lease r response priceVersion tokens cost at') := by
  unfold Database.chargeRow Database.settleReservation
  refine raisesOnly_bind (raisesOnly_bind (raisesOnly_orRaise fun _ code h => by cases h)
    fun _ _ => raisesOnly_ok _) fun db _ => ?_
  refine raisesOnly_bind (raisesOnly_orRaise fun _ => ordinary_storage) fun _ _ => ?_
  refine raisesOnly_bind (raisesOnly_orRaise fun _ => ordinary_storage) fun _ _ => ?_
  refine raisesOnly_bind (raisesOnly_orRaise fun _ => ordinary_storage) fun _ _ => ?_
  exact raisesOnly_ok _

theorem ordinary_runAppend {w : World} {a : Append} {startedAt : Timestamp}
    (houtbox : a.outbox = []) (hmutation : ∀ db, RaisesOnly Ordinary (a.mutation.run w.clock
      (fun tenantId => tenantId ∈ w.maintenance) db)) :
    RaisesOnly Ordinary (w.runAppend a startedAt) := by
  unfold World.runAppend
  rw [houtbox]
  refine raisesOnly_bind (ordinary_appendInTransaction _ _ _ _) fun result _ => ?_
  exact raisesOnly_bind (hmutation _) fun _ _ => raisesOnly_ok _

theorem ordinary_closeFenced {w : World} {tx : ℕ} {a : Append} {e : Raised}
    (houtbox : a.outbox = []) (hmutation : ∀ now underMaintenance db,
      RaisesOnly Ordinary (a.mutation.run now underMaintenance db))
    (h : (w.closeFenced tx a).2 = .error e) : Ordinary e := by
  unfold World.closeFenced at h
  split at h
  · rename_i t _
    cases hrun : w.runAppend a t.startedAt with
    | ok result =>
      rw [hrun] at h
      cases h
    | error e' =>
      rw [hrun] at h
      cases h
      exact ordinary_runAppend houtbox (hmutation _ _) _ hrun
  · cases h
    exact fun code heq => by cases heq

theorem ordinary_openFenced {w w' : World} {f : Fence} {e : Raised}
    (h : w.openFenced f = some (w', .error e)) : Ordinary e := by
  unfold World.openFenced at h
  split at h
  · split at h
    · cases h
    · cases h
  · cases h
    exact fun code heq => by cases heq

/-- The ledger raises no `ModelGatewayError` by itself. -/
theorem ordinary_appendFenced {context : TenantContext} {lease : WorkLease}
    {batch : List EventEnvelope} {mutation : Mutation}
    (hmutation : ∀ now underMaintenance db, RaisesOnly Ordinary (mutation.run now underMaintenance db))
    {e : Raised} (h : (appendFenced context lease batch mutation).Yields postgres (.error e)) :
    Ordinary e := by
  have htransient : Ordinary .transientStorageError := fun code h => by cases h
  rcases Proc.yields_bind h with ⟨version, -, h⟩ | ⟨e', h, -⟩
  swap
  · -- reading the head of the stream raises nothing
    cases h with
    | read s h => cases h
  rcases Proc.yields_bind h with ⟨reply, -, h⟩ | ⟨e', h, heq⟩
  · cases h
  cases heq
  rcases Proc.yields_bind h with ⟨u, -, h⟩ | ⟨e', h, heq⟩
  swap
  · cases heq
    exact ordinary_validateAppend _ _ _ (Proc.yields_ofExcept h).symm
  rcases Proc.yields_bind h with ⟨u, -, h⟩ | ⟨e', h, heq⟩
  swap
  · cases heq
    exact ordinary_validateFence _ _ _ (Proc.yields_ofExcept h).symm
  rcases Proc.yields_bind h with ⟨opened, -, h⟩ | ⟨e', h, heq⟩
  · rcases Proc.yields_txn h with ⟨w, w', hexec⟩ | ⟨w, habort⟩
    · exact ordinary_closeFenced rfl hmutation (congrArg Prod.snd (Option.some.inj hexec))
    · cases habort
      exact htransient
  · cases heq
    rcases Proc.yields_txn h with ⟨w, w', hexec⟩ | ⟨w, habort⟩
    · exact ordinary_openFenced hexec
    · cases habort
      exact htransient

/-- An answer that the repository may give. -/
def Answers (py : PyText) (c : Completion) (ids : ℕ → UUID) (x : ModelGateway.Exchange) : Prop :=
  ∀ p, program py c ids x.1 = some p →
    ∃ o, p.Yields postgres o ∧ x.2 = o.mapError GatewayRaised.of

/-- A reservation made has the identifier drawn for it. -/
theorem reservationId_of_answers {route : RouteDecision} {quotas : QuotaLimits} {tokenLimit : ℤ}
    {cost : Decimal} {version : String}
    (h : Answers py c ids ⟨.reserve route quotas tokenLimit cost version at', .ok r⟩) :
    r.reservationId = ids 0 := by
  obtain ⟨o, hyields, ho⟩ := h _ rfl
  rcases Proc.yields_bind hyields with ⟨_, -, hyields⟩ | ⟨e, -, rfl⟩
  · rcases Proc.yields_bind hyields with ⟨_, -, hyields⟩ | ⟨e, -, rfl⟩
    · cases hyields
      cases ho
      rfl
    · cases ho
  · cases ho

/-- A success that was declined has built no events. -/
theorem built_of_declined {response : ModelResponse} {pricing : PricingVersion}
    {error : ModelGatewayError}
    (h : Answers py c ids ⟨.succeed r response pricing at', .error (.modelGatewayError error)⟩) :
    built py c ids (.succeed r response pricing at') = [] := by
  obtain ⟨o, hyields, ho⟩ := h _ rfl
  obtain ⟨e, rfl, he⟩ := mapError_eq_error.1 ho.symm
  obtain ⟨code, rfl⟩ := GatewayRaised.of_eq_modelGatewayError he
  rw [succeed_eq] at hyields
  unfold built
  rcases Proc.yields_bind hyields with ⟨u, hchecked, hyields⟩ | ⟨e, hchecked, -⟩
  swap
  · rw [← Proc.yields_ofExcept hchecked]
  rw [← Proc.yields_ofExcept hchecked]
  rcases Proc.yields_bind hyields with ⟨batch, -, hyields⟩ | ⟨e, hevents, -⟩
  · refine absurd rfl (ordinary_appendFenced (fun now underMaintenance db => ?_) hyields code)
    exact ordinary_chargeRow _ _ _ _ _ _ _ _ _
  · show (events py c.request c.lease at' ids 1 none _).toOption.getD [] = []
    rw [← Proc.yields_ofExcept hevents]
    rfl

theorem built_eq_nil (habout : about c ids op = none) : built py c ids op = [] := by
  unfold built
  rw [habout]
  split
  · rename_i heq
    cases heq
  · rfl

theorem built_neutral (hop : ModelGateway.Neutral op) : built py c ids op = [] := by
  obtain ⟨hentry, hreserve⟩ := hop
  refine built_eq_nil ?_
  cases op with
  | reserve => cases hreserve
  | _ => first | rfl | cases hentry

theorem built_declined {x : ModelGateway.Exchange} (hdeclined : ModelGateway.Declined x)
    (hanswers : Answers py c ids x) : built py c ids x.1 = [] := by
  obtain ⟨op, answer⟩ := x
  cases op with
  | succeed r response pricing at' =>
    cases answer with
    | ok u => exact hdeclined.elim
    | error e =>
      cases e with
      | modelGatewayError error => exact built_of_declined hanswers
      | _ => exact hdeclined.elim
  | _ => exact hdeclined.elim

end Gateway

/-! ## The keys of a call -/

/-- A call of the gateway, with its environment and the identifiers that are drawn in it. -/
structure GatewayRun where
  gateway : ModelGateway
  completion : Completion
  env : Env GatewayOp GatewayOp.Reply GatewayRaised
  /-- What the repository's `uuid_factory` returns. -/
  reservationId : UUID
  /-- What `uuid4` returns, for each operation and each of its events. -/
  eventIds : ℕ → ℕ → UUID

namespace GatewayRun

section

variable (py : PyText) (run : GatewayRun)

/-- The operations of the call, with their answers. -/
def history : ModelGateway.Calls := ((run.gateway.complete run.completion).run run.env []).1

/-- The identifiers drawn for the `n`-th operation. -/
def ids (n : ℕ) : ℕ → UUID
  | 0 => run.reservationId
  | k + 1 => run.eventIds n k

/-- The repository answers what its programs come to; the providers and the controls answer
anything. -/
def Answered : Prop :=
  ∀ n x, run.history[n]? = some x → Gateway.Answers py run.completion (run.ids n) x

/-- The events built in the call. -/
def built : List EventEnvelope :=
  run.history.zipIdx.flatMap fun x => Gateway.built py run.completion (run.ids x.2) x.1.1

end

open ModelGateway

variable {py : PyText} {run : GatewayRun}

theorem inTurn {n : ℕ} {x : Exchange} (hx : run.history[n]? = some x) :
    InTurn run.gateway run.completion (run.history.take n) x.1 :=
  run_calls_at (fun _ _ => trivial) (complete_tells run.gateway run.completion) hx

/-- What is told in its turn is of the one reservation, and at a later stage than all before. -/
theorem told_of_inTurn {g : ModelGateway} {c : Completion} {h : Calls} {op : GatewayOp} {t : Stage}
    {r : BudgetReservation} (hturn : InTurn g c h op) (hentry : told? op = some (t, r)) :
    Told r t h := by
  cases op with
  | recordAttempt =>
    cases hentry
    exact hturn.2
  | recordAttemptFailure =>
    cases hentry
    exact hturn.2
  | succeed =>
    cases hentry
    exact hturn.1
  | recordUsageFailure =>
    cases hentry
    exact hturn
  | fail =>
    cases hentry
    exact hturn
  | _ => cases hentry

/-- Whatever is told is told of the reservation whose identifier was drawn. -/
theorem reservationId_eq (hanswered : run.Answered py) {n : ℕ} {x : Exchange}
    (hx : run.history[n]? = some x) {r : BudgetReservation} {at' : Timestamp}
    (habout : Gateway.about run.completion (run.ids n) x.1 = some (r, at')) :
    r.reservationId = run.reservationId := by
  have htold : ∀ t, told? x.1 = some (t, r) → r.reservationId = run.reservationId := by
    intro t hentry
    have hmem : r ∈ reservations (run.history.take n) := by
      rw [(told_of_inTurn (inTurn hx) hentry).reserved]
      exact List.mem_singleton_self r
    obtain ⟨y, hy, hreservation⟩ := List.mem_filterMap.1 hmem
    obtain ⟨m, hm⟩ := List.getElem?_of_mem (List.mem_of_mem_take hy)
    obtain ⟨op, answer⟩ := y
    cases op with
    | reserve =>
      cases answer with
      | ok r' =>
        cases hreservation
        exact Gateway.reservationId_of_answers (hanswered m _ hm)
      | error e => cases hreservation
    | _ => cases hreservation
  obtain ⟨op, answer⟩ := x
  cases op with
  | reserve =>
    cases habout
    rfl
  | recordAttempt =>
    cases habout
    exact htold _ rfl
  | recordAttemptFailure =>
    cases habout
    exact htold _ rfl
  | succeed =>
    cases habout
    exact htold _ rfl
  | recordUsageFailure =>
    cases habout
    exact htold _ rfl
  | fail =>
    cases habout
    exact htold _ rfl
  | _ => cases habout

/-- **Of two operations of a call that build events**, the stages differ. -/
theorem stage_ne (hanswered : run.Answered py) {m n : ℕ} {x y : Exchange} (hmn : m < n)
    (hx : run.history[m]? = some x) (hy : run.history[n]? = some y)
    (hxbuilt : Gateway.built py run.completion (run.ids m) x.1 ≠ [])
    (hybuilt : Gateway.built py run.completion (run.ids n) y.1 ≠ []) :
    (told? x.1).map (·.1) ≠ (told? y.1).map (·.1) := by
  intro hsame
  have hmem : x ∈ run.history.take n :=
    List.mem_of_getElem? ((List.getElem?_take_of_lt hmn).trans hx)
  have hturn := inTurn hy
  cases hentry : told? y.1 with
  | some e =>
    rw [hentry] at hsame
    cases hentry' : told? x.1 with
    | none =>
      rw [hentry'] at hsame
      cases hsame
    | some e' =>
      rw [hentry'] at hsame
      rcases ((told_of_inTurn hturn hentry).entries x hmem e' hentry').2 with hlt | hdeclined
      · exact hlt.ne (Option.some.inj hsame)
      · exact hxbuilt (Gateway.built_declined hdeclined (hanswered m x hx))
  | none =>
    by_cases hreserve : isReserve y.1 = false
    · exact hybuilt (Gateway.built_neutral ⟨hentry, hreserve⟩)
    · obtain ⟨op, answer⟩ := y
      cases op with
      | reserve =>
        obtain ⟨hnone, hother⟩ := hturn x hmem
        exact hxbuilt (Gateway.built_neutral ⟨hnone, hother⟩)
      | _ => exact hreserve rfl

/-- An event that an operation builds tells the stage, and the call's own reservation. -/
theorem tagged (hanswered : run.Answered py) {n : ℕ} {x : Exchange}
    (hx : run.history[n]? = some x) {e : EventEnvelope}
    (he : e ∈ Gateway.built py run.completion (run.ids n) x.1) :
    ∃ ty fallbackIndex attempt,
      Gateway.Tagged py run.completion.request ty fallbackIndex attempt run.reservationId e ∧
      Gateway.stageOf ty fallbackIndex attempt = (told? x.1).map (·.1) := by
  obtain ⟨r, at', ty, fallbackIndex, attempt, habout, htagged, hstage⟩ :=
    (Gateway.built_tagged (inTurn hx)).2 e he
  rw [reservationId_eq hanswered hx habout] at htagged
  exact ⟨ty, fallbackIndex, attempt, htagged, hstage⟩

theorem mem_built {e : EventEnvelope} : e ∈ run.built py ↔
    ∃ n x, run.history[n]? = some x ∧ e ∈ Gateway.built py run.completion (run.ids n) x.1 := by
  simp only [built, List.mem_flatMap, Prod.exists, List.mem_zipIdx_iff_getElem?]
  exact ⟨fun ⟨x, n, hx, he⟩ => ⟨n, x, hx, he⟩, fun ⟨n, x, hx, he⟩ => ⟨x, n, hx, he⟩⟩

/-- **Within a call no two events have the same key.** -/
theorem built_keys (hpy : Gateway.KeyText py) (hanswered : run.Answered py) :
    ((run.built py).map (·.idempotencyKey)).Nodup := by
  rw [built, List.map_flatMap, List.nodup_flatMap]
  constructor
  · rintro ⟨x, n⟩ hx
    exact (Gateway.built_tagged (inTurn (List.mem_zipIdx_iff_getElem?.1 hx))).1
  · rw [List.pairwise_iff_getElem]
    intro m n hm hn hmn
    rw [List.length_zipIdx] at hm hn
    rw [List.getElem_zipIdx, List.getElem_zipIdx, Nat.zero_add, Nat.zero_add]
    have hx : run.history[m]? = some run.history[m] := List.getElem?_eq_getElem hm
    have hy : run.history[n]? = some run.history[n] := List.getElem?_eq_getElem hn
    intro key hkey hkey'
    obtain ⟨e, he, rfl⟩ := List.mem_map.1 hkey
    obtain ⟨e', he', hsame⟩ := List.mem_map.1 hkey'
    obtain ⟨ty, fallbackIndex, attempt, htagged, hstage⟩ := tagged hanswered hx he
    obtain ⟨ty', fallbackIndex', attempt', htagged', hstage'⟩ := tagged hanswered hy he'
    obtain ⟨rfl, rfl, rfl, -⟩ := htagged'.eq_of_key hpy htagged hsame
    exact stage_ne hanswered hmn hx hy (List.ne_nil_of_mem he) (List.ne_nil_of_mem he')
      (hstage.symm.trans hstage')

/-- Every event of the call tells the call's reservation. -/
theorem tagged_of_mem (hanswered : run.Answered py) {e : EventEnvelope} (he : e ∈ run.built py) :
    ∃ ty fallbackIndex attempt,
      Gateway.Tagged py run.completion.request ty fallbackIndex attempt run.reservationId e := by
  obtain ⟨n, x, hx, he⟩ := mem_built.1 he
  obtain ⟨ty, fallbackIndex, attempt, htagged, -⟩ := tagged hanswered hx he
  exact ⟨ty, fallbackIndex, attempt, htagged⟩

/-- The events of calls for the same request have keys of their own. -/
theorem built_keys_of_calls (hpy : Gateway.KeyText py) {request : ModelRequest}
    {runs : List GatewayRun} (hrequest : ∀ run ∈ runs, run.completion.request = request)
    (hanswered : ∀ run ∈ runs, run.Answered py) (hids : (runs.map (·.reservationId)).Nodup) :
    ((runs.flatMap (·.built py)).map (·.idempotencyKey)).Nodup := by
  rw [List.map_flatMap, List.nodup_flatMap]
  refine ⟨fun run hrun => built_keys hpy (hanswered run hrun), ?_⟩
  refine (List.pairwise_map.1 hids).imp_of_mem fun {run run'} hrun hrun' hne key hkey hkey' => ?_
  obtain ⟨e, he, rfl⟩ := List.mem_map.1 hkey
  obtain ⟨e', he', hsame⟩ := List.mem_map.1 hkey'
  obtain ⟨ty, fallbackIndex, attempt, htagged⟩ := tagged_of_mem (hanswered run hrun) he
  obtain ⟨ty', fallbackIndex', attempt', htagged'⟩ := tagged_of_mem (hanswered run' hrun') he'
  rw [hrequest run hrun] at htagged
  rw [hrequest run' hrun'] at htagged'
  exact hne (htagged.eq_of_key hpy htagged' hsame.symm).2.2.2

/-- **The keys of the gateway's events never collide.**  For any number of calls for a request,
each with a reservation of its own, and whatever the providers, the controls and the ledger answer,
no two of the events built have the same key; and a ledger that holds none of the tenant's events
but earlier ones of these refuses none of them for its key. -/
theorem event_keys_distinct (hpy : Gateway.KeyText py) {request : ModelRequest}
    {runs : List GatewayRun} (hrequest : ∀ run ∈ runs, run.completion.request = request)
    (hanswered : ∀ run ∈ runs, run.Answered py) (hids : (runs.map (·.reservationId)).Nodup) :
    ((runs.flatMap (·.built py)).map (·.idempotencyKey)).Nodup ∧
    ∀ before e later, runs.flatMap (·.built py) = before ++ e :: later →
      ∀ (db : Database) (sequence : ℕ),
        (∀ e' ∈ db.events, e'.tenantId = e.tenantId →
          (e'.idempotencyKey = none ∨ e'.idempotencyKey ∈ before.map (·.idempotencyKey)) ∧
          e'.eventId ≠ e.eventId ∧
          ¬(e'.aggregateId = e.aggregateId ∧ e'.aggregateSequence = sequence)) →
        db.refuses e sequence = false := by
  have hnodup := built_keys_of_calls hpy hrequest hanswered hids
  refine ⟨hnodup, fun before e later hsplit db sequence hledger => ?_⟩
  rw [hsplit, List.map_append, List.map_cons] at hnodup
  refine List.any_eq_false.2 fun e' he' hrefuses => ?_
  simp only [Bool.and_eq_true, Bool.or_eq_true, decide_eq_true_eq] at hrefuses
  obtain ⟨htenant, (hid | hplace) | ⟨hsome, hkey⟩⟩ := hrefuses
  · exact (hledger e' he' htenant).2.1 hid
  · exact (hledger e' he' htenant).2.2 hplace
  · rcases (hledger e' he' htenant).1 with hnone | hmem
    · exact hsome (hkey ▸ hnone)
    · rw [hkey] at hmem
      exact (List.nodup_append.1 hnodup).2.2 _ hmem _ List.mem_cons_self rfl

/-- A reservation whose transaction the database gives up. -/
theorem reserve_gives_up {py : PyText} {c : Completion} {ids : ℕ → UUID} {at' : Timestamp}
    (hvalid : Gateway.validate c.context c.request c.lease = .ok ())
    (hids : Set.InjOn ids (Set.Iio 5)) (w : World) (route : RouteDecision) (quotas : QuotaLimits)
    (tokenLimit : ℤ) (costLimitUsd : Decimal) (priceVersion : String) :
    (Gateway.reserve py c.context c.request c.lease route quotas tokenLimit costLimitUsd priceVersion
      at' ids).Yields postgres (.error .transientStorageError) := by
  obtain ⟨values, hproper, hrecord⟩ := Gateway.reserve_eq_record py at' ids hvalid route quotas
    tokenLimit costLimitUsd priceVersion
  obtain ⟨batch, -, -, -, hsteps⟩ := Gateway.record_steps py (Gateway.newReservation c.request
    tokenLimit costLimitUsd priceVersion (ids 0)) at' (.reserve c.request c.lease
    (Gateway.newReservation c.request tokenLimit costLimitUsd priceVersion (ids 0)) quotas at')
    hvalid hids hproper
  rw [hrecord, hsteps]
  exact .read w (.abort w (.raise _))

/-- A call of the sample gateway. -/
def sampleCompletion : Completion where
  context := ⟨"acme", isIdentifier_acme⟩
  request := ModelRouter.sampleRequest
  lease := ⟨{
    workId := ModelRouter.sampleRequest.runId
    tenantId := "acme"
    token := UUID.ofNat 20
    generation := 1
    owner := "worker"
    attempt := 1
    acquiredAt := 0
    heartbeatAt := 0
    expiresAt := 60000000 }, rfl⟩
  policy := {
    tenantId := "acme"
    version := "1"
    allowedModels := {"large"}
    allowedTools := ∅
    allowedConnectors := ∅
    allowedEnvironments := {"production"}
    maxRisk := .high
    approvalFromRisk := .high
    toolsRequiringApproval := ∅
    approverRoles := {.approver}
    quotas := ⟨100000, 50, 1000000, 500, 1, by decide +kernel⟩
    allowedProviders := {"acme"}
    allowedDataResidencies := {"eu"}
    valid := by decide }
  environment := .production
  preference := .cost
  cancellation := false

def sampleGateway : ModelGateway where
  catalog := ⟨[Arithmetic.sampleEntry], by decide⟩
  retryPolicy := ⟨2, 1, ⟨1, 4, by norm_num⟩, by decide⟩
  controlledModels := [Arithmetic.sampleEntry.identity]
  meteredModels := [Arithmetic.sampleEntry.identity]
  tracedModels := [Arithmetic.sampleEntry.identity]
  validator := ⟨fun _ => true, fun _ _ => true⟩

/-- The database gives every reservation up. -/
def sampleAnswer : (op : GatewayOp) → Except GatewayRaised op.Reply
  | .clock => .ok 0
  | .completed _ => .ok none
  | .circuitState _ => .ok .closed
  | .time => .ok 0
  | .reserve .. => .error (.raised .transientStorageError)
  | _ => .error .other

def sampleRun (n : ℕ) : GatewayRun where
  gateway := sampleGateway
  completion := sampleCompletion
  env _ op := sampleAnswer op
  reservationId := UUID.ofNat n
  eventIds _ k := UUID.ofNat (100 + k)

/-- What is asked in a sample call. -/
def sampleAsks : GatewayOp → Bool
  | .clock | .time | .completed _ | .circuitState _ | .reserve .. => true
  | _ => false

theorem sampleRun_answered {n : ℕ} (hids : Set.InjOn ((sampleRun n).ids 0) (Set.Iio 5)) :
    (sampleRun n).Answered plainConversions.toPyText := by
  have hasks : (sampleRun 0).history.all (fun x => sampleAsks x.1) = true := by decide +kernel
  have hanswer : ∀ x ∈ (sampleRun n).history, x.2 = sampleAnswer x.1 :=
    @run_lawful _ _ _ _ (fun op answer => answer = sampleAnswer op) _ (fun _ _ => rfl) _ []
      fun _ hx => by cases hx
  intro m x hx p hp
  have hmem : x ∈ (sampleRun n).history := List.mem_of_getElem? hx
  have hasked := List.all_eq_true.1 hasks x hmem
  rw [hanswer x hmem]
  obtain ⟨op, answer⟩ := x
  cases op with
  | completed at' =>
    cases hp
    exact ⟨.ok none, .ret none, rfl⟩
  | reserve =>
    cases hp
    exact ⟨_, reserve_gives_up rfl hids { db := { tenants := ["acme"] }, clock := 0 } _ _ _ _ _, rfl⟩
  | clock => cases hp
  | time => cases hp
  | circuitState => cases hp
  | _ => cases hasked

theorem event_keys_distinct_two :
    (([sampleRun 1, sampleRun 2].flatMap (·.built plainConversions.toPyText)).map
      (·.idempotencyKey)).Nodup ∧
    ([sampleRun 1, sampleRun 2].flatMap (·.built plainConversions.toPyText)).length = 6 := by
  have hone : ∀ a < 5, ∀ b < 5, (sampleRun 1).ids 0 a = (sampleRun 1).ids 0 b → a = b := by decide
  have htwo : ∀ a < 5, ∀ b < 5, (sampleRun 2).ids 0 a = (sampleRun 2).ids 0 b → a = b := by decide
  have hrequest : ∀ run ∈ [sampleRun 1, sampleRun 2],
      run.completion.request = ModelRouter.sampleRequest := by
    intro run hrun
    simp only [List.mem_cons, List.not_mem_nil, or_false] at hrun
    rcases hrun with rfl | rfl <;> rfl
  refine ⟨(event_keys_distinct ⟨fun _ => rfl, fun _ => rfl⟩ hrequest ?_ (by decide)).1,
    by decide +kernel⟩
  intro run hrun
  simp only [List.mem_cons, List.not_mem_nil, or_false] at hrun
  rcases hrun with rfl | rfl
  · exact sampleRun_answered fun a ha b hb => hone a ha b hb
  · exact sampleRun_answered fun a ha b hb => htwo a ha b hb

end GatewayRun

end AegisPlatform
