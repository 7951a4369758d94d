import AegisPlatform.Gateway.Memory
import AegisPlatform.Gateway.Settlement
import AegisPlatform.Lib.Clients

/-!
# Calls over the in-memory repository

Any number of calls of one gateway over one `InMemoryGatewayRepository`.

* `MemoryRepository.answer` — what the repository answers to what a call asks of it.
* `Answers`, `answers` — what such an answer is, and what it does to the repository.
* `ModelGateway.Served` — everything else is answered by whatever it is.
* `Changes`, `Served.changes` — what an answer changes: it is quiet, or it reads a response, opens a
  reservation or closes one.
-/

namespace AegisPlatform

open Fallible Effects

namespace MemoryRepository

variable (py : PyText)

/-- `completed`. -/
def completedResponse (r : MemoryRepository) (context : TenantContext) (request : ModelRequest)
    (lease : WorkLease) (at' : Timestamp) : Except Raised (Option ModelResponse) := do
  validateRequestContext context request lease
  r.requireFence lease at'
  return match r.completed.lookup (context.tenantId, request.idempotencyKey) with
    | some (digest, response) =>
      if digest = Gateway.requestContentDigest py request then some response else none
    | none => none

/-- An operation as the call sees it. -/
def seen {α : Type} :
    EStateM.Result Raised MemoryRepository α → Except GatewayRaised α × MemoryRepository
  | .ok a r => (.ok a, r)
  | .error e r => (.error (.of e), r)

/-- What is answered to what a call asks of the repository. -/
def answer (c : Completion) (ids : ℕ → UUID) (r : MemoryRepository) :
    (op : GatewayOp) → Option (Except GatewayRaised op.Reply × MemoryRepository)
  | .completed at' =>
    some ((r.completedResponse py c.context c.request c.lease at').mapError .of, r)
  | .reserve route quotas tokenLimit costLimitUsd priceVersion at' =>
    some (seen (reserve py c.context c.request c.lease route quotas tokenLimit costLimitUsd
      priceVersion at' ids r))
  | .recordAttempt reservation model attempt fallbackIndex at' =>
    some (seen (recordAttempt c.context c.request c.lease reservation model.provider model.model
      attempt fallbackIndex at' ids r))
  | .recordAttemptFailure reservation error model attempt fallbackIndex at' =>
    some (seen (recordAttemptFailure c.context c.request c.lease reservation error model.provider
      model.model attempt fallbackIndex at' ids r))
  | .succeed reservation response pricing at' =>
    some (seen (succeed py c.context c.request c.lease reservation response pricing at' ids r))
  | .recordUsageFailure reservation response pricing error at' =>
    some (seen (recordUsageFailure py c.context c.request c.lease reservation response pricing
      error at' ids r))
  | .fail reservation error at' =>
    some (seen (fail py c.context c.request c.lease reservation error at' ids r))
  | _ => none

/-! ## What an answer does -/

/-- Nothing stands in the way of what is told of the reservation. -/
structure Ready (c : Completion) (r : MemoryRepository) (reservation : BudgetReservation)
    (at' : Timestamp) : Prop where
  context : validateRequestContext c.context c.request c.lease = .ok ()
  active : r.requireActive reservation = .ok ()
  fence : r.requireFence c.lease at' = .ok ()

/-- What a settlement does: the reservation, its new state, and the response that is kept. -/
def settling? : GatewayOp → Option (BudgetReservation × ReservationState × Option ModelResponse)
  | .succeed reservation response pricing at' => some (reservation, .charged
      (usageTotals pricing response).1 (usageTotals pricing response).2 at', some response)
  | .recordUsageFailure reservation response pricing _ at' => some (reservation, .charged
      (usageTotals pricing response).1 (usageTotals pricing response).2 at', none)
  | .fail reservation _ at' => some (reservation, .released at', none)
  | _ => none

/-- Why an operation raises. -/
def Blocked (c : Completion) (r : MemoryRepository) (e : GatewayRaised) : GatewayOp → Prop
  | .completed _ => True
  | .reserve .. => True
  | .recordAttempt reservation _ attempt _ at' => ¬ Ready c r reservation at' ∨ attempt < 1
  | .recordAttemptFailure reservation _ _ _ _ at' => ¬ Ready c r reservation at'
  | .succeed reservation _ _ at' =>
    ¬ Ready c r reservation at' ∨ ModelGateway.IsGatewayError e
  | .recordUsageFailure reservation _ _ _ at' => ¬ Ready c r reservation at'
  | .fail reservation _ at' => ¬ Ready c r reservation at'
  | _ => False

/-- Is it an attempt, or its failure? -/
def isRecord : GatewayOp → Bool
  | .recordAttempt .. => true
  | .recordAttemptFailure .. => true
  | _ => false

inductive Answers (c : Completion) (ids : ℕ → UUID) (r : MemoryRepository) :
    (op : GatewayOp) → Except GatewayRaised op.Reply → MemoryRepository → Prop
  | blocked {op : GatewayOp} {e : GatewayRaised} : Blocked c r e op → Answers c ids r op (.error e) r
  | read {at' : Timestamp} {x : Option ModelResponse} :
      (∀ response, x = some response → r.completed.lookup (c.request.tenantId,
        c.request.idempotencyKey) = some (Gateway.requestContentDigest py c.request, response)) →
      Answers c ids r (.completed at') (.ok x) r
  | reserved {route : RouteDecision} {quotas : QuotaLimits} {tokenLimit : ℤ}
      {costLimitUsd : Decimal} {priceVersion : String} {at' : Timestamp} {new : BudgetReservation}
      {es : List EventEnvelope} :
      validateRequestContext c.context c.request c.lease = .ok () →
      r.completed.lookup (c.request.tenantId, c.request.idempotencyKey) = none ∧
        r.inflight.lookup (c.request.tenantId, c.request.idempotencyKey) = none →
      new = newReservation c.request c.lease tokenLimit costLimitUsd priceVersion at' (ids 0) →
      Answers c ids r (.reserve route quotas tokenLimit costLimitUsd priceVersion at') (.ok new)
        { r with
          reservations := r.reservations.set new.reservationId new
          inflight := r.inflight.upsert (c.request.tenantId, c.request.idempotencyKey)
            (new.reservationId, Gateway.requestContentDigest py c.request)
          events := r.events ++ es }
  | recorded {op : GatewayOp} {a : op.Reply} {es : List EventEnvelope} : isRecord op = true →
      Answers c ids r op (.ok a) { r with events := r.events ++ es }
  | settled {op : GatewayOp} {a : op.Reply} {reservation : BudgetReservation}
      {state : ReservationState} {response : Option ModelResponse} {es : List EventEnvelope} :
      settling? op = some (reservation, state, response) →
      (∀ response pricing at', op = .succeed reservation response pricing at' →
        response.usage.billableTokens ≤ reservation.tokenLimit ∧
          pricing.cost response.usage ≤ reservation.costLimitUsd) →
      Answers c ids r op (.ok a)
        { settledBy py r c.request reservation state response with events := r.events ++ es }

section

variable {py} {c : Completion} {ids : ℕ → UUID} {r r' : MemoryRepository} {op : GatewayOp}
  {a : Except GatewayRaised op.Reply} {reservation : BudgetReservation} {at' : Timestamp}

/-- A check at the start of an operation: it raises, or the rest decides. -/
theorem answers_check {β : Type} {x : Except Raised β} {f : β → Memory op.Reply}
    (herror : ∀ e, x = .error e → Blocked c r (.of e) op)
    (hok : ∀ b, x = .ok b → Answers py c ids r op (seen (f b r)).1 (seen (f b r)).2) :
    Answers py c ids r op (seen ((Memory.check x >>= f) r)).1
      (seen ((Memory.check x >>= f) r)).2 := by
  cases x with
  | error e => exact .blocked (herror e rfl)
  | ok b => exact hok b rfl

theorem not_ready_of_context {e : Raised}
    (h : validateRequestContext c.context c.request c.lease = .error e) :
    ¬ Ready c r reservation at' := fun hready => by
  rw [hready.context] at h
  cases h

theorem not_ready_of_refused (h : r.requireActive reservation ≠ .ok () ∨
    r.requireFence c.lease at' ≠ .ok ()) : ¬ Ready c r reservation at' :=
  fun hready => h.elim (fun hne => hne hready.active) fun hne => hne hready.fence

/-- A settlement as the call sees it: there is a reason for what it raises, or it is stored. -/
theorem seen_settlement {x : Memory Unit} {state : ReservationState}
    {response : Option ModelResponse}
    (hraised : ∀ e, validateRequestContext c.context c.request c.lease = .error e →
      x r = .error e r)
    (hsettles : validateRequestContext c.context c.request c.lease = .ok () →
      ∃ events : List (DomainEventType × Dict),
        (∀ v ∈ events, JsonValue.isFiniteFields v.2 = true) ∧
        x = settle py c.request c.lease reservation state response at' ids events) :
    (∃ e, ¬ Ready c r reservation at' ∧ seen (x r) = (.error e, r)) ∨
    ∃ es, seen (x r) = (.ok (), { settledBy py r c.request reservation state response with
      events := r.events ++ es }) := by
  cases hvalid : validateRequestContext c.context c.request c.lease with
  | error e => exact .inl ⟨.of e, not_ready_of_context hvalid, by rw [hraised e hvalid, seen]⟩
  | ok u =>
    obtain ⟨events, hfinite, rfl⟩ := hsettles hvalid
    rcases settle_eq (notBlank_of_valid hvalid) hfinite r with
      ⟨hrefused, e, he⟩ | ⟨-, -, es, -, hsettled⟩
    · exact .inl ⟨.of e, not_ready_of_refused hrefused, by rw [he, seen]⟩
    · exact .inr ⟨es, by rw [hsettled, seen]⟩

theorem isGatewayError_of {code : String} (h : code ≠ "") :
    ModelGateway.IsGatewayError (.of (.modelGatewayError code)) :=
  ⟨_, by rw [GatewayRaised.of, dif_neg h]⟩

theorem isGatewayError_of_usage {pricing : PricingVersion} {response : ModelResponse} {e : Raised}
    (h : actualUsage pricing response reservation = .error e) :
    ModelGateway.IsGatewayError (.of e) := by
  simp only [actualUsage, raiseIf_bind] at h
  split at h
  · cases h
    exact isGatewayError_of (by decide)
  · split at h
    · cases h
      exact isGatewayError_of (by decide)
    · cases h

theorem answers_succeed (ids : ℕ → UUID) (reservation : BudgetReservation)
    (response : ModelResponse) (pricing : PricingVersion) (at' : Timestamp) :
    Answers py c ids r (.succeed reservation response pricing at')
      (seen (succeed py c.context c.request c.lease reservation response pricing at' ids r)).1
      (seen (succeed py c.context c.request c.lease reservation response pricing at' ids r)).2 := by
  have hraised : ∀ e, validateRequestContext c.context c.request c.lease = .error e →
      succeed py c.context c.request c.lease reservation response pricing at' ids r =
        .error e r := fun e he => by rw [succeed, check_bind, he]
  cases husage : actualUsage pricing response reservation with
  | error e =>
    refine answers_check (fun e he => .inl (not_ready_of_context he)) fun _ _ =>
      answers_check (fun e he => .inr (isGatewayError_of_usage he)) fun totals htotals => ?_
    rw [husage] at htotals
    cases htotals
  | ok totals =>
    obtain ⟨rfl, hlimits⟩ := actualUsage_eq_ok.1 husage
    rcases seen_settlement hraised fun hvalid => (succeed_eq_settle py reservation at' ids hvalid
      husage).imp fun _ h => ⟨h.1, h.2.2⟩ with ⟨e, hnot, he⟩ | ⟨es, hes⟩
    · rw [he]
      exact .blocked (.inl hnot)
    · rw [hes]
      refine .settled rfl ?_
      rintro response' pricing' at'' heq
      cases heq
      exact hlimits

theorem answers_recordUsageFailure (ids : ℕ → UUID) (reservation : BudgetReservation)
    (response : ModelResponse) (pricing : PricingVersion) (error : ModelGatewayError)
    (at' : Timestamp) :
    Answers py c ids r (.recordUsageFailure reservation response pricing error at')
      (seen (recordUsageFailure py c.context c.request c.lease reservation response pricing error
        at' ids r)).1
      (seen (recordUsageFailure py c.context c.request c.lease reservation response pricing error
        at' ids r)).2 := by
  rcases seen_settlement (fun e he => by rw [recordUsageFailure, check_bind, he]) fun hvalid =>
    (recordUsageFailure_eq_settle py reservation at' ids hvalid response pricing error).imp
      fun _ h => ⟨h.1, h.2.2⟩ with ⟨e, hnot, he⟩ | ⟨es, hes⟩
  · rw [he]
    exact .blocked hnot
  · rw [hes]
    exact .settled rfl fun _ _ _ h => by cases h

theorem answers_fail (ids : ℕ → UUID) (reservation : BudgetReservation)
    (error : ModelGatewayError) (at' : Timestamp) :
    Answers py c ids r (.fail reservation error at')
      (seen (fail py c.context c.request c.lease reservation error at' ids r)).1
      (seen (fail py c.context c.request c.lease reservation error at' ids r)).2 := by
  rcases seen_settlement (fun e he => by rw [fail, check_bind, he]) fun hvalid =>
    (fail_eq_settle py reservation at' ids hvalid error).imp fun _ h => ⟨h.1, h.2.2⟩ with
    ⟨e, hnot, he⟩ | ⟨es, hes⟩
  · rw [he]
    exact .blocked hnot
  · rw [hes]
    exact .settled rfl fun _ _ _ h => by cases h

/-- An attempt as the call sees it. -/
theorem seen_record {x : Memory Unit}
    (hraised : ∀ e, validateRequestContext c.context c.request c.lease = .error e →
      x r = .error e r)
    (hrecords : validateRequestContext c.context c.request c.lease = .ok () →
      ∃ events : List (DomainEventType × Dict),
        (∀ v ∈ events, JsonValue.isFiniteFields v.2 = true) ∧
        x = record c.request c.lease reservation at' ids events) :
    (∃ e, ¬ Ready c r reservation at' ∧ seen (x r) = (.error e, r)) ∨
    ∃ es, seen (x r) = (.ok (), { r with events := r.events ++ es }) := by
  cases hvalid : validateRequestContext c.context c.request c.lease with
  | error e => exact .inl ⟨.of e, not_ready_of_context hvalid, by rw [hraised e hvalid, seen]⟩
  | ok u =>
    obtain ⟨events, hfinite, rfl⟩ := hrecords hvalid
    rcases record_eq (notBlank_of_valid hvalid) hfinite r with ⟨hrefused, e, he⟩ | ⟨-, -, es, hes⟩
    · exact .inl ⟨.of e, not_ready_of_refused hrefused, by rw [he, seen]⟩
    · exact .inr ⟨es, by rw [hes, seen]⟩

theorem answers_recordAttempt (ids : ℕ → UUID) (reservation : BudgetReservation)
    (model : ModelIdentity) (attempt fallbackIndex : ℕ) (at' : Timestamp) :
    Answers py c ids r (.recordAttempt reservation model attempt fallbackIndex at')
      (seen (recordAttempt c.context c.request c.lease reservation model.provider model.model attempt
        fallbackIndex at' ids r)).1
      (seen (recordAttempt c.context c.request c.lease reservation model.provider model.model attempt
        fallbackIndex at' ids r)).2 := by
  by_cases hargs : (attempt : ℤ) < 1 ∨ (fallbackIndex : ℤ) < 0
  · refine answers_check (fun e he => .inl (not_ready_of_context he)) fun _ _ =>
      answers_check (fun e _ => .inr (by omega)) fun _ hnot => ?_
    exact absurd hargs (raiseIf_eq_ok.1 hnot)
  · rcases seen_record (fun e he => by rw [recordAttempt, check_bind, he]) fun hvalid =>
      recordAttempt_eq_record reservation at' ids hvalid model.provider model.model hargs with
      ⟨e, hnot, he⟩ | ⟨es, hes⟩
    · rw [he]
      exact .blocked (.inl hnot)
    · rw [hes]
      exact .recorded rfl

theorem answers_recordAttemptFailure (ids : ℕ → UUID) (reservation : BudgetReservation)
    (error : ModelGatewayError) (model : ModelIdentity) (attempt fallbackIndex : ℕ)
    (at' : Timestamp) :
    Answers py c ids r (.recordAttemptFailure reservation error model attempt fallbackIndex at')
      (seen (recordAttemptFailure c.context c.request c.lease reservation error model.provider
        model.model attempt fallbackIndex at' ids r)).1
      (seen (recordAttemptFailure c.context c.request c.lease reservation error model.provider
        model.model attempt fallbackIndex at' ids r)).2 := by
  rcases seen_record (fun e he => by rw [recordAttemptFailure, check_bind, he]) fun hvalid =>
    recordAttemptFailure_eq_record reservation at' ids hvalid error model.provider model.model
      attempt fallbackIndex with ⟨e, hnot, he⟩ | ⟨es, hes⟩
  · rw [he]
    exact .blocked hnot
  · rw [hes]
    exact .recorded rfl

theorem answers_completed (ids : ℕ → UUID) (at' : Timestamp) :
    Answers py c ids r (.completed at')
      ((r.completedResponse py c.context c.request c.lease at').mapError .of) r := by
  cases hread : r.completedResponse py c.context c.request c.lease at' with
  | error e => exact .blocked trivial
  | ok x =>
    refine .read fun response hresponse => ?_
    simp only [completedResponse, bind_eq_ok, pure_eq_ok] at hread
    obtain ⟨_, hvalid, _, -, hread⟩ := hread
    rw [(validateRequestContext_eq_ok hvalid).1, hresponse] at hread
    cases hlookup : r.completed.lookup (c.request.tenantId, c.request.idempotencyKey) with
    | none =>
      rw [hlookup] at hread
      cases hread
    | some stored =>
      obtain ⟨digest, response'⟩ := stored
      rw [hlookup] at hread
      dsimp only at hread
      split at hread
      · rename_i hdigest
        cases hread
        rw [hdigest]
      · cases hread

/-- Whoever is admitted has no call in progress, and none that is completed. -/
theorem free_of_admission {request : ModelRequest} {lease : WorkLease} {quotas : QuotaLimits}
    {tokenLimit : ℤ} {costLimitUsd : Decimal}
    (h : r.admission py request lease quotas tokenLimit costLimitUsd at' = .ok ()) :
    r.completed.lookup (request.tenantId, request.idempotencyKey) = none ∧
      r.inflight.lookup (request.tenantId, request.idempotencyKey) = none := by
  simp only [admission, bind_eq_ok] at h
  obtain ⟨_, -, h⟩ := h
  cases hcompleted : r.completed.lookup (request.tenantId, request.idempotencyKey) with
  | some stored =>
    rw [hcompleted] at h
    cases h
  | none =>
    rw [hcompleted] at h
    simp only [bind_eq_ok, raiseIf_eq_ok, Bool.not_eq_true, Option.isSome_eq_false_iff,
      Option.isNone_iff_eq_none] at h
    exact ⟨rfl, h.choose_spec.1⟩

theorem answers_reserve (ids : ℕ → UUID) (route : RouteDecision) (quotas : QuotaLimits)
    (tokenLimit : ℤ) (costLimitUsd : Decimal) (priceVersion : String) (at' : Timestamp) :
    Answers py c ids r (.reserve route quotas tokenLimit costLimitUsd priceVersion at')
      (seen (reserve py c.context c.request c.lease route quotas tokenLimit costLimitUsd priceVersion
        at' ids r)).1
      (seen (reserve py c.context c.request c.lease route quotas tokenLimit costLimitUsd priceVersion
        at' ids r)).2 := by
  rcases reserve_eq py c.context c.request c.lease route quotas tokenLimit costLimitUsd priceVersion
    at' ids r with ⟨e, -, he⟩ | ⟨hcheck, es, -, hok⟩
  · rw [he]
    exact .blocked trivial
  · rw [hok]
    obtain ⟨hvalid, -, -, -, hadmission⟩ := reserveCheck_eq_ok.1 hcheck
    exact .reserved hvalid (free_of_admission hadmission) rfl

/-- **What the repository answers, and what that does to it.** -/
theorem answers {x : Except GatewayRaised op.Reply × MemoryRepository}
    (h : r.answer py c ids op = some x) : Answers py c ids r op x.1 x.2 := by
  cases op with
  | completed at' => cases h; exact answers_completed ids at'
  | reserve => cases h; exact answers_reserve ..
  | recordAttempt => cases h; exact answers_recordAttempt ..
  | recordAttemptFailure => cases h; exact answers_recordAttemptFailure ..
  | succeed => cases h; exact answers_succeed ..
  | recordUsageFailure => cases h; exact answers_recordUsageFailure ..
  | fail => cases h; exact answers_fail ..
  | _ => cases h

end

end MemoryRepository

/-! ## What changes -/

/-- The key of a call. -/
def Completion.key (c : Completion) : String × String :=
  (c.request.tenantId, c.request.idempotencyKey)

namespace ModelGateway

/-- A response that was read. -/
def read? : Exchange → Option ModelResponse
  | ⟨.completed _, .ok response⟩ => response
  | _ => none

/-- What is answered to a call over the repository: the repository answers for itself, and
everything else is answered by whatever it is. -/
inductive Served (py : PyText) (ids : ℕ → UUID) (c : Completion) (r : MemoryRepository) :
    (op : GatewayOp) → Except GatewayRaised op.Reply → MemoryRepository → Prop
  | repository {op : GatewayOp} {a : Except GatewayRaised op.Reply} {r' : MemoryRepository} :
      r.answer py c ids op = some (a, r') → Served py ids c r op a r'
  | other {op : GatewayOp} {a : Except GatewayRaised op.Reply} :
      r.answer py c ids op = none → Served py ids c r op a r

/-- What an answered operation changes in the repository. -/
inductive Changes (py : PyText) (c : Completion) (r : MemoryRepository) :
    Exchange → MemoryRepository → Prop
  | quiet {x : Exchange} {es : List EventEnvelope} : reservation? x = none → settlement? x = none →
      read? x = none → Changes py c r x { r with events := es }
  | read {at' : Timestamp} {response : ModelResponse} :
      r.completed.lookup c.key = some (Gateway.requestContentDigest py c.request, response) →
      Changes py c r ⟨.completed at', .ok (some response)⟩ r
  | opens {x : Exchange} {new : BudgetReservation} {es : List EventEnvelope} :
      reservation? x = some new → new.isActive = true →
      MemoryRepository.validateRequestContext c.context c.request c.lease = .ok () →
      r.inflight.lookup c.key = none → r.completed.lookup c.key = none →
      Changes py c r x { r with
        reservations := r.reservations.set new.reservationId new
        inflight := r.inflight.upsert c.key
          (new.reservationId, Gateway.requestContentDigest py c.request)
        events := es }
  | closes {x : Exchange} {reservation : BudgetReservation} {e : Settlement}
      {state : ReservationState} {es : List EventEnvelope} :
      settlement? x = some (reservation, e) → state ≠ .active →
      Changes py c r x { MemoryRepository.settledBy py r c.request reservation state
        e.response? with events := es }

variable {py : PyText} {ids : ℕ → UUID} {c : Completion} {r r' : MemoryRepository} {op : GatewayOp}
  {a : Except GatewayRaised op.Reply}

theorem settlement?_of_settling? {reservation : BudgetReservation} {state : ReservationState}
    {response : Option ModelResponse} {u : op.Reply}
    (hop : MemoryRepository.settling? op = some (reservation, state, response)) :
    ∃ e : Settlement, settlement? ⟨op, .ok u⟩ = some (reservation, e) ∧ e.response? = response ∧
      state ≠ .active := by
  cases op <;> cases hop <;> exact ⟨_, rfl, rfl, fun h => by cases h⟩

theorem changes_of_error {e : GatewayRaised} : Changes py c r ⟨op, .error e⟩ r := by
  refine .quiet ?_ ?_ ?_ <;> cases op <;> rfl

/-- **An answer changes what it says.** -/
theorem Served.changes (h : Served py ids c r op a r') : Changes py c r ⟨op, a⟩ r' := by
  cases h with
  | other hnone =>
    refine .quiet ?_ ?_ ?_ <;> cases op <;> first | rfl | cases hnone
  | repository hsome =>
    cases MemoryRepository.answers hsome with
    | blocked => exact changes_of_error
    | @read at' x hread =>
      cases x with
      | none => exact .quiet rfl rfl rfl
      | some response => exact .read (hread response rfl)
    | reserved hvalid hfree hnew =>
      exact .opens rfl (by rw [hnew]; rfl) hvalid hfree.2 hfree.1
    | recorded hrecord =>
      refine .quiet ?_ ?_ ?_ <;> cases op <;> first | rfl | cases hrecord
    | settled hsettling =>
      obtain ⟨e, hsettlement, hresponse, hstate⟩ := settlement?_of_settling? hsettling
      subst hresponse
      exact .closes hsettlement hstate

/-! ## What an exchange adds -/

section

variable {h : Calls} {x : Exchange} {r : BudgetReservation}

theorem quiet_of_reservation? (hx : reservation? x = some r) :
    settlement? x = none ∧ read? x = none := by
  obtain ⟨op, a⟩ := x
  cases op <;> cases a <;> first | exact ⟨rfl, rfl⟩ | cases hx

theorem quiet_of_settlement? {p : BudgetReservation × Settlement} (hx : settlement? x = some p) :
    reservation? x = none ∧ read? x = none := by
  obtain ⟨op, a⟩ := x
  cases op <;> cases a <;> first | exact ⟨rfl, rfl⟩ | cases hx

theorem reservations_concat (h : Calls) (x : Exchange) :
    reservations (h ++ [x]) = reservations h ++ (reservation? x).toList := by
  rw [reservations_append]
  refine congrArg (reservations h ++ ·) ?_
  rw [reservations, List.filterMap_cons]
  cases reservation? x <;> rfl

theorem settlements_concat (h : Calls) (x : Exchange) :
    settlements (h ++ [x]) = settlements h ++ (settlement? x).toList := by
  rw [settlements_append]
  refine congrArg (settlements h ++ ·) ?_
  rw [settlements, List.filterMap_cons]
  cases settlement? x <;> rfl

/-- A settlement is told in its turn. -/
theorem told_of_inTurn {g : ModelGateway} {c : Completion} {op : GatewayOp}
    {a : Except GatewayRaised op.Reply} {e : Settlement} (hturn : InTurn g c h op)
    (hs : settlement? ⟨op, a⟩ = some (r, e)) : Told r ⊤ h := by
  cases op <;> cases a <;> cases hs <;> first | exact hturn | exact hturn.1

/-- A reservation is the first that is told. -/
theorem untold_of_inTurn {g : ModelGateway} {c : Completion} {op : GatewayOp}
    {a : Except GatewayRaised op.Reply} (hturn : InTurn g c h op)
    (hr : reservation? ⟨op, a⟩ = some r) : Untold h := by
  have huntold : ∀ x ∈ h, told? x.1 = none ∧ isReserve x.1 = false := by
    cases op <;> cases a <;> cases hr
    exact hturn
  refine ⟨List.filterMap_eq_nil_iff.2 fun x hx => ?_, huntold⟩
  obtain ⟨hentry, hreserve⟩ := huntold x hx
  exact (Neutral.mk hentry hreserve).reservation? x.2

end

/-! ## The calls of a gateway -/

/-- A call under way. -/
abbrev CallClient := Client Completion GatewayOp GatewayOp.Reply GatewayRaised ModelResponse

/-- The calls of a gateway, over one repository. -/
abbrev CallService :=
  Service MemoryRepository Completion GatewayOp GatewayOp.Reply GatewayRaised ModelResponse

/-- Some identifiers are drawn for what is stored. -/
def Serves (py : PyText) (c : Completion) (op : GatewayOp) (r : MemoryRepository)
    (a : Except GatewayRaised op.Reply) (r' : MemoryRepository) : Prop :=
  ∃ ids, Served py ids c r op a r'

/-- `replace_lease`. -/
def Replaces (r r' : MemoryRepository) : Prop :=
  ∃ lease, MemoryRepository.replaceLease lease r = .ok () r'

end ModelGateway

end AegisPlatform
