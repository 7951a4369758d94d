import AegisPlatform.Gateway.Book
import AegisPlatform.System.Calls

/-!
# Calls that admit or settle

`reserve`, `succeed`, `record_usage_failure` and `fail`, of either gateway repository, and
what a call of each comes down to.

* `GatewayCall` — a call; `GatewayCall.memory` and `GatewayCall.postgres` are its programs.
* `GatewayCall.memory_cases` — in memory it is refused, or passes its checks and is applied.
* `GatewayCall.postgres_alone` — with nobody else about it is refused, or does what its
  mutation does.
-/

namespace AegisPlatform

open Fallible Interleave

/-! ## Calls -/

/-- What a call does for its request. -/
inductive GatewayAction where
  | reserve (route : RouteDecision) (quotas : QuotaLimits) (tokenLimit : ℤ) (costLimitUsd : Decimal)
      (priceVersion : String)
  | succeed (reservation : BudgetReservation) (response : ModelResponse) (pricing : PricingVersion)
  | recordUsageFailure (reservation : BudgetReservation) (response : ModelResponse)
      (pricing : PricingVersion) (error : ModelGatewayError)
  | fail (reservation : BudgetReservation) (error : ModelGatewayError)

/-- A call that admits or settles. -/
structure GatewayCall where
  context : TenantContext
  request : ModelRequest
  lease : WorkLease
  action : GatewayAction
  at' : Timestamp
  ids : ℕ → UUID

namespace GatewayCall

variable (py : PyText) (c : GatewayCall)

/-- The call of the in-memory repository. -/
def memory : Memory Unit :=
  match c.action with
  | .reserve route quotas tokenLimit costLimitUsd priceVersion => do
    let _ ← MemoryRepository.reserve py c.context c.request c.lease route quotas tokenLimit
      costLimitUsd priceVersion c.at' c.ids
  | .succeed reservation response pricing =>
    MemoryRepository.succeed py c.context c.request c.lease reservation response pricing c.at' c.ids
  | .recordUsageFailure reservation response pricing error =>
    MemoryRepository.recordUsageFailure py c.context c.request c.lease reservation response pricing
      error c.at' c.ids
  | .fail reservation error =>
    MemoryRepository.fail py c.context c.request c.lease reservation error c.at' c.ids

/-- The call of the PostgreSQL repository. -/
def postgres : Op Unit :=
  match c.action with
  | .reserve route quotas tokenLimit costLimitUsd priceVersion => do
    let _ ← Gateway.reserve py c.context c.request c.lease route quotas tokenLimit costLimitUsd
      priceVersion c.at' c.ids
  | .succeed reservation response pricing =>
    Gateway.succeed py c.context c.request c.lease reservation response pricing c.at' c.ids
  | .recordUsageFailure reservation response pricing error =>
    Gateway.recordUsageFailure py c.context c.request c.lease reservation response pricing error
      c.at' c.ids
  | .fail reservation error =>
    Gateway.fail py c.context c.request c.lease reservation error c.at' c.ids

/-- The cost a call brings in. -/
def cost? : Option Decimal :=
  match c.action with
  | .reserve _ _ _ costLimitUsd _ => some costLimitUsd
  | .succeed _ response pricing | .recordUsageFailure _ response pricing _ =>
    some (usageTotals pricing response).2
  | .fail .. => none

/-- The reservation a call settles. -/
def settles? : Option BudgetReservation :=
  match c.action with
  | .reserve .. => none
  | .succeed reservation .. | .recordUsageFailure reservation .. | .fail reservation _ =>
    some reservation

/-- The tokens a call charges. -/
def charges? : Option ℤ :=
  match c.action with
  | .succeed _ response pricing | .recordUsageFailure _ response pricing _ =>
    some (usageTotals pricing response).1
  | _ => none

end GatewayCall

/-! ## What a call comes down to -/

namespace GatewayCall

variable {py : PyText} {c : GatewayCall}

/-- The reservation a call makes or is given. -/
def reservation (c : GatewayCall) : BudgetReservation :=
  match c.action with
  | .reserve _ _ tokenLimit costLimitUsd priceVersion =>
    Gateway.newReservation c.request tokenLimit costLimitUsd priceVersion (c.ids 0)
  | .succeed reservation .. | .recordUsageFailure reservation .. | .fail reservation _ => reservation

/-- The state it leaves the reservation in. -/
def state (c : GatewayCall) : ReservationState :=
  match c.action with
  | .reserve .. => .active
  | .succeed _ response pricing | .recordUsageFailure _ response pricing _ =>
    .charged (usageTotals pricing response).1 (usageTotals pricing response).2 c.at'
  | .fail .. => .released c.at'

/-- The mutation it commits in PostgreSQL. -/
def mutation (c : GatewayCall) : GatewayMutation :=
  match c.action with
  | .reserve _ quotas .. => .reserve c.request c.lease c.reservation quotas c.at'
  | .succeed reservation response pricing | .recordUsageFailure reservation response pricing _ =>
    .charge c.request c.lease reservation response pricing.version (usageTotals pricing response).1
      (usageTotals pricing response).2 c.at'
  | .fail reservation _ => .release c.request c.lease reservation c.at'

/-- The checks both repositories make of the arguments alone. -/
def check (c : GatewayCall) : Except Raised Unit := do
  Gateway.validate c.context c.request c.lease
  match c.action with
  | .succeed reservation response pricing => do
    let _ ← actualUsage pricing response reservation
  | _ => return ()

/-- A call that fails its checks ends there. -/
theorem postgres_refused {e : Raised} (h : c.check = .error e) : c.postgres py = .raise e := by
  unfold check at h
  unfold postgres
  cases hvalid : Gateway.validate c.context c.request c.lease with
  | error e' =>
    rw [hvalid] at h
    cases h
    cases c.action with
    | reserve => simp only [Gateway.reserve, hvalid]; rfl
    | succeed => simp only [Gateway.succeed, hvalid]; rfl
    | recordUsageFailure => simp only [Gateway.recordUsageFailure, hvalid]; rfl
    | fail => simp only [Gateway.fail, hvalid]; rfl
  | ok u =>
    rw [hvalid] at h
    cases haction : c.action with
    | succeed reservation response pricing =>
      rw [haction] at h
      cases husage : actualUsage pricing response reservation with
      | error e' =>
        simp only [husage] at h
        cases h
        simp only [Gateway.succeed, hvalid, husage]
        rfl
      | ok totals =>
        simp only [husage] at h
        cases h
    | _ =>
      rw [haction] at h
      cases h

theorem check_eq_ok (h : c.check = .ok ()) : Gateway.validate c.context c.request c.lease = .ok () ∧
    ∀ reservation response pricing, c.action = .succeed reservation response pricing →
      actualUsage pricing response reservation = .ok (usageTotals pricing response) := by
  unfold check at h
  rw [bind_eq_ok] at h
  obtain ⟨_, hvalid, h⟩ := h
  refine ⟨hvalid, fun reservation response pricing haction => ?_⟩
  rw [haction] at h
  obtain ⟨totals, htotals, -⟩ := bind_eq_ok.1 h
  rw [htotals, (actualUsage_eq_ok.1 htotals).1]

/-- **A call that passes its checks records its events with its mutation.** -/
theorem postgres_eq (h : c.check = .ok ()) : ∃ values, Gateway.Proper values ∧
    c.postgres py = (Gateway.record py c.context c.request c.lease c.reservation c.at' c.ids values
      (.gateway c.mutation)).bind fun _ => .ret () := by
  obtain ⟨hvalid, husage⟩ := check_eq_ok h
  unfold postgres mutation reservation
  cases haction : c.action with
  | reserve route quotas tokenLimit costLimitUsd priceVersion =>
    obtain ⟨values, hproper, hrecord⟩ := Gateway.reserve_eq_record py c.at' c.ids hvalid route
      quotas tokenLimit costLimitUsd priceVersion
    simp only [hrecord]
    exact ⟨values, hproper, Proc.bind_assoc ..⟩
  | succeed reservation response pricing =>
    obtain ⟨values, hproper, hrecord⟩ := Gateway.succeed_eq_record py c.at' c.ids hvalid
      (husage _ _ _ haction)
    simp only [hrecord]
    exact ⟨values, hproper, (Proc.bind_ret _).symm⟩
  | recordUsageFailure reservation response pricing error =>
    obtain ⟨values, hproper, hrecord⟩ := Gateway.recordUsageFailure_eq_record py reservation c.at'
      c.ids hvalid response pricing error
    simp only [hrecord]
    exact ⟨values, hproper, (Proc.bind_ret _).symm⟩
  | fail reservation error =>
    obtain ⟨values, hproper, hrecord⟩ := Gateway.fail_eq_record py reservation c.at' c.ids hvalid
      error
    simp only [hrecord]
    exact ⟨values, hproper, (Proc.bind_ret _).symm⟩

theorem lawful {w : World} (hw : w.Inv) : Lawful False (c.postgres py) w := by
  unfold postgres
  cases c.action with
  | reserve => exact obeys_bind (Gateway.lawful_reserve hw ..) fun _ _ _ _ => lawful_pure
  | succeed => exact Gateway.lawful_succeed hw ..
  | recordUsageFailure => exact Gateway.lawful_recordUsageFailure hw ..
  | fail => exact Gateway.lawful_fail hw ..

/-- **With nobody else about, a call is refused, or does what its mutation does.** -/
theorem postgres_alone (py : PyText) {w : World} (hw : w.Inv) (hcurrent : w.Current c.lease)
    (htenant : c.lease.tenantId ∈ w.db.tenants) (hids : Set.InjOn c.ids (Set.Iio 5)) :
    ∃ w' r, (c.postgres py).alone AegisPlatform.postgres w = some (w', r) ∧ w'.Inv ∧
      Gateway.Settled w c.mutation w' r ∧ (r.isOk = true → c.check = .ok ()) ∧
      (c.check = .ok () → Gateway.AppendsNew (c.postgres py) w → ∀ db,
        c.mutation.run (fun tenantId => tenantId ∈ w.maintenance) w.db = .ok db → r = .ok ()) := by
  cases hcheck : c.check with
  | error e =>
    rw [postgres_refused hcheck]
    refine ⟨w, .error e, rfl, hw, Or.inl ⟨⟨e, rfl⟩, rfl⟩, fun h => ?_, fun h => ?_⟩
    · cases h
    · cases h
  | ok u =>
    obtain ⟨values, hproper, heq⟩ := (postgres_eq hcheck : ∃ values, _ ∧ c.postgres py = _)
    obtain ⟨w', r, halone, hsettled, hok⟩ := Gateway.record_alone py c.reservation c.at' c.mutation
      ⟨hw.heads, hcurrent, htenant, (check_eq_ok hcheck).1, hids, hproper⟩
    have hcall : (c.postgres py).alone AegisPlatform.postgres w = some (w', r) := by
      rw [heq, Proc.alone_bind, halone]
      cases r <;> rfl
    refine ⟨w', r, hcall, hw.moves (obeys_alone (lawful hw) hcall), hsettled, fun _ => rfl,
      fun _ hnew db hrun => hok ?_ db hrun⟩
    intro tx a ha
    refine hnew tx a ?_
    rw [heq]
    exact Proc.mem_commitsAlone_bind _ ha

/-! ### In memory -/

/-- What the in-memory repository remembers of a settled call. -/
def response? (c : GatewayCall) : Option ModelResponse :=
  match c.action with
  | .succeed _ response _ => some response
  | _ => none

/-- What the in-memory repository checks. -/
def Admissible (py : PyText) (c : GatewayCall) (r : MemoryRepository) : Prop :=
  c.check = .ok () ∧ match c.action with
    | .reserve _ quotas tokenLimit costLimitUsd priceVersion =>
      1 ≤ tokenLimit ∧ 0 ≤ costLimitUsd ∧ priceVersion ≠ "" ∧
        r.admission py c.request c.lease quotas tokenLimit costLimitUsd c.at' = .ok ()
    | .succeed reservation .. | .recordUsageFailure reservation .. | .fail reservation _ =>
      r.requireActive reservation = .ok () ∧ r.requireFence c.lease c.at' = .ok ()

/-- What it then becomes, but for its events. -/
def applied (py : PyText) (c : GatewayCall) (r : MemoryRepository) : MemoryRepository :=
  match c.action with
  | .reserve _ _ tokenLimit costLimitUsd priceVersion =>
    { r with
      reservations := r.reservations.set (c.ids 0) (MemoryRepository.newReservation c.request c.lease
        tokenLimit costLimitUsd priceVersion c.at' (c.ids 0))
      inflight := r.inflight.upsert (c.request.tenantId, c.request.idempotencyKey)
        (c.ids 0, Gateway.requestContentDigest py c.request) }
  | .succeed reservation .. | .recordUsageFailure reservation .. | .fail reservation _ =>
    r.settledBy py c.request reservation c.state c.response?

theorem validateRequestContext_iff {context : TenantContext} {request : ModelRequest}
    {lease : WorkLease} : MemoryRepository.validateRequestContext context request lease = .ok () ↔
      Gateway.validate context request lease = .ok () := by
  simp only [MemoryRepository.validateRequestContext, Gateway.validate, bind_eq_ok, raiseIf_eq_ok,
    not_or, not_not]
  constructor
  · rintro ⟨_, ⟨hrequest, hlease⟩, hrun⟩
    exact ⟨hrequest, hrequest.symm.trans hlease, hrun⟩
  · rintro ⟨hrequest, hlease, hrun⟩
    exact ⟨(), ⟨hrequest, hrequest.trans hlease⟩, hrun⟩

variable {r : MemoryRepository}

theorem settles_eq_none (h : c.settles? = none) :
    ∃ route quotas tokenLimit costLimitUsd priceVersion,
      c.action = .reserve route quotas tokenLimit costLimitUsd priceVersion := by
  unfold settles? at h
  cases haction : c.action with
  | reserve => exact ⟨_, _, _, _, _, rfl⟩
  | _ =>
    rw [haction] at h
    cases h

theorem validateRequestContext_error {context : TenantContext} {request : ModelRequest}
    {lease : WorkLease} {e : Raised} (h : Gateway.validate context request lease = .error e) :
    ∃ e, MemoryRepository.validateRequestContext context request lease = .error e := by
  cases hvalid : MemoryRepository.validateRequestContext context request lease with
  | error e' => exact ⟨e', rfl⟩
  | ok u =>
    rw [validateRequestContext_iff.1 hvalid] at h
    cases h

/-- The state a settlement leaves the reservation in. -/
theorem state_of_settles {reservation : BudgetReservation} (h : c.settles? = some reservation) :
    c.state ≠ .active ∧ ∀ tokens cost at', c.state = .charged tokens cost at' →
      c.cost? = some cost ∧ 0 ≤ cost ∧ 0 ≤ tokens := by
  have hcharged : ∀ (response : ModelResponse) (pricing : PricingVersion) (state : ReservationState),
      state = .charged (usageTotals pricing response).1 (usageTotals pricing response).2 c.at' →
      state ≠ .active ∧ ∀ tokens cost at', state = .charged tokens cost at' →
        some (usageTotals pricing response).2 = some cost ∧ 0 ≤ cost ∧ 0 ≤ tokens := by
    rintro response pricing _ rfl
    refine ⟨fun h => (by cases h), fun tokens cost at' h => ?_⟩
    cases h
    exact ⟨rfl, pricing.cost_nonneg response.usage, response.usage.billableTokens_nonneg⟩
  unfold settles? at h
  unfold state cost?
  cases haction : c.action with
  | reserve =>
    rw [haction] at h
    cases h
  | succeed reservation' response pricing => exact hcharged response pricing _ rfl
  | recordUsageFailure reservation' response pricing error => exact hcharged response pricing _ rfl
  | fail => exact ⟨fun h => (by cases h), fun _ _ _ h => (by cases h)⟩

theorem state_of_response {response : ModelResponse} (h : c.response? = some response)
    (at' : Timestamp) : c.state ≠ .released at' := by
  unfold response? at h
  unfold state
  cases haction : c.action with
  | succeed => exact fun h => (by cases h)
  | _ =>
    rw [haction] at h
    cases h

/-- A settlement raises, or gets as far as the repository. -/
theorem memory_settles (py : PyText) {reservation : BudgetReservation}
    (h : c.settles? = some reservation) (hcheck : c.check = .ok ()) :
    ∃ events : List (DomainEventType × Dict),
      (∀ v ∈ events, JsonValue.isFiniteFields v.2 = true) ∧
      c.memory py = MemoryRepository.settle py c.request c.lease reservation c.state c.response? c.at'
        c.ids events := by
  obtain ⟨hvalid, husage⟩ := check_eq_ok hcheck
  rw [← validateRequestContext_iff] at hvalid
  unfold memory state response?
  unfold settles? at h
  cases haction : c.action with
  | reserve =>
    rw [haction] at h
    cases h
  | succeed reservation' response pricing =>
    rw [haction] at h
    cases h
    obtain ⟨events, hfinite, -, hsettle⟩ := MemoryRepository.succeed_eq_settle py reservation c.at'
      c.ids hvalid (husage _ _ _ haction)
    exact ⟨events, hfinite, hsettle⟩
  | recordUsageFailure reservation' response pricing error =>
    rw [haction] at h
    cases h
    obtain ⟨events, hfinite, -, hsettle⟩ := MemoryRepository.recordUsageFailure_eq_settle py
      reservation c.at' c.ids hvalid response pricing error
    exact ⟨events, hfinite, hsettle⟩
  | fail reservation' error =>
    rw [haction] at h
    cases h
    obtain ⟨events, hfinite, -, hsettle⟩ := MemoryRepository.fail_eq_settle py reservation c.at'
      c.ids hvalid error
    exact ⟨events, hfinite, hsettle⟩

/-- A call that fails its checks ends there. -/
theorem memory_refused (py : PyText) {e : Raised} (h : c.check = .error e) (r : MemoryRepository) :
    ∃ e, c.memory py r = .error e r := by
  unfold check at h
  unfold memory
  cases hvalid : Gateway.validate c.context c.request c.lease with
  | error e' =>
    obtain ⟨e', hvalid'⟩ := validateRequestContext_error hvalid
    refine ⟨e', ?_⟩
    cases c.action with
    | reserve => simp only [MemoryRepository.reserve, hvalid']; rfl
    | succeed => simp only [MemoryRepository.succeed, hvalid']; rfl
    | recordUsageFailure => simp only [MemoryRepository.recordUsageFailure, hvalid']; rfl
    | fail => simp only [MemoryRepository.fail, hvalid']; rfl
  | ok u =>
    rw [hvalid] at h
    cases haction : c.action with
    | succeed reservation response pricing =>
      rw [haction] at h
      cases husage : actualUsage pricing response reservation with
      | error e' =>
        simp only [MemoryRepository.succeed, validateRequestContext_iff.2 hvalid, husage]
        exact ⟨e', rfl⟩
      | ok totals =>
        simp only [husage] at h
        cases h
    | _ =>
      rw [haction] at h
      cases h

theorem admissible_settles {reservation : BudgetReservation} (h : c.settles? = some reservation) :
    (c.Admissible py r ↔ c.check = .ok () ∧ r.requireActive reservation = .ok () ∧
      r.requireFence c.lease c.at' = .ok ()) ∧
    c.applied py r = r.settledBy py c.request reservation c.state c.response? := by
  unfold Admissible applied
  unfold settles? at h
  cases haction : c.action with
  | reserve =>
    rw [haction] at h
    cases h
  | _ =>
    rw [haction] at h
    cases h
    exact ⟨Iff.rfl, rfl⟩

/-- **In memory a call is refused and changes nothing, or passes its checks and is applied.** -/
theorem memory_cases (py : PyText) (c : GatewayCall) (r : MemoryRepository) :
    (¬ c.Admissible py r ∧ ∃ e, c.memory py r = .error e r) ∨
    (c.Admissible py r ∧
      ∃ es, c.memory py r = .ok () { c.applied py r with events := r.events ++ es }) := by
  cases hcheck : c.check with
  | error e =>
    refine Or.inl ⟨fun h => ?_, memory_refused py hcheck r⟩
    have hok := h.1
    rw [hcheck] at hok
    cases hok
  | ok u =>
    have hvalid := validateRequestContext_iff.2 (check_eq_ok hcheck).1
    cases hsettles : c.settles? with
    | none =>
      obtain ⟨route, quotas, tokenLimit, costLimitUsd, priceVersion, haction⟩ := settles_eq_none hsettles
      unfold Admissible memory applied
      rw [haction]
      rcases MemoryRepository.reserve_eq py c.context c.request c.lease route quotas tokenLimit
        costLimitUsd priceVersion c.at' c.ids r with ⟨e, hrefused, he⟩ | ⟨hchecked, es, -, hok⟩
      · refine Or.inl ⟨fun h => ?_, e, MemoryRepository.bind_error he⟩
        rw [MemoryRepository.reserveCheck_eq_ok (u := ()) |>.2 ⟨hvalid, h.2⟩] at hrefused
        cases hrefused
      · exact Or.inr ⟨⟨hcheck, (MemoryRepository.reserveCheck_eq_ok.1 hchecked).2⟩, es,
          MemoryRepository.bind_ok hok⟩
    | some reservation =>
      obtain ⟨hadmissible, happlied⟩ := @admissible_settles py c r reservation hsettles
      obtain ⟨events, hfinite, hsettle⟩ := memory_settles py hsettles hcheck
      rw [hsettle, happlied, hadmissible]
      rcases MemoryRepository.settle_eq (MemoryRepository.notBlank_of_valid hvalid) hfinite r
        with ⟨hrefused, he⟩ | ⟨hactive, hfence, es, -, hes⟩
      · refine Or.inl ⟨fun h => ?_, he⟩
        rcases hrefused with hrefused | hrefused
        · exact hrefused h.2.1
        · exact hrefused h.2.2
      · exact Or.inr ⟨⟨hcheck, hactive, hfence⟩, es, hes⟩

end GatewayCall

end AegisPlatform
