import AegisPlatform.Gateway.Memory
import AegisPlatform.Lib.Account
import AegisPlatform.System.Reservations

/-!
# The budgets of the in-memory repository

A `Session` is the repository with what its callers remember: the reservations
they were given and the latest instant they passed.  For tokens and for cost
alike, the reservations of a tenant, or of one run of it, are an account
(`Meter.entry`), and the four limits that `reserve` enforces keep it covered.

* `Meter.Sound` — every account in force is covered; `Meter.Sound.step` is its
  preservation by every call.
* `memory_budget_safe` — the four limits hold in every session: the token limits
  always, the cost limits where 28 digits are enough to compute with.
-/

namespace AegisPlatform

open Fallible

/-! ## Sessions -/

/-- The repository and what its callers remember. -/
structure Session where
  repository : MemoryRepository
  /-- The latest `at`. -/
  latest : Option Timestamp := none
  /-- The requests that were reserved for, with the reservations they got. -/
  returned : List (ModelRequest × BudgetReservation) := []

/-- The cost a call brings in, of a tenant: the limit of a reservation, or a charge. -/
def MemoryCall.cost? : MemoryCall → Option (String × Decimal)
  | reserve _ request _ _ _ _ costLimitUsd _ _ _ => some (request.tenantId, costLimitUsd)
  | succeed _ _ _ reservation response pricing _ _ |
    recordUsageFailure _ _ _ reservation response pricing _ _ _ =>
    some (reservation.tenantId, (usageTotals pricing response).2)
  | _ => none

namespace Session

/-- A session that starts with the given active leases. -/
def initial (activeLeases : List WorkLease) : Session where
  repository := .initial activeLeases

/-- One call. -/
def step (py : PyText) (s : Session) (c : MemoryCall) : Session :=
  let latest := c.at? <|> s.latest
  match c.exec py s.repository with
  | .ok result repository =>
    { repository := repository
      latest := latest
      returned := match c.reserving?, result with
        | some request, some reservation => (request, reservation) :: s.returned
        | _, _ => s.returned }
  | .error _ repository => { s with repository := repository, latest := latest }

/-- The calls of well-behaved callers: a tenant's reservations are checked against
the same quotas, time does not go back, a settlement passes the request and the
reservation `reserve` returned for it, and `uuid_factory` repeats no
reservation's identifier. -/
structure Fair (q : String → QuotaLimits) (s : Session) (c : MemoryCall) : Prop where
  ordered : ∀ t ∈ s.latest, ∀ t' ∈ c.at?, t ≤ t'
  settles : ∀ request reservation state, c.settlement? = some (request, reservation, state) →
    (request, reservation) ∈ s.returned
  reserves : ∀ context request lease route quotas tokenLimit costLimitUsd priceVersion at' ids,
    c = .reserve context request lease route quotas tokenLimit costLimitUsd priceVersion at' ids →
    quotas = q request.tenantId ∧ s.repository.reservations.lookup (ids 0) = none

/-- The sessions that calls meeting a condition lead to. -/
inductive Reaches (py : PyText) (Meets : Session → MemoryCall → Prop) : Session → Session → Prop
  | refl (s : Session) : Reaches py Meets s s
  | tail {s t : Session} {c : MemoryCall} : Reaches py Meets s t → Meets t c →
      Reaches py Meets s (t.step py c)

end Session

/-! ## Amounts -/

/-- The amounts of a reservation are not negative. -/
structure BudgetReservation.Valid (item : BudgetReservation) : Prop where
  tokenLimit : 0 ≤ item.tokenLimit
  chargedTokens : 0 ≤ item.chargedTokens
  costLimitUsd : 0 ≤ item.costLimitUsd
  chargedCostUsd : 0 ≤ item.chargedCostUsd

/-- What a reservation counts in, and the limit on it: per run, or per tenant and
period. -/
structure Meter (M : Type) [Zero M] [LE M] where
  limit : BudgetReservation → M
  charge : BudgetReservation → M
  quota : QuotaLimits → Option UUID → M
  limit_state : ∀ item state, limit { item with state := state } = limit item
  limit_nonneg : ∀ item : BudgetReservation, item.Valid → 0 ≤ limit item
  charge_nonneg : ∀ item : BudgetReservation, item.Valid → 0 ≤ charge item

/-- Tokens. -/
def tokenMeter : Meter ℤ where
  limit item := item.tokenLimit
  charge item := item.chargedTokens
  quota q runId := if runId.isSome then q.maxRunTokens else q.maxTenantTokensPerPeriod
  limit_state _ _ := rfl
  limit_nonneg _ h := h.tokenLimit
  charge_nonneg _ h := h.chargedTokens

/-- Cost in US dollars. -/
def costMeter : Meter ℚ where
  limit item := item.costLimitUsd
  charge item := item.chargedCostUsd
  quota q runId := if runId.isSome then q.maxRunCostUsd else q.maxTenantCostUsdPerPeriod
  limit_state _ _ := rfl
  limit_nonneg _ h := h.costLimitUsd
  charge_nonneg _ h := h.chargedCostUsd

/-- From when on charges count at an instant: for a tenant from the start of the billing
period, for a run from ever. -/
def periodStart (now : Timestamp) : Option UUID → Option Timestamp
  | some _ => none
  | none => some (Calendar.monthStart now)

/-- What is active and what was charged, of a tenant or of one run of it, stays within
a limit, the overage of those charges apart. -/
def MemoryRepository.Within {M : Type} [AddCommGroup M] [LinearOrder M] (r : MemoryRepository)
    (m : Meter M) (tenantId : String) (runId : Option UUID) (since : Option Timestamp)
    (limit : M) : Prop :=
  ((r.active tenantId runId).map m.limit).sum + ((r.charged tenantId runId since).map m.charge).sum ≤
    limit + ((r.charged tenantId runId since).map fun item =>
      max 0 (m.charge item - m.limit item)).sum

namespace Meter

variable {M : Type} [AddCommGroup M] [LinearOrder M]

/-- A reservation as an entry of the account of a tenant or of one run of it, in which
charges count from an instant on. -/
def entry (m : Meter M) (tenantId : String) (runId : Option UUID) (since : Option Timestamp)
    (item : BudgetReservation) : Account.Entry M :=
  if item.tenantId = tenantId && runId.all (item.runId = ·) then
    if item.isActive then .held (m.limit item)
    else if item.isChargedSince since then .spent (m.limit item) (m.charge item)
    else .free
  else .free

/-- The account. -/
def account (m : Meter M) (tenantId : String) (runId : Option UUID) (since : Option Timestamp)
    (r : MemoryRepository) : List (Account.Entry M) :=
  r.reservations.values.map (m.entry tenantId runId since)

theorem not_charged_of_active {item : BudgetReservation} {since : Option Timestamp}
    (h : item.isActive = true) : item.isChargedSince since = false := by
  simp only [BudgetReservation.isActive, decide_eq_true_eq] at h
  rw [BudgetReservation.isChargedSince, h]

/-- What the account counts is what the code sums up. -/
theorem total_account (m : Meter M) (tenantId : String) (runId : Option UUID)
    (since : Option Timestamp) (r : MemoryRepository) :
    Account.total (m.account tenantId runId since r) =
      ((r.active tenantId runId).map m.limit).sum +
        ((r.charged tenantId runId since).map m.charge).sum := by
  unfold account Account.total MemoryRepository.active MemoryRepository.charged
  rw [List.map_map, Account.sum_filter, Account.sum_filter, ← List.sum_map_add]
  congr 1
  refine List.map_congr_left fun item _ => ?_
  rw [Function.comp_apply, entry]
  by_cases hscope : (item.tenantId = tenantId && runId.all (item.runId = ·)) = true
  · by_cases hactive : item.isActive = true
    · simp [hscope, hactive, not_charged_of_active hactive, Account.Entry.amount]
    · by_cases hcharged : item.isChargedSince since = true
      · simp [hscope, hactive, hcharged, Account.Entry.amount]
      · simp [hscope, hactive, hcharged, Account.Entry.amount]
  · simp [hscope, Account.Entry.amount]

theorem overage_account (m : Meter M) (tenantId : String) (runId : Option UUID)
    (since : Option Timestamp) (r : MemoryRepository) :
    Account.overage (m.account tenantId runId since r) =
      ((r.charged tenantId runId since).map fun item =>
        max 0 (m.charge item - m.limit item)).sum := by
  unfold account Account.overage MemoryRepository.charged
  rw [List.map_map, Account.sum_filter]
  congr 1
  refine List.map_congr_left fun item _ => ?_
  rw [Function.comp_apply, entry]
  by_cases hscope : (item.tenantId = tenantId && runId.all (item.runId = ·)) = true
  · by_cases hactive : item.isActive = true
    · simp [hscope, hactive, not_charged_of_active hactive, Account.Entry.overage]
    · by_cases hcharged : item.isChargedSince since = true
      · simp [hscope, hactive, hcharged, Account.Entry.overage]
      · simp [hscope, hactive, hcharged, Account.Entry.overage]
  · simp [hscope, Account.Entry.overage]

theorem within_iff {m : Meter M} {tenantId : String} {runId : Option UUID}
    {since : Option Timestamp} {limit : M} {r : MemoryRepository} :
    r.Within m tenantId runId since limit ↔
      Account.Covered limit (m.account tenantId runId since r) := by
  unfold MemoryRepository.Within Account.Covered
  rw [total_account, overage_account]

variable [IsOrderedAddMonoid M]

theorem weight_entry_nonneg (m : Meter M) (tenantId : String) (runId : Option UUID)
    (since : Option Timestamp) {item : BudgetReservation} (h : item.Valid) :
    0 ≤ (m.entry tenantId runId since item).weight := by
  unfold entry
  split
  · split
    · rw [Account.Entry.weight_held]
      exact m.limit_nonneg item h
    · split
      · rw [Account.Entry.weight_spent]
        exact le_min (m.limit_nonneg item h) (m.charge_nonneg item h)
      · rw [Account.Entry.weight_free]
  · rw [Account.Entry.weight_free]

/-- A charge that counts later counts now. -/
theorem isChargedSince_of_le {now now' : Timestamp} (hle : now ≤ now') {runId : Option UUID}
    {item : BudgetReservation} (h : item.isChargedSince (periodStart now' runId) = true) :
    item.isChargedSince (periodStart now runId) = true := by
  cases runId with
  | some run => exact h
  | none =>
    unfold BudgetReservation.isChargedSince at *
    split at h
    · simp only [periodStart, Option.all_some, decide_eq_true_eq] at h ⊢
      exact (Calendar.monthStart_mono hle).trans h
    · cases h

/-- As time goes on charges go out of scope. -/
theorem weight_entry_le (m : Meter M) (tenantId : String) (runId : Option UUID)
    {now now' : Timestamp} (hle : now ≤ now') {item : BudgetReservation} (h : item.Valid) :
    (m.entry tenantId runId (periodStart now' runId) item).weight ≤
      (m.entry tenantId runId (periodStart now runId) item).weight := by
  by_cases hcharged : item.isChargedSince (periodStart now' runId) = true
  · rw [entry, entry, hcharged, isChargedSince_of_le hle hcharged]
  · by_cases hactive : item.isActive = true
    · rw [entry, entry, hactive, if_pos rfl, if_pos rfl]
    · have hfree : m.entry tenantId runId (periodStart now' runId) item = .free := by
        simp [entry, hcharged, hactive]
      rw [hfree, Account.Entry.weight_free]
      exact weight_entry_nonneg m tenantId runId _ h

/-- A settlement makes an entry no heavier. -/
theorem weight_entry_settle (m : Meter M) (tenantId : String) (runId : Option UUID)
    (since : Option Timestamp) {item : BudgetReservation} (h : item.Valid)
    (hactive : item.isActive = true) {state : ReservationState} (hstate : state ≠ .active) :
    (m.entry tenantId runId since { item with state := state }).weight ≤
      (m.entry tenantId runId since item).weight := by
  have hsettled : BudgetReservation.isActive { item with state := state } = false := by
    simp [BudgetReservation.isActive, hstate]
  by_cases hscope : (item.tenantId = tenantId && runId.all (item.runId = ·)) = true
  · have hold : m.entry tenantId runId since item = .held (m.limit item) := by
      rw [entry, if_pos hscope, if_pos hactive]
    rw [hold, Account.Entry.weight_held, entry, if_pos hscope, hsettled]
    simp only [Bool.false_eq_true, if_false]
    split
    · rw [Account.Entry.weight_spent, m.limit_state]
      exact min_le_left _ _
    · rw [Account.Entry.weight_free]
      exact m.limit_nonneg item h
  · rw [entry, entry, if_neg hscope, if_neg hscope]

end Meter

/-! ## What a call keeps -/

/-- An instant that is not before any call. -/
def Session.NotBefore (s : Session) (now : Timestamp) : Prop := ∀ t ∈ s.latest, t ≤ now

/-- From the latest call on the account of a tenant, or of one run of it, is covered. -/
def Meter.Sound {M : Type} [AddCommGroup M] [LinearOrder M] (m : Meter M) (quotas : QuotaLimits)
    (tenantId : String) (runId : Option UUID) (s : Session) : Prop :=
  ∀ now, s.NotBefore now → Account.Covered (m.quota quotas runId)
    (m.account tenantId runId (periodStart now runId) s.repository)

/-- What callers were given is what is stored, for as long as it is active. -/
def Session.Held (s : Session) : Prop :=
  ∀ p ∈ s.returned, ∃ current, s.repository.reservations.lookup p.2.reservationId = some current ∧
    (current.isActive = true → current = p.2)

/-- The amounts are not negative, and what callers were given is what is stored, for as
long as it is active. -/
structure Session.Wf (s : Session) : Prop where
  valid : ∀ item ∈ s.repository.reservations.values, item.Valid
  returned : ∀ p ∈ s.returned, ∃ current,
    s.repository.reservations.lookup p.2.reservationId = some current ∧
      (current.isActive = true → current = p.2)

namespace Session.Held

variable {s t : Session}

theorem kept (h : s.Held) (hkept : t.repository.reservations = s.repository.reservations)
    (hreturned : t.returned = s.returned) : t.Held := by
  unfold Held
  rw [hkept, hreturned]
  exact h

theorem reserved (h : s.Held) {request : ModelRequest} {new : BudgetReservation}
    (hfresh : s.repository.reservations.lookup new.reservationId = none)
    (hset : t.repository.reservations = s.repository.reservations.set new.reservationId new)
    (hreturned : t.returned = (request, new) :: s.returned) : t.Held := by
  intro p hp
  rw [hreturned, List.mem_cons] at hp
  simp only [hset, Assoc.lookup_set]
  rcases hp with rfl | hp
  · exact ⟨new, by rw [if_pos rfl], fun _ => rfl⟩
  · obtain ⟨current, hcurrent, hsame⟩ := h p hp
    have hne : p.2.reservationId ≠ new.reservationId := by
      intro heq
      rw [heq, hfresh] at hcurrent
      cases hcurrent
    exact ⟨current, by rw [if_neg hne]; exact hcurrent, hsame⟩

theorem settled (h : s.Held) {item : BudgetReservation} {state : ReservationState}
    (hstate : state ≠ .active)
    (hset : t.repository.reservations = s.repository.reservations.set item.reservationId
      { item with state := state })
    (hreturned : t.returned = s.returned) : t.Held := by
  intro p hp
  obtain ⟨current, hcurrent, hsame⟩ := h p (hreturned ▸ hp)
  simp only [hset, Assoc.lookup_set]
  by_cases heq : p.2.reservationId = item.reservationId
  · refine ⟨{ item with state := state }, by rw [if_pos heq], fun hactive => ?_⟩
    simp [BudgetReservation.isActive, hstate] at hactive
  · exact ⟨current, by rw [if_neg heq]; exact hcurrent, hsame⟩

end Session.Held

namespace Session

variable {py : PyText} {q : String → QuotaLimits} {s : Session} {c : MemoryCall}

theorem settlement_state {request : ModelRequest} {reservation : BudgetReservation}
    {state : ReservationState} (h : c.settlement? = some (request, reservation, state)) :
    state ≠ .active ∧ ∀ item : BudgetReservation, item.Valid →
      BudgetReservation.Valid { item with state := state } := by
  have hcharged : ∀ (pricing : PricingVersion) (response : ModelResponse) (at' : Timestamp)
      (item : BudgetReservation), item.Valid → BudgetReservation.Valid { item with
        state := .charged (usageTotals pricing response).1 (usageTotals pricing response).2 at' } :=
    fun pricing response at' item hitem =>
      ⟨hitem.tokenLimit, response.usage.billableTokens_nonneg, hitem.costLimitUsd,
        pricing.cost_nonneg response.usage⟩
  cases c with
  | succeed =>
    cases h
    exact ⟨by simp, hcharged _ _ _⟩
  | recordUsageFailure =>
    cases h
    exact ⟨by simp, hcharged _ _ _⟩
  | fail =>
    cases h
    exact ⟨by simp, fun item hitem => ⟨hitem.tokenLimit, le_rfl, hitem.costLimitUsd, le_rfl⟩⟩
  | _ => cases h

theorem latest_step : (s.step py c).latest = (c.at? <|> s.latest) := by
  unfold step
  split <;> rfl

theorem NotBefore.of_step (hfair : s.Fair q c) {now : Timestamp}
    (h : (s.step py c).NotBefore now) : s.NotBefore now := by
  intro t ht
  rw [NotBefore, latest_step] at h
  cases hat : c.at? with
  | none =>
    rw [hat] at h
    exact h t ht
  | some at' =>
    rw [hat] at h
    exact (hfair.ordered t ht at' hat).trans (h at' rfl)

/-- What a fair call makes of a session. -/
inductive Becomes (py : PyText) (q : String → QuotaLimits) (s : Session) (c : MemoryCall) :
    Session → Prop
  /-- The reservations stay as they are. -/
  | kept {t : Session} : t.repository.reservations = s.repository.reservations →
      t.returned = s.returned → Becomes py q s c t
  /-- A reservation is admitted under an identifier that is new. -/
  | reserved {request : ModelRequest} {lease : WorkLease} {tokenLimit : ℤ} {costLimitUsd : Decimal}
      {priceVersion : String} {at' : Timestamp} {id : UUID} {new : BudgetReservation} {t : Session} :
      new = MemoryRepository.newReservation request lease tokenLimit costLimitUsd priceVersion at'
        id → new.Valid → c.at? = some at' →
      c.cost? = some (new.tenantId, new.costLimitUsd) →
      s.repository.admission py request lease (q request.tenantId) tokenLimit costLimitUsd at' = .ok () →
      s.repository.reservations.lookup id = none →
      t.repository.reservations = s.repository.reservations.set id new →
      t.returned = (request, new) :: s.returned → Becomes py q s c t
  /-- A reservation that is stored and active is settled. -/
  | settled {request : ModelRequest} {item : BudgetReservation} {state : ReservationState}
      {t : Session} : c.settlement? = some (request, item, state) →
      s.repository.reservations.lookup item.reservationId = some item → item.isActive = true →
      t.repository.reservations = s.repository.reservations.set item.reservationId
        { item with state := state } →
      t.returned = s.returned → Becomes py q s c t

/-- **Every fair call is one of the three.** -/
theorem Wf.becomes (hwf : s.Wf) (hfair : s.Fair q c) (py : PyText) :
    s.Becomes py q c (s.step py c) := by
  have hdoes := c.does py s.repository
  generalize hexec : c.exec py s.repository = result at hdoes
  cases hdoes with
  | refused => exact .kept (by rw [step, hexec]) (by rw [step, hexec])
  | kept hreserving _ hkept =>
    refine .kept (by rw [step, hexec]; exact hkept) ?_
    rw [step, hexec, hreserving]
  | reserved htokens hcost hadmission hnew hset =>
    obtain ⟨rfl, hfresh⟩ := hfair.reserves _ _ _ _ _ _ _ _ _ _ rfl
    refine .reserved hnew ?_ rfl (by rw [hnew]; rfl) hadmission hfresh (by rw [step, hexec]; exact hset)
      (by rw [step, hexec]; rfl)
    rw [hnew]
    exact ⟨zero_le_one.trans htokens, le_rfl, hcost, le_rfl⟩
  | settled hc hcurrent hactive hset =>
    -- what is active is what the caller was given
    obtain ⟨current, hlookup, hsame⟩ := hwf.returned _ (hfair.settles _ _ _ hc)
    rw [hcurrent] at hlookup
    cases hlookup
    cases hsame hactive
    refine .settled hc hcurrent hactive (by rw [step, hexec]; exact hset) ?_
    rw [step, hexec]
    cases c.reserving? <;> rfl

/-- A fact about every reservation that is stored: new ones have it, and settled ones
keep it. -/
theorem Becomes.forall_values {P : BudgetReservation → Prop} {t : Session}
    (h : s.Becomes py q c t) (hP : ∀ item ∈ s.repository.reservations.values, P item)
    (hnew : ∀ new : BudgetReservation, new.Valid → new.isActive = true →
      c.cost? = some (new.tenantId, new.costLimitUsd) → P new)
    (hsettle : ∀ request item state, c.settlement? = some (request, item, state) → P item →
      P { item with state := state }) :
    ∀ item ∈ t.repository.reservations.values, P item := by
  intro item hitem
  cases h with
  | kept hkept _ =>
    rw [hkept] at hitem
    exact hP item hitem
  | reserved hdef hvalid _ hcost _ hfresh hset _ =>
    rw [hset, Assoc.values_set_new hfresh, List.mem_append, List.mem_singleton] at hitem
    rcases hitem with hitem | rfl
    · exact hP item hitem
    · exact hnew item hvalid (by rw [hdef]; rfl) hcost
  | settled hc hlookup hactive hset _ =>
    obtain ⟨left, right, hold, hnow⟩ := Assoc.values_set hlookup _
    rw [hset, hnow, List.mem_append, List.mem_cons] at hitem
    rw [hold] at hP
    rcases hitem with hitem | rfl | hitem
    · exact hP item (List.mem_append_left _ hitem)
    · exact hsettle _ _ _ hc (hP _ (by simp))
    · exact hP item (List.mem_append_right _ (List.mem_cons_of_mem _ hitem))

/-- **Every fair call keeps a session well-formed.** -/
theorem Wf.step (hwf : s.Wf) (hfair : s.Fair q c) (py : PyText) : (s.step py c).Wf := by
  have hbecomes := hwf.becomes hfair py
  refine ⟨hbecomes.forall_values hwf.valid (fun new hvalid _ _ => hvalid)
    (fun request item state hc hvalid => (settlement_state hc).2 item hvalid), ?_⟩
  have hheld : s.Held := hwf.returned
  cases hbecomes with
  | kept hkept hreturned => exact hheld.kept hkept hreturned
  | reserved hdef _ _ _ _ hfresh hset hreturned =>
    subst hdef
    exact hheld.reserved hfresh hset hreturned
  | settled hc _ _ hset hreturned => exact hheld.settled (settlement_state hc).1 hset hreturned

theorem Wf.initial (activeLeases : List WorkLease) : (initial activeLeases).Wf :=
  ⟨fun _ h => absurd h List.not_mem_nil, fun _ h => absurd h List.not_mem_nil⟩

end Session

/-! ## Accounts stay covered -/

namespace Meter

section

variable {M : Type} [AddCommGroup M] [LinearOrder M]

/-- A new reservation fits with everything its tenant, or its run, is counted for. -/
def Admits (m : Meter M) (quotas : QuotaLimits) (runId : Option UUID) (r : MemoryRepository)
    (new : BudgetReservation) (at' : Timestamp) : Prop :=
  Account.total (m.account new.tenantId runId (periodStart at' runId) r) + m.limit new ≤
    m.quota quotas runId

theorem entry_of_active (m : Meter M) {tenantId : String} {runId : Option UUID}
    (since : Option Timestamp) {item : BudgetReservation} (hactive : item.isActive = true) :
    m.entry tenantId runId since item =
      if item.tenantId = tenantId && runId.all (item.runId = ·) then .held (m.limit item)
      else .free := by
  rw [entry, if_pos hactive]

end

variable {M : Type} [AddCommGroup M] [LinearOrder M] [IsOrderedAddMonoid M] {m : Meter M}
variable {py : PyText} {q : String → QuotaLimits} {s t : Session} {c : MemoryCall}
variable {quotas : QuotaLimits} {tenantId : String} {runId : Option UUID}

/-- Admission: the account has room for the reservation, and goes on having it as time
passes, or does not see it. -/
theorem covered_of_admits {new : BudgetReservation} {at' now : Timestamp}
    (hactive : new.isActive = true)
    (hvalues : t.repository.reservations.values = s.repository.reservations.values ++ [new])
    (hvalid : ∀ item ∈ t.repository.reservations.values, item.Valid) (hle : at' ≤ now)
    (hold : Account.Covered (m.quota quotas runId)
      (m.account tenantId runId (periodStart now runId) s.repository))
    (hadmits : new.tenantId = tenantId → runId.all (new.runId = ·) = true →
      m.Admits quotas runId s.repository new at') :
    Account.Covered (m.quota quotas runId)
      (m.account tenantId runId (periodStart now runId) t.repository) := by
  have hmap : ∀ since, m.account tenantId runId since t.repository =
      m.account tenantId runId since s.repository ++ [m.entry tenantId runId since new] := by
    intro since
    unfold account
    rw [hvalues, List.map_append, List.map_singleton]
  by_cases hscope : (new.tenantId = tenantId && runId.all (new.runId = ·)) = true
  · have hheld : m.entry tenantId runId (periodStart at' runId) new = .held (m.limit new) := by
      rw [entry_of_active m _ hactive, if_pos hscope]
    rw [Bool.and_eq_true, decide_eq_true_eq] at hscope
    obtain ⟨rfl, hrun⟩ := hscope
    have hcovered : Account.Covered (m.quota quotas runId)
        (m.account new.tenantId runId (periodStart at' runId) t.repository) := by
      rw [hmap, hheld]
      exact Account.covered_admission (hadmits rfl hrun)
    exact Account.covered_of_le hcovered fun item hitem =>
      m.weight_entry_le new.tenantId runId hle (hvalid item hitem)
  · have hfree : m.entry tenantId runId (periodStart now runId) new = .free := by
      rw [entry_of_active m _ hactive, if_neg hscope]
    rw [hmap, hfree]
    exact Account.covered_append_free hold

/-- **Every fair call keeps the account covered**, if what it admits to it fits. -/
theorem Sound.step (hsound : m.Sound quotas tenantId runId s) (hwf : s.Wf) (hfair : s.Fair q c)
    (hadmits : ∀ (request : ModelRequest) (lease : WorkLease) (tokenLimit : ℤ)
      (costLimitUsd : Decimal) (priceVersion : String) (at' : Timestamp) (id : UUID),
      request.tenantId = tenantId → runId.all (request.runId = ·) = true → 0 ≤ costLimitUsd →
      c.cost? = some (request.tenantId, costLimitUsd) →
      s.repository.admission py request lease (q request.tenantId) tokenLimit costLimitUsd at' = .ok () →
      m.Admits quotas runId s.repository (MemoryRepository.newReservation request lease tokenLimit
        costLimitUsd priceVersion at' id) at') :
    m.Sound quotas tenantId runId (s.step py c) := by
  intro now hnow
  have hcovered := hsound now (hnow.of_step hfair)
  have hvalid := (hwf.step hfair py).valid
  have hlatest : (s.step py c).latest = (c.at? <|> s.latest) := Session.latest_step
  have hbecomes := hwf.becomes hfair py
  generalize s.step py c = t at *
  cases hbecomes with
  | kept hkept _ =>
    unfold account at hcovered ⊢
    rw [hkept]
    exact hcovered
  | @reserved request lease tokenLimit costLimitUsd priceVersion at' id new t hdef hnew hat hcost
      hadmission hfresh hset _ =>
    rw [hat] at hlatest
    subst hdef
    have hvalues := Assoc.values_set_new hfresh (MemoryRepository.newReservation request lease
      tokenLimit costLimitUsd priceVersion at' id)
    rw [← hset] at hvalues
    refine covered_of_admits rfl hvalues hvalid (hnow at' hlatest) hcovered ?_
    intro htenant hrun
    exact hadmits request lease tokenLimit costLimitUsd priceVersion at' id htenant hrun
      hnew.costLimitUsd hcost hadmission
  | settled hc hlookup hactive hset _ =>
    obtain ⟨left, right, hold, hset'⟩ := Assoc.values_set hlookup _
    unfold account at hcovered ⊢
    rw [hold, List.map_append, List.map_cons] at hcovered
    rw [hset, hset', List.map_append, List.map_cons]
    refine Account.covered_replace hcovered ?_
    exact m.weight_entry_settle tenantId runId _
      (hwf.valid _ (Assoc.mem_values_of_lookup hlookup)) hactive (Session.settlement_state hc).1

theorem Sound.initial (activeLeases : List WorkLease) (hquota : 0 ≤ m.quota quotas runId) :
    m.Sound quotas tenantId runId (.initial activeLeases) := by
  intro now _
  have hempty : Account.Covered (m.quota quotas runId) ([] : List (Account.Entry M)) := by
    rw [Account.covered_iff]
    exact hquota
  exact hempty

end Meter

/-! ## Tokens -/

section

variable {py : PyText} {q : String → QuotaLimits} {s : Session} {c : MemoryCall}
variable {request : ModelRequest} {lease : WorkLease} {tokenLimit : ℤ} {costLimitUsd : Decimal}
variable {priceVersion : String} {at' : Timestamp} {id : UUID} {r : MemoryRepository}
variable {quotas : QuotaLimits} {runId : Option UUID} {tenantId : String} {k : ℕ}

/-- An admission has passed the four comparisons. -/
theorem MemoryRepository.checkBudget_of_admission
    (h : r.admission py request lease quotas tokenLimit costLimitUsd at' = .ok ()) :
    checkBudget quotas
      (((r.active request.tenantId none).map (·.tokenLimit)).sum +
        ((r.charged request.tenantId none (some (Calendar.monthStart at'))).map
          (·.chargedTokens)).sum)
      (Decimal.add (Decimal.sum ((r.active request.tenantId none).map (·.costLimitUsd)))
        (Decimal.sum ((r.charged request.tenantId none (some (Calendar.monthStart at'))).map
          (·.chargedCostUsd))))
      (((r.active request.tenantId (some request.runId)).map (·.tokenLimit)).sum +
        ((r.charged request.tenantId (some request.runId) none).map (·.chargedTokens)).sum)
      (Decimal.add
        (Decimal.sum ((r.active request.tenantId (some request.runId)).map (·.costLimitUsd)))
        (Decimal.sum ((r.charged request.tenantId (some request.runId) none).map
          (·.chargedCostUsd))))
      tokenLimit costLimitUsd = .ok () := by
  unfold MemoryRepository.admission at h
  obtain ⟨-, -, h⟩ := bind_eq_ok.1 h
  dsimp only at h
  split at h
  · cases h
  · obtain ⟨-, -, h⟩ := bind_eq_ok.1 h
    exact h

theorem tokenMeter_admits (hrun : runId.all (request.runId = ·) = true)
    (h : r.admission py request lease quotas tokenLimit costLimitUsd at' = .ok ()) :
    tokenMeter.Admits quotas runId r (MemoryRepository.newReservation request lease tokenLimit
      costLimitUsd priceVersion at' id) at' := by
  obtain ⟨hrunTokens, -, htenantTokens, -⟩ :=
    checkBudget_eq_ok.1 (MemoryRepository.checkBudget_of_admission h)
  unfold Meter.Admits
  rw [Meter.total_account]
  cases runId with
  | none => exact htenantTokens
  | some run =>
    simp only [Option.all_some, decide_eq_true_eq] at hrun
    subst hrun
    exact hrunTokens

/-! ## Cost -/

/-- Every cost of the tenant is a multiple of `10 ^ (-k)`. -/
def MemoryRepository.OnGrid (tenantId : String) (k : ℕ) (r : MemoryRepository) : Prop :=
  ∀ item ∈ r.reservations.values, item.tenantId = tenantId →
    Decimal.OnGrid k item.costLimitUsd ∧ Decimal.OnGrid k item.chargedCostUsd

/-- The cost a call brings in, if it is of the tenant, is such a multiple. -/
def MemoryCall.OnGrid (tenantId : String) (k : ℕ) (c : MemoryCall) : Prop :=
  ∀ cost, c.cost? = some (tenantId, cost) → Decimal.OnGrid k cost

theorem MemoryCall.settlement_cost {request : ModelRequest} {item : BudgetReservation}
    {state : ReservationState} (h : c.settlement? = some (request, item, state)) :
    c.cost? = some (item.tenantId, BudgetReservation.chargedCostUsd { item with state := state }) ∨
      BudgetReservation.chargedCostUsd { item with state := state } = 0 := by
  cases c with
  | succeed => cases h; exact Or.inl rfl
  | recordUsageFailure => cases h; exact Or.inl rfl
  | fail => cases h; exact Or.inr rfl
  | _ => cases h

theorem MemoryRepository.OnGrid.step (hgrid : s.repository.OnGrid tenantId k) (hwf : s.Wf)
    (hfair : s.Fair q c) (hcall : c.OnGrid tenantId k) (py : PyText) :
    (s.step py c).repository.OnGrid tenantId k := by
  refine (hwf.becomes hfair py).forall_values hgrid ?_ ?_
  · intro new _ hactive hcost htenant
    subst htenant
    refine ⟨hcall _ hcost, ?_⟩
    have hzero : new.chargedCostUsd = 0 := by
      simp only [BudgetReservation.isActive, decide_eq_true_eq] at hactive
      rw [BudgetReservation.chargedCostUsd, hactive]
    rw [hzero]
    exact Decimal.OnGrid.zero k
  · intro request item state hc hitem htenant
    refine ⟨(hitem htenant).1, ?_⟩
    change item.tenantId = tenantId at htenant
    subst htenant
    rcases MemoryCall.settlement_cost hc with hcost | hzero
    · exact hcall _ hcost
    · rw [hzero]
      exact Decimal.OnGrid.zero k

/-- What the code adds up for a scope is the exact amount, where that is in range. -/
theorem MemoryRepository.OnGrid.tracks (hgrid : r.OnGrid tenantId k)
    (hvalid : ∀ item ∈ r.reservations.values, item.Valid) (runId : Option UUID)
    (since : Option Timestamp) :
    Decimal.Tracks k
      (Decimal.add (Decimal.sum ((r.active tenantId runId).map (·.costLimitUsd)))
        (Decimal.sum ((r.charged tenantId runId since).map (·.chargedCostUsd))))
      (Account.total (costMeter.account tenantId runId since r)) := by
  rw [Meter.total_account]
  refine Decimal.Tracks.add (Decimal.Tracks.sum ?_) (Decimal.Tracks.sum ?_)
  · intro x hx
    obtain ⟨item, hitem, rfl⟩ := List.mem_map.1 hx
    simp only [MemoryRepository.active, List.mem_filter, Bool.and_eq_true, decide_eq_true_eq] at hitem
    obtain ⟨hmem, ⟨htenant, -⟩, -⟩ := hitem
    exact ⟨(hgrid item hmem htenant).1, (hvalid item hmem).costLimitUsd⟩
  · intro x hx
    obtain ⟨item, hitem, rfl⟩ := List.mem_map.1 hx
    simp only [MemoryRepository.charged, List.mem_filter, Bool.and_eq_true, decide_eq_true_eq] at hitem
    obtain ⟨hmem, ⟨htenant, -⟩, -⟩ := hitem
    exact ⟨(hgrid item hmem htenant).2, (hvalid item hmem).chargedCostUsd⟩

theorem costMeter_admits (hgrid : r.OnGrid request.tenantId k)
    (hvalid : ∀ item ∈ r.reservations.values, item.Valid)
    (hrange : costMeter.quota quotas runId < (10 : ℚ) ^ (28 - (k : ℤ)))
    (hcost : Decimal.OnGrid k costLimitUsd) (hnonneg : 0 ≤ costLimitUsd)
    (hrun : runId.all (request.runId = ·) = true)
    (h : r.admission py request lease quotas tokenLimit costLimitUsd at' = .ok ()) :
    costMeter.Admits quotas runId r (MemoryRepository.newReservation request lease tokenLimit
      costLimitUsd priceVersion at' id) at' := by
  obtain ⟨-, hrunCost, -, htenantCost⟩ :=
    checkBudget_eq_ok.1 (MemoryRepository.checkBudget_of_admission h)
  have htracks := (hgrid.tracks hvalid runId (periodStart at' runId)).add
    (Decimal.Tracks.of_onGrid hcost hnonneg)
  -- the computed amount is within the limit, so it is in range and exact
  suffices hle : Decimal.add (Decimal.add
      (Decimal.sum ((r.active request.tenantId runId).map (·.costLimitUsd)))
      (Decimal.sum ((r.charged request.tenantId runId (periodStart at' runId)).map
        (·.chargedCostUsd)))) costLimitUsd ≤ costMeter.quota quotas runId from
    (htracks.eq (hle.trans_lt hrange)).symm.trans_le hle
  cases runId with
  | none => exact htenantCost
  | some run =>
    simp only [Option.all_some, decide_eq_true_eq] at hrun
    subst hrun
    exact hrunCost

/-! ## Every session -/

theorem Session.Reaches.mono {Meets Meets' : Session → MemoryCall → Prop} {s₀ : Session}
    (h : Reaches py Meets s₀ s) (hmeets : ∀ s c, Meets s c → Meets' s c) :
    Reaches py Meets' s₀ s := by
  induction h with
  | refl => exact .refl s₀
  | tail _ hcall ih => exact .tail ih (hmeets _ _ hcall)

theorem Session.Reaches.wf {activeLeases : List WorkLease}
    (h : Reaches py (Session.Fair q) (.initial activeLeases) s) : s.Wf := by
  induction h with
  | refl => exact Session.Wf.initial activeLeases
  | tail _ hfair ih => exact ih.step hfair py

theorem tokenMeter_sound {activeLeases : List WorkLease} (tenantId : String) (runId : Option UUID)
    (h : Session.Reaches py (Session.Fair q) (.initial activeLeases) s) :
    tokenMeter.Sound (q tenantId) tenantId runId s := by
  induction h with
  | refl =>
    refine Meter.Sound.initial activeLeases ?_
    obtain ⟨hrun, htenant, -⟩ := (q tenantId).valid
    cases runId with
    | none => exact htenant
    | some run => exact hrun
  | tail hreach hfair ih =>
    refine ih.step hreach.wf hfair ?_
    intro request lease tokenLimit costLimitUsd priceVersion at' id htenant hrun _ _ hadmission
    subst htenant
    exact tokenMeter_admits hrun hadmission

/-- The calls of well-behaved callers that bring in costs of a tenant that are multiples
of `10 ^ (-k)`. -/
def Session.FairOnGrid (q : String → QuotaLimits) (tenantId : String) (k : ℕ) (s : Session)
    (c : MemoryCall) : Prop := s.Fair q c ∧ c.OnGrid tenantId k

theorem costMeter_sound {activeLeases : List WorkLease}
    (hrange : costMeter.quota (q tenantId) runId < (10 : ℚ) ^ (28 - (k : ℤ)))
    (h : Session.Reaches py (Session.FairOnGrid q tenantId k) (.initial activeLeases) s) :
    costMeter.Sound (q tenantId) tenantId runId s ∧ s.repository.OnGrid tenantId k := by
  induction h with
  | refl =>
    refine ⟨Meter.Sound.initial activeLeases ?_, fun _ hitem => absurd hitem List.not_mem_nil⟩
    obtain ⟨-, -, -, hrun, htenant⟩ := (q tenantId).valid
    cases runId with
    | none => exact htenant
    | some run => exact hrun
  | tail hreach hcall ih =>
    obtain ⟨hfair, hgrid⟩ := hcall
    obtain ⟨hsound, hon⟩ := ih
    have hwf := (hreach.mono fun _ _ hmeets => hmeets.1).wf
    refine ⟨hsound.step hwf hfair ?_, hon.step hwf hfair hgrid py⟩
    intro request lease tokenLimit costLimitUsd priceVersion at' id htenant hrun hnonneg hcost hadmission
    subst htenant
    exact costMeter_admits hon hwf.valid hrange (hgrid _ hcost) hnonneg hrun hadmission

/-- **Budget safety.**  At every moment what is active and what was charged, of a tenant
in its billing period (`runId` is `none`) and of each of its runs, stays within the limit,
overage apart: tokens always, cost where the costs of the tenant are multiples of some
`10 ^ (-k)` and the limit is below `10 ^ (28 - k)`.  A call that raises changes nothing. -/
theorem memory_budget_safe (py : PyText) (q : String → QuotaLimits)
    (activeLeases : List WorkLease) (tenantId : String) (runId : Option UUID) :
    (∀ s now, Session.Reaches py (Session.Fair q) (.initial activeLeases) s → s.NotBefore now →
      s.repository.Within tokenMeter tenantId runId (periodStart now runId)
        (tokenMeter.quota (q tenantId) runId)) ∧
    (∀ k : ℕ, costMeter.quota (q tenantId) runId < (10 : ℚ) ^ (28 - (k : ℤ)) → ∀ s now,
      Session.Reaches py (Session.FairOnGrid q tenantId k) (.initial activeLeases) s →
      s.NotBefore now →
      s.repository.Within costMeter tenantId runId (periodStart now runId)
        (costMeter.quota (q tenantId) runId)) ∧
    ∀ (c : MemoryCall) (r r' : MemoryRepository) (e : Raised), c.exec py r = .error e r' → r' = r := by
  refine ⟨?_, ?_, ?_⟩
  · intro s now hreach hnow
    exact Meter.within_iff.2 (tokenMeter_sound tenantId runId hreach now hnow)
  · intro k hrange s now hreach hnow
    exact Meter.within_iff.2 ((costMeter_sound hrange hreach).1 now hnow)
  · intro c r r' e herror
    have hdoes := c.does py r
    rw [herror] at hdoes
    cases hdoes
    rfl

end

/-- A reservation of 17 tokens for the sample call. -/
def memoryReserve : MemoryCall :=
  .reserve sampleContext sampleModelRequest sampleLease sampleRoute sampleQuotas 17 1 "v1" 0
    (sampleIds 60)

/-- What it returns. -/
def memoryReservation : BudgetReservation :=
  MemoryRepository.newReservation sampleModelRequest sampleLease 17 1 "v1" 0 (UUID.ofNat 60)

/-- A response that used 15 tokens. -/
def sampleResponse : ModelResponse where
  requestId := UUID.ofNat 50
  model := sampleRoute.selected
  finishReason := "stop"
  safetyOutcome := "passed"
  usage := { inputTokens := 5, outputTokens := 10, valid := by decide }
  latencyMs := 1

/-- Nothing is to be paid. -/
def freePricing : PricingVersion :=
  { version := "v1", inputPerMillionUsd := 0, outputPerMillionUsd := 0, valid := by decide }

/-- The response failed validation. -/
def invalidResponse : ModelGatewayError := ⟨.schema, "invalid", false, false, none, by simp⟩

/-- The provider used 150 tokens, which is more than was reserved and more than the run
may use. -/
def memoryOverrun : MemoryCall :=
  .recordUsageFailure sampleContext sampleModelRequest sampleLease memoryReservation
    { sampleResponse with
      usage := { inputTokens := 50, outputTokens := 100, valid := by decide } }
    freePricing invalidResponse 0 (sampleIds 70)

theorem Session.Fair.reserve {q : String → QuotaLimits} {s : Session} {context : TenantContext}
    {request : ModelRequest} {lease : WorkLease} {route : RouteDecision} {quotas : QuotaLimits}
    {tokenLimit : ℤ} {costLimitUsd : Decimal} {priceVersion : String} {at' : Timestamp}
    {ids : ℕ → UUID} (hordered : s.NotBefore at') (hquotas : quotas = q request.tenantId)
    (hfresh : s.repository.reservations.lookup (ids 0) = none) :
    s.Fair q (.reserve context request lease route quotas tokenLimit costLimitUsd priceVersion at'
      ids) := by
  refine ⟨?_, fun _ _ _ h => (by cases h), ?_⟩
  · intro t ht t' ht'
    cases ht'
    exact hordered t ht
  · intro _ _ _ _ _ _ _ _ _ _ h
    cases h
    exact ⟨hquotas, hfresh⟩

/-- A reservation by a request that is admitted is remembered with it. -/
theorem Session.returned_of_reserve {py : PyText} {s : Session} {context : TenantContext}
    {request : ModelRequest} {lease : WorkLease} {route : RouteDecision} {quotas : QuotaLimits}
    {tokenLimit : ℤ} {costLimitUsd : Decimal} {priceVersion : String} {at' : Timestamp}
    {ids : ℕ → UUID}
    (h : (s.step py (.reserve context request lease route quotas tokenLimit costLimitUsd
      priceVersion at' ids)).repository.reservations.length ≠ s.repository.reservations.length) :
    (request, MemoryRepository.newReservation request lease tokenLimit costLimitUsd priceVersion
      at' (ids 0)) ∈ (s.step py (.reserve context request lease route quotas tokenLimit
        costLimitUsd priceVersion at' ids)).returned := by
  unfold step at h ⊢
  rw [MemoryCall.exec] at h ⊢
  rcases MemoryRepository.reserve_cases py context request lease route quotas tokenLimit
    costLimitUsd priceVersion at' ids s.repository with ⟨e, he⟩ | ⟨-, -, -, r', hok, -⟩
  · rw [MemoryRepository.bind_error he] at h
    exact absurd rfl h
  · rw [MemoryRepository.bind_ok hok]
    exact List.mem_cons_self

theorem memory_budget_safe_overrun : ∃ s,
    Session.Reaches sampleText (Session.FairOnGrid (fun _ => sampleQuotas) "acme" 0)
      (.initial [sampleLease]) s ∧
    (s.repository.charged "acme" (some (UUID.ofNat 1)) none).map (·.chargedTokens) = [150] ∧
    s.repository.Within tokenMeter "acme" (some (UUID.ofNat 1)) none 100 ∧
    s.repository.Within costMeter "acme" none (some (Calendar.monthStart 0)) 10 := by
  have hfirst : Session.FairOnGrid (fun _ => sampleQuotas) "acme" 0 (.initial [sampleLease])
      memoryReserve := by
    refine ⟨.reserve (fun t ht => (by cases ht)) rfl rfl, ?_⟩
    intro cost h
    cases h
    exact ⟨1, by norm_num⟩
  have hsecond : Session.FairOnGrid (fun _ => sampleQuotas) "acme" 0
      ((Session.initial [sampleLease]).step sampleText memoryReserve) memoryOverrun := by
    refine ⟨⟨?_, ?_, fun _ _ _ _ _ _ _ _ _ _ h => (by cases h)⟩, ?_⟩
    · intro t ht t' ht'
      rw [Session.latest_step] at ht
      cases ht
      cases ht'
      exact le_rfl
    · intro request reservation state h
      cases h
      exact Session.returned_of_reserve (by decide +kernel)
    · intro cost h
      cases h
      exact ⟨0, by decide +kernel⟩
  have hreach := Session.Reaches.tail (.tail (.refl _) hfirst) hsecond
  obtain ⟨htokens, -, -⟩ := memory_budget_safe sampleText (fun _ => sampleQuotas) [sampleLease]
    "acme" (some (UUID.ofNat 1))
  obtain ⟨-, hcost, -⟩ := memory_budget_safe sampleText (fun _ => sampleQuotas) [sampleLease]
    "acme" none
  have hnow : Session.NotBefore (((Session.initial [sampleLease]).step sampleText memoryReserve).step
      sampleText memoryOverrun) 0 := by
    intro t ht
    rw [Session.latest_step] at ht
    cases ht
    exact le_rfl
  exact ⟨_, hreach, by decide +kernel, htokens _ 0 (hreach.mono fun _ _ h => h.1) hnow,
    hcost 0 (by norm_num [costMeter, sampleQuotas]) _ 0 hreach hnow⟩

/-- Quotas of one dollar. -/
def dollarQuotas : QuotaLimits where
  maxRunTokens := 100
  maxRunCostUsd := 1
  maxTenantTokensPerPeriod := 1000
  maxTenantCostUsdPerPeriod := 1
  maxConcurrentRuns := 1
  valid := by decide

/-- Another call of the sample item. -/
def secondModelRequest : ModelRequest where
  requestId := UUID.ofNat 51
  tenantId := "acme"
  runId := UUID.ofNat 1
  messages := sampleModelRequest.messages
  maxOutputTokens := 16
  promptTokenEstimate := 1
  idempotencyKey := "call-2"
  valid := by decide

/-- With one dollar reserved, a reservation of `10 ^ (-28)` dollars on top of it is
admitted: the sum has 29 digits and is rounded to one dollar. -/
theorem memory_cost_rounded : ∃ s, Session.Reaches sampleText (Session.Fair fun _ => dollarQuotas)
      (.initial [sampleLease]) s ∧ s.latest = some 0 ∧
    ¬ s.repository.Within costMeter "acme" none (some (Calendar.monthStart 0))
      dollarQuotas.maxTenantCostUsdPerPeriod := by
  have hfirst : Session.Fair (fun _ => dollarQuotas) (.initial [sampleLease])
      (.reserve sampleContext sampleModelRequest sampleLease sampleRoute dollarQuotas 17 1 "v1" 0
        (sampleIds 60)) :=
    .reserve (fun t ht => (by cases ht)) rfl rfl
  have hsecond : Session.Fair (fun _ => dollarQuotas) ((Session.initial [sampleLease]).step
      sampleText (.reserve sampleContext sampleModelRequest sampleLease sampleRoute dollarQuotas 17 1
        "v1" 0 (sampleIds 60)))
      (.reserve sampleContext secondModelRequest sampleLease sampleRoute dollarQuotas 17
        (1 / 10 ^ 28) "v1" 0 (sampleIds 70)) := by
    refine .reserve ?_ rfl (by decide +kernel)
    intro t ht
    rw [Session.latest_step] at ht
    cases ht
    exact le_rfl
  refine ⟨_, .tail (.tail (.refl _) hfirst) hsecond, by rw [Session.latest_step]; rfl, ?_⟩
  unfold MemoryRepository.Within
  decide +kernel

end AegisPlatform
