import AegisPlatform.Gateway.BudgetLog
import AegisPlatform.Lib.Numeral
import AegisPlatform.Queueing.Publisher
import AegisPlatform.System.Budgets

/-!
# The budget as the replay of its log

The reservations of the in-memory repository, and the events its operations append about
them, are written apart.  They say the same.

* `Logged` — the log of a map of reservations: every reservation has the events of its
  entries, in the order in which the reservations were made.
* `Session.Recorded.step` — every call of an honest caller keeps it so.
* `memory_replays_log` — in every session the map is the replay of the log, what was reserved
  is charged or released, and `usage_summary` sums up the charges.
-/

namespace AegisPlatform

open MemoryCall

/-! ## Maps with a log -/

/-- What events call the reservations of the map. -/
def reservationIds (d : Assoc UUID BudgetReservation) : List (Option String) :=
  d.values.map fun item => some item.reservationId.str

/-- The log has the events of the map's reservations. -/
structure Logged (py : PyText) (d : Assoc UUID BudgetReservation) (log : List EventEnvelope) :
    Prop where
  keyed : d.Keyed (·.reservationId)
  proper : ∀ item ∈ d.values, item.Proper
  order : (log.filter (·.eventType = .modelBudgetReserved)).map (·.reservationId?) =
    reservationIds d
  known : ∀ e ∈ log, e.reservationId? ∈ reservationIds d
  trails : ∀ item ∈ d.values, List.Forall₂ (BudgetEntry.Books py item.tenantId) item.entries
    (log.filter (·.reservationId? = some item.reservationId.str))

namespace Logged

variable {py : PyText} {d : Assoc UUID BudgetReservation} {log : List EventEnvelope}

theorem initial : Logged py [] [] where
  keyed := ⟨List.nodup_nil, fun _ h => absurd h List.not_mem_nil⟩
  proper _ h := absurd h List.not_mem_nil
  order := rfl
  known _ h := absurd h List.not_mem_nil
  trails _ h := absurd h List.not_mem_nil

/-- A reservation whose key is new has no events. -/
theorem filter_eq_nil (h : Logged py d log) {id : UUID} (hfresh : d.lookup id = none) :
    log.filter (·.reservationId? = some id.str) = [] := by
  rw [List.filter_eq_nil_iff]
  intro e he hid
  obtain ⟨item, hitem, hcarries⟩ := List.mem_map.1 (h.known e he)
  rw [decide_eq_true_eq, ← hcarries, Option.some.injEq] at hid
  have hlookup := h.keyed.lookup_name hitem
  rw [UUID.str_inj.1 hid, hfresh] at hlookup
  cases hlookup

/-- Events that carry an identifier are not seen by another. -/
theorem filter_append_of_ne {id id' : UUID} (hne : id ≠ id') {es : List EventEnvelope}
    (hes : ∀ e ∈ es, e.reservationId? = some id'.str) :
    (log ++ es).filter (·.reservationId? = some id.str) =
      log.filter (·.reservationId? = some id.str) := by
  have hnone : es.filter (·.reservationId? = some id.str) = [] := by
    rw [List.filter_eq_nil_iff]
    intro e he hid
    rw [decide_eq_true_eq, hes e he, Option.some.injEq] at hid
    exact hne (UUID.str_inj.1 hid).symm
  rw [List.filter_append, hnone, List.append_nil]

theorem filter_append_self {id : UUID} {es : List EventEnvelope}
    (hes : ∀ e ∈ es, e.reservationId? = some id.str) :
    (log ++ es).filter (·.reservationId? = some id.str) =
      log.filter (·.reservationId? = some id.str) ++ es := by
  rw [List.filter_append, List.filter_eq_self.2 fun e he => decide_eq_true (hes e he)]

/-- Every event says one of the entries. -/
theorem mem_of_books {tenantId : String} {entries : List BudgetEntry} {es : List EventEnvelope}
    (hbooks : List.Forall₂ (BudgetEntry.Books py tenantId) entries es) :
    ∀ e ∈ es, ∃ entry ∈ entries, BudgetEntry.Books py tenantId entry e := by
  induction hbooks with
  | nil => exact fun _ h => absurd h List.not_mem_nil
  | @cons entry e entries es hbook _ ih =>
    intro e' he'
    rcases List.mem_cons.1 he' with rfl | he'
    · exact ⟨entry, List.mem_cons_self, hbook⟩
    · obtain ⟨entry', hentry', hbook'⟩ := ih e' he'
      exact ⟨entry', List.mem_cons_of_mem _ hentry', hbook'⟩

theorem mem_values_set {key : UUID} {value item : BudgetReservation}
    (hkeyed : d.Keyed (·.reservationId)) (hitem : item ∈ (d.set key value).values)
    (hname : value.reservationId = key) :
    item = value ∨ item.reservationId ≠ key ∧ item ∈ d.values := by
  have hlookup := (hkeyed.set hname).lookup_name hitem
  rw [Assoc.lookup_set] at hlookup
  by_cases hkey : item.reservationId = key
  · rw [if_pos hkey] at hlookup
    exact Or.inl (Option.some.inj hlookup).symm
  · rw [if_neg hkey] at hlookup
    exact Or.inr ⟨hkey, Assoc.mem_values_of_lookup hlookup⟩

/-- **A reservation is made**: the log gets its first event. -/
theorem reserved (h : Logged py d log) {new : BudgetReservation} {es : List EventEnvelope}
    (hproper : new.Proper) (hactive : new.isActive = true)
    (hfresh : d.lookup new.reservationId = none)
    (hbooks : List.Forall₂ (BudgetEntry.Books py new.tenantId) [new.opening] es) :
    Logged py (d.set new.reservationId new) (log ++ es) := by
  have hids : reservationIds (d.set new.reservationId new) =
      reservationIds d ++ [some new.reservationId.str] := by
    unfold reservationIds
    rw [Assoc.values_set_new hfresh, List.map_append, List.map_singleton]
  have hcarries : ∀ e ∈ es, e.reservationId? = some new.reservationId.str := by
    intro e he
    obtain ⟨entry, hentry, hbook⟩ := mem_of_books hbooks e he
    rw [hbook.reservationId?_eq, List.mem_singleton.1 hentry]
    rfl
  cases hbooks with | @cons _ e _ es hopening hnil =>
  cases hnil
  refine ⟨h.keyed.set rfl, ?_, ?_, ?_, ?_⟩
  · intro item hitem
    rcases mem_values_set h.keyed hitem rfl with rfl | ⟨-, hold⟩
    · exact hproper
    · exact h.proper item hold
  · have hreserved : decide (e.eventType = .modelBudgetReserved) = true :=
      decide_eq_true hopening.eventType
    rw [hids, List.filter_append, List.map_append, h.order, List.filter_cons, if_pos hreserved,
      List.filter_nil, List.map_singleton, hopening.reservationId?_eq]
    rfl
  · intro e' he'
    rw [hids]
    rcases List.mem_append.1 he' with he' | he'
    · exact List.mem_append_left _ (h.known e' he')
    · rw [hcarries e' he']
      exact List.mem_append_right _ List.mem_cons_self
  · intro item hitem
    rcases mem_values_set h.keyed hitem rfl with rfl | ⟨hne, hold⟩
    · rw [filter_append_self hcarries, h.filter_eq_nil hfresh, List.nil_append]
      have hclosing : item.closing = [] := by
        rw [BudgetReservation.isActive, decide_eq_true_eq] at hactive
        rw [BudgetReservation.closing, hactive]
      rw [BudgetReservation.entries, hclosing]
      exact .cons hopening .nil
    · rw [filter_append_of_ne hne hcarries]
      exact h.trails item hold

/-- **A reservation is settled**: the log gets the events of its settlement. -/
theorem settled (h : Logged py d log) {item : BudgetReservation} {state : ReservationState}
    {es : List EventEnvelope} (hlookup : d.lookup item.reservationId = some item)
    (hactive : item.isActive = true)
    (hproper : BudgetReservation.Proper { item with state := state })
    (hbooks : List.Forall₂ (BudgetEntry.Books py item.tenantId)
      (BudgetReservation.closing { item with state := state }) es) :
    Logged py (d.set item.reservationId { item with state := state }) (log ++ es) := by
  have hcloses : ∀ e ∈ es, e.reservationId? = some item.reservationId.str ∧
      e.eventType ≠ .modelBudgetReserved := by
    intro e he
    obtain ⟨entry, hentry, hbook⟩ := mem_of_books hbooks e he
    obtain ⟨hid, htype⟩ := BudgetReservation.closing_spec hentry
    rw [hbook.reservationId?_eq, hid, hbook.eventType]
    exact ⟨rfl, htype⟩
  have hcarries : ∀ e ∈ es, e.reservationId? = some item.reservationId.str :=
    fun e he => (hcloses e he).1
  have hids : reservationIds (d.set item.reservationId { item with state := state }) =
      reservationIds d := by
    obtain ⟨left, right, hold, hnow⟩ := Assoc.values_set hlookup { item with state := state }
    unfold reservationIds
    rw [hold, hnow, List.map_append, List.map_append]
    rfl
  have hmem := Assoc.mem_values_of_lookup hlookup
  refine ⟨h.keyed.set rfl, ?_, ?_, ?_, ?_⟩
  · intro item' hitem'
    rcases mem_values_set h.keyed hitem' rfl with rfl | ⟨-, hold⟩
    · exact hproper
    · exact h.proper item' hold
  · have hnone : es.filter (·.eventType = .modelBudgetReserved) = [] := by
      rw [List.filter_eq_nil_iff]
      intro e he htype
      exact (hcloses e he).2 (of_decide_eq_true htype)
    rw [hids, List.filter_append, hnone, List.append_nil, h.order]
  · intro e he
    rw [hids]
    rcases List.mem_append.1 he with he | he
    · exact h.known e he
    · rw [hcarries e he]
      exact List.mem_map.2 ⟨item, hmem, rfl⟩
  · intro item' hitem'
    rcases mem_values_set h.keyed hitem' rfl with rfl | ⟨hne, hold⟩
    · have htrail := h.trails item hmem
      rw [BudgetReservation.isActive, decide_eq_true_eq] at hactive
      rw [BudgetReservation.entries, BudgetReservation.closing, hactive] at htrail
      rw [filter_append_self hcarries]
      exact List.rel_append htrail hbooks
    · rw [filter_append_of_ne hne hcarries]
      exact h.trails item' hold

end Logged

/-! ## Sessions -/

/-- The calls of honest callers: a settlement passes the request and the reservation `reserve`
returned for it, `uuid_factory` repeats no reservation's identifier, and the limit on the cost
of a reservation is a decimal number. -/
structure Session.Honest (s : Session) (c : MemoryCall) : Prop where
  settles : ∀ request reservation state, c.settlement? = some (request, reservation, state) →
    (request, reservation) ∈ s.returned
  reserves : ∀ context request lease route quotas tokenLimit costLimitUsd priceVersion at' ids,
    c = .reserve context request lease route quotas tokenLimit costLimitUsd priceVersion at' ids →
    s.repository.reservations.lookup (ids 0) = none ∧ ∃ k, Decimal.OnGrid k costLimitUsd

/-- The events about a budget. -/
def MemoryRepository.budgetLog (r : MemoryRepository) : List EventEnvelope :=
  r.events.filter (·.eventType.isBudget)

/-- The reservations have their log, and what callers were given is what is stored. -/
structure Session.Recorded (py : PyText) (s : Session) : Prop where
  logged : Logged py s.repository.reservations s.repository.budgetLog
  held : s.Held
  tenant : ∀ p ∈ s.returned, p.2.tenantId = p.1.tenantId

section

variable {py : PyText} {s : Session} {c : MemoryCall}

theorem MemoryCall.entries_eq_nil (hreserving : c.reserving? = none)
    (hsettlement : c.settlement? = none) : c.entries = [] := by
  cases c with
  | reserve => cases hreserving
  | succeed => cases hsettlement
  | recordUsageFailure => cases hsettlement
  | fail => cases hsettlement
  | _ => rfl

theorem MemoryCall.settlement_entries {request : ModelRequest} {item : BudgetReservation}
    {state : ReservationState} (h : c.settlement? = some (request, item, state)) :
    c.tenantId = request.tenantId ∧
      c.entries = BudgetReservation.closing { item with state := state } := by
  cases c with
  | succeed => cases h; exact ⟨rfl, rfl⟩
  | recordUsageFailure => cases h; exact ⟨rfl, rfl⟩
  | fail => cases h; exact ⟨rfl, rfl⟩
  | _ => cases h

theorem MemoryCall.settlement_proper {request : ModelRequest} {item : BudgetReservation}
    {state : ReservationState} (h : c.settlement? = some (request, item, state))
    (hproper : item.Proper) : BudgetReservation.Proper { item with state := state } := by
  obtain ⟨htokens, hcost, -, hdecimal, -⟩ := hproper
  have hcharged : ∀ (pricing : PricingVersion) (response : ModelResponse) (at' : Timestamp),
      BudgetReservation.Proper { item with
        state := .charged (usageTotals pricing response).1 (usageTotals pricing response).2 at' } :=
    fun pricing response _ =>
      ⟨htokens, hcost, pricing.cost_nonneg response.usage, hdecimal, Decimal.onGrid_round _⟩
  cases c with
  | succeed => cases h; exact hcharged _ _ _
  | recordUsageFailure => cases h; exact hcharged _ _ _
  | fail => cases h; exact ⟨htokens, hcost, le_rfl, hdecimal, 0, Decimal.OnGrid.zero 0⟩
  | _ => cases h

theorem MemoryRepository.budgetLog_append {r r' : MemoryRepository} {es : List EventEnvelope}
    (h : r'.events = r.events ++ es) :
    r'.budgetLog = r.budgetLog ++ es.filter (·.eventType.isBudget) := by
  rw [budgetLog, h, List.filter_append]
  rfl

theorem Session.Recorded.initial (activeLeases : List WorkLease) :
    (Session.initial activeLeases).Recorded py :=
  ⟨.initial, fun _ h => absurd h List.not_mem_nil, fun _ h => absurd h List.not_mem_nil⟩

/-- The repository of a session after a call that went through, and what callers remember. -/
theorem Session.step_ok {result : Option BudgetReservation} {r' : MemoryRepository} :
    c.exec py s.repository = .ok result r' →
    (s.step py c).repository = r' ∧ (s.step py c).returned =
      match c.reserving?, result with
      | some request, some reservation => (request, reservation) :: s.returned
      | _, _ => s.returned := by
  intro hexec
  rw [step, hexec]
  exact ⟨rfl, rfl⟩

/-- **Every call of an honest caller keeps the log of the reservations.** -/
theorem Session.Recorded.step (h : s.Recorded py) (hhonest : s.Honest c) :
    (s.step py c).Recorded py := by
  have hdoes := c.does py s.repository
  generalize hexec : c.exec py s.repository = result at hdoes
  cases hdoes with
  | refused =>
    rw [Session.step, hexec]
    exact ⟨h.logged, h.held, h.tenant⟩
  | kept hreserving hsettlement hkept =>
    obtain ⟨es, hevents, hbooks⟩ := books hexec
    obtain ⟨hrepository, hreturned⟩ := step_ok hexec
    rw [hreserving] at hreturned
    rw [entries_eq_nil hreserving hsettlement] at hbooks
    cases hes : es.filter (·.eventType.isBudget) with
    | cons e es =>
      rw [hes] at hbooks
      cases hbooks
    | nil =>
      refine ⟨?_, h.held.kept (hrepository ▸ hkept) hreturned, hreturned ▸ h.tenant⟩
      rw [hrepository, hkept, MemoryRepository.budgetLog_append hevents, hes, List.append_nil]
      exact h.logged
  | @reserved context request lease route quotas tokenLimit costLimitUsd priceVersion at' ids new r'
      htokens hcost _ hnew hset =>
    obtain ⟨es, hevents, hbooks⟩ := books hexec
    obtain ⟨hrepository, hreturned⟩ := step_ok hexec
    obtain ⟨hfresh, hdecimal⟩ := hhonest.reserves _ _ _ _ _ _ _ _ _ _ rfl
    have hproper : new.Proper := by
      rw [hnew]
      exact ⟨zero_le_one.trans htokens, hcost, le_rfl, hdecimal, 0, Decimal.OnGrid.zero 0⟩
    subst hnew
    refine ⟨?_, h.held.reserved hfresh (hrepository ▸ hset) hreturned, ?_⟩
    · rw [hrepository, hset, MemoryRepository.budgetLog_append hevents]
      exact h.logged.reserved hproper rfl hfresh hbooks
    · intro p hp
      rw [hreturned] at hp
      rcases List.mem_cons.1 hp with rfl | hp
      · rfl
      · exact h.tenant p hp
  | @settled _ request item current state r' hc hcurrent hactive hset =>
    obtain ⟨es, hevents, hbooks⟩ := books hexec
    obtain ⟨hrepository, hreturned⟩ := step_ok hexec
    have hkeep : (s.step py c).returned = s.returned := by
      rw [hreturned]
      cases c.reserving? <;> rfl
    -- what is active is what the caller was given
    have hgiven := hhonest.settles _ _ _ hc
    obtain ⟨current, hlookup, hsame⟩ := h.held _ hgiven
    rw [hcurrent] at hlookup
    cases hlookup
    cases hsame hactive
    obtain ⟨htenant, hentries⟩ := settlement_entries hc
    have hsameTenant : item.tenantId = request.tenantId := h.tenant _ hgiven
    rw [htenant, hentries, ← hsameTenant] at hbooks
    have hproper := settlement_proper hc (h.logged.proper _ (Assoc.mem_values_of_lookup hcurrent))
    refine ⟨?_, h.held.settled (settlement_state hc).1 (hrepository ▸ hset) hkeep, hkeep ▸ h.tenant⟩
    rw [hrepository, hset, MemoryRepository.budgetLog_append hevents]
    exact h.logged.settled hcurrent hactive hproper hbooks

theorem Session.Reaches.recorded {activeLeases : List WorkLease}
    (h : Session.Reaches py Session.Honest (.initial activeLeases) s) : s.Recorded py := by
  induction h with
  | refl => exact .initial activeLeases
  | tail _ hhonest ih => exact ih.step hhonest

end

/-! ## What the log says -/

namespace MemoryRepository

/-- The events about a budget that carry the identifier of a reservation. -/
def trail (r : MemoryRepository) (id : UUID) : List EventEnvelope :=
  r.budgetLog.filter (·.reservationId? = some id.str)

/-- The charges of a tenant. -/
def charges (r : MemoryRepository) (tenantId : String) : List EventEnvelope :=
  r.events.filter fun e => e.eventType = .modelBudgetCharged && e.tenantId = tenantId

/-- The charges of a tenant, in the order in which the reservations were made. -/
def chargesByReservation (r : MemoryRepository) (tenantId : String) : List EventEnvelope :=
  (r.events.filter (·.eventType = .modelBudgetReserved)).flatMap fun reserved =>
    (r.charges tenantId).filter (·.reservationId? = reserved.reservationId?)

/-- `usage_summary` is the number and the sums of the tenant's charges.  The sum of the costs
is taken in the order in which the reservations were made, and rounded on the way: it is
exact if 28 digits are enough. -/
def Summarizes (py : PyText) (text : PayloadText) (r : MemoryRepository) (context : TenantContext) :
    Prop :=
  ∃ amounts : List (ℤ × Decimal),
    (r.chargesByReservation context.tenantId).map (·.amounts? text) = amounts.map some ∧
    (r.chargesByReservation context.tenantId).Perm (r.charges context.tenantId) ∧
    r.usageSummary py context = [("tokens", .int (amounts.map (·.1)).sum),
      ("cost_usd", .str (py.strDecimal (Decimal.sum (amounts.map (·.2))))),
      ("calls", .int amounts.length)] ∧
    ∀ k, (∀ a ∈ amounts, Decimal.OnGrid k a.2) → (amounts.map (·.2)).sum * 10 ^ k < 10 ^ 28 →
      Decimal.sum (amounts.map (·.2)) = (amounts.map (·.2)).sum

variable {py : PyText} {text : PayloadText} {r : MemoryRepository}

theorem filter_budgetLog {p : EventEnvelope → Bool}
    (hp : ∀ e, p e = true → e.eventType.isBudget = true) : r.budgetLog.filter p = r.events.filter p := by
  rw [budgetLog, List.filter_filter]
  refine List.filter_congr fun e _ => ?_
  by_cases he : p e = true
  · rw [he, hp e he, Bool.and_true]
  · rw [Bool.not_eq_true] at he
    rw [he, Bool.false_and]

theorem charges_eq (tenantId : String) : r.charges tenantId =
    r.budgetLog.filter fun e => e.eventType = .modelBudgetCharged && e.tenantId = tenantId := by
  refine (filter_budgetLog fun e he => ?_).symm
  rw [Bool.and_eq_true, decide_eq_true_eq] at he
  rw [he.1]
  rfl

/-- The charges of a tenant that carry an identifier are in the events of the reservation. -/
theorem charges_filter (tenantId : String) (id : UUID) :
    (r.charges tenantId).filter (·.reservationId? = some id.str) = (r.trail id).filter fun e =>
      e.eventType = .modelBudgetCharged && e.tenantId = tenantId := by
  rw [charges_eq, trail, List.filter_filter, List.filter_filter]
  refine List.filter_congr fun e _ => ?_
  rw [Bool.and_comm]

theorem chargesByReservation_eq (h : Logged py r.reservations r.budgetLog) (tenantId : String) :
    r.chargesByReservation tenantId = (reservationIds r.reservations).flatMap fun id =>
      (r.charges tenantId).filter (·.reservationId? = id) := by
  have hreserved : r.events.filter (·.eventType = .modelBudgetReserved) =
      r.budgetLog.filter (·.eventType = .modelBudgetReserved) := by
    refine (filter_budgetLog fun e he => ?_).symm
    rw [of_decide_eq_true he]
    rfl
  rw [chargesByReservation, hreserved, ← h.order, List.flatMap_map]

theorem chargesByReservation_perm (h : Logged py r.reservations r.budgetLog) (tenantId : String) :
    (r.chargesByReservation tenantId).Perm (r.charges tenantId) := by
  rw [chargesByReservation_eq h]
  refine Assoc.perm_flatMap_filter EventEnvelope.reservationId? ?_ ?_
  · have hkeys : r.reservations.values.map (·.reservationId) = r.reservations.map (·.1) := by
      unfold Assoc.values
      rw [List.map_map]
      exact List.map_congr_left fun p hp => h.keyed.named p hp
    have hids : reservationIds r.reservations =
        (r.reservations.map (·.1)).map fun id => some id.str := by
      rw [← hkeys, List.map_map]
      rfl
    rw [hids]
    exact h.keyed.nodup.map fun id id' heq => UUID.str_inj.1 (Option.some.inj heq)
  · intro e he
    rw [charges_eq] at he
    exact h.known e (List.mem_of_mem_filter he)

/-- What the log says of the charges of a tenant is what the repository sums up. -/
theorem amounts_chargesByReservation (hreads : text.ReadsBack py)
    (h : Logged py r.reservations r.budgetLog) (tenantId : String) :
    (r.chargesByReservation tenantId).map (·.amounts? text) =
      (r.charged tenantId none none).map fun item =>
        some (item.chargedTokens, item.chargedCostUsd) := by
  have hitem : ∀ item ∈ r.reservations.values,
      ((r.charges tenantId).filter (·.reservationId? = some item.reservationId.str)).map
          (·.amounts? text) =
        if item.tenantId = tenantId && item.isChargedSince none then
          [some (item.chargedTokens, item.chargedCostUsd)] else [] := by
    intro item hmem
    rw [charges_filter]
    exact BudgetReservation.charges_of_books hreads (h.proper item hmem) (h.trails item hmem) tenantId
  rw [chargesByReservation_eq h, List.map_flatMap, reservationIds, List.flatMap_map,
    List.flatMap_congr hitem, charged]
  induction r.reservations.values with
  | nil => rfl
  | cons item items ih =>
    rw [List.flatMap_cons, ih]
    by_cases hcharged : (item.tenantId = tenantId && item.isChargedSince none) = true
    · simp [hcharged]
    · simp [hcharged]

/-- **`usage_summary` sums up the charges.** -/
theorem summarizes (hreads : text.ReadsBack py) (h : Logged py r.reservations r.budgetLog)
    (context : TenantContext) : r.Summarizes py text context := by
  refine ⟨(r.charged context.tenantId none none).map fun item =>
    (item.chargedTokens, item.chargedCostUsd), ?_, chargesByReservation_perm h _, ?_, ?_⟩
  · rw [amounts_chargesByReservation hreads h, List.map_map]
    rfl
  · rw [usageSummary, List.map_map, List.map_map, List.length_map]
    rfl
  · intro k hgrid hlt
    generalize hamounts : ((r.charged context.tenantId none none).map fun item =>
      (item.chargedTokens, item.chargedCostUsd)).map (·.2) = costs at *
    have htracks : Decimal.Tracks k (Decimal.sum costs) costs.sum := by
      refine Decimal.Tracks.sum fun x hx => ?_
      rw [← hamounts, List.map_map] at hx
      obtain ⟨item, hitem, rfl⟩ := List.mem_map.1 hx
      exact ⟨hgrid _ (List.mem_map.2 ⟨item, hitem, rfl⟩),
        (h.proper item (List.mem_of_mem_filter hitem)).chargedCost⟩
    rcases htracks.agrees with ⟨heq, -⟩ | ⟨-, hge⟩
    · exact heq
    · exact absurd (Decimal.lt_bound_iff.2 hlt) (not_lt.2 hge)

end MemoryRepository

/-- **The reservations are the replay of their log.**  In every session of honest callers the
state of every reservation is what the events about it lead to; a settled one was released
once and charged at most once, and what was not charged of its limits was released; and
`usage_summary` sums up the charges. -/
theorem memory_replays_log {text : PayloadText} {py : PyText} (hreads : text.ReadsBack py)
    (activeLeases : List WorkLease) {s : Session}
    (h : Session.Reaches py Session.Honest (.initial activeLeases) s) :
    (∀ id, (s.repository.reservations.lookup id).map (·.state) =
      replayBudget text (s.repository.trail id)) ∧
    (∀ id item, s.repository.reservations.lookup id = some item → item.isActive = false →
      ((s.repository.trail id).filter (·.eventType = .modelBudgetReleased)).length = 1 ∧
      ((s.repository.trail id).filter (·.eventType = .modelBudgetCharged)).length ≤ 1 ∧
      ∀ e ∈ s.repository.trail id, e.eventType = .modelBudgetReleased →
        ∃ tokens cost, e.amounts? text = some (tokens, cost) ∧ item.Releases tokens cost) ∧
    ∀ context, s.repository.Summarizes py text context := by
  have hlogged := h.recorded.logged
  refine ⟨fun id => ?_, fun id item hlookup hsettled => ?_, MemoryRepository.summarizes hreads hlogged⟩
  · cases hlookup : s.repository.reservations.lookup id with
    | none =>
      rw [MemoryRepository.trail, hlogged.filter_eq_nil hlookup]
      rfl
    | some item =>
      have hmem := Assoc.mem_values_of_lookup hlookup
      have htrail := hlogged.trails item hmem
      rw [hlogged.keyed.name_eq hlookup] at htrail
      exact (BudgetReservation.replay_entries hreads (hlogged.proper item hmem) htrail).symm
  · have hmem := Assoc.mem_values_of_lookup hlookup
    have htrail := hlogged.trails item hmem
    rw [hlogged.keyed.name_eq hlookup] at htrail
    exact BudgetReservation.settled_once hreads (hlogged.proper item hmem) htrail hsettled

/-! ## Twenty-nine digits -/

/-- Python's conversions; an amount that is whole is written as Python writes it. -/
def amountText : PyText :=
  { sampleText with strDecimal := fun x => String.ofList (Numeral.fraction x) }

/-- What Python makes of them again. -/
def amountPayload : PayloadText where
  uuid := UUID.parse
  decimal text := (Numeral.readFraction text.toList).map some

theorem amountPayload_readsBack : amountPayload.ReadsBack amountText := by
  have huuid : amountPayload.uuid = UUID.parse := rfl
  have hdecimal : ∀ x, amountPayload.decimal (amountText.strDecimal x) = some (some x) := by
    intro x
    show (Numeral.readFraction (String.ofList (Numeral.fraction x)).toList).map some = _
    rw [String.toList_ofList, Numeral.readFraction_fraction]
    rfl
  refine ⟨fun id => ?_, fun _ x _ => hdecimal x, fun _ x _ h => ?_⟩
  · rw [huuid, UUID.parse_str]
  · have hnil : (String.ofList (Numeral.fraction x)).toList = "".toList := congrArg _ h
    rw [String.toList_ofList] at hnil
    exact Numeral.fraction_ne_nil x hnil

/-- A reservation for a call. -/
def centReserve (request : ModelRequest) (costLimitUsd : Decimal) (first : ℕ) : MemoryCall :=
  .reserve sampleContext request sampleLease sampleRoute sampleQuotas 17 costLimitUsd "v1" 0
    (sampleIds first)

/-- The call uses one token, at a price per million. -/
def centSucceed (request : ModelRequest) (costLimitUsd : Decimal) (first : ℕ)
    (pricing : PricingVersion) : MemoryCall :=
  .succeed sampleContext request sampleLease
    (MemoryRepository.newReservation request sampleLease 17 costLimitUsd "v1" 0 (sampleIds first 0))
    { requestId := request.requestId
      model := sampleRoute.selected
      finishReason := "stop"
      safetyOutcome := "passed"
      usage := { inputTokens := 1, outputTokens := 0, valid := by decide }
      latencyMs := 1 }
    pricing 0 (sampleIds (first + 10))

/-- Two calls one after the other: the first costs `10 ^ (-28)` dollars of a little more than
one, the second one dollar. -/
def centCalls : List MemoryCall :=
  [centReserve sampleModelRequest (1 + 2 / 10 ^ 28) 60,
    centSucceed sampleModelRequest (1 + 2 / 10 ^ 28) 60
      { version := "v1", inputPerMillionUsd := 1 / 10 ^ 22, outputPerMillionUsd := 0
        valid := by decide +kernel },
    centReserve secondModelRequest 1 80,
    centSucceed secondModelRequest 1 80
      { version := "v1", inputPerMillionUsd := 10 ^ 6, outputPerMillionUsd := 0
        valid := by decide +kernel }]

def centSession : Session := centCalls.foldl (Session.step amountText) (.initial [sampleLease])

theorem Session.Honest.reserve {s : Session} {request : ModelRequest} {costLimitUsd : Decimal}
    {first : ℕ} (hfresh : s.repository.reservations.lookup (sampleIds first 0) = none)
    (hdecimal : ∃ k, Decimal.OnGrid k costLimitUsd) :
    s.Honest (centReserve request costLimitUsd first) := by
  refine ⟨fun _ _ _ h => (by cases h), ?_⟩
  intro _ _ _ _ _ _ _ _ _ _ h
  cases h
  exact ⟨hfresh, hdecimal⟩

theorem Session.Honest.succeed {s : Session} {request : ModelRequest} {costLimitUsd : Decimal}
    {first : ℕ} {pricing : PricingVersion}
    (hreserved :
      (s.step amountText (centReserve request costLimitUsd first)).repository.reservations.length ≠
        s.repository.reservations.length) :
    (s.step amountText (centReserve request costLimitUsd first)).Honest
      (centSucceed request costLimitUsd first pricing) := by
  refine ⟨fun _ _ _ h => ?_, fun _ _ _ _ _ _ _ _ _ _ h => (by cases h)⟩
  cases h
  exact Session.returned_of_reserve hreserved

theorem centSession_reached :
    Session.Reaches amountText Session.Honest (.initial [sampleLease]) centSession := by
  refine .tail (.tail (.tail (.tail (.refl _) (.reserve (by decide +kernel) ?_))
    (.succeed (by decide +kernel))) (.reserve (by decide +kernel) ?_)) (.succeed (by decide +kernel))
  · exact ⟨28, 10 ^ 28 + 2, by norm_num⟩
  · exact ⟨0, 1, by norm_num⟩

/-- **The released cost is rounded, and so is the sum**: one dollar is released of
`1 + 2 / 10 ^ 28` dollars after a charge of `1 / 10 ^ 28`, and the two charges sum up to one
dollar. -/
theorem memory_log_rounded : ∃ s,
    Session.Reaches amountText Session.Honest (.initial [sampleLease]) s ∧
    (∃ item, s.repository.reservations.lookup (sampleIds 60 0) = some item ∧
      item.chargedCostUsd ≤ item.costLimitUsd ∧
      ∃ e ∈ s.repository.trail (sampleIds 60 0), e.eventType = .modelBudgetReleased ∧
        ∃ tokens cost, e.amounts? amountPayload = some (tokens, cost) ∧
          item.chargedCostUsd + cost ≠ item.costLimitUsd) ∧
    ((JsonValue.text? (s.repository.usageSummary amountText sampleContext) "cost_usd").bind
        amountPayload.decimal).join ≠
      some (((s.repository.charges "acme").filterMap (·.amounts? amountPayload)).map (·.2)).sum := by
  refine ⟨centSession, centSession_reached, ?_, by decide +kernel⟩
  have htest : (centSession.repository.reservations.lookup (sampleIds 60 0)).any (fun item =>
      item.chargedCostUsd ≤ item.costLimitUsd &&
        (centSession.repository.trail (sampleIds 60 0)).any fun e =>
          e.eventType = .modelBudgetReleased && (e.amounts? amountPayload).any fun a =>
            item.chargedCostUsd + a.2 ≠ item.costLimitUsd) = true := by decide +kernel
  obtain ⟨item, hlookup, htest⟩ := (Option.any_eq_true _ _).1 htest
  rw [Bool.and_eq_true, decide_eq_true_eq, List.any_eq_true] at htest
  obtain ⟨hle, e, he, htest⟩ := htest
  rw [Bool.and_eq_true, decide_eq_true_eq] at htest
  obtain ⟨htype, hamounts⟩ := htest
  obtain ⟨⟨tokens, cost⟩, hamounts, hne⟩ := (Option.any_eq_true _ _).1 hamounts
  exact ⟨item, hlookup, hle, e, he, htype, tokens, cost, hamounts, of_decide_eq_true hne⟩

/-- The second call: one dollar is charged, and nothing is left of the one reserved. -/
theorem memory_replays_log_charged : ∃ s,
    Session.Reaches amountText Session.Honest (.initial [sampleLease]) s ∧
    replayBudget amountPayload (s.repository.trail (sampleIds 80 0)) = some (.charged 1 1 0) ∧
    ((s.repository.trail (sampleIds 80 0)).filter (·.eventType = .modelBudgetReleased)).length = 1 ∧
    s.repository.Summarizes amountText amountPayload sampleContext := by
  obtain ⟨hreplay, hsettled, hsummary⟩ := memory_replays_log amountPayload_readsBack [sampleLease]
    centSession_reached
  refine ⟨centSession, centSession_reached, ?_, ?_, hsummary sampleContext⟩
  · rw [← hreplay]
    decide +kernel
  · obtain ⟨item, hlookup, hstate⟩ := (Option.any_eq_true _ _).1
      (by decide +kernel : (centSession.repository.reservations.lookup (sampleIds 80 0)).any
        (fun item => !item.isActive) = true)
    exact (hsettled _ item hlookup (by simpa using hstate)).1

end AegisPlatform
