import AegisPlatform.Gateway.Memory
import AegisPlatform.Projections.Views

/-!
# The budget in the log

What the log of the in-memory gateway repository says about a budget: the events
`MODEL_BUDGET_RESERVED`, `MODEL_BUDGET_CHARGED` and `MODEL_BUDGET_RELEASED`.

* `BudgetEntry` — what such an event says; `BudgetReservation.entries` — the entries by which
  a reservation came to its state.
* `MemoryCall.books` — what every call adds to the log.
* `replayBudget` — the state the events of a reservation lead to; `replay_entries` — it is the
  state of the reservation.
-/

namespace AegisPlatform

/-! ## Entries -/

/-- An event about a budget, with what it says. -/
structure BudgetEntry where
  eventType : DomainEventType
  reservationId : UUID
  occurredAt : Option Timestamp
  tokens : ℤ
  costUsd : Decimal

/-- The fields in which an event about a budget says its amounts. -/
def DomainEventType.amountFields : DomainEventType → String × String
  | modelBudgetReserved => ("token_limit", "cost_limit_usd")
  | modelBudgetReleased => ("tokens_released", "cost_released_usd")
  | _ => ("tokens", "cost_usd")

namespace BudgetReservation

/-- The entry of its admission. -/
def opening (item : BudgetReservation) : BudgetEntry where
  eventType := .modelBudgetReserved
  reservationId := item.reservationId
  occurredAt := item.createdAt
  tokens := item.tokenLimit
  costUsd := item.costLimitUsd

/-- The entries of its settlement: what is charged, and what is released of the limits. -/
def closing (item : BudgetReservation) : List BudgetEntry :=
  match item.state with
  | .active => []
  | .charged tokens cost at' =>
    [⟨.modelBudgetCharged, item.reservationId, some at', tokens, cost⟩,
      ⟨.modelBudgetReleased, item.reservationId, some at', max (item.tokenLimit - tokens) 0,
        max (Decimal.sub item.costLimitUsd cost) 0⟩]
  | .released at' =>
    [⟨.modelBudgetReleased, item.reservationId, some at', item.tokenLimit, item.costLimitUsd⟩]

/-- The entries by which it came to its state. -/
def entries (item : BudgetReservation) : List BudgetEntry := item.opening :: item.closing

theorem closing_spec {item : BudgetReservation} {entry : BudgetEntry} (h : entry ∈ item.closing) :
    entry.reservationId = item.reservationId ∧ entry.eventType ≠ .modelBudgetReserved := by
  unfold closing at h
  split at h
  · cases h
  · simp only [List.mem_cons, List.not_mem_nil, or_false] at h
    rcases h with rfl | rfl
    · exact ⟨rfl, by simp⟩
    · exact ⟨rfl, by simp⟩
  · rw [List.mem_singleton.1 h]
    exact ⟨rfl, by simp⟩

end BudgetReservation

namespace BudgetEntry

/-- The details say what the entry says. -/
structure Writes (py : PyText) (at' : Timestamp) (entry : BudgetEntry)
    (v : DomainEventType × Dict) : Prop where
  eventType : v.1 = entry.eventType
  occurredAt : entry.occurredAt = some at'
  reservationId : v.2.get? "reservation_id" = some (.str entry.reservationId.str)
  tokens : v.2.get? entry.eventType.amountFields.1 = some (.int entry.tokens)
  costUsd : v.2.get? entry.eventType.amountFields.2 = some (.str (py.strDecimal entry.costUsd))

/-- The event of a tenant says what the entry says. -/
structure Books (py : PyText) (tenantId : String) (entry : BudgetEntry) (e : EventEnvelope) :
    Prop where
  eventType : e.eventType = entry.eventType
  tenantId : e.tenantId = tenantId
  occurredAt : entry.occurredAt = some e.occurredAt
  reservationId : e.payload.get? "reservation_id" = some (.str entry.reservationId.str)
  tokens : e.payload.get? entry.eventType.amountFields.1 = some (.int entry.tokens)
  costUsd : e.payload.get? entry.eventType.amountFields.2 =
    some (.str (py.strDecimal entry.costUsd))

variable {py : PyText} {request : ModelRequest} {at' : Timestamp}

theorem Writes.books {entry : BudgetEntry} {v : DomainEventType × Dict} {e : EventEnvelope}
    (hwrites : Writes py at' entry v) (hposts : MemoryRepository.Posts request at' v e) :
    Books py request.tenantId entry e := by
  have hfields : entry.eventType.amountFields.1 ∉
        ["work_id", "run_id", "lease_token", "lease_generation"] ∧
      entry.eventType.amountFields.2 ∉
        ["work_id", "run_id", "lease_token", "lease_generation"] := by
    unfold DomainEventType.amountFields
    split <;> decide
  refine ⟨hposts.eventType.trans hwrites.eventType, hposts.tenantId, ?_, ?_, ?_, ?_⟩
  · rw [hwrites.occurredAt, hposts.occurredAt]
  · rw [hposts.payload _ (by decide), hwrites.reservationId]
  · rw [hposts.payload _ hfields.1, hwrites.tokens]
  · rw [hposts.payload _ hfields.2, hwrites.costUsd]

/-- What is appended for details that say some entries says them. -/
theorem books_of_posts {entries : List BudgetEntry} {events : List (DomainEventType × Dict)}
    {es : List EventEnvelope} (hposts : List.Forall₂ (MemoryRepository.Posts request at') events es)
    (hwrites : List.Forall₂ (Writes py at') entries (events.filter (·.1.isBudget))) :
    List.Forall₂ (Books py request.tenantId) entries (es.filter (·.eventType.isBudget)) := by
  induction hposts generalizing entries with
  | nil =>
    cases hwrites
    exact .nil
  | @cons v e events es hpost _ ih =>
    by_cases hbudget : v.1.isBudget = true
    · have hevent : e.eventType.isBudget = true := by rw [hpost.eventType]; exact hbudget
      rw [List.filter_cons, if_pos hbudget] at hwrites
      rw [List.filter_cons, if_pos hevent]
      cases hwrites with
      | cons hwrite hrest => exact .cons (hwrite.books hpost) (ih hrest)
    · have hevent : ¬ e.eventType.isBudget = true := by rw [hpost.eventType]; exact hbudget
      rw [List.filter_cons, if_neg hbudget] at hwrites
      rw [List.filter_cons, if_neg hevent]
      exact ih hwrites

end BudgetEntry

/-! ## What a call adds -/

namespace MemoryCall

/-- The tenant whose events a call appends. -/
def tenantId : MemoryCall → String
  | reserve _ request .. | recordAttempt _ request .. | recordAttemptFailure _ request .. |
    succeed _ request .. | recordUsageFailure _ request .. | fail _ request .. => request.tenantId
  | replaceLease lease => lease.tenantId

/-- The entries of a call that goes through. -/
def entries : MemoryCall → List BudgetEntry
  | reserve _ request lease _ _ tokenLimit costLimitUsd priceVersion at' ids =>
    [(MemoryRepository.newReservation request lease tokenLimit costLimitUsd priceVersion at'
      (ids 0)).opening]
  | c =>
    match c.settlement? with
    | some (_, reservation, state) => BudgetReservation.closing { reservation with state := state }
    | none => []

variable {py : PyText} {r r' : MemoryRepository}

/-- A call adds entries to the log. -/
def Adds (py : PyText) (r r' : MemoryRepository) (tenantId : String) (entries : List BudgetEntry) :
    Prop :=
  ∃ es, r'.events = r.events ++ es ∧
    List.Forall₂ (BudgetEntry.Books py tenantId) entries (es.filter (·.eventType.isBudget))

theorem adds_of_settle {request : ModelRequest} {lease : WorkLease}
    {reservation : BudgetReservation} {state : ReservationState} {response : Option ModelResponse}
    {at' : Timestamp} {ids : ℕ → UUID} {events : List (DomainEventType × Dict)} {u : Unit}
    {entries : List BudgetEntry} (htenant : isBlank request.tenantId = false)
    (hfinite : ∀ v ∈ events, JsonValue.isFiniteFields v.2 = true)
    (hsettle : MemoryRepository.settle py request lease reservation state response at' ids events r =
      .ok u r')
    (hwrites : List.Forall₂ (BudgetEntry.Writes py at') entries (events.filter (·.1.isBudget))) :
    Adds py r r' request.tenantId entries := by
  rcases MemoryRepository.settle_eq htenant hfinite r with ⟨-, e, he⟩ | ⟨-, -, es, hposts, hes⟩
  · rw [he] at hsettle
    cases hsettle
  · rw [hes] at hsettle
    cases hsettle
    exact ⟨es, rfl, BudgetEntry.books_of_posts hposts hwrites⟩

/-- An attempt, once its arguments are valid, only appends events, none of them about a
budget. -/
theorem adds_of_record {request : ModelRequest} {lease : WorkLease}
    {reservation : BudgetReservation} {at' : Timestamp} {ids : ℕ → UUID}
    {events : List (DomainEventType × Dict)} {u : Unit}
    (htenant : isBlank request.tenantId = false)
    (hfinite : ∀ v ∈ events, JsonValue.isFiniteFields v.2 = true)
    (hnone : events.filter (·.1.isBudget) = [])
    (hrecord : (do
      let r ← get
      Memory.check (r.requireActive reservation)
      Memory.check (r.requireFence lease at')
      MemoryRepository.append request lease at' ids 0 events : Memory Unit) r = .ok u r') :
    Adds py r r' request.tenantId [] := by
  rw [MemoryRepository.get_bind] at hrecord
  obtain ⟨-, -, hrecord⟩ := MemoryRepository.eq_ok_of_check hrecord
  obtain ⟨-, -, happend⟩ := MemoryRepository.eq_ok_of_check hrecord
  obtain ⟨es, hposts, hes⟩ := MemoryRepository.append_eq htenant hfinite lease at' ids 0 r
  rw [hes] at happend
  cases happend
  refine ⟨es, rfl, BudgetEntry.books_of_posts hposts ?_⟩
  rw [hnone]
  exact .nil

/-- **What a call that goes through adds to the log.** -/
theorem books {c : MemoryCall} {result : Option BudgetReservation}
    (hexec : c.exec py r = .ok result r') : Adds py r r' c.tenantId c.entries := by
  cases c with
  | reserve context request lease route quotas tokenLimit costLimitUsd priceVersion at' ids =>
    obtain ⟨new, r₁, hreserve, hreturn⟩ := MemoryRepository.eq_ok_of_bind hexec
    cases hreturn
    rcases MemoryRepository.reserve_eq py context request lease route quotas tokenLimit
      costLimitUsd priceVersion at' ids r with ⟨e, -, he⟩ | ⟨-, es, hposts, hes⟩
    · rw [he] at hreserve
      cases hreserve
    · rw [hes] at hreserve
      cases hreserve
      exact ⟨es, rfl, BudgetEntry.books_of_posts hposts (.cons ⟨rfl, rfl, rfl, rfl, rfl⟩ .nil)⟩
  | recordAttempt context request lease reservation provider model attempt fallbackIndex at' ids =>
    obtain ⟨u, r₁, hrecord, hreturn⟩ := MemoryRepository.eq_ok_of_bind hexec
    cases hreturn
    obtain ⟨_, hvalid, hrecord⟩ := MemoryRepository.eq_ok_of_check hrecord
    obtain ⟨-, -, hrecord⟩ := MemoryRepository.eq_ok_of_check hrecord
    refine adds_of_record (MemoryRepository.notBlank_of_valid hvalid) ?_ ?_ hrecord
    · intro v hv
      rcases List.mem_append.1 hv with hv | hv
      · split at hv
        · rw [List.mem_singleton.1 hv]; rfl
        · cases hv
      · rw [List.mem_singleton.1 hv]; rfl
    · split <;> split <;> rfl
  | recordAttemptFailure context request lease reservation error provider model attempt fallbackIndex
      at' ids =>
    obtain ⟨u, r₁, hrecord, hreturn⟩ := MemoryRepository.eq_ok_of_bind hexec
    cases hreturn
    obtain ⟨_, hvalid, hrecord⟩ := MemoryRepository.eq_ok_of_check hrecord
    refine adds_of_record (MemoryRepository.notBlank_of_valid hvalid) ?_ ?_ hrecord
    · intro v hv
      rw [List.mem_singleton.1 hv]
      rfl
    · rw [List.filter_cons, MemoryRepository.isBudget_failureEventType]
      rfl
  | succeed context request lease reservation response pricing at' ids =>
    obtain ⟨u, r₁, hsucceed, hreturn⟩ := MemoryRepository.eq_ok_of_bind hexec
    cases hreturn
    obtain ⟨_, hvalid, hrest⟩ := MemoryRepository.eq_ok_of_check hsucceed
    obtain ⟨totals, htotals, -⟩ := MemoryRepository.eq_ok_of_check hrest
    obtain ⟨rfl, htokens, hcost⟩ := actualUsage_eq_ok.1 htotals
    obtain ⟨events, hfinite, hbudget, hsettle⟩ := MemoryRepository.succeed_eq_settle py reservation
      at' ids hvalid htotals
    rw [hsettle] at hsucceed
    refine adds_of_settle (MemoryRepository.notBlank_of_valid hvalid) hfinite hsucceed ?_
    rw [hbudget]
    -- a charge within the limits is taken from them
    have hleft : max (reservation.tokenLimit - (usageTotals pricing response).1) 0 =
        reservation.tokenLimit - (usageTotals pricing response).1 := max_eq_left (by omega)
    have hleftCost : max (Decimal.sub reservation.costLimitUsd (usageTotals pricing response).2) 0 =
        Decimal.sub reservation.costLimitUsd (usageTotals pricing response).2 :=
      max_eq_left (Decimal.round_nonneg (sub_nonneg.2 hcost))
    refine .cons ⟨rfl, rfl, rfl, rfl, rfl⟩ (.cons ⟨rfl, rfl, rfl, ?_, ?_⟩ .nil)
    · rw [hleft]
      rfl
    · rw [hleftCost]
      rfl
  | recordUsageFailure context request lease reservation response pricing error at' ids =>
    obtain ⟨u, r₁, hrecord, hreturn⟩ := MemoryRepository.eq_ok_of_bind hexec
    cases hreturn
    obtain ⟨_, hvalid, -⟩ := MemoryRepository.eq_ok_of_check hrecord
    obtain ⟨events, hfinite, hbudget, hsettle⟩ := MemoryRepository.recordUsageFailure_eq_settle py
      reservation at' ids hvalid response pricing error
    rw [hsettle] at hrecord
    refine adds_of_settle (MemoryRepository.notBlank_of_valid hvalid) hfinite hrecord ?_
    rw [hbudget]
    exact .cons ⟨rfl, rfl, rfl, rfl, rfl⟩ (.cons ⟨rfl, rfl, rfl, rfl, rfl⟩ .nil)
  | fail context request lease reservation error at' ids =>
    obtain ⟨u, r₁, hfail, hreturn⟩ := MemoryRepository.eq_ok_of_bind hexec
    cases hreturn
    obtain ⟨_, hvalid, -⟩ := MemoryRepository.eq_ok_of_check hfail
    obtain ⟨events, hfinite, hbudget, hsettle⟩ := MemoryRepository.fail_eq_settle py reservation at'
      ids hvalid error
    rw [hsettle] at hfail
    refine adds_of_settle (MemoryRepository.notBlank_of_valid hvalid) hfinite hfail ?_
    rw [hbudget]
    exact .cons ⟨rfl, rfl, rfl, rfl, rfl⟩ .nil
  | replaceLease lease =>
    cases hexec
    exact ⟨[], (List.append_nil _).symm, .nil⟩

end MemoryCall

/-! ## Replay -/

namespace EventEnvelope

/-- The text of `reservation_id`. -/
def reservationId? (e : EventEnvelope) : Option String := JsonValue.text? e.payload "reservation_id"

/-- The tokens and the cost an event about a budget says. -/
def amounts? (text : PayloadText) (e : EventEnvelope) : Option (ℤ × Decimal) :=
  match e.payload.get? e.eventType.amountFields.1,
    JsonValue.text? e.payload e.eventType.amountFields.2 with
  | some (.int tokens), some cost => (text.decimal cost).join.map (tokens, ·)
  | _, _ => none

end EventEnvelope

/-- What an event makes of the state of its reservation. -/
def replayBudgetEvent (text : PayloadText) (state : Option ReservationState) (e : EventEnvelope) :
    Option ReservationState :=
  match e.eventType, state with
  | .modelBudgetReserved, _ => some .active
  | .modelBudgetCharged, _ => (e.amounts? text).map fun a => .charged a.1 a.2 e.occurredAt
  | .modelBudgetReleased, some .active => some (.released e.occurredAt)
  | _, _ => state

/-- The state the events of a reservation lead to. -/
def replayBudget (text : PayloadText) (events : List EventEnvelope) : Option ReservationState :=
  events.foldl (replayBudgetEvent text) none

namespace BudgetEntry

variable {py : PyText} {text : PayloadText} {tenantId : String} {entry : BudgetEntry}
  {e : EventEnvelope}

theorem Books.reservationId?_eq (h : Books py tenantId entry e) :
    e.reservationId? = some entry.reservationId.str := by
  rw [EventEnvelope.reservationId?, JsonValue.text?, h.reservationId]

theorem Books.amounts?_eq (h : Books py tenantId entry e) (hreads : text.ReadsBack py)
    (hdecimal : ∃ k, Decimal.OnGrid k entry.costUsd) :
    e.amounts? text = some (entry.tokens, entry.costUsd) := by
  obtain ⟨k, hgrid⟩ := hdecimal
  rw [EventEnvelope.amounts?, JsonValue.text?, h.eventType, h.tokens, h.costUsd]
  simp only [hreads.decimal_str k _ hgrid, Option.join_some, Option.map_some]

end BudgetEntry

namespace BudgetReservation

/-- Its amounts are not negative, and its costs are decimal numbers. -/
structure Proper (item : BudgetReservation) : Prop where
  tokenLimit : 0 ≤ item.tokenLimit
  costLimit : 0 ≤ item.costLimitUsd
  chargedCost : 0 ≤ item.chargedCostUsd
  costLimitUsd : ∃ k, Decimal.OnGrid k item.costLimitUsd
  chargedCostUsd : ∃ k, Decimal.OnGrid k item.chargedCostUsd

/-- What is released of the limits when it is settled: what the charge leaves of them, and
nothing where it exceeds them.  A cost that is left is rounded to 28 digits; a call that
failed releases its whole limit. -/
structure Releases (item : BudgetReservation) (tokens : ℤ) (cost : Decimal) : Prop where
  tokens_add : item.chargedTokens ≤ item.tokenLimit → item.chargedTokens + tokens = item.tokenLimit
  no_tokens : item.tokenLimit < item.chargedTokens → tokens = 0
  cost_eq : item.chargedCostUsd ≤ item.costLimitUsd → cost =
    match item.state with
    | .charged _ charged _ => Decimal.sub item.costLimitUsd charged
    | _ => item.costLimitUsd
  cost_add : item.chargedCostUsd ≤ item.costLimitUsd →
    ∀ k, Decimal.OnGrid k (item.costLimitUsd - item.chargedCostUsd) →
      (item.costLimitUsd - item.chargedCostUsd) * 10 ^ k < 10 ^ 28 →
      item.chargedCostUsd + cost = item.costLimitUsd
  no_cost : item.costLimitUsd < item.chargedCostUsd → cost = 0

variable {py : PyText} {text : PayloadText} {tenantId : String} {item : BudgetReservation}
  {trail : List EventEnvelope}

theorem Proper.entries (h : item.Proper) : ∀ entry ∈ item.entries,
    ∃ k, Decimal.OnGrid k entry.costUsd := by
  intro entry hentry
  rcases List.mem_cons.1 hentry with rfl | hentry
  · exact h.costLimitUsd
  · unfold closing at hentry
    split at hentry
    · cases hentry
    · rename_i tokens cost at' hstate
      have hcost : item.chargedCostUsd = cost := by rw [BudgetReservation.chargedCostUsd, hstate]
      simp only [List.mem_cons, List.not_mem_nil, or_false] at hentry
      rcases hentry with rfl | rfl
      · exact hcost ▸ h.chargedCostUsd
      · rcases max_choice (Decimal.sub item.costLimitUsd cost) 0 with hmax | hmax
        · rw [hmax]
          exact Decimal.onGrid_round _
        · rw [hmax]
          exact ⟨0, Decimal.OnGrid.zero 0⟩
    · rw [List.mem_singleton.1 hentry]
      exact h.costLimitUsd

/-- **The events of a reservation lead to its state.** -/
theorem replay_entries (hreads : text.ReadsBack py) (hproper : item.Proper)
    (hbooks : List.Forall₂ (BudgetEntry.Books py tenantId) item.entries trail) :
    replayBudget text trail = some item.state := by
  have hgrid := hproper.entries
  unfold entries closing at hbooks hgrid
  cases hstate : item.state with
  | active =>
    rw [hstate] at hbooks
    cases hbooks with | cons hopening hclosing =>
    cases hclosing
    simp [replayBudget, replayBudgetEvent, hopening.eventType, opening]
  | charged tokens cost at' =>
    rw [hstate] at hbooks hgrid
    cases hbooks with | cons hopening hclosing =>
    cases hclosing with | cons hcharged hclosing =>
    cases hclosing with | cons hreleased hclosing =>
    cases hclosing
    have hamounts := hcharged.amounts?_eq hreads (hgrid _ (by simp))
    have hat := Option.some.inj hcharged.occurredAt
    simp [replayBudget, replayBudgetEvent, hopening.eventType, hcharged.eventType,
      hreleased.eventType, opening, hamounts, hat]
  | released at' =>
    rw [hstate] at hbooks
    cases hbooks with | cons hopening hclosing =>
    cases hclosing with | cons hreleased hclosing =>
    cases hclosing
    have hat := Option.some.inj hreleased.occurredAt
    simp [replayBudget, replayBudgetEvent, hopening.eventType, hreleased.eventType, opening, hat]

theorem releases_charged {tokens : ℤ} {cost : Decimal} {at' : Timestamp}
    (hstate : item.state = .charged tokens cost at') :
    item.Releases (max (item.tokenLimit - tokens) 0) (max (Decimal.sub item.costLimitUsd cost) 0) := by
  have hchargedTokens : item.chargedTokens = tokens := by rw [chargedTokens, hstate]
  have hchargedCost : item.chargedCostUsd = cost := by rw [chargedCostUsd, hstate]
  have hleft : cost ≤ item.costLimitUsd →
      max (Decimal.sub item.costLimitUsd cost) 0 = Decimal.sub item.costLimitUsd cost :=
    fun hle => max_eq_left (Decimal.round_nonneg (sub_nonneg.2 hle))
  constructor
  · intro hle
    omega
  · intro hlt
    omega
  · rw [hstate, hchargedCost]
    exact hleft
  · rw [hchargedCost]
    intro hle k hgrid hlt
    rw [hleft hle, Decimal.sub, Decimal.round_eq_self hgrid (sub_nonneg.2 hle) hlt]
    ring
  · rw [hchargedCost]
    intro hlt
    exact max_eq_right (Decimal.round_nonpos (sub_nonpos.2 hlt.le))

theorem releases_released (hproper : item.Proper) {at' : Timestamp}
    (hstate : item.state = .released at') : item.Releases item.tokenLimit item.costLimitUsd := by
  have hchargedTokens : item.chargedTokens = 0 := by rw [chargedTokens, hstate]
  have hchargedCost : item.chargedCostUsd = 0 := by rw [chargedCostUsd, hstate]
  have htokens := hproper.tokenLimit
  constructor
  · intro _
    omega
  · intro hlt
    omega
  · rw [hstate]
    exact fun _ => rfl
  · rw [hchargedCost]
    exact fun _ _ _ _ => zero_add _
  · rw [hchargedCost]
    exact fun hlt => absurd hlt (not_lt.2 hproper.costLimit)

/-- **A settled reservation has been charged once at most, and released once**: what is
released is what the charge leaves of the limits. -/
theorem settled_once (hreads : text.ReadsBack py) (hproper : item.Proper)
    (hbooks : List.Forall₂ (BudgetEntry.Books py tenantId) item.entries trail)
    (hsettled : item.isActive = false) :
    (trail.filter (·.eventType = .modelBudgetReleased)).length = 1 ∧
    (trail.filter (·.eventType = .modelBudgetCharged)).length ≤ 1 ∧
    ∀ e ∈ trail, e.eventType = .modelBudgetReleased →
      ∃ tokens cost, e.amounts? text = some (tokens, cost) ∧ item.Releases tokens cost := by
  have hgrid := hproper.entries
  unfold entries closing at hbooks hgrid
  cases hstate : item.state with
  | active =>
    rw [isActive, hstate] at hsettled
    cases hsettled
  | charged tokens cost at' =>
    rw [hstate] at hbooks hgrid
    cases hbooks with | cons hopening hclosing =>
    cases hclosing with | cons hcharged hclosing =>
    cases hclosing with | cons hreleased hclosing =>
    cases hclosing
    have hamounts := hreleased.amounts?_eq hreads (hgrid _ (by simp))
    refine ⟨?_, ?_, ?_⟩
    · simp [hopening.eventType, hcharged.eventType, hreleased.eventType, opening]
    · simp [hopening.eventType, hcharged.eventType, hreleased.eventType, opening]
    · intro e he htype
      simp only [List.mem_cons, List.not_mem_nil, or_false] at he
      rcases he with rfl | rfl | rfl
      · rw [hopening.eventType] at htype
        cases htype
      · rw [hcharged.eventType] at htype
        cases htype
      · exact ⟨_, _, hamounts, releases_charged hstate⟩
  | released at' =>
    rw [hstate] at hbooks hgrid
    cases hbooks with | cons hopening hclosing =>
    cases hclosing with | cons hreleased hclosing =>
    cases hclosing
    have hamounts := hreleased.amounts?_eq hreads (hgrid _ (by simp))
    refine ⟨?_, ?_, ?_⟩
    · simp [hopening.eventType, hreleased.eventType, opening]
    · simp [hopening.eventType, hreleased.eventType, opening]
    · intro e he htype
      simp only [List.mem_cons, List.not_mem_nil, or_false] at he
      rcases he with rfl | rfl
      · rw [hopening.eventType] at htype
        cases htype
      · exact ⟨_, _, hamounts, releases_released hproper hstate⟩

/-- The charge of a reservation is in its events, if it was charged. -/
theorem charges_of_books (hreads : text.ReadsBack py) (hproper : item.Proper)
    (hbooks : List.Forall₂ (BudgetEntry.Books py item.tenantId) item.entries trail)
    (tenantId : String) :
    (trail.filter fun e => e.eventType = .modelBudgetCharged && e.tenantId = tenantId).map
        (·.amounts? text) =
      if item.tenantId = tenantId && item.isChargedSince none then
        [some (item.chargedTokens, item.chargedCostUsd)]
      else [] := by
  have hgrid := hproper.entries
  unfold entries closing at hbooks hgrid
  cases hstate : item.state with
  | active =>
    rw [hstate] at hbooks
    cases hbooks with | cons hopening hclosing =>
    cases hclosing
    simp [hopening.eventType, opening, isChargedSince, hstate]
  | charged tokens cost at' =>
    rw [hstate] at hbooks hgrid
    cases hbooks with | cons hopening hclosing =>
    cases hclosing with | cons hcharged hclosing =>
    cases hclosing with | cons hreleased hclosing =>
    cases hclosing
    have hamounts := hcharged.amounts?_eq hreads (hgrid _ (by simp))
    by_cases htenant : item.tenantId = tenantId
    · simp [hopening.eventType, hcharged.eventType, hreleased.eventType, opening, hcharged.tenantId,
        htenant, isChargedSince, hstate, hamounts, chargedTokens, chargedCostUsd]
    · simp [hopening.eventType, hcharged.eventType, hreleased.eventType, opening, hcharged.tenantId,
        htenant]
  | released at' =>
    rw [hstate] at hbooks
    cases hbooks with | cons hopening hclosing =>
    cases hclosing with | cons hreleased hclosing =>
    cases hclosing
    simp [hopening.eventType, hreleased.eventType, opening, isChargedSince, hstate]

end BudgetReservation

end AegisPlatform
