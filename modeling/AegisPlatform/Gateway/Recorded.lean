import AegisPlatform.EventStore.Stored
import AegisPlatform.Gateway.Postgres

/-!
# A gateway operation on its own

With nobody else about, an operation of the gateway repository under a current lease does
what its mutation does: the events it builds are well formed, and the ledger takes them as
long as none of their identifiers and keys is in use.

* `Gateway.Drafted`, `Gateway.events_drafted` — the batch that `_events` builds.
* `Database.insertEvents_new` — the ledger takes a batch that is new to it.
* `Gateway.record_alone` — what the operation does.
-/

namespace AegisPlatform

open Fallible Interleave

namespace Gateway

variable {py : PyText} {request : ModelRequest} {lease : WorkLease}
  {reservation : BudgetReservation} {at' : Timestamp} {ids : ℕ → UUID}

/-! ## The batch -/

/-- A type whose stored name has no colon, which the parts of a key are joined with. -/
def Plain (eventType : DomainEventType) : Prop := ':' ∉ eventType.value.toList

instance (eventType : DomainEventType) : Decidable (Plain eventType) :=
  inferInstanceAs (Decidable (':' ∉ eventType.value.toList))

/-- Where texts without a colon begin alike, up to the first colon they are the same. -/
theorem colon_inj {a a' b b' : List Char} (ha : ':' ∉ a) (ha' : ':' ∉ a')
    (h : a ++ ':' :: b = a' ++ ':' :: b') : a = a' ∧ b = b' := by
  have hbefore : ∀ {a : List Char} (b : List Char), ':' ∉ a →
      (a ++ ':' :: b).takeWhile (· ≠ ':') = a := by
    intro a b ha
    rw [List.takeWhile_append_of_pos fun c hc => by simpa using ne_of_mem_of_not_mem hc ha]
    simp
  have hsame : a = a' := by
    rw [← hbefore b ha, h, hbefore b' ha']
  subst hsame
  rw [List.append_cancel_left_eq, List.cons.injEq] at h
  exact ⟨rfl, h.2⟩

/-- A key starts with the request's own, the event type, the place of the attempt and the
reservation. -/
theorem eventIdempotencyKey_parts (py : PyText) (request : ModelRequest)
    (eventType : DomainEventType) (payload : Dict) (index : ℕ) :
    ∃ rest, eventIdempotencyKey py request eventType payload index =
      request.idempotencyKey ++ ":" ++ (eventType.value ++ ":" ++
        (py.str ((payload.get? "fallback_index").getD (.int 0)) ++ ":" ++
          (py.str ((payload.get? "attempt").getD (.int 0)) ++ ":" ++
            (py.str ((payload.get? "reservation_id").getD (.str "")) ++ ":" ++ rest)))) := by
  have hjoin : ∀ (a b c d e f : String) (l : List String), ∃ rest,
      ":".intercalate (a :: b :: c :: d :: e :: f :: l) =
        a ++ ":" ++ (b ++ ":" ++ (c ++ ":" ++ (d ++ ":" ++ (e ++ ":" ++ rest)))) := by
    intro a b c d e f l
    iterate 5 rw [String.intercalate_cons_cons]
    exact ⟨_, rfl⟩
  unfold eventIdempotencyKey
  simp only [List.cons_append, List.nil_append]
  exact hjoin _ _ _ _ _ _ _

theorem eventIdempotencyKey_ne (py : PyText) (request : ModelRequest)
    (eventType : DomainEventType) (payload : Dict) (index : ℕ) :
    eventIdempotencyKey py request eventType payload index ≠ "" := by
  obtain ⟨rest, h⟩ := eventIdempotencyKey_parts py request eventType payload index
  rw [h]
  intro hempty
  have hlist := congrArg String.toList hempty
  simp at hlist

/-- Keys of two types differ. -/
theorem eventIdempotencyKey_inj {eventType eventType' : DomainEventType} {payload payload' : Dict}
    {index index' : ℕ} (hplain : Plain eventType) (hplain' : Plain eventType')
    (h : eventIdempotencyKey py request eventType payload index =
      eventIdempotencyKey py request eventType' payload' index') :
    eventType.value = eventType'.value := by
  obtain ⟨rest, hkey⟩ := eventIdempotencyKey_parts py request eventType payload index
  obtain ⟨rest', hkey'⟩ := eventIdempotencyKey_parts py request eventType' payload' index'
  rw [hkey, hkey'] at h
  have hlist := congrArg String.toList h
  simp only [String.toList_append, List.append_assoc, List.append_cancel_left_eq] at hlist
  exact String.toList_injective (colon_inj hplain hplain' hlist).1

/-- The event of a value. -/
def draft (py : PyText) (request : ModelRequest) (lease : WorkLease) (at' : Timestamp)
    (ids : ℕ → UUID) (index : ℕ) (causation : Option UUID) (v : DomainEventType × Dict) :
    EventEnvelope where
  eventId := ids index
  tenantId := request.tenantId
  aggregateId := lease.workId.str
  eventType := v.1
  occurredAt := at'
  payload := v.2
  correlationId := some request.runId
  causationId := causation
  idempotencyKey := some (eventIdempotencyKey py request v.1 v.2 index)

theorem events_cons {index : ℕ} {causation : Option UUID} {v : DomainEventType × Dict}
    {rest : List (DomainEventType × Dict)} {later : List EventEnvelope}
    (htenant : isBlank request.tenantId = false)
    (hfinite : JsonValue.isFiniteFields v.2 = true)
    (hlater : events py request lease at' ids (index + 1) (some (ids index)) rest = .ok later) :
    events py request lease at' ids index causation (v :: rest) =
      .ok (draft py request lease at' ids index causation v :: later) := by
  have hkey : some (eventIdempotencyKey py request v.1 v.2 index) ≠ some "" :=
    fun h => eventIdempotencyKey_ne py request v.1 v.2 index (Option.some.inj h)
  have hmake : (draft py request lease at' ids index causation v).make = .ok _ :=
    EventEnvelope.make_eq_ok rfl htenant (UUID.isBlank_str lease.workId) hkey hfinite
  show ((draft py request lease at' ids index causation v).make >>= fun event =>
    events py request lease at' ids (index + 1) (some event.eventId) rest >>= fun later =>
      pure (event :: later)) = _
  rw [hmake]
  show (events py request lease at' ids (index + 1) (some (ids index)) rest >>= fun later =>
      pure (_ :: later)) = _
  rw [hlater]
  rfl

/-- An event of a batch of the leased item: not stored yet, and named after one of the
values it was built from. -/
structure Drafted (py : PyText) (request : ModelRequest) (lease : WorkLease) (ids : ℕ → UUID)
    (index : ℕ) (values : List (DomainEventType × Dict)) (e : EventEnvelope) : Prop where
  tenantId : e.tenantId = request.tenantId
  aggregateId : e.aggregateId = lease.workId.str
  aggregateSequence : e.aggregateSequence = 0
  globalPosition : e.globalPosition = none
  eventId : ∃ n, index ≤ n ∧ n < index + values.length ∧ e.eventId = ids n
  built : ∃ v ∈ values, ∃ n, e.payload = v.2 ∧
    e.idempotencyKey = some (eventIdempotencyKey py request v.1 v.2 n)

/-- Two events with different identifiers and keys. -/
def Apart (e e' : EventEnvelope) : Prop :=
  e.eventId ≠ e'.eventId ∧ e.idempotencyKey ≠ e'.idempotencyKey

/-- **`_events` refuses nothing**, and no two of its events are alike. -/
theorem events_drafted (py : PyText) (lease : WorkLease) (at' : Timestamp)
    (htenant : isBlank request.tenantId = false) {bound : ℕ} (hids : Set.InjOn ids (Set.Iio bound))
    {values : List (DomainEventType × Dict)} (index : ℕ) (causation : Option UUID)
    (hbound : index + values.length ≤ bound)
    (hfinite : ∀ v ∈ values, JsonValue.isFiniteFields v.2 = true)
    (hplain : ∀ v ∈ values, Plain v.1) (hnodup : (values.map (·.1.value)).Nodup) :
    ∃ batch, events py request lease at' ids index causation values = .ok batch ∧
      batch.length = values.length ∧ batch.Pairwise Apart ∧
      ∀ e ∈ batch, Drafted py request lease ids index values e := by
  induction values generalizing index causation with
  | nil => exact ⟨[], rfl, rfl, .nil, fun _ he => (by cases he)⟩
  | cons v rest ih =>
    rw [List.map_cons, List.nodup_cons] at hnodup
    obtain ⟨hfresh, hnodup⟩ := hnodup
    rw [List.length_cons] at hbound
    obtain ⟨later, hlater, hlength, hapart, hdrafted⟩ := ih (index + 1) (some (ids index)) (by omega)
      (fun v hv => hfinite v (List.mem_cons_of_mem _ hv))
      (fun v hv => hplain v (List.mem_cons_of_mem _ hv)) hnodup
    refine ⟨_, events_cons htenant (hfinite v List.mem_cons_self) hlater,
      by rw [List.length_cons, List.length_cons, hlength],
      List.pairwise_cons.2 ⟨fun e he => ⟨fun hsame => ?_, fun hsame => ?_⟩, hapart⟩,
      fun e he => ?_⟩
    · obtain ⟨n, hn, hlast, hid⟩ := (hdrafted e he).eventId
      rw [hid] at hsame
      have hindex : index = n := hids (Set.mem_Iio.2 (by omega)) (Set.mem_Iio.2 (by omega)) hsame
      omega
    · obtain ⟨v', hv', m, -, hkey⟩ := (hdrafted e he).built
      rw [hkey] at hsame
      refine hfresh (List.mem_map.2 ⟨v', hv', ?_⟩)
      exact (eventIdempotencyKey_inj (hplain v List.mem_cons_self)
        (hplain v' (List.mem_cons_of_mem _ hv')) (Option.some.inj hsame)).symm
    · rcases List.mem_cons.1 he with rfl | he
      · exact ⟨rfl, rfl, rfl, rfl, ⟨index, le_rfl, by rw [List.length_cons]; omega, rfl⟩,
          ⟨v, List.mem_cons_self, index, rfl, rfl⟩⟩
      · obtain ⟨h1, h2, h3, h4, ⟨n, hn, hlast, hid⟩, ⟨v', hv', hbuilt⟩⟩ := hdrafted e he
        exact ⟨h1, h2, h3, h4, ⟨n, by omega, by rw [List.length_cons]; omega, hid⟩,
          ⟨v', List.mem_cons_of_mem _ hv', hbuilt⟩⟩

end Gateway

/-! ## What the ledger takes -/

namespace Database

variable {db : Database} {recordedAt : Timestamp}

/-- No event of the tenant has the identifier or the key of the event. -/
def New (db : Database) (e : EventEnvelope) : Prop :=
  ∀ e' ∈ db.events, e'.tenantId = e.tenantId →
    e'.eventId ≠ e.eventId ∧ e'.idempotencyKey ≠ e.idempotencyKey

/-- A batch that is new to the ledger is taken at the head of its stream. -/
theorem insertEvents_new {version : ℕ} {es : List EventEnvelope} {tenantId aggregateId : String}
    (hnew : ∀ e ∈ es, db.New e) (hapart : es.Pairwise Gateway.Apart)
    (hstream : ∀ e ∈ es, e.tenantId = tenantId ∧ e.aggregateId = aggregateId)
    (hbelow : ∀ e ∈ db.events, e.tenantId = tenantId → e.aggregateId = aggregateId →
      e.aggregateSequence ≤ version) :
    ∃ db', db.insertEvents recordedAt version es = .ok db' := by
  induction es generalizing db version with
  | nil => exact ⟨db, rfl⟩
  | cons e rest ih =>
    obtain ⟨htenant, haggregate⟩ := hstream e List.mem_cons_self
    have hrefuses : ¬ db.refuses e (version + 1) = true := by
      intro h
      obtain ⟨e', he', h⟩ := List.any_eq_true.1 h
      simp only [Bool.and_eq_true, Bool.or_eq_true, decide_eq_true_eq] at h
      obtain ⟨htenant', (hid | ⟨haggregate', hsequence⟩) | ⟨-, hkey⟩⟩ := h
      · exact (hnew e List.mem_cons_self e' he' htenant').1 hid
      · have hle := hbelow e' he' (htenant'.trans htenant) (haggregate'.trans haggregate)
        omega
      · exact (hnew e List.mem_cons_self e' he' htenant').2 hkey
    obtain ⟨hfirst, hrest⟩ := List.pairwise_cons.1 hapart
    obtain ⟨db', hdb'⟩ := @ih { db with
        events := db.events ++ [e.stored (version + 1) db.nextPosition recordedAt]
        nextPosition := db.nextPosition + 1 } (version + 1)
      (fun e₁ he₁ e' he' htenant' => by
        rcases List.mem_append.1 he' with he' | he'
        · exact hnew e₁ (List.mem_cons_of_mem _ he₁) e' he' htenant'
        · rw [List.mem_singleton.1 he']
          exact hfirst e₁ he₁)
      hrest (fun e₁ he₁ => hstream e₁ (List.mem_cons_of_mem _ he₁))
      (fun e' he' htenant' haggregate' => by
        rcases List.mem_append.1 he' with he' | he'
        · have hle := hbelow e' he' htenant' haggregate'
          omega
        · rw [List.mem_singleton.1 he']
          exact le_rfl)
    refine ⟨db', ?_⟩
    rw [insertEvents, raiseIf, if_neg hrefuses]
    exact hdb'

/-- No event of a stream is numbered beyond its head. -/
theorem HeadsAgree.le_version (h : db.HeadsAgree) {tenantId aggregateId : String}
    {e : EventEnvelope} (he : e ∈ db.events) (htenant : e.tenantId = tenantId)
    (haggregate : e.aggregateId = aggregateId) :
    e.aggregateSequence ≤ db.version tenantId aggregateId := by
  have hmem : e.aggregateSequence ∈ List.range' 1 (db.version tenantId aggregateId) := by
    rw [← h tenantId aggregateId]
    exact List.mem_map.2 ⟨e, List.mem_filter.2 ⟨he, by simp [htenant, haggregate]⟩, rfl⟩
  rw [List.mem_range'_1] at hmem
  omega

/-- **An append of a new batch at the head of its stream succeeds.** -/
theorem appendInTransaction_new (recordedAt : Timestamp) {es : List EventEnvelope}
    {tenantId aggregateId : String}
    (hheads : db.HeadsAgree) (htenant : tenantId ∈ db.tenants) (hne : es ≠ [])
    (hnew : ∀ e ∈ es, db.New e) (hapart : es.Pairwise Gateway.Apart)
    (hstream : ∀ e ∈ es, e.tenantId = tenantId ∧ e.aggregateId = aggregateId) :
    ∃ db' version, db.appendInTransaction recordedAt es (db.version tenantId aggregateId) [] =
      .ok (db', version) := by
  obtain ⟨first, rest, rfl⟩ := List.exists_cons_of_ne_nil hne
  obtain ⟨rfl, rfl⟩ := hstream first List.mem_cons_self
  obtain ⟨db₁, hdb₁⟩ := insertEvents_new hnew hapart hstream
    (fun e he h1 h2 => hheads.le_version he h1 h2)
  refine ⟨{ db₁ with
      heads := db₁.heads.upsert (first.tenantId, first.aggregateId)
        (db.version first.tenantId first.aggregateId + (first :: rest).length) },
    db.version first.tenantId first.aggregateId + (first :: rest).length, ?_⟩
  simp only [appendInTransaction, bind_eq_ok, orRaise_eq_ok, raiseIf_eq_ok, pure_eq_ok, not_not]
  exact ⟨first, rfl, (), htenant, (), rfl, db₁, hdb₁, _, rfl, rfl⟩

/-- What the gateway keeps of its budgets. -/
def budget (db : Database) : Table (String × UUID) ReservationRow × Table (String × UUID) UsageRow :=
  (db.reservations, db.usage)

end Database

/-! ## What an operation does -/

/-- The lease is current, and nobody holds its row. -/
structure World.Current (w : World) (lease : WorkLease) : Prop where
  row : ∃ row, w.db.workLeases.lookup lease.key = some row ∧
    row.holds lease.token lease.generation = true ∧ w.clock < row.expiresAt
  free : w.locked lease.key = false

namespace Gateway

variable {py : PyText} {context : TenantContext} {request : ModelRequest} {lease : WorkLease}
  {reservation : BudgetReservation} {at' : Timestamp} {ids : ℕ → UUID}

/-- The values `record` is given are well formed, and of different types. -/
structure Proper (values : List (DomainEventType × Dict)) : Prop where
  nonempty : values ≠ []
  few : values.length ≤ 4
  finite : ∀ v ∈ values, JsonValue.isFiniteFields v.2 = true
  plain : ∀ v ∈ values, Plain v.1
  nodup : (values.map (·.1.value)).Nodup

/-- Values of these types are told apart by them. -/
def PlainTypes (types : List DomainEventType) : Prop :=
  types ≠ [] ∧ types.length ≤ 4 ∧ (∀ ty ∈ types, Plain ty) ∧ (types.map (·.value)).Nodup

instance (types : List DomainEventType) : Decidable (PlainTypes types) :=
  inferInstanceAs (Decidable (_ ∧ _ ∧ _ ∧ _))

theorem Proper.of_types {values : List (DomainEventType × Dict)} {types : List DomainEventType}
    (hvalues : values.map (·.1) = types) (htypes : PlainTypes types)
    (hfinite : ∀ v ∈ values, JsonValue.isFiniteFields v.2 = true) : Proper values := by
  subst hvalues
  obtain ⟨hne, hfew, hplain, hnodup⟩ := htypes
  rw [List.length_map] at hfew
  refine ⟨by simpa using hne, hfew, hfinite, fun v hv => hplain v.1 (List.mem_map_of_mem hv), ?_⟩
  rw [List.map_map] at hnodup
  exact hnodup

theorem plainTypes_reserve :
    PlainTypes [.modelRouteDecided, .modelCallRequested, .modelBudgetReserved] := by decide

theorem plainTypes_succeed : PlainTypes [.modelCallSucceeded, .modelUsageRecorded,
    .modelBudgetCharged, .modelBudgetReleased] := by decide

/-- The types of a failed settlement. -/
theorem plainTypes_failure (error : ModelGatewayError) :
    PlainTypes [failureEventType error, .modelUsageRecorded, .modelBudgetCharged,
      .modelBudgetReleased] ∧ PlainTypes [failureEventType error, .modelBudgetReleased] := by
  unfold failureEventType
  cases error.errorClass <;> decide

/-! What each operation records, once its arguments are valid. -/

/-- The reservation `reserve` makes. -/
def newReservation (request : ModelRequest) (tokenLimit : ℤ) (costLimitUsd : Decimal)
    (priceVersion : String) (reservationId : UUID) : BudgetReservation where
  reservationId := reservationId
  tenantId := request.tenantId
  runId := request.runId
  requestId := request.requestId
  tokenLimit := tokenLimit
  costLimitUsd := costLimitUsd
  priceVersion := priceVersion

theorem reserve_eq_record (py : PyText) (at' : Timestamp) (ids : ℕ → UUID)
    (hvalid : validate context request lease = .ok ()) (route : RouteDecision) (quotas : QuotaLimits)
    (tokenLimit : ℤ) (costLimitUsd : Decimal) (priceVersion : String) :
    ∃ values, Proper values ∧
      reserve py context request lease route quotas tokenLimit costLimitUsd priceVersion at' ids =
        (record py context request lease
          (newReservation request tokenLimit costLimitUsd priceVersion (ids 0)) at' ids values
          (.gateway (.reserve request lease
            (newReservation request tokenLimit costLimitUsd priceVersion (ids 0)) quotas at'))).bind
          fun _ => .ret (newReservation request tokenLimit costLimitUsd priceVersion (ids 0)) := by
  simp only [reserve, hvalid]
  refine ⟨_, ?_, rfl⟩
  refine .of_types rfl plainTypes_reserve ?_
  simp only [List.forall_mem_cons, List.not_mem_nil, false_implies, implies_true, and_true]
  exact ⟨by simp [JsonValue.isFiniteFields, JsonValue.isFinite, JsonValue.isFiniteList_map_str],
    rfl, rfl⟩

theorem succeed_eq_record (py : PyText) (at' : Timestamp) (ids : ℕ → UUID)
    (hvalid : validate context request lease = .ok ())
    {response : ModelResponse} {pricing : PricingVersion}
    (husage : actualUsage pricing response reservation = .ok (usageTotals pricing response)) :
    ∃ values, Proper values ∧
      succeed py context request lease reservation response pricing at' ids =
        record py context request lease reservation at' ids values
          (.gateway (.charge request lease reservation response pricing.version
            (usageTotals pricing response).1 (usageTotals pricing response).2 at')) := by
  simp only [succeed, hvalid, husage]
  refine ⟨_, ?_, rfl⟩
  refine .of_types rfl plainTypes_succeed ?_
  simp only [List.forall_mem_cons, List.not_mem_nil, false_implies, implies_true, and_true]
  refine ⟨?_, rfl, rfl, rfl⟩
  cases response.providerRequestId <;> rfl

theorem recordUsageFailure_eq_record (py : PyText) (reservation : BudgetReservation) (at' : Timestamp)
    (ids : ℕ → UUID)
    (hvalid : validate context request lease = .ok ())
    (response : ModelResponse) (pricing : PricingVersion) (error : ModelGatewayError) :
    ∃ values, Proper values ∧
      recordUsageFailure py context request lease reservation response pricing error at' ids =
        record py context request lease reservation at' ids values
          (.gateway (.charge request lease reservation response pricing.version
            (usageTotals pricing response).1 (usageTotals pricing response).2 at')) := by
  simp only [recordUsageFailure, hvalid]
  refine ⟨_, ?_, rfl⟩
  refine .of_types rfl (plainTypes_failure error).1 ?_
  simp only [List.forall_mem_cons, List.not_mem_nil, false_implies, implies_true, and_true]
  exact ⟨rfl, rfl, rfl, rfl⟩

theorem fail_eq_record (py : PyText) (reservation : BudgetReservation) (at' : Timestamp)
    (ids : ℕ → UUID)
    (hvalid : validate context request lease = .ok ())
    (error : ModelGatewayError) :
    ∃ values, Proper values ∧ fail py context request lease reservation error at' ids =
      record py context request lease reservation at' ids values
        (.gateway (.release request lease reservation at')) := by
  simp only [fail, hvalid]
  refine ⟨_, ?_, rfl⟩
  refine .of_types rfl (plainTypes_failure error).2 ?_
  simp only [List.forall_mem_cons, List.not_mem_nil, false_implies, implies_true, and_true]
  exact ⟨rfl, rfl⟩

/-- The fence a lease presents. -/
def fence (lease : WorkLease) : Fence :=
  ⟨lease.tenantId, lease.workId, lease.token, lease.generation⟩

/-- The world once the fence of a current lease has let a transaction through. -/
def opened (w : World) (lease : WorkLease) : World :=
  { w with
    inflight := w.inflight.upsert w.nextTx ⟨fence lease, w.clock⟩
    nextTx := w.nextTx + 1 }

theorem exec_openFenced_current {w : World} (hcurrent : w.Current lease) :
    postgres.exec (.openFenced (fence lease)) w = some (opened w lease, .ok { tx := w.nextTx }) := by
  obtain ⟨row, hrow, hholds, hclock⟩ := hcurrent.row
  have hcheck : ((w.db.workLeases.lookup (fence lease).key).any fun row =>
      row.holds (fence lease).token (fence lease).generation && w.clock < row.expiresAt) = true := by
    show ((w.db.workLeases.lookup lease.key).any fun row =>
      row.holds lease.token lease.generation && w.clock < row.expiresAt) = true
    rw [hrow]
    simp [hholds, hclock]
  have hfree : ¬ w.locked (fence lease).key = true := by
    show ¬ w.locked lease.key = true
    simp [hcurrent.free]
  show World.openFenced w (fence lease) = _
  rw [World.openFenced, if_pos hcheck, if_neg hfree]
  rfl

/-- What it appends then. -/
def recording (w : World) (lease : WorkLease) (batch : List EventEnvelope) (m : GatewayMutation) :
    Append where
  tenantId := lease.tenantId
  events := batch
  expectedVersion := w.db.version lease.tenantId lease.workId.str
  mutation := .gateway m

/-- What becomes of the budget tables: a refusal leaves them, and what is accepted is what
the mutation does. -/
def Settled {α : Type} (w : World) (m : GatewayMutation) (w' : World) (r : Except Raised α) : Prop :=
  (∃ e, r = .error e) ∧ w'.db.budget = w.db.budget ∨
  ∃ db a, m.run (fun tenantId => tenantId ∈ w.maintenance) w.db = .ok db ∧ r = .ok a ∧
    w'.db.budget = db.budget

section

variable {w : World} {batch : List EventEnvelope} {m : GatewayMutation}

theorem closeFenced_opened :
    (opened w lease).closeFenced w.nextTx (recording w lease batch m) =
      World.settle { opened w lease with inflight := (opened w lease).inflight.delete w.nextTx }
        (World.runAppend (opened w lease) (recording w lease batch m) w.clock) := by
  have hlookup : (opened w lease).inflight.lookup w.nextTx = some ⟨fence lease, w.clock⟩ :=
    Table.lookup_upsert_self ..
  rw [World.closeFenced, hlookup]

/-- The append and then the mutation, which sees the budget as it was. -/
theorem runAppend_opened {db₁ : Database} {version : ℕ}
    (happend : w.db.appendInTransaction w.clock batch
      (w.db.version lease.tenantId lease.workId.str) [] = .ok (db₁, version)) :
    World.runAppend (opened w lease) (recording w lease batch m) w.clock =
      (m.run (fun tenantId => tenantId ∈ w.maintenance) w.db).map fun db =>
        ({ db₁ with reservations := db.reservations, usage := db.usage },
          { version := version, times := none }) := by
  obtain ⟨first, -, -, -, hdb₁, -⟩ := Database.appendInTransaction_spec happend
  have hrun : World.runAppend (opened w lease) (recording w lease batch m) w.clock =
      (m.run (fun tenantId => tenantId ∈ w.maintenance) db₁).map fun db =>
        (db, { version := version, times := none }) := by
    show (w.db.appendInTransaction w.clock batch (w.db.version lease.tenantId lease.workId.str) []
      >>= _) = _
    rw [happend]
    rfl
  have hreservations : db₁.reservations = w.db.reservations := by rw [hdb₁]
  have husage : db₁.usage = w.db.usage := by rw [hdb₁]
  have hquotas : db₁.quotas = w.db.quotas := by rw [hdb₁]
  rw [hrun, m.run_frame _ hreservations husage hquotas]
  cases m.run (fun tenantId => tenantId ∈ w.maintenance) w.db <;> rfl

theorem settled_closeFenced :
    Settled w m ((opened w lease).closeFenced w.nextTx (recording w lease batch m)).1
      ((opened w lease).closeFenced w.nextTx (recording w lease batch m)).2 := by
  rw [closeFenced_opened]
  cases happend : w.db.appendInTransaction w.clock batch
      (w.db.version lease.tenantId lease.workId.str) [] with
  | error e =>
    have hrun : World.runAppend (opened w lease) (recording w lease batch m) w.clock = .error e := by
      show (w.db.appendInTransaction w.clock batch
        (w.db.version lease.tenantId lease.workId.str) [] >>= _) = _
      rw [happend]
      rfl
    rw [hrun]
    exact Or.inl ⟨⟨e, rfl⟩, rfl⟩
  | ok result =>
    rw [runAppend_opened happend]
    unfold Settled
    cases m.run (fun tenantId => tenantId ∈ w.maintenance) w.db with
    | error e => exact Or.inl ⟨⟨e, rfl⟩, rfl⟩
    | ok db => exact Or.inr ⟨db, _, rfl, rfl, rfl⟩

/-- **A batch that is new to the ledger commits when its mutation does.** -/
theorem closeFenced_new {db : Database} (hheads : w.db.HeadsAgree)
    (htenant : lease.tenantId ∈ w.db.tenants) (hne : batch ≠ [])
    (hbatch : ∀ e ∈ batch, e.tenantId = lease.tenantId ∧ e.aggregateId = lease.workId.str)
    (hapart : batch.Pairwise Apart) (hnew : ∀ e ∈ batch, w.db.New e)
    (hrun : m.run (fun tenantId => tenantId ∈ w.maintenance) w.db = .ok db) :
    ∃ reply, ((opened w lease).closeFenced w.nextTx (recording w lease batch m)).2 = .ok reply := by
  obtain ⟨db₁, version, happend⟩ := Database.appendInTransaction_new w.clock hheads
    htenant hne hnew hapart hbatch
  rw [closeFenced_opened, runAppend_opened happend, hrun]
  exact ⟨_, rfl⟩

end

theorem validateAppend_drafted {values : List (DomainEventType × Dict)}
    {batch : List EventEnvelope} {index : ℕ} (hcontext : context.tenantId = request.tenantId)
    (hne : batch ≠ []) (hdrafted : ∀ e ∈ batch, Drafted py request lease ids index values e) :
    validateAppend context batch = .ok () := by
  obtain ⟨first, rest, rfl⟩ := List.exists_cons_of_ne_nil hne
  have hfirst := hdrafted first List.mem_cons_self
  simp only [validateAppend, bind_eq_ok, orRaise_eq_ok, raiseIf_eq_ok, Bool.not_eq_true,
    List.any_eq_false, decide_eq_false_iff_not, not_not]
  refine ⟨first, rfl, (), fun e he => ?_, (), fun e he => ?_, (), fun e he => ?_, fun e he => ?_⟩
  · simp [(hdrafted e he).tenantId, hcontext]
  · simp [(hdrafted e he).aggregateId, hfirst.aggregateId]
  · simp [(hdrafted e he).aggregateSequence]
  · simp [(hdrafted e he).globalPosition]

theorem validateFence_drafted {values : List (DomainEventType × Dict)}
    {batch : List EventEnvelope} {index : ℕ}
    (hdrafted : ∀ e ∈ batch, Drafted py request lease ids index
      (values.map fun v => (v.1, common request lease reservation ++ v.2)) e) :
    validateFence batch (fence lease) = .ok () := by
  simp only [validateFence, bind_eq_ok, raiseIf_eq_ok, Bool.not_eq_true,
    List.any_eq_false]
  refine ⟨(), ?_, (), fun e he => ?_, fun e he => ?_⟩
  · exact not_lt.2 lease.one_le_generation
  · simp [(hdrafted e he).aggregateId, fence]
  · obtain ⟨v, hv, n, hpayload, -⟩ := (hdrafted e he).built
    obtain ⟨v', -, rfl⟩ := List.mem_map.1 hv
    have htoken : e.payload.get? "lease_token" = some (.str lease.token.str) := by
      rw [hpayload]
      rfl
    have hgeneration : e.payload.get? "lease_generation" = some (.int lease.generation) := by
      rw [hpayload]
      rfl
    rw [htoken, hgeneration]
    simp [fence, JsonValue.pyEq, JsonValue.number?]

/-- A fenced append that passes its checks comes down to its two transactions. -/
theorem appendFenced_eq {batch : List EventEnvelope} (m : GatewayMutation)
    (hcontext : context.tenantId = lease.tenantId)
    (happend : validateAppend context batch = .ok ())
    (hfence : validateFence batch (fence lease) = .ok ()) :
    appendFenced context lease batch (.gateway m) =
      .read fun w => .commit (.openFenced (fence lease)) fun r =>
        (Proc.ofExcept r).bind fun opened =>
          (Proc.txn (.closeFenced opened.tx (recording w lease batch m))).bind fun _ => .ret () := by
  unfold appendFenced AegisPlatform.appendFenced currentVersion
  rw [happend, hcontext]
  show (Proc.read fun w => ((Proc.ofExcept (validateFence batch (fence lease))).bind _).bind _) = _
  rw [hfence]
  refine congrArg Proc.read (funext fun w => congrArg (Proc.commit _) (funext fun r => ?_))
  cases r with
  | ok opened => rfl
  | error e => rfl

/-- The steps of an operation that records proper values: it opens its transaction at the head of
the stream it has read, and closes it. -/
theorem record_steps (py : PyText) (reservation : BudgetReservation) (at' : Timestamp)
    {values : List (DomainEventType × Dict)} (m : GatewayMutation)
    (hvalid : validate context request lease = .ok ()) (hids : Set.InjOn ids (Set.Iio 5))
    (hvalues : Proper values) :
    ∃ batch, batch ≠ [] ∧ batch.Pairwise Apart ∧
      (∀ e ∈ batch, e.tenantId = lease.tenantId ∧ e.aggregateId = lease.workId.str) ∧
      record py context request lease reservation at' ids values (.gateway m) =
        .read fun w => .commit (.openFenced (fence lease)) fun r =>
          (Proc.ofExcept r).bind fun opened =>
            (Proc.txn (.closeFenced opened.tx (recording w lease batch m))).bind fun _ => .ret () := by
  obtain ⟨hcontext, htenant, -⟩ := validate_eq_ok hvalid
  have hblank : isBlank request.tenantId = false := by
    rw [← hcontext]
    exact isBlank_of_isIdentifier context.valid
  have hproper : Proper (values.map fun v => (v.1, common request lease reservation ++ v.2)) := by
    refine ⟨by simpa using hvalues.nonempty, by simpa using hvalues.few, fun v hv => ?_,
      fun v hv => ?_, ?_⟩
    · obtain ⟨v', hv', rfl⟩ := List.mem_map.1 hv
      exact hvalues.finite v' hv'
    · obtain ⟨v', hv', rfl⟩ := List.mem_map.1 hv
      exact hvalues.plain v' hv'
    · rw [List.map_map]
      exact hvalues.nodup
  obtain ⟨batch, hbatch, hlength, hapart, hdrafted⟩ := events_drafted py lease at' hblank
    hids 1 none (by rw [add_comm]; exact Nat.succ_le_succ hproper.few) hproper.finite
    hproper.plain hproper.nodup
  have hne : batch ≠ [] := by
    rw [← List.length_pos_iff, hlength]
    exact List.length_pos_iff.2 hproper.nonempty
  have hprogram : record py context request lease reservation at' ids values (.gateway m) =
      appendFenced context lease batch (.gateway m) := by
    unfold record
    rw [hbatch]
    rfl
  refine ⟨batch, hne, hapart, fun e he => ⟨(hdrafted e he).tenantId.trans htenant,
    (hdrafted e he).aggregateId⟩, hprogram.trans ?_⟩
  exact appendFenced_eq m (hcontext.trans htenant) (validateAppend_drafted hcontext hne hdrafted)
    (validateFence_drafted hdrafted)

/-- The premises under which an operation records `values`. -/
structure Recordable (context : TenantContext) (request : ModelRequest) (lease : WorkLease)
    (ids : ℕ → UUID) (values : List (DomainEventType × Dict)) (w : World) : Prop where
  heads : w.db.HeadsAgree
  current : w.Current lease
  tenant : lease.tenantId ∈ w.db.tenants
  valid : validate context request lease = .ok ()
  distinct : Set.InjOn ids (Set.Iio 5)
  proper : Proper values

/-- Each append of the program is of a batch that is new to the ledger. -/
def AppendsNew {α : Type} (p : Op α) (w : World) : Prop :=
  ∀ tx a, Txn.closeFenced tx a ∈ p.commitsAlone postgres w → ∀ e ∈ a.events, w.db.New e

/-- **With nobody else about, an operation is refused, or does what its mutation does.**  It
is not refused where the mutation succeeds and the events are new. -/
theorem record_alone (py : PyText) (reservation : BudgetReservation) (at' : Timestamp)
    {values : List (DomainEventType × Dict)} {w : World} (m : GatewayMutation)
    (h : Recordable context request lease ids values w) :
    ∃ w' r, (record py context request lease reservation at' ids values (.gateway m)).alone postgres
        w = some (w', r) ∧ Settled w m w' r ∧
      (AppendsNew (record py context request lease reservation at' ids values (.gateway m)) w →
        ∀ db, m.run (fun tenantId => tenantId ∈ w.maintenance) w.db = .ok db → r = .ok ()) := by
  obtain ⟨batch, hne, hapart, hstream, hsteps⟩ := record_steps py reservation at' m h.valid
    h.distinct h.proper
  rw [hsteps]
  have hfirst : postgres.exec (.openFenced (fence lease)) w = _ := exec_openFenced_current h.current
  have hsecond : postgres.exec (.closeFenced w.nextTx (recording w lease batch m)) (opened w lease) =
      some ((opened w lease).closeFenced w.nextTx (recording w lease batch m)) := rfl
  have hnewBatch : ∀ {p : Op Unit}, p = (.read fun w => .commit (.openFenced (fence lease)) fun r =>
      (Proc.ofExcept r).bind fun opened =>
        (Proc.txn (.closeFenced opened.tx (recording w lease batch m))).bind fun _ => .ret ()) →
      AppendsNew p w → ∀ e ∈ batch, w.db.New e := by
    rintro p rfl hnew
    refine hnew w.nextTx (recording w lease batch m) ?_
    rw [Proc.commitsAlone, Proc.commitsAlone, hfirst]
    refine List.mem_cons_of_mem _ ?_
    show _ ∈ (Proc.commit (.closeFenced w.nextTx (recording w lease batch m)) _).commitsAlone postgres
      (opened w lease)
    rw [Proc.commitsAlone, hsecond]
    exact List.mem_cons_self
  have hsettled := @settled_closeFenced lease w batch m
  refine ⟨((opened w lease).closeFenced w.nextTx (recording w lease batch m)).1,
    ((opened w lease).closeFenced w.nextTx (recording w lease batch m)).2.map fun _ => (), ?_, ?_, ?_⟩
  · rw [Proc.alone, Proc.alone, hfirst, Option.bind_some]
    show (postgres.exec (.closeFenced w.nextTx (recording w lease batch m)) (opened w lease)).bind
      (fun result => ((Proc.ofExcept result.2).bind fun _ => .ret ()).alone postgres result.1) = _
    rw [hsecond, Option.bind_some]
    cases ((opened w lease).closeFenced w.nextTx (recording w lease batch m)).2 <;> rfl
  · rcases hsettled with ⟨⟨e, he⟩, hbudget⟩ | ⟨db, reply, hrun, hok, hbudget⟩
    · rw [he]
      exact Or.inl ⟨⟨e, rfl⟩, hbudget⟩
    · rw [hok]
      exact Or.inr ⟨db, (), hrun, rfl, hbudget⟩
  · intro hnew db hrun
    obtain ⟨reply, hreply⟩ := closeFenced_new h.heads h.tenant hne hstream hapart
      (hnewBatch rfl hnew) hrun
    rw [hreply]
    rfl

end Gateway

end AegisPlatform
