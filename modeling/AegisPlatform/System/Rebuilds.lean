import AegisPlatform.Projections.ModelUsage
import AegisPlatform.Queueing.Publisher
import AegisPlatform.System.BudgetReplay
import AegisPlatform.System.Publishing

/-!
# Rebuilding the usage projection

A charge writes its row of `model_usage_projection` from live objects, in the transaction that
appends its `model.usage_recorded` event; a rebuild writes the rows again from the payloads of
those events.  The two agree in every column but `recorded_at`, which the gateway sets to the
instant its caller named and the engine to the instant the ledger recorded.

* `Call.commits_accounts` — usage is recorded with a charge, once, and never otherwise.
* `Database.Rebuilds` — the usage rows are those of the replayed history, up to a relation.
* `rebuild_related` — in any run a rebuild returns such rows.
* `rebuild_keeps_usage` — and the same rows, if every charge is told the instant of its
  transaction.
-/

namespace AegisPlatform

open Fallible Interleave

/-! ## What the payloads say -/

section

variable {text : PayloadText} {payload : Dict} {field : String}

theorem requiredInt_of_get {n : ℤ} (h : payload.get? field = some (.int n)) (hn : 0 ≤ n) :
    requiredInt payload field = .ok n := by
  rw [requiredInt, h]
  exact bind_eq_ok.2 ⟨(), raiseIf_eq_ok.2 (not_lt.2 hn), rfl⟩

theorem requiredString_of_get {s : String} (h : payload.get? field = some (.str s)) (hs : s ≠ "") :
    requiredString payload field = .ok s := by
  rw [requiredString, h]
  exact bind_eq_ok.2 ⟨(), raiseIf_eq_ok.2 hs, rfl⟩

theorem UUID.str_ne_empty (id : UUID) : id.str ≠ "" := by
  intro h
  have hblank := UUID.isBlank_str id
  rw [h] at hblank
  cases hblank

theorem payloadUuid_of_get {py : PyText} (hreads : text.ReadsBack py) {id : UUID}
    (h : payload.get? field = some (.str id.str)) : payloadUuid text payload field = .ok id := by
  rw [payloadUuid, requiredString_of_get h id.str_ne_empty]
  exact orRaise_eq_ok.2 (hreads.uuid_str id)

/-- A column that holds an amount holds none that is negative for one that is not. -/
theorem numeric20_10_nonneg {x y : Decimal} (h : numeric20_10 x = some y) (hx : 0 ≤ x) : 0 ≤ y := by
  simp only [numeric20_10, Option.ite_none_right_eq_some, Option.some.injEq,
    if_neg (not_lt.2 hx)] at h
  obtain ⟨-, rfl⟩ := h
  have hfloor : (0 : ℤ) ≤ ⌊|x| * 10 ^ 10 + 1 / 2⌋ := by positivity
  have hcast : (0 : ℚ) ≤ (⌊|x| * 10 ^ 10 + 1 / 2⌋ : ℤ) := by exact_mod_cast hfloor
  positivity

theorem payloadCost_of_get {py : PyText} (hreads : text.ReadsBack py) {x stored : Decimal} {k : ℕ}
    (h : payload.get? field = some (.str (py.strDecimal x))) (hgrid : Decimal.OnGrid k x)
    (hx : 0 ≤ x) (hstored : numeric20_10 x = some stored) :
    payloadCost text payload field = .ok stored := by
  have hnonneg : ¬ stored < 0 := not_lt.2 (numeric20_10_nonneg hstored hx)
  rw [payloadCost, requiredString_of_get h (hreads.str_ne k x hgrid)]
  simp only [bind_eq_ok, orRaise_eq_ok, raiseIf_eq_ok, pure_eq_ok]
  exact ⟨_, rfl, _, hreads.decimal_str k x hgrid, x, rfl, stored, hstored, (), hnonneg, rfl⟩

end

/-- The row a charge inserts. -/
def usageRow (request : ModelRequest) (response : ModelResponse) (priceVersion : String)
    (total : ℤ) (stored : Decimal) (recordedAt : Timestamp) : UsageRow where
  runId := request.runId
  provider := response.model.provider
  model := response.model.model
  priceVersion := priceVersion
  inputTokens := response.usage.inputTokens
  outputTokens := response.usage.outputTokens
  cacheReadTokens := response.usage.cacheReadTokens
  cacheWriteTokens := response.usage.cacheWriteTokens
  reasoningTokens := response.usage.reasoningTokens
  totalTokens := total
  costUsd := stored
  recordedAt := recordedAt

/-- The engine makes the row of a charge of the event, whenever the columns take it. -/
def Records (text : PayloadText) (request : ModelRequest) (response : ModelResponse)
    (priceVersion : String) (tokens : ℤ) (cost : Decimal) (e : EventEnvelope) : Prop :=
  e.tenantId = request.tenantId ∧
  ∀ sequence position recordedAt total stored, bigint tokens = some total →
    numeric20_10 cost = some stored →
    ∀ rows, writeModelUsage text rows (e.stored sequence position recordedAt) =
      .ok (rows.upsert (request.tenantId, request.requestId)
        (usageRow request response priceVersion total stored recordedAt))

/-- **The payload of a charge is read back as its row.** -/
theorem records_usage {text : PayloadText} {py : PyText} (hreads : text.ReadsBack py)
    {request : ModelRequest} {lease : WorkLease} {reservation : BudgetReservation}
    {response : ModelResponse} {pricing : PricingVersion} {e : EventEnvelope}
    (htenant : e.tenantId = request.tenantId) (htype : e.eventType = .modelUsageRecorded)
    (hpayload : e.payload = Gateway.common request lease reservation ++
      (Gateway.responsePayload response pricing ++ Gateway.usagePayload response.usage ++
        [("cost_usd", .str (py.strDecimal (pricing.cost response.usage)))])) :
    Records text request response pricing.version (usageTotals pricing response).1
      (usageTotals pricing response).2 e := by
  refine ⟨htenant, fun sequence position recordedAt total stored htotal hstored rows => ?_⟩
  obtain ⟨hinput, houtput, hread, hwrite, hreasoning⟩ := response.usage.valid
  obtain ⟨k, hgrid⟩ : ∃ k, Decimal.OnGrid k (pricing.cost response.usage) := Decimal.onGrid_round _
  have hget : ∀ field, e.payload.get? field = _ := fun field => congrArg (Dict.get? · field) hpayload
  have h₁ := requiredInt_of_get (hget "input_tokens") hinput
  have h₂ := requiredInt_of_get (hget "output_tokens") houtput
  have h₃ := requiredInt_of_get (hget "cache_read_tokens") hread
  have h₄ := requiredInt_of_get (hget "cache_write_tokens") hwrite
  have h₅ := requiredInt_of_get (hget "reasoning_tokens") hreasoning
  have h₆ := payloadUuid_of_get hreads (hget "request_id")
  have h₇ := payloadUuid_of_get hreads (hget "run_id")
  have h₈ := requiredString_of_get (hget "provider") response.model.valid.1
  have h₉ := requiredString_of_get (hget "model") response.model.valid.2
  have h₁₀ := requiredString_of_get (hget "price_version") pricing.valid.1
  have h₁₁ := payloadCost_of_get hreads (hget "cost_usd") hgrid (pricing.cost_nonneg response.usage)
    hstored
  have h₁₂ : orRaise permanentStorageFailure (bigint (response.usage.inputTokens +
      response.usage.outputTokens + response.usage.cacheReadTokens +
      response.usage.cacheWriteTokens + response.usage.reasoningTokens)) = .ok total :=
    orRaise_eq_ok.2 htotal
  have hchange : applyModelUsage text (e.stored sequence position recordedAt) =
      .ok (some (.insertOrUpdate request.requestId
        (usageRow request response pricing.version total stored recordedAt) (fun _ => true)
        fun _ => .ok (usageRow request response pricing.version total stored recordedAt))) := by
    have htype' : (e.stored sequence position recordedAt).eventType = .modelUsageRecorded := htype
    rw [applyModelUsage, if_neg (not_not.2 htype')]
    simp only [bind_eq_ok, pure_eq_ok]
    exact ⟨_, h₁, _, h₂, _, h₃, _, h₄, _, h₅, _, h₆, _, h₇, _, h₈, _, h₉, _, h₁₀, _, h₁₁, _, h₁₂, rfl⟩
  rw [writeModelUsage, hchange]
  have hkey : (e.stored sequence position recordedAt).tenantId = request.tenantId := htenant
  show ((RowChange.insertOrUpdate _ _ _ _).write (rows.lookup (_, request.requestId)) >>= _) = _
  rw [hkey]
  cases rows.lookup (request.tenantId, request.requestId) <;> rfl

/-! ## What clients commit -/

/-- No event records usage. -/
def NoUsage (es : List EventEnvelope) : Prop := ∀ e ∈ es, e.eventType ≠ .modelUsageRecorded

/-- An append records usage with a charge, once, and never otherwise. -/
def Append.Accounts (text : PayloadText) (a : Append) : Prop :=
  match a.mutation with
  | .gateway (.charge request _ _ response priceVersion tokens cost _) =>
    ∃ before e after, a.events = before ++ e :: after ∧ NoUsage before ∧ NoUsage after ∧
      Records text request response priceVersion tokens cost e
  | _ => NoUsage a.events

/-- What the fenced appends of the gateway are known to append. -/
def Txn.Accounts (text : PayloadText) : Txn → Prop
  | closeFenced _ a => a.mutation.isWork = true ∨ a.Accounts text
  | _ => True

section

variable {py : PyText} {text : PayloadText} {context : TenantContext} {request : ModelRequest}
  {lease : WorkLease} {reservation : BudgetReservation} {at' : Timestamp} {ids : ℕ → UUID}
  {values : List (DomainEventType × Dict)} {batch : List EventEnvelope}

/-- `_events` makes an event of each value. -/
theorem Gateway.events_built {index : ℕ} {causation : Option UUID}
    (h : Gateway.events py request lease at' ids index causation values = .ok batch) :
    List.Forall₂ (fun v e => e.tenantId = request.tenantId ∧ e.eventType = v.1 ∧ e.payload = v.2)
      values batch := by
  induction values generalizing index causation batch with
  | nil =>
    cases h
    exact .nil
  | cons v rest ih =>
    simp only [Gateway.events, bind_eq_ok, pure_eq_ok] at h
    obtain ⟨event, hevent, later, hlater, rfl⟩ := h
    rw [EventEnvelope.make_eq hevent] at hlater ⊢
    exact .cons ⟨rfl, rfl, rfl⟩ (ih hlater)

theorem noUsage_of_built {R : DomainEventType × Dict → EventEnvelope → Prop}
    (hR : ∀ v e, R v e → e.eventType = v.1) (h : List.Forall₂ R values batch)
    (hvalues : ∀ v ∈ values, v.1 ≠ .modelUsageRecorded) : NoUsage batch := by
  induction h with
  | nil => exact fun e he => (by cases he)
  | cons hv _ ih =>
    obtain ⟨hfirst, hrest⟩ := List.forall_mem_cons.1 hvalues
    exact List.forall_mem_cons.2 ⟨hR _ _ hv ▸ hfirst, ih hrest⟩

open Proc in
/-- A recording that mentions no usage, and charges nothing. -/
theorem accounts_record {m : Mutation} (hvalues : ∀ v ∈ values, v.1 ≠ .modelUsageRecorded)
    (hm : ∀ request lease reservation response priceVersion tokens cost at',
      m ≠ .gateway (.charge request lease reservation response priceVersion tokens cost at')) :
    (Gateway.record py context request lease reservation at' ids values m).Commits
      (Txn.Accounts text) := by
  refine commits_record (fun _ => trivial) fun tx version batch hbatch => Or.inr ?_
  have hnone : NoUsage batch := by
    refine noUsage_of_built (fun v e h => h.2.1) (Gateway.events_built hbatch) fun v hv => ?_
    obtain ⟨v', hv', rfl⟩ := List.mem_map.1 hv
    exact hvalues v' hv'
  unfold Append.Accounts
  split
  · rename_i hcharge
    exact absurd hcharge (hm _ _ _ _ _ _ _ _)
  · exact hnone

open Proc in
/-- A recording of a charge has the usage second. -/
theorem accounts_charge (hreads : text.ReadsBack py) {response : ModelResponse}
    {pricing : PricingVersion} {first : DomainEventType × Dict}
    {later : List (DomainEventType × Dict)} (hfirst : first.1 ≠ .modelUsageRecorded)
    (hlater : ∀ v ∈ later, v.1 ≠ .modelUsageRecorded) :
    (Gateway.record py context request lease reservation at' ids
      (first :: (.modelUsageRecorded, Gateway.responsePayload response pricing ++
        Gateway.usagePayload response.usage ++
        [("cost_usd", .str (py.strDecimal (usageTotals pricing response).2))]) :: later)
      (.gateway (.charge request lease reservation response pricing.version
        (usageTotals pricing response).1 (usageTotals pricing response).2 at'))).Commits
      (Txn.Accounts text) := by
  refine commits_record (fun _ => trivial) fun tx version batch hbatch => Or.inr ?_
  have hbuilt := Gateway.events_built hbatch
  simp only [List.map_cons] at hbuilt
  obtain ⟨e₁, rest, hfirstBuilt, hrest, rfl⟩ := List.forall₂_cons_left_iff.1 hbuilt
  obtain ⟨e, after, ⟨htenant, htype, hpayload⟩, hafter, rfl⟩ := List.forall₂_cons_left_iff.1 hrest
  refine ⟨[e₁], e, after, rfl, ?_, ?_, records_usage hreads htenant htype hpayload⟩
  · intro e' he'
    rw [List.mem_singleton.1 he', hfirstBuilt.2.1]
    exact hfirst
  · refine noUsage_of_built (fun v e h => h.2.1) hafter fun v hv => ?_
    obtain ⟨v', hv', rfl⟩ := List.mem_map.1 hv
    exact hlater v' hv'

theorem failureEventType_ne_usage (error : ModelGatewayError) :
    failureEventType error ≠ .modelUsageRecorded := by
  unfold failureEventType
  cases error.errorClass <;> decide

end

open Proc in
/-- **Usage is recorded with a charge, once, and never otherwise.** -/
theorem Call.commits_accounts {py : PyText} {text : PayloadText} (hreads : text.ReadsBack py)
    (c : Call) : (c.proc py).Commits (Txn.Accounts text) := by
  have hdone : ∀ {α : Type} {p : Op α} {o : α → Outcome}, p.Commits (Txn.Accounts text) →
      (p >>= fun a => pure (o a)).Commits (Txn.Accounts text) :=
    fun hp => commits_bind hp fun _ => commits_pure _
  have hwork := c.commits_isWork py
  cases c with
  | reserve =>
    refine hdone (commits_bind (commits_ofExcept _) fun _ =>
      commits_bind (accounts_record ?_ ?_) fun _ => commits_pure _)
    · simp
    · exact fun _ _ _ _ _ _ _ _ h => (by cases h)
  | recordAttempt context request lease reservation provider model attempt fallbackIndex =>
    refine hdone (commits_bind (commits_ofExcept _) fun _ => accounts_record ?_ ?_)
    · intro v hv
      rcases List.mem_append.1 hv with hv | hv
      · split at hv
        · rw [List.mem_singleton.1 hv]
          exact fun h => (by cases h)
        · cases hv
      · rw [List.mem_singleton.1 hv]
        dsimp only
        split <;> decide
    · exact fun _ _ _ _ _ _ _ _ h => (by cases h)
  | recordAttemptFailure =>
    refine hdone (commits_bind (commits_ofExcept _) fun _ => accounts_record ?_ ?_)
    · simp [failureEventType_ne_usage]
    · exact fun _ _ _ _ _ _ _ _ h => (by cases h)
  | modelSucceed context request lease reservation response pricing =>
    refine hdone (commits_bind (commits_ofExcept _) fun _ => commits_check fun totals htotals => ?_)
    rw [(actualUsage_eq_ok.1 htotals).1]
    exact accounts_charge hreads (by simp) (by simp)
  | recordUsageFailure context request lease reservation response pricing error =>
    refine hdone (commits_bind (commits_ofExcept _) fun _ => ?_)
    exact accounts_charge hreads (failureEventType_ne_usage error) (by simp)
  | modelFail =>
    refine hdone (commits_bind (commits_ofExcept _) fun _ => accounts_record ?_ ?_)
    · simp [failureEventType_ne_usage]
    · exact fun _ _ _ _ _ _ _ _ h => (by cases h)
  | _ =>
    refine (hwork rfl).mono fun c hc => ?_
    cases c with
    | closeFenced => exact Or.inl hc
    | _ => trivial

/-! ## What an append does -/

section

variable {text : PayloadText} {es : List EventEnvelope} {recordedAt : Timestamp}
  {version position : ℕ}

theorem EventEnvelope.storeAll_append (es es' : List EventEnvelope) :
    storeAll recordedAt version position (es ++ es') = storeAll recordedAt version position es ++
      storeAll recordedAt (version + es.length) (position + es.length) es' := by
  induction es generalizing version position with
  | nil => rfl
  | cons e rest ih =>
    rw [List.cons_append, storeAll, storeAll, ih, List.cons_append, List.length_cons]
    simp only [Nat.add_assoc, Nat.add_comm 1]

theorem NoUsage.storeAll (h : NoUsage es) :
    NoUsage (EventEnvelope.storeAll recordedAt version position es) := by
  intro e he
  obtain ⟨e₀, he₀, -, -, htype, -⟩ := EventEnvelope.mem_storeAll he
  rw [htype]
  exact h e₀ he₀

theorem NoUsage.filter (h : NoUsage es) (p : EventEnvelope → Bool) : NoUsage (es.filter p) :=
  fun e he => h e (List.mem_filter.1 he).1

theorem NoUsage.foldlM (h : NoUsage es) (rows : Table (String × UUID) UsageRow) :
    es.foldlM (writeModelUsage text) rows = .ok rows := by
  induction es with
  | nil => rfl
  | cons e rest ih =>
    obtain ⟨he, hrest⟩ := List.forall_mem_cons.1 h
    have hfirst : writeModelUsage text rows e = .ok rows := by
      rw [writeModelUsage, applyModelUsage, if_pos he]
      rfl
    rw [List.foldlM_cons, hfirst]
    exact ih hrest

/-- Storing a batch keeps the positions of every tenant in order. -/
theorem Ordered.storeAll {db : List EventEnvelope} {t : String} (h : Ordered position db) :
    Ordered (position + es.length)
      (db ++ (EventEnvelope.storeAll recordedAt version position es).filter (·.tenantId = t)) := by
  induction es generalizing version position db with
  | nil => simpa [EventEnvelope.storeAll] using h
  | cons e rest ih =>
    have hlength : position + (e :: rest).length = position + 1 + rest.length := by
      rw [List.length_cons]
      omega
    rw [EventEnvelope.storeAll, hlength]
    by_cases ht : e.tenantId = t
    · have hstored := h.append (e := e.stored (version + 1) position recordedAt) rfl
      have hkept : (e.stored (version + 1) position recordedAt).tenantId = t := ht
      have hrest : Ordered (position + 1 + rest.length) (_ ++
        (EventEnvelope.storeAll recordedAt (version + 1) (position + 1) rest).filter
          (·.tenantId = t)) := ih hstored
      rw [List.append_assoc, List.singleton_append] at hrest
      rw [List.filter_cons_of_pos (by simpa using hkept)]
      exact hrest
    · have hgone : (e.stored (version + 1) position recordedAt).tenantId ≠ t := ht
      rw [List.filter_cons_of_neg (by simpa using hgone)]
      exact ih (h.mono (Nat.le_succ _))

end

/-- The rows of the replayed history: from a table without rows of the tenant the handler makes
rows that are related to those the gateway wrote, and leaves the rows of other tenants. -/
def Database.Rebuilds (text : PayloadText) (R : UsageRow → UsageRow → Prop) (db : Database) : Prop :=
  ∀ t rows, (∀ id, rows.lookup (t, id) = none) → ∃ rows',
    (db.events.filter (·.tenantId = t)).foldlM (writeModelUsage text) rows = .ok rows' ∧
    (∀ id, Option.Rel R (db.usage.lookup (t, id)) (rows'.lookup (t, id))) ∧
    ∀ t' id, t' ≠ t → rows'.lookup (t', id) = rows.lookup (t', id)

/-- The event store's readers find what they check for. -/
structure Database.Readable (db : Database) : Prop where
  ordered : ∀ t, Ordered db.nextPosition (db.events.filter (·.tenantId = t))
  inbox : ∀ key row, db.inbox.lookup key = some row → row.aggregateVersion ≠ none

/-- The ledger of the platform, as its readers see it. -/
def World.ledger (w : World) : Ledger := { db := w.db, clock := w.clock }

section

variable {text : PayloadText} {R : UsageRow → UsageRow → Prop} {db db' : Database}
  {new : List EventEnvelope}

theorem Database.Rebuilds.quiet (h : db.Rebuilds text R) (hevents : db'.events = db.events ++ new)
    (hnew : NoUsage new) (husage : db'.usage = db.usage) : db'.Rebuilds text R := by
  intro t rows hrows
  obtain ⟨rows', hfold, hrel, hother⟩ := h t rows hrows
  refine ⟨rows', ?_, by rwa [husage], hother⟩
  rw [hevents, List.filter_append, List.foldlM_append, hfold]
  exact (hnew.filter _).foldlM rows'

theorem Database.Rebuilds.charged (h : db.Rebuilds text R) {before after : List EventEnvelope}
    {e : EventEnvelope} {id : UUID} {row row' : UsageRow}
    (hevents : db'.events = db.events ++ (before ++ e :: after)) (hbefore : NoUsage before)
    (hafter : NoUsage after)
    (hwrite : ∀ rows, writeModelUsage text rows e = .ok (rows.upsert (e.tenantId, id) row'))
    (husage : db'.usage = db.usage.upsert (e.tenantId, id) row) (hR : R row row') :
    db'.Rebuilds text R := by
  intro t rows hrows
  obtain ⟨rows', hfold, hrel, hother⟩ := h t rows hrows
  have hfilter : db'.events.filter (·.tenantId = t) = db.events.filter (·.tenantId = t) ++
      (before.filter (·.tenantId = t) ++ (e :: after).filter (·.tenantId = t)) := by
    rw [hevents, List.filter_append, List.filter_append]
  have hskip : (before.filter (·.tenantId = t)).foldlM (writeModelUsage text) rows' = .ok rows' :=
    (hbefore.filter _).foldlM rows'
  by_cases ht : e.tenantId = t
  · subst ht
    refine ⟨rows'.upsert (e.tenantId, id) row', ?_, fun id' => ?_, fun t' id' ht' => ?_⟩
    · rw [hfilter, List.foldlM_append, hfold]
      show (_ ++ _ : List EventEnvelope).foldlM (writeModelUsage text) rows' = _
      rw [List.foldlM_append, hskip, List.filter_cons_of_pos (by simp)]
      show (_ :: _ : List EventEnvelope).foldlM (writeModelUsage text) rows' = _
      rw [List.foldlM_cons, hwrite]
      exact (hafter.filter _).foldlM _
    · rw [husage, Table.lookup_upsert, Table.lookup_upsert]
      by_cases hid : id' = id
      · rw [if_pos (by rw [hid]), if_pos (by rw [hid])]
        exact .some hR
      · have hne : (e.tenantId, id') ≠ (e.tenantId, id) := by simpa using hid
        rw [if_neg hne, if_neg hne]
        exact hrel id'
    · have hne : (t', id') ≠ (e.tenantId, id) := fun heq => ht' (congrArg Prod.fst heq)
      rw [Table.lookup_upsert_ne _ _ hne, hother t' id' ht']
  · refine ⟨rows', ?_, fun id' => ?_, hother⟩
    · rw [hfilter, List.foldlM_append, hfold]
      show (_ ++ _ : List EventEnvelope).foldlM (writeModelUsage text) rows' = _
      rw [List.foldlM_append, hskip, List.filter_cons_of_neg (by simpa using ht)]
      exact (hafter.filter _).foldlM rows'
    · have hne : (t, id') ≠ (e.tenantId, id) := fun heq => ht (congrArg Prod.fst heq).symm
      rw [husage, Table.lookup_upsert_ne _ _ hne]
      exact hrel id'

end

/-- The instant a charge is told. -/
def Mutation.chargedAt? : Mutation → Option Timestamp
  | .gateway (.charge _ _ _ _ _ _ _ at') => some at'
  | _ => Option.none

namespace World

variable {text : PayloadText} {R : UsageRow → UsageRow → Prop} {w w' : World} {a : Append}
  {startedAt : Timestamp} {db' : Database} {reply : Reply}

/-- An append that commits: its events first, and then its mutation. -/
theorem runAppend_appended (h : w.runAppend a startedAt = .ok (db', reply)) : ∃ db₁,
    db₁.events = w.db.events ++
      EventEnvelope.storeAll startedAt a.expectedVersion w.db.nextPosition a.events ∧
    db₁.nextPosition = w.db.nextPosition + a.events.length ∧ db₁.usage = w.db.usage ∧
    (∀ key row, db₁.inbox.lookup key = some row → row.aggregateVersion ≠ none ∨
      w.db.inbox.lookup key = some row) ∧
    a.mutation.run w.clock (fun tenantId => tenantId ∈ w.maintenance) db₁ = .ok db' := by
  simp only [runAppend, bind_eq_ok, pure_eq_ok, Prod.mk.injEq, Prod.exists] at h
  obtain ⟨db₀, version, happend, db₂, hrun, rfl, rfl⟩ := h
  obtain ⟨first, -, -, -, hdb₀, -⟩ := Database.appendInTransaction_spec happend
  refine ⟨_, ?_, ?_, ?_, ?_, hrun⟩
  · cases a.inbox <;> rw [hdb₀]
  · cases a.inbox <;> rw [hdb₀]
  · cases a.inbox <;> rw [hdb₀]
  · intro key row hrow
    cases hinbox : a.inbox with
    | none =>
      rw [hinbox, hdb₀] at hrow
      exact Or.inr hrow
    | some message =>
      rw [hinbox] at hrow
      dsimp only at hrow
      rw [Table.lookup_upsert] at hrow
      split at hrow
      · cases hrow
        exact Or.inl (Option.some_ne_none _)
      · rw [hdb₀] at hrow
        exact Or.inr hrow

/-- A mutation leaves what the ledger has. -/
theorem mutation_ledger {m : Mutation} {now : Timestamp} {underMaintenance : String → Bool}
    {db : Database} (h : m.run now underMaintenance db = .ok db') :
    db'.events = db.events ∧ db'.nextPosition = db.nextPosition ∧ db'.inbox = db.inbox := by
  cases m with
  | none =>
    cases h
    exact ⟨rfl, rfl, rfl⟩
  | work m =>
    have hframe := WorkMutation.frame h
    exact ⟨hframe.events, hframe.nextPosition, hframe.inbox⟩
  | gateway m =>
    rw [GatewayMutation.run_rest h]
    exact ⟨rfl, rfl, rfl⟩

theorem readable_runAppend (hw : w.db.Readable) (h : w.runAppend a startedAt = .ok (db', reply)) :
    db'.Readable := by
  obtain ⟨db₁, hevents, hposition, -, hinbox, hrun⟩ := runAppend_appended h
  obtain ⟨hevents', hposition', hinbox'⟩ := mutation_ledger hrun
  refine ⟨fun t => ?_, fun key row hrow => ?_⟩
  · rw [hevents', hposition', hevents, hposition, List.filter_append]
    exact (hw.ordered t).storeAll
  · rw [hinbox'] at hrow
    rcases hinbox key row hrow with hsome | hold
    · exact hsome
    · exact hw.inbox key row hold

/-- A mutation that is no charge leaves the usage rows. -/
theorem usage_mutation {m : Mutation} {now : Timestamp} {underMaintenance : String → Bool}
    {db : Database} (h : m.run now underMaintenance db = .ok db') (hm : m.chargedAt? = none) :
    db'.usage = db.usage := by
  cases m with
  | none =>
    cases h
    rfl
  | work m => exact (WorkMutation.frame h).usage
  | gateway m =>
    cases m with
    | charge => cases hm
    | reserve =>
      simp only [Mutation.run, GatewayMutation.run, Database.reserveRow, bind_eq_ok, pure_eq_ok] at h
      obtain ⟨-, -, -, -, -, -, -, -, -, -, -, -, -, -, -, -, rows, -, rfl⟩ := h
      rfl
    | release =>
      simp only [Mutation.run, GatewayMutation.run, Database.releaseRow,
        Database.settleReservation, bind_eq_ok, pure_eq_ok] at h
      obtain ⟨rows, -, rfl⟩ := h
      rfl

/-- **An append keeps the rows rebuildable**, if the row of a charge is related to the row with
the instant of its transaction. -/
theorem rebuilds_runAppend (hw : w.db.Rebuilds text R) (ha : a.Accounts text)
    (h : w.runAppend a startedAt = .ok (db', reply))
    (hR : ∀ at' (row : UsageRow), a.mutation.chargedAt? = some at' →
      R { row with recordedAt := at' } { row with recordedAt := startedAt }) :
    db'.Rebuilds text R := by
  obtain ⟨db₁, hevents, -, husage, -, hrun⟩ := runAppend_appended h
  obtain ⟨hevents', -, -⟩ := mutation_ledger hrun
  rw [hevents] at hevents'
  cases hcharge : a.mutation.chargedAt? with
  | none =>
    have hnone : NoUsage a.events := by
      unfold Append.Accounts at ha
      split at ha
      · rename_i hm
        rw [hm] at hcharge
        cases hcharge
      · exact ha
    exact hw.quiet hevents' hnone.storeAll ((usage_mutation hrun hcharge).trans husage)
  | some at' =>
    unfold Append.Accounts at ha
    split at ha
    · rename_i request lease reservation response priceVersion tokens cost at'' hm
      rw [hm] at hcharge hrun
      cases hcharge
      obtain ⟨before, e, after, hbatch, hbefore, hafter, htenant, hrecords⟩ := ha
      simp only [Mutation.run, GatewayMutation.run, Database.chargeRow,
        Database.settleReservation, bind_eq_ok, orRaise_eq_ok, Table.insertNew_eq_some,
        pure_eq_ok] at hrun
      obtain ⟨db₂, ⟨rows, -, rfl⟩, total, htotal, stored, hstored, usage, ⟨-, rfl⟩, rfl⟩ := hrun
      rw [hbatch, EventEnvelope.storeAll_append, EventEnvelope.storeAll] at hevents'
      have hwrite : ∀ rows, writeModelUsage text rows
          (e.stored (a.expectedVersion + before.length + 1) (w.db.nextPosition + before.length)
            startedAt) =
          .ok (rows.upsert (e.tenantId, request.requestId)
            (usageRow request response priceVersion total stored startedAt)) := by
        rw [htenant]
        exact hrecords _ _ _ total stored htotal hstored
      refine hw.charged hevents' hbefore.storeAll hafter.storeAll hwrite ?_
        (hR at' (usageRow request response priceVersion total stored at') (by rw [hm]; rfl))
      dsimp only
      rw [husage, ← htenant]
      rfl
    · rename_i hm
      unfold Mutation.chargedAt? at hcharge
      split at hcharge
      · rename_i hm'
        exact absurd hm' (hm _ _ _ _ _ _ _ _)
      · cases hcharge

end World

/-! ## Whole runs -/

/-- What a charge is told is the instant of its transaction. -/
def Punctual (s : Platform) : Action Txn → Prop
  | .commit _ (.closeFenced tx a) => ∀ t ∈ s.store.inflight.lookup tx,
    ∀ at' ∈ a.mutation.chargedAt?, at' = t.startedAt
  | _ => True

/-- Two rows that differ in `recorded_at` at most. -/
def ButRecordedAt (row row' : UsageRow) : Prop :=
  { row with recordedAt := row'.recordedAt } = row'

namespace World

variable {text : PayloadText} {R : UsageRow → UsageRow → Prop} {P : WorkLease → World → Prop}
  {w w' : World} {c : Txn} {r : Except Raised Reply}

theorem noUsage_of_batch {m : WorkMutation} {es : List EventEnvelope} {g : Option ℤ}
    (h : Batch es m.types g) : NoUsage es := by
  intro e he htype
  have hmem : DomainEventType.modelUsageRecorded ∈ m.types := by
    rw [← h.types, ← htype]
    exact List.mem_map_of_mem he
  cases m with
  | cancelProjection request status at' =>
    rw [WorkMutation.types] at hmem
    split at hmem <;> simp at hmem
  | expireProjection lease cancelRequestedAt exhausted at' =>
    rw [WorkMutation.types] at hmem
    generalize cancelRequestedAt.isSome = cancelled at hmem
    cases cancelled <;> cases exhausted <;> simp [expiryOutcome] at hmem
  | _ => simp [WorkMutation.types] at hmem

/-- What a transaction appends, if it commits: it accounts for its usage. -/
theorem appended_exec (hl : Legit P c w) (haccounts : c.Accounts text)
    (h : exec c w = some (w', r)) :
    (w'.db.events = w.db.events ∧ w'.db.nextPosition = w.db.nextPosition ∧
      w'.db.inbox = w.db.inbox ∧ w'.db.usage = w.db.usage) ∨
    ∃ a startedAt reply, a.Accounts text ∧ w.runAppend a startedAt = .ok (w'.db, reply) ∧
      (a.mutation.chargedAt? = none ∨ ∃ tx t, c = .closeFenced tx a ∧
        w.inflight.lookup tx = some t ∧ startedAt = t.startedAt) := by
  cases c with
  | append a =>
    obtain ⟨m, hm⟩ := hl
    rcases exec_append h with ⟨rfl, -⟩ | ⟨db', reply, -, hrun, rfl, -⟩
    · exact Or.inl ⟨rfl, rfl, rfl, rfl⟩
    · refine Or.inr ⟨a, w.clock, reply, ?_, hrun, Or.inl (by rw [hm.mutation]; rfl)⟩
      unfold Append.Accounts
      rw [hm.mutation]
      exact noUsage_of_batch hm.batch
  | openFenced f =>
    rcases exec_openFenced h with ⟨rfl, -⟩ | ⟨row, -, -, -, -, rfl, -⟩ <;>
      exact Or.inl ⟨rfl, rfl, rfl, rfl⟩
  | closeFenced tx a =>
    obtain ⟨-, f, hf, hunder⟩ := hl
    rcases exec_closeFenced h with ⟨-, rfl, -⟩ | ⟨t, ht, ⟨e, -, -, rfl⟩ | ⟨db', reply, hrun, -, rfl⟩⟩
    · exact Or.inl ⟨rfl, rfl, rfl, rfl⟩
    · exact Or.inl ⟨rfl, rfl, rfl, rfl⟩
    · refine Or.inr ⟨a, t.startedAt, reply, ?_, hrun, Or.inr ⟨tx, t, rfl, ht, rfl⟩⟩
      rcases haccounts with hwork | haccounts
      · cases hm : a.mutation with
        | work m =>
          obtain ⟨lease, -, -, -, -, -, hbatch, -⟩ := hunder.work m hm
          unfold Append.Accounts
          rw [hm]
          exact noUsage_of_batch hbatch
        | none =>
          rw [hm] at hwork
          cases hwork
        | gateway m =>
          rw [hm] at hwork
          cases hwork
      · exact haccounts
  | _ =>
    obtain ⟨outbox, approvals, rfl⟩ := exec_other rfl h
    exact Or.inl ⟨rfl, rfl, rfl, rfl⟩

end World

section Runs

variable {py : PyText} {text : PayloadText} {R : UsageRow → UsageRow → Prop}
  {tenants : List String} {quotas : Table String QuotaLimits} {clock : Timestamp}
  {Meets : Platform → Action Txn → Prop} {s u : Platform} {a : Action Txn}

/-- **What every step keeps.** -/
theorem rebuilds_step
    (hrun : Run postgres (AnyCall py) Meets (Platform.initial tenants quotas clock) s)
    (hreads : text.ReadsBack py) (hstep : Step postgres (AnyCall py) s a u)
    (hR : ∀ i tx app t at' (row : UsageRow), a = .commit i (.closeFenced tx app) →
      s.store.inflight.lookup tx = some t → app.mutation.chargedAt? = some at' →
      R { row with recordedAt := at' } { row with recordedAt := t.startedAt })
    (h : s.store.db.Readable ∧ s.store.db.Rebuilds text R) :
    u.store.db.Readable ∧ u.store.db.Rebuilds text R := by
  have hfollows := (run_inv (lawfully_anyCall py) hrun (World.inv_initial _ _ _)
    follows_initial).2
  have hcommits : s.Commits (Txn.Accounts text) := by
    refine hrun.commits ?_ fun p hp => (by cases hp)
    rintro s p ⟨c, rfl⟩
    exact c.commits_accounts hreads
  cases hstep with
  | call _ => exact h
  | read _ => exact h
  | @commit i c _ _ _ hi hexec =>
    have haccounts := hcommits.of_commit (.commit hi hexec : Step postgres (AnyCall py) s _ _)
    obtain ⟨hreadable, hrebuilds⟩ := h
    rcases World.appended_exec (hfollows.legit hi) haccounts hexec with
      ⟨hevents, hposition, hinbox, husage⟩ | ⟨app, startedAt, reply, haccounts, hrun, hcharge⟩
    · refine ⟨⟨fun t => ?_, fun key row hrow => ?_⟩, fun t => ?_⟩
      · show Ordered _ _
        rw [hevents, hposition]
        exact hreadable.ordered t
      · exact hreadable.inbox key row (hinbox ▸ hrow)
      · dsimp only
        rw [hevents, husage]
        exact hrebuilds t
    · refine ⟨World.readable_runAppend hreadable hrun,
        World.rebuilds_runAppend hrebuilds haccounts hrun fun at' row hat => ?_⟩
      rcases hcharge with hnone | ⟨tx, t, rfl, ht, rfl⟩
      · rw [hnone] at hat
        cases hat
      · exact hR i tx app t at' row rfl ht hat
  | @abort i c _ hi =>
    have hsame : (postgres.abort c s.store).1.db = s.store.db := (World.abort_cases _ _).1
    dsimp only
    rw [hsame]
    exact h
  | tick ht =>
    obtain ⟨clock, maintenance, locked, -, rfl⟩ := ht
    exact h

theorem rebuilds_run (hreads : text.ReadsBack py)
    (hR : ∀ s i tx app t at' (row : UsageRow), Meets s (.commit i (.closeFenced tx app)) →
      s.store.inflight.lookup tx = some t → app.mutation.chargedAt? = some at' →
      R { row with recordedAt := at' } { row with recordedAt := t.startedAt })
    (hrun : Run postgres (AnyCall py) Meets (Platform.initial tenants quotas clock) s) :
    s.store.db.Readable ∧ s.store.db.Rebuilds text R := by
  generalize hs₀ : Platform.initial tenants quotas clock = s₀ at hrun
  induction hrun with
  | refl =>
    subst hs₀
    refine ⟨⟨fun t => ⟨[], rfl, List.pairwise_singleton _ _, fun p hp => ?_⟩,
      fun key row hrow => (by cases hrow)⟩, fun t rows hrows => ⟨rows, rfl, fun id => ?_,
      fun _ _ _ => rfl⟩⟩
    · rw [List.mem_singleton.1 hp]
      exact Nat.zero_lt_one
    · rw [hrows id]
      exact .none
  | tail hbefore hstep hmeets ih =>
    subst hs₀
    refine rebuilds_step hbefore hreads hstep (fun i tx app t at' row ha ht hat => ?_) ih
    exact hR _ i tx app t at' row (ha ▸ hmeets) ht hat

end Runs

/-! ## Rebuilds -/

/-- `rebuild` of the usage projection with nobody else about: `reset`, and the first calls of
`catch_up`. -/
def rebuildUsage (text : PayloadText) (context : TenantContext) (pageSize : ℤ) (w : World) (n : ℕ) :
    ProjectionView (modelUsage text).Rows × EngineState :=
  (modelUsage text).proceed context pageSize w.ledger n
    (⟨w.db.usage.deleteWhere fun k => k.1 = context.tenantId, none⟩, .loading)

/-- A rebuild has returned, and left these rows. -/
def Rebuilt (text : PayloadText) (context : TenantContext) (pageSize : ℤ) (w : World)
    (rows : Table (String × UUID) UsageRow) : Prop :=
  ∃ n checkpoint, rebuildUsage text context pageSize w n =
    (⟨rows, checkpoint⟩, .returned (checkpoint.getD 0))

/-- Tokens and cost of usage rows, as admission sums them. -/
def usageSums (rows : List UsageRow) : ℤ × Decimal :=
  ((rows.map (·.totalTokens)).sum, (rows.map (·.costUsd)).sum)

theorem usageSums_perm {rows rows' : List UsageRow} (h : rows.Perm rows') :
    usageSums rows = usageSums rows' :=
  Prod.ext (h.map _).sum_eq (h.map _).sum_eq

section Runs

variable {py : PyText} {text : PayloadText} {R : UsageRow → UsageRow → Prop}
  {tenants : List String} {quotas : Table String QuotaLimits} {clock : Timestamp}
  {Meets : Platform → Action Txn → Prop} {s : Platform}

theorem ledger_inv (hreads : text.ReadsBack py)
    (hrun : Run postgres (AnyCall py) Meets (Platform.initial tenants quotas clock) s) :
    s.store.ledger.Inv := by
  have hinv := (run_inv (lawfully_anyCall py) hrun (World.inv_initial _ _ _) follows_initial).1
  have hreadable := (rebuilds_run (R := fun _ _ => True) hreads
    (fun _ _ _ _ _ _ _ _ _ _ => trivial) hrun).1
  exact ⟨hinv.heads, hreadable.ordered, hreadable.inbox⟩

/-- **A rebuild returns**, with rows that are related to those the gateway wrote. -/
theorem rebuild_related (hreads : text.ReadsBack py)
    (hR : ∀ s i tx app t at' (row : UsageRow), Meets s (.commit i (.closeFenced tx app)) →
      s.store.inflight.lookup tx = some t → app.mutation.chargedAt? = some at' →
      R { row with recordedAt := at' } { row with recordedAt := t.startedAt })
    (hrun : Run postgres (AnyCall py) Meets (Platform.initial tenants quotas clock) s)
    (context : TenantContext) {pageSize : ℤ} (hvalid : 1 ≤ pageSize ∧ pageSize ≤ 1000) :
    ∃ rows, Rebuilt text context pageSize s.store rows ∧
      (∀ id, Option.Rel R (s.store.db.usage.lookup (context.tenantId, id))
        (rows.lookup (context.tenantId, id))) ∧
      ∀ t id, t ≠ context.tenantId → rows.lookup (t, id) = s.store.db.usage.lookup (t, id) := by
  have hdeleted : ∀ id, (s.store.db.usage.deleteWhere fun k => k.1 = context.tenantId).lookup
      (context.tenantId, id) = none := by
    intro id
    rw [Table.lookup_deleteWhere, if_pos (by simp)]
  obtain ⟨rows, hfold, hrel, hother⟩ :=
    (rebuilds_run hreads hR hrun).2 context.tenantId _ hdeleted
  have hhistory : (s.store.ledger.history context.tenantId).foldlM (modelUsage text).write _ =
      .ok rows := hfold
  obtain ⟨n, checkpoint, hreturns⟩ :=
    ReadModel.catchUp_returns (ledger_inv hreads hrun) hvalid hhistory
  refine ⟨rows, ⟨n, checkpoint, hreturns⟩, hrel, fun t id ht => ?_⟩
  rw [hother t id ht, Table.lookup_deleteWhere, if_neg (by simpa using ht)]

/-- **In any run the rebuilt rows are the rows that were there in every column but
`recorded_at`.** -/
theorem rebuild_keeps_but_recordedAt (hreads : text.ReadsBack py)
    (hrun : Run postgres (AnyCall py) (fun _ _ => True) (Platform.initial tenants quotas clock) s)
    (context : TenantContext) {pageSize : ℤ} (hvalid : 1 ≤ pageSize ∧ pageSize ≤ 1000) :
    ∃ rows, Rebuilt text context pageSize s.store rows ∧
      ∀ id, Option.Rel ButRecordedAt (s.store.db.usage.lookup (context.tenantId, id))
        (rows.lookup (context.tenantId, id)) := by
  obtain ⟨rows, hrebuilt, hrel, -⟩ := rebuild_related (R := ButRecordedAt) hreads
    (fun _ _ _ _ _ _ _ _ _ _ => rfl) hrun context hvalid
  exact ⟨rows, hrebuilt, hrel⟩

/-- **A rebuild preserves every budget total.**  When every charge is told the instant of its
transaction, a rebuild of any tenant returns and leaves every usage row as it was, column by
column; so every sum that admission reads is what it was. -/
theorem rebuild_keeps_usage (hreads : text.ReadsBack py)
    (hrun : Run postgres (AnyCall py) Punctual (Platform.initial tenants quotas clock) s)
    (context : TenantContext) (pageSize : ℤ) (hvalid : 1 ≤ pageSize ∧ pageSize ≤ 1000) :
    ∃ rows, Rebuilt text context pageSize s.store rows ∧
      (∀ key, rows.lookup key = s.store.db.usage.lookup key) ∧
      ∀ tenantId,
        (∀ at', usageSums ({ s.store.db with usage := rows }.periodUsage tenantId at') =
          usageSums (s.store.db.periodUsage tenantId at')) ∧
        ∀ runId, usageSums ({ s.store.db with usage := rows }.runUsage tenantId runId) =
          usageSums (s.store.db.runUsage tenantId runId) := by
  obtain ⟨rows, hrebuilt, hrel, hother⟩ := rebuild_related (R := Eq) hreads
    (fun s i tx app t at' row hmeets ht hat => by rw [hmeets t ht at' hat]) hrun context hvalid
  have hsame : ∀ key, rows.lookup key = s.store.db.usage.lookup key := by
    rintro ⟨t, id⟩
    by_cases ht : t = context.tenantId
    · subst ht
      have hid := hrel id
      generalize s.store.db.usage.lookup (context.tenantId, id) = row at hid
      generalize rows.lookup (context.tenantId, id) = row' at hid
      cases hid with
      | none => rfl
      | some h => rw [h]
    · exact hother t id ht
  have hperm := Table.rows_perm_of_lookup hsame
  refine ⟨rows, hrebuilt, hsame, fun tenantId => ⟨fun at' => ?_, fun runId => ?_⟩⟩
  · exact usageSums_perm ((hperm.filter _).map _)
  · exact usageSums_perm ((hperm.filter _).map _)

end Runs

/-! ## A month apart -/

/-- The sample call is charged 15 tokens, by a clock of the caller's. -/
def sampleCharge (at' : Timestamp) : Call :=
  .modelSucceed sampleContext sampleModelRequest sampleLease memoryReservation sampleResponse
    freePricing at' (sampleIds 70)

def chargedSchedule (at' : Timestamp) : List Scheduled :=
  startedSchedule ++ Scheduled.whole 5 sampleReserve ++ Scheduled.whole 6 (sampleCharge at')

/-- The test that stops a schedule at a charge that is not told the instant of its transaction. -/
def punctualTest (s : Platform) : Action Txn → Bool
  | .commit _ (.closeFenced tx a) => (s.store.inflight.lookup tx).all fun t =>
    a.mutation.chargedAt?.all fun at' => at' = t.startedAt
  | _ => true

theorem punctual_of_test (s : Platform) (a : Action Txn) (h : punctualTest s a = true) :
    Punctual s a := by
  cases a with
  | commit i c =>
    cases c with
    | closeFenced tx app =>
      intro t ht at' hat
      exact of_decide_eq_true ((Option.all_eq_true _ _).1 ((Option.all_eq_true _ _).1 h t ht) at' hat)
    | _ => trivial
  | _ => trivial

/-- What the tenant used in the month of the epoch. -/
def epochTokens (usage : Table (String × UUID) UsageRow) : ℤ :=
  (usageSums ({ samplePlatform.store.db with usage := usage }.periodUsage "acme" 0)).1

/-- The rows of the replayed history. -/
def replayedUsage (w : World) : Except Raised (Table (String × UUID) UsageRow) :=
  (w.db.events.filter (·.tenantId = "acme")).foldlM (writeModelUsage amountPayload)
    (w.db.usage.deleteWhere fun k => k.1 = "acme")

/-- **A caller whose clock is a moment behind the database charges the month before**: the
tokens are not counted in the month in which they are recorded, until the projection is
rebuilt. -/
theorem usage_moves : ∃ s, Run postgres (AnyCall amountText) (fun _ _ => True) budgetPlatform s ∧
    ∃ rows, Rebuilt amountPayload sampleContext 100 s.store rows ∧
      epochTokens s.store.db.usage = 0 ∧ epochTokens rows = 15 := by
  obtain ⟨s, hrun, htest⟩ := exists_run_any (s := budgetPlatform) amountText (chargedSchedule (-1))
    (fun s => match replayedUsage s.store with
      | .ok rows => epochTokens s.store.db.usage = 0 && epochTokens rows = 15
      | .error _ => false) meets_of_anyTest (by decide +kernel)
  refine ⟨s, hrun, ?_⟩
  cases hreplayed : replayedUsage s.store with
  | error e =>
    rw [hreplayed] at htest
    cases htest
  | ok rows =>
    rw [hreplayed, Bool.and_eq_true, decide_eq_true_eq, decide_eq_true_eq] at htest
    have hhistory : (s.store.ledger.history sampleContext.tenantId).foldlM
        (modelUsage amountPayload).write _ = .ok rows := hreplayed
    obtain ⟨n, checkpoint, hreturns⟩ := ReadModel.catchUp_returns
      (ledger_inv amountPayload_readsBack hrun) (by decide : (1 : ℤ) ≤ 100 ∧ (100 : ℤ) ≤ 1000)
      hhistory
    exact ⟨rows, ⟨n, checkpoint, hreturns⟩, htest⟩

/-- A caller that is told the time by the database. -/
theorem rebuild_keeps_usage_charged : ∃ s,
    Run postgres (AnyCall amountText) Punctual budgetPlatform s ∧
    epochTokens s.store.db.usage = 15 ∧
    ∃ rows, Rebuilt amountPayload sampleContext 100 s.store rows ∧
      ∀ key, rows.lookup key = s.store.db.usage.lookup key := by
  obtain ⟨s, hrun, htokens⟩ := exists_run_any (s := budgetPlatform) amountText (chargedSchedule 0)
    (fun s => epochTokens s.store.db.usage = 15) punctual_of_test (by decide +kernel)
  obtain ⟨rows, hrebuilt, hsame, -⟩ :=
    rebuild_keeps_usage amountPayload_readsBack hrun sampleContext 100 (by decide)
  exact ⟨s, hrun, of_decide_eq_true htokens, rows, hrebuilt, hsame⟩

end AegisPlatform
