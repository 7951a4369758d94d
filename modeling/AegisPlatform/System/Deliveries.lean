import AegisPlatform.System.Publishing

/-!
# What a delivery is checked against

The row of an outbox message and the row of its item are written once: later transactions
change where a message is and how an item fares, never what was registered.  So what
`_verify_delivery` has compared a delivery with is still there when its caller returns.

* `Database.registered`, `Database.message` — the columns that do not change.
* `exec_applied`, `rowsKept_exec` — they do not; items and messages come with an append.
* `Authentic` — the delivery is the message and the request that are stored, as Python's
  `==` compares them.
* `claimed_authentic` — whatever a delivery says, a claim that returns a lease was for one
  that is authentic.
-/

namespace AegisPlatform

open Fallible Interleave

/-! ## Columns that do not change -/

/-- What an item was registered with. -/
structure Registered where
  workKind : String
  idempotencyKey : String
  requestedAt : Timestamp
  maxAttempts : ℤ
  timeoutSeconds : ℤ
  requestEventId : UUID
  correlationId : UUID
  causationId : Option UUID
  requestPayload : Dict

def WorkItemRow.registered (item : WorkItemRow) : Registered where
  workKind := item.workKind
  idempotencyKey := item.idempotencyKey
  requestedAt := item.requestedAt
  maxAttempts := item.maxAttempts
  timeoutSeconds := item.timeoutSeconds
  requestEventId := item.requestEventId
  correlationId := item.correlationId
  causationId := item.causationId
  requestPayload := item.requestPayload

/-- What a request is registered with. -/
def WorkRequest.registered (request : WorkRequest) (requestEventId : UUID) : Registered where
  workKind := request.workKind
  idempotencyKey := request.idempotencyKey
  requestedAt := request.requestedAt
  maxAttempts := request.maxAttempts
  timeoutSeconds := request.timeoutSeconds
  requestEventId := requestEventId
  correlationId := request.correlationId
  causationId := request.causationId
  requestPayload := request.payload

/-- What a message was inserted with. -/
structure OutboxContent where
  eventId : Option UUID
  destination : String
  payload : Dict
  headers : Dict

def OutboxRow.content (row : OutboxRow) : OutboxContent where
  eventId := row.eventId
  destination := row.destination
  payload := row.payload
  headers := row.headers

namespace Database

def registered (db : Database) (key : WorkKey) : Option Registered :=
  (db.workItems.lookup key).map (·.registered)

def message (db : Database) (key : String × UUID) : Option OutboxContent :=
  (db.outbox.lookup key).map (·.content)

end Database

/-- Every item is there, as it was registered, and no other. -/
def SameItems (db db' : Database) : Prop := ∀ key, db'.registered key = db.registered key

namespace SameItems

variable {db db₁ db' : Database} {key : WorkKey}

theorem of_eq (h : db'.workItems = db.workItems) : SameItems db db' := by
  intro k
  rw [Database.registered, Database.registered, h]

theorem trans (h : SameItems db db₁) (h' : SameItems db₁ db') : SameItems db db' :=
  fun k => (h' k).trans (h k)

theorem modify {f : WorkItemRow → WorkItemRow} (h : db'.workItems = db.workItems.modify key f)
    (hf : ∀ item, (f item).registered = item.registered) : SameItems db db' := by
  intro k
  rw [Database.registered, Database.registered, h, Table.lookup_modify]
  by_cases hk : k = key
  · rw [if_pos hk]
    cases db.workItems.lookup k with
    | none => rfl
    | some item => simp [hf]
  · rw [if_neg hk]

theorem updateItem {e : Raised} {p : WorkItemRow → Bool} {f : WorkItemRow → WorkItemRow}
    (h : db.updateItem key e p f = .ok db')
    (hf : ∀ item, (f item).registered = item.registered) : SameItems db db' := by
  obtain ⟨old, hold, -, rfl⟩ := Database.updateItem_eq_ok.1 h
  intro k
  rw [Database.registered, Database.registered, Table.lookup_upsert]
  by_cases hk : k = key
  · rw [if_pos hk, hk, hold]
    simp [hf]
  · rw [if_neg hk]

theorem endLease {lease : WorkLease} {at' : Timestamp} {reason : String}
    {p : WorkLeaseRow → Bool} (h : db.endLease lease at' reason p = .ok db') : SameItems db db' := by
  obtain ⟨row, -, -, -, rfl⟩ := Database.endLease_eq_ok.1 h
  exact of_eq rfl

theorem ending {lease : WorkLease} {at' : Timestamp} {reason : String} {e : Raised}
    {q : WorkLeaseRow → Bool} {p : WorkItemRow → Bool} {f : WorkItemRow → WorkItemRow}
    (h : (db.endLease lease at' reason q >>= fun db => db.updateItem key e p f) = .ok db')
    (hf : ∀ item, (f item).registered = item.registered) : SameItems db db' := by
  obtain ⟨db₁, h₁, h₂⟩ := bind_eq_ok.1 h
  exact (endLease h₁).trans (updateItem h₂ hf)

end SameItems

/-- The one item that is new was registered. -/
structure Inserted (request : WorkRequest) (requestEventId : UUID) (db db' : Database) : Prop where
  fresh : db.registered request.key = none
  self : db'.registered request.key = some (request.registered requestEventId)
  other : ∀ key, key ≠ request.key → db'.registered key = db.registered key

/-- **What a mutation of the work projection does to what is registered**: nothing, unless it
is the insertion of an item. -/
theorem WorkMutation.registered_run {m : WorkMutation} {now : Timestamp} {db db' : Database}
    (h : m.run now db = .ok db') :
    match m.insertion? with
    | some (request, id) => Inserted request id db db'
    | none => SameItems db db' := by
  cases m with
  | insertWork request id =>
    simp only [run, Database.insertWork, bind_eq_ok, orRaise_eq_ok, Table.insertNew_eq_some,
      pure_eq_ok] at h
    obtain ⟨-, -, items, ⟨hnew, rfl⟩, rfl⟩ := h
    refine ⟨?_, ?_, fun key hkey => ?_⟩
    · rw [Database.registered, hnew]
      rfl
    · rw [Database.registered, Table.lookup_upsert_self]
      rfl
    · rw [Database.registered, Database.registered, Table.lookup_upsert_ne _ _ hkey]
  | markProjection => exact SameItems.updateItem h fun _ => rfl
  | claimProjection =>
    simp only [run, Database.claimProjection, bind_eq_ok] at h
    obtain ⟨-, -, db₁, h₁, h₂⟩ := h
    obtain ⟨-, rfl⟩ := Database.acquireLease_eq_ok h₂
    exact (SameItems.updateItem h₁ fun _ => rfl).trans (.of_eq rfl)
  | markStarted => exact SameItems.updateItem h fun _ => rfl
  | renewLease =>
    simp only [run, Database.renewLease, bind_eq_ok, orRaise_eq_ok, Table.updateWhere_eq_some,
      pure_eq_ok] at h
    obtain ⟨leases, ⟨row, -, -, rfl⟩, rfl⟩ := h
    exact SameItems.of_eq rfl
  | cancelProjection => exact SameItems.updateItem h fun _ => rfl
  | succeed => exact SameItems.ending h fun _ => rfl
  | cancel => exact SameItems.ending h fun _ => rfl
  | deadLetter =>
    simp only [run, Database.deadLetterInTransaction, bind_eq_ok, pure_eq_ok] at h
    obtain ⟨db₁, h₁, rfl⟩ := h
    exact (SameItems.ending h₁ fun _ => rfl).trans (.modify rfl fun _ => rfl)
  | retry => exact SameItems.ending h fun _ => rfl
  | releaseProjection => exact SameItems.ending h fun _ => rfl
  | redriveProjection =>
    simp only [run, Database.redriveProjection, bind_eq_ok, orRaise_eq_ok, pure_eq_ok] at h
    obtain ⟨outbox, -, rfl⟩ := h
    exact SameItems.of_eq rfl
  | expireProjection =>
    simp only [run, Database.expireProjection, bind_eq_ok] at h
    obtain ⟨-, -, h⟩ := h
    split at h
    · simp only [Database.deadLetterExpiredInTransaction, bind_eq_ok, pure_eq_ok] at h
      obtain ⟨db₁, h₁, db₂, h₂, rfl⟩ := h
      exact (SameItems.endLease h₁).trans
        ((SameItems.updateItem h₂ fun _ => rfl).trans (.of_eq rfl))
    · exact SameItems.ending h fun _ => rfl
  | requeueProjection =>
    simp only [run, Database.requeueProjection, bind_eq_ok, pure_eq_ok] at h
    obtain ⟨-, -, db₁, h₁, rfl⟩ := h
    exact (SameItems.updateItem h₁ fun _ => rfl).trans (.of_eq rfl)

/-- The append a transaction runs, if it runs one. -/
def Txn.append? : Txn → Option Append
  | append a | closeFenced _ a => some a
  | _ => none

/-- What was registered and what was inserted is there. -/
structure RowsKept (w w' : World) : Prop where
  items : ∀ k item, w.db.registered k = some item → w'.db.registered k = some item
  outbox : ∀ k message, w.db.message k = some message → w'.db.message k = some message

/-- The message as it is inserted. -/
def OutboxMessage.content (message : OutboxMessage) : OutboxContent := message.row.content

namespace World

variable {w w' : World} {c : Txn} {r : Except Raised Reply} {a : Append} {startedAt : Timestamp}
  {db' : Database} {reply : Reply}

theorem registered_runAppend (h : w.runAppend a startedAt = .ok (db', reply)) :
    match a.mutation.insertion? with
    | some (request, id) => Inserted request id w.db db'
    | none => SameItems w.db db' := by
  simp only [runAppend, bind_eq_ok, pure_eq_ok, Prod.mk.injEq, Prod.exists] at h
  obtain ⟨db₀, version, happend, db₂, hmut, rfl, -⟩ := h
  obtain ⟨first, -, -, -, hdb₀, -⟩ := Database.appendInTransaction_spec happend
  have hmutation : ∀ db₁ : Database, db₁.workItems = w.db.workItems →
      a.mutation.run w.clock (fun tenantId => tenantId ∈ w.maintenance) db₁ = .ok db₂ →
      match a.mutation.insertion? with
      | some (request, id) => Inserted request id w.db db₂
      | none => SameItems w.db db₂ := by
    intro db₁ heq hrun
    have hsame : SameItems w.db db₁ := .of_eq heq
    cases hm : a.mutation with
    | none =>
      rw [hm] at hrun
      cases hrun
      exact hsame
    | work m =>
      rw [hm] at hrun
      have hitems := m.registered_run hrun
      cases m with
      | insertWork request id =>
        refine ⟨?_, hitems.self, fun key hkey => ?_⟩
        · rw [← hsame]
          exact hitems.fresh
        · rw [hitems.other key hkey, hsame]
      | _ => exact hsame.trans hitems
    | gateway m =>
      rw [hm] at hrun
      refine hsame.trans (.of_eq ?_)
      rw [GatewayMutation.run_rest hrun]
  cases hinbox : a.inbox with
  | none =>
    rw [hinbox] at hmut
    exact hmutation db₀ (by rw [hdb₀]) hmut
  | some message =>
    rw [hinbox] at hmut
    refine hmutation _ ?_ hmut
    show db₀.workItems = w.db.workItems
    rw [hdb₀]

/-- What was not there before an append is one of its messages. -/
theorem message_runAppend (h : w.runAppend a startedAt = .ok (db', reply)) {k : String × UUID}
    {message : OutboxContent} (hmessage : db'.message k = some message) :
    w.db.message k = some message ∨ ∃ m ∈ a.outbox, ∃ first ∈ a.events.head?,
      k = (first.tenantId, m.messageId) ∧ message = m.content := by
  simp only [runAppend, bind_eq_ok, pure_eq_ok, Prod.mk.injEq, Prod.exists] at h
  obtain ⟨db₀, version, happend, db₂, hmut, rfl, -⟩ := h
  obtain ⟨first, hfirst, -, -, -, hins⟩ := Database.appendInTransaction_spec happend
  -- the mutation may send a message again, which keeps what it says
  have hrest : db₀.message k = some message := by
    have hmutation : db₂.outbox.lookup k = db₀.outbox.lookup k ∨ ∃ row publishedAt availableAt,
        db₀.outbox.lookup k = some row ∧ row.state = .published publishedAt ∧
        db₂.outbox.lookup k = some { row with
          state := .pending, availableAt := availableAt, attemptCount := 0,
          lastErrorCode := none } := by
      cases hinbox : a.inbox <;> (rw [hinbox] at hmut; exact outbox_mutation hmut k)
    unfold Database.message at hmessage ⊢
    rcases hmutation with hsame | ⟨row, _, _, hrow, -, hnew⟩
    · rw [← hsame]
      exact hmessage
    · rw [hnew] at hmessage
      rw [hrow, ← hmessage]
      rfl
  obtain ⟨row, hrow, rfl⟩ := Option.map_eq_some_iff.1 hrest
  cases hold : w.db.outbox.lookup k with
  | none =>
    obtain ⟨m, hm, hk, rfl⟩ := hins.new k row hold hrow
    exact Or.inr ⟨m, hm, first, hfirst, hk, rfl⟩
  | some old =>
    rw [hins.kept k old hold, Option.some.injEq] at hrow
    rw [Database.message, hold, hrow]
    exact Or.inl rfl

/-- A transaction runs an append to its end, or changes neither items nor leases nor what
messages say. -/
theorem exec_applied (h : exec c w = some (w', r)) :
    (w'.db.workItems = w.db.workItems ∧ w'.db.workLeases = w.db.workLeases ∧
      ∀ k, w'.db.message k = w.db.message k) ∨
      ∃ a startedAt reply, c.append? = some a ∧ w.runAppend a startedAt = .ok (w'.db, reply) := by
  have hquiet : w'.db = w.db → w'.db.workItems = w.db.workItems ∧
      w'.db.workLeases = w.db.workLeases ∧ ∀ k, w'.db.message k = w.db.message k :=
    fun hdb => ⟨by rw [hdb], by rw [hdb], fun k => by rw [hdb]⟩
  cases hc : c.append? with
  | none =>
    refine Or.inl ?_
    cases c with
    | append => cases hc
    | closeFenced => cases hc
    | openFenced f =>
      rcases exec_openFenced h with ⟨rfl, -⟩ | ⟨row, -, -, -, -, rfl, -⟩
      · exact hquiet rfl
      · exact hquiet rfl
    | _ =>
      refine ⟨?_, ?_, fun k => ?_⟩
      · obtain ⟨outbox, approvals, rfl⟩ := exec_other rfl h
        rfl
      · obtain ⟨outbox, approvals, rfl⟩ := exec_other rfl h
        rfl
      · have hstep := outboxStep h k
        unfold Database.message
        generalize w.db.outbox.lookup k = row at hstep
        generalize w'.db.outbox.lookup k = row' at hstep
        cases hstep with
        | inserted hm => cases hm
        | _ => rfl
  | some a =>
    cases c with
    | append b =>
      cases hc
      rcases exec_append h with ⟨rfl, -⟩ | ⟨db', reply, -, hrun, rfl, -⟩
      · exact Or.inl (hquiet rfl)
      · exact Or.inr ⟨a, _, reply, rfl, hrun⟩
    | closeFenced tx b =>
      cases hc
      rcases exec_closeFenced h with
        ⟨-, rfl, -⟩ | ⟨t, -, ⟨e, -, -, rfl⟩ | ⟨db', reply, hrun, -, rfl⟩⟩
      · exact Or.inl (hquiet rfl)
      · exact Or.inl (hquiet rfl)
      · exact Or.inr ⟨a, _, reply, rfl, hrun⟩
    | _ => cases hc

/-- **No transaction changes what was registered or inserted.** -/
theorem rowsKept_exec (h : exec c w = some (w', r)) : RowsKept w w' where
  items k item hitem := by
    rcases exec_applied h with ⟨hsame, -⟩ | ⟨a, startedAt, reply, -, hrun⟩
    · rw [SameItems.of_eq hsame]
      exact hitem
    · have hitems := registered_runAppend hrun
      split at hitems
      · rw [hitems.other k]
        · exact hitem
        · rintro rfl
          rw [hitems.fresh] at hitem
          cases hitem
      · rw [hitems]
        exact hitem
  outbox k message hmessage := by
    obtain ⟨row, hrow, rfl⟩ := Option.map_eq_some_iff.1 hmessage
    have hstep := outboxStep h k
    unfold Database.message
    rw [hrow] at hstep
    generalize w'.db.outbox.lookup k = row' at hstep
    cases hstep <;> rfl

theorem rowsKept_of_db (h : w'.db = w.db) : RowsKept w w' where
  items k item hitem := by rw [h]; exact hitem
  outbox k message hmessage := by rw [h]; exact hmessage

/-- Nothing that happens to the database does. -/
theorem rowsKept_move {Legit : Txn → World → Prop} (h : Move postgres Legit w w') :
    RowsKept w w' := by
  rcases h with ⟨c, r, -, hexec⟩ | ⟨c, rfl⟩ | ht
  · exact rowsKept_exec hexec
  · exact rowsKept_of_db (abort_cases c w).1
  · obtain ⟨clock, maintenance, locked, -, rfl⟩ := ht
    exact rowsKept_of_db rfl

end World

/-! ## Deliveries that match -/

/-- `WorkExecution.payload`: what a handler is given of a delivery. -/
def QueueDelivery.handlerPayload (delivery : QueueDelivery) : Dict :=
  match delivery.envelope.payload.get? "request_payload" with
  | some (.obj fields) => fields
  | _ => []

/-- The fields of the request that was registered. -/
def Registered.fields (item : Registered) (tenantId : String) (workId : UUID) :
    WorkRequestFields where
  workId := workId
  tenantId := tenantId
  workKind := item.workKind
  idempotencyKey := item.idempotencyKey
  requestedAt := item.requestedAt
  maxAttempts := item.maxAttempts
  timeoutSeconds := item.timeoutSeconds
  correlationId := item.correlationId
  causationId := item.causationId
  payload := item.requestPayload

/-- The request is the one that was registered, as `==` compares them. -/
def Registered.Holds (item : Registered) (request : WorkRequest) : Prop :=
  ∃ authoritative, (item.fields request.tenantId request.workId).make = .ok authoritative ∧
    request.pyEq authoritative = true

/-- The delivery matches what was registered and inserted: identifiers and destination are
the stored ones, payloads and headers are equal as Python's `==` compares them. -/
structure QueueDelivery.Matches (py : PyText) (delivery : QueueDelivery) (tenantId : String)
    (item : Registered) (message : OutboxContent) : Prop where
  tenantId : delivery.envelope.tenantId = tenantId
  workId : JsonValue.text? message.payload "work_id" = some delivery.envelope.workId.str
  eventId : delivery.envelope.eventId = message.eventId
  destination : delivery.envelope.destination = message.destination
  correlationId : delivery.envelope.correlationId = item.correlationId
  causationId : delivery.envelope.causationId = item.causationId
  payload : JsonValue.pyEq (.obj message.payload) (.obj delivery.envelope.payload) = true
  headers : JsonValue.pyEq (.obj message.headers) (.obj delivery.envelope.headers) = true
  handlerPayload : JsonValue.pyEq (.obj delivery.handlerPayload) (.obj item.requestPayload) = true
  request : ∃ request, requestFromDelivery py delivery = .ok request ∧ item.Holds request

/-- The item and the message the delivery names are stored, and it matches them. -/
def Authentic (py : PyText) (tenantId : String) (delivery : QueueDelivery) (w : World) : Prop :=
  ∃ item message, w.db.registered (tenantId, delivery.envelope.workId) = some item ∧
    w.db.message (tenantId, delivery.envelope.messageId) = some message ∧
    delivery.Matches py tenantId item message

section

variable {py : PyText} {context : TenantContext} {delivery : QueueDelivery} {w w' : World}
  {tenantId : String}

/-- A delivery that matches goes on matching. -/
theorem Authentic.kept (h : Authentic py tenantId delivery w) (hkept : RowsKept w w') :
    Authentic py tenantId delivery w' := by
  obtain ⟨item, message, hitem, hmessage, hmatches⟩ := h
  exact ⟨item, message, hkept.items _ item hitem, hkept.outbox _ message hmessage, hmatches⟩

/-- What `_request_from_delivery` takes over as it is. -/
theorem requestFromDelivery_eq_ok {request : WorkRequest}
    (h : requestFromDelivery py delivery = .ok request) :
    request.tenantId = delivery.envelope.tenantId ∧
      request.workId = delivery.envelope.workId ∧
      request.correlationId = delivery.envelope.correlationId ∧
      request.causationId = delivery.envelope.causationId ∧
      request.payload = delivery.handlerPayload := by
  have hrouted : ∀ payload, (∃ workKind idempotencyKey requestedAt maxAttempts timeoutSeconds,
      (WorkRequestFields.make {
        workId := delivery.envelope.workId
        tenantId := delivery.envelope.tenantId
        workKind := py.str workKind
        idempotencyKey := py.str idempotencyKey
        correlationId := delivery.envelope.correlationId
        causationId := delivery.envelope.causationId
        requestedAt := requestedAt
        payload := payload
        maxAttempts := maxAttempts
        timeoutSeconds := timeoutSeconds }).toOption = some request) →
      request.tenantId = delivery.envelope.tenantId ∧
        request.workId = delivery.envelope.workId ∧
        request.correlationId = delivery.envelope.correlationId ∧
        request.causationId = delivery.envelope.causationId ∧ request.payload = payload := by
    rintro payload ⟨_, _, _, _, _, hmake⟩
    generalize hfields : WorkRequestFields.make _ = made at hmake
    cases made with
    | error e => cases hmake
    | ok made =>
      cases hmake
      rw [WorkRequestFields.make_eq hfields]
      exact ⟨rfl, rfl, rfl, rfl, rfl⟩
  simp only [requestFromDelivery] at h
  unfold QueueDelivery.handlerPayload
  split at h
  · rename_i hnone
    simp only [bind_eq_ok, orRaise_eq_ok, Option.bind_eq_bind, Option.bind_eq_some_iff] at h
    obtain ⟨_, ⟨rfl⟩, _, -, _, -, _, -, _, -, _, -, hmake⟩ := h
    rw [hnone]
    exact hrouted _ ⟨_, _, _, _, _, hmake⟩
  · rename_i fields hobj
    simp only [bind_eq_ok, orRaise_eq_ok, Option.bind_eq_bind, Option.bind_eq_some_iff] at h
    obtain ⟨_, ⟨rfl⟩, _, -, _, -, _, -, _, -, _, -, hmake⟩ := h
    rw [hobj]
    exact hrouted _ ⟨_, _, _, _, _, hmake⟩
  · cases h

theorem deliveryRows_eq_some {tenantId : String} {envelope : MessageEnvelope} {item : WorkItemRow}
    {row : OutboxRow} (h : deliveryRows w tenantId envelope = some (item, row)) :
    w.db.workItems.lookup (tenantId, envelope.workId) = some item ∧
      w.db.outbox.lookup (tenantId, envelope.messageId) = some row ∧
      row.isFor envelope.workId = true := by
  simp only [deliveryRows, Option.bind_eq_bind, Option.bind_eq_some_iff] at h
  obtain ⟨item', hitem, row', hrow, h⟩ := h
  have hsome : row'.isFor envelope.workId = true ∧ item' = item ∧ row' = row := by
    split at h
    · simpa using h
    · simpa using h
    · cases h
  obtain ⟨hfor, rfl, rfl⟩ := hsome
  exact ⟨hitem, hrow, hfor⟩

/-- **A delivery that `_verify_delivery` lets through is authentic**, whatever others do
meanwhile. -/
theorem wp_verifyDelivery : wp postgres (fun _ _ => True)
    (fun r t => (∃ e, r = .error e) ∨ Authentic py context.tenantId delivery t)
    (verifyDelivery py context delivery) w := by
  have herror : ∀ (e : Raised) (t : World),
      (∃ e', (.error e : Except Raised WorkRequest) = .error e') ∨
        Authentic py context.tenantId delivery t := fun e _ => Or.inl ⟨e, rfl⟩
  refine wp_ofExcept_bind herror fun supplied hsupplied => ?_
  refine wp_ofExcept_bind herror fun _ hcontext => wp_query_bind fun t _ => ?_
  refine wp_ofExcept_bind herror fun rows hrows => ?_
  obtain ⟨item, row⟩ := rows
  refine wp_ofExcept_bind herror fun authoritative hitem => ?_
  refine wp_ofExcept_bind herror fun _ hequal => ?_
  obtain ⟨hitemRow, houtboxRow, hfor⟩ := deliveryRows_eq_some (orRaise_eq_ok.1 hrows)
  obtain ⟨htenant, hworkId, hcorrelation, hcausation, hpayload⟩ :=
    requestFromDelivery_eq_ok hsupplied
  have hfields := WorkRequestFields.make_eq hitem
  have hsame := not_not.1 (raiseIf_eq_ok.1 hequal)
  obtain ⟨hrequest, hdestination, heventId, hbody, hheaders⟩ := hsame
  have htrusted := not_not.1 (raiseIf_eq_ok.1 hcontext)
  have hholds : item.registered.Holds supplied := by
    refine ⟨authoritative, ?_, hrequest⟩
    rw [hworkId, ← htrusted]
    exact hitem
  simp only [WorkRequest.pyEq, Bool.and_eq_true, decide_eq_true_eq, hfields] at hrequest
  have hauthentic : Authentic py context.tenantId delivery t :=
    ⟨item.registered, row.content, Option.map_eq_some_iff.2 ⟨item, hitemRow, rfl⟩,
      Option.map_eq_some_iff.2 ⟨row, houtboxRow, rfl⟩, {
      tenantId := htenant.symm.trans htrusted.symm
      workId := by simpa [OutboxRow.isFor, OutboxRow.content] using hfor
      eventId := heventId.symm
      destination := hdestination.symm
      correlationId := by rw [← hcorrelation]; exact hrequest.1.1.1.1.1.1.2
      causationId := by rw [← hcausation]; exact hrequest.1.1.1.2
      payload := hbody
      headers := hheaders
      handlerPayload := by rw [← hpayload]; exact hrequest.1.1.1.1.2
      request := ⟨supplied, hsupplied, hholds⟩ }⟩
  intro u hu
  exact Or.inr (hu.keeps (fun _ _ h hm => h.kept (World.rowsKept_move hm)) hauthentic)

/-- Whatever a delivery says, a claim that returns a lease was for an authentic one. -/
theorem wp_claim {owner : String} {now expiresAt : Timestamp} {limit : ℤ} {ids : ℕ → UUID} :
    wp postgres (fun _ _ => True)
      (fun r t => (∀ lease, r ≠ .ok (some lease)) ∨ Authentic py context.tenantId delivery t)
      (claim py context delivery owner now expiresAt limit ids) w := by
  have herror : ∀ (e : Raised) (t : World),
      (∀ lease, (.error e : Except Raised (Option WorkLease)) ≠ .ok (some lease)) ∨
        Authentic py context.tenantId delivery t := fun e _ => Or.inl fun _ h => (by cases h)
  refine wp_ofExcept_bind herror fun _ _ => wp_ofExcept_bind herror fun _ _ => ?_
  refine wp_bind _ (wp_mono ?_ _ wp_verifyDelivery)
  rintro (e | request) t hverified
  · exact herror e t
  · have hauthentic : Authentic py context.tenantId delivery t :=
      hverified.resolve_left fun ⟨_, h⟩ => (by cases h)
    refine wp_mono (fun _ _ h => Or.inr h) _ (wp_of_stable ?_ (fun _ _ => trivial) _ hauthentic)
    exact fun _ _ h hm => h.kept (World.rowsKept_move hm)

/-- A call of `claim` on a platform that is already running. -/
def Platform.claiming (s : Platform) (py : PyText) (context : TenantContext)
    (delivery : QueueDelivery) (owner : String) (now expiresAt : Timestamp) (limit : ℤ)
    (ids : ℕ → UUID) : Platform :=
  ⟨s.store, s.procs ++ [(Call.claim context delivery owner now expiresAt limit ids).proc py]⟩

/-- **Only authentic content is executed.**  Whatever a delivery says and whatever other
clients do, a claim that returns a lease was for a delivery that matches the stored message
and the registered request. -/
theorem claimed_authentic {s t : Platform} {owner : String} {now expiresAt : Timestamp} {limit : ℤ}
    {ids : ℕ → UUID} {lease : WorkLease} {Calls : Platform → Op Outcome → Prop}
    {Meets : Platform → Action Txn → Prop}
    (hrun : Run postgres Calls Meets
      (s.claiming py context delivery owner now expiresAt limit ids) t)
    (hdone : t.procs[s.procs.length]? = some (.ret (.claimed (some lease)))) :
    Authentic py context.tenantId delivery t.store := by
  have hcall : (s.claiming py context delivery owner now expiresAt limit ids).procs[s.procs.length]?
      = some ((Call.claim context delivery owner now expiresAt limit ids).proc py) := by
    simp [Platform.claiming]
  have hwp : wp postgres (fun _ _ => True)
      (fun r t => (∀ lease, r ≠ .ok (.claimed (some lease))) ∨
        Authentic py context.tenantId delivery t)
      ((Call.claim context delivery owner now expiresAt limit ids).proc py) s.store := by
    refine wp_bind _ (wp_mono ?_ _ wp_claim)
    rintro (e | result) u hclaim
    · exact Or.inl fun _ h => (by cases h)
    · cases result with
      | none => exact fun v _ => Or.inl fun _ h => (by cases h)
      | some lease =>
        have hauthentic := hclaim.resolve_left fun h => h lease rfl
        intro v hv
        exact Or.inr (hv.keeps (fun _ _ h hm => h.kept (World.rowsKept_move hm)) hauthentic)
  have hout := hrun.outcome (o := .ok (.claimed (some lease))) (fun _ _ _ _ => trivial) hcall hwp
    hdone
  exact hout.resolve_left fun h => h lease rfl

/-! ### Runs of a sample

The sample request with one value in its payload, delivered with the same value or with
another. -/

/-- The number 1, or the truth value that Python finds equal to it. -/
inductive One where
  | number
  | truth

def One.value : One → JsonValue
  | number => .int 1
  | truth => .bool true

def valueRequest (one : One) : WorkRequest :=
  ⟨{ sampleRequest.toWorkRequestFields with payload := [("a", one.value)] }, by cases one <;> rfl⟩

def valueDelivery (one : One) : QueueDelivery := ⟨{ sampleDelivery.envelope with
  payload := requestPayload sampleText (valueRequest one) }⟩

/-- Registered with the number 1, published. -/
def valueSchedule : List Scheduled :=
  Scheduled.whole 0 (.register sampleContext (valueRequest .number) (UUID.ofNat 3)
    (UUID.ofNat 4)) ++
  Scheduled.whole 1 (.claimOutbox sampleContext "publisher" (seconds 60) 0 10 none) ++
  Scheduled.whole 2 (.markPublished sampleContext (valueDelivery .number) 0 (sampleIds 10))

/-- The platform when a delivery with the value is about to be claimed. -/
def claimingValue (s : Platform) (one : One) : Platform :=
  s.claiming sampleText sampleContext (valueDelivery one) "worker" 0 (seconds 60) 1 (sampleIds 20)

def JsonValue.isOne : JsonValue → Bool
  | .int n => n = 1
  | _ => false

/-- Is the number 1 what the mapping holds? -/
def holdsOne (payload : Dict) : Bool := (payload.get? "a").any JsonValue.isOne

/-- Does the client end with a lease? -/
def leaseReturned : Option (Op Outcome) → Option WorkLease
  | some (.ret (.claimed lease)) => lease
  | _ => none

theorem leaseReturned_eq_some {p : Option (Op Outcome)} {lease : WorkLease}
    (h : leaseReturned p = some lease) : p = some (.ret (.claimed (some lease))) := by
  unfold leaseReturned at h
  split at h
  · rw [h]
  · cases h

/-- A delivery with the value is claimed, of an item registered with the number 1. -/
def claimsValue (one : One) : Bool :=
  (Sys.drive postgres anyTest (valueSchedule.map (Scheduled.choice sampleText))
    samplePlatform).any fun s =>
      (Sys.drive postgres anyTest ((List.replicate 8 (.go 3)).map (Scheduled.choice sampleText))
        (claimingValue s one)).any fun t =>
          (leaseReturned t.procs[s.procs.length]?).isSome &&
          sampleItem (fun item => holdsOne item.requestPayload) t

theorem exists_claimsValue (one : One) (h : claimsValue one = true) :
    ∃ s t item lease,
      Run postgres (AnyStoreCall sampleText) (fun _ _ => True) samplePlatform s ∧
      Run postgres (AnyStoreCall sampleText) (fun _ _ => True) (claimingValue s one) t ∧
      t.procs[s.procs.length]? = some (.ret (.claimed (some lease))) ∧
      t.store.db.workItems.lookup sampleRequest.key = some item ∧
      holdsOne item.requestPayload = true := by
  obtain ⟨s, hs, h⟩ := (Option.any_eq_true _ _).1 h
  obtain ⟨t, ht, h⟩ := (Option.any_eq_true _ _).1 h
  rw [Bool.and_eq_true, Option.isSome_iff_exists] at h
  obtain ⟨⟨lease, hlease⟩, hitem⟩ := h
  obtain ⟨item, hitem, hone⟩ := sampleItem_eq_true hitem
  exact ⟨s, t, item, lease, Sys.drive_run hs (scheduled_allowed _) meets_of_anyTest,
    Sys.drive_run ht (scheduled_allowed _) meets_of_anyTest, leaseReturned_eq_some hlease,
    hitem, hone⟩

theorem claimed_authentic_one : ∃ s t lease,
    Run postgres (AnyStoreCall sampleText) (fun _ _ => True) samplePlatform s ∧
    Run postgres (AnyStoreCall sampleText) (fun _ _ => True) (claimingValue s .number) t ∧
    t.procs[s.procs.length]? = some (.ret (.claimed (some lease))) ∧
    Authentic sampleText "acme" (valueDelivery .number) t.store := by
  obtain ⟨s, t, -, lease, hrun, hclaim, hdone, -⟩ :=
    exists_claimsValue .number (by decide +kernel)
  exact ⟨s, t, lease, hrun, hclaim, hdone, claimed_authentic hclaim hdone⟩

/-- A delivery with `true` where the number 1 was registered is claimed, and its handler is
given `true`. -/
theorem claimed_other_kind : ∃ s t item lease,
    Run postgres (AnyStoreCall sampleText) (fun _ _ => True) samplePlatform s ∧
    Run postgres (AnyStoreCall sampleText) (fun _ _ => True)
      (claimingValue s .truth) t ∧
    t.procs[s.procs.length]? = some (.ret (.claimed (some lease))) ∧
    t.store.db.workItems.lookup sampleRequest.key = some item ∧
    (valueDelivery .truth).handlerPayload = [("a", .bool true)] ∧
    item.requestPayload ≠ [("a", .bool true)] := by
  obtain ⟨s, t, item, lease, hrun, hclaim, hdone, hitem, hone⟩ :=
    exists_claimsValue .truth (by decide +kernel)
  refine ⟨s, t, item, lease, hrun, hclaim, hdone, hitem, rfl, fun heq => ?_⟩
  rw [heq] at hone
  cases hone

end

end AegisPlatform
