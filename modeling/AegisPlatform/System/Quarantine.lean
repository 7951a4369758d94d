import AegisPlatform.System.Posting
import AegisPlatform.System.Supervision

/-!
# Deliveries that are not quarantined

`_process` quarantines a delivery on any `ValueError` of `mark_published` or `claim`.  For a
delivery that the publisher built from a stored message there are two left: the message is
neither leased nor published any more, or the lease that the supervisor asks for is shorter or
longer than a claim allows.

* `Genuine` — the publisher built the delivery from a stored message.
* `Genuine.authentic` — it matches what is stored.
* `Database.Counted` — attempts and generations are not negative, in every run.
* `genuine_not_quarantined` — a genuine delivery is not quarantined, as long as its message
  stays with the publisher.
-/

namespace AegisPlatform

open Fallible Interleave Effects

/-! ## Counters -/

/-- No item has a negative number of attempts, and no lease a generation below 1. -/
structure Database.Counted (db : Database) : Prop where
  attempts : ∀ k item, db.workItems.lookup k = some item → 0 ≤ item.attemptCount
  generations : ∀ k row, db.workLeases.lookup k = some row → 1 ≤ row.generation

theorem WorkLease.one_le_attempt (l : WorkLease) : 1 ≤ l.attempt := by
  have h := l.valid
  simp only [WorkLeaseFields.check, bind_eq_ok, raiseIf_eq_ok] at h
  obtain ⟨-, -, -, hpos, -⟩ := h
  omega

namespace Database.Counted

variable {db db' : Database} {key : WorkKey}

theorem of_eq (h : db.Counted) (hitems : db'.workItems = db.workItems)
    (hleases : db'.workLeases = db.workLeases) : db'.Counted where
  attempts k item hitem := by
    rw [hitems] at hitem
    exact h.attempts k item hitem
  generations k row hrow := by
    rw [hleases] at hrow
    exact h.generations k row hrow

theorem upsertItem (h : db.Counted) {item : WorkItemRow} (hitem : 0 ≤ item.attemptCount)
    (hitems : db'.workItems = db.workItems.upsert key item)
    (hleases : db'.workLeases = db.workLeases) : db'.Counted where
  attempts k row hrow := by
    rw [hitems, Table.lookup_upsert] at hrow
    by_cases hk : k = key
    · rw [if_pos hk, Option.some.injEq] at hrow
      subst hrow
      exact hitem
    · rw [if_neg hk] at hrow
      exact h.attempts k row hrow
  generations k row hrow := by
    rw [hleases] at hrow
    exact h.generations k row hrow

theorem upsertLease (h : db.Counted) {lease : WorkLeaseRow} (hlease : 1 ≤ lease.generation)
    (hitems : db'.workItems = db.workItems)
    (hleases : db'.workLeases = db.workLeases.upsert key lease) : db'.Counted where
  attempts k item hitem := by
    rw [hitems] at hitem
    exact h.attempts k item hitem
  generations k row hrow := by
    rw [hleases, Table.lookup_upsert] at hrow
    by_cases hk : k = key
    · rw [if_pos hk, Option.some.injEq] at hrow
      subst hrow
      exact hlease
    · rw [if_neg hk] at hrow
      exact h.generations k row hrow

theorem updateItem (h : db.Counted) {e : Raised} {p : WorkItemRow → Bool}
    {f : WorkItemRow → WorkItemRow} (hupdate : db.updateItem key e p f = .ok db')
    (hf : ∀ item, 0 ≤ item.attemptCount → 0 ≤ (f item).attemptCount) : db'.Counted := by
  obtain ⟨old, hold, -, rfl⟩ := Database.updateItem_eq_ok.1 hupdate
  exact h.upsertItem (hf old (h.attempts key old hold)) rfl rfl

theorem endLease (h : db.Counted) {lease : WorkLease} {at' : Timestamp} {reason : String}
    {p : WorkLeaseRow → Bool} (hend : db.endLease lease at' reason p = .ok db') : db'.Counted := by
  obtain ⟨row, hrow, -, -, rfl⟩ := Database.endLease_eq_ok.1 hend
  refine h.upsertLease ?_ rfl rfl
  exact h.generations lease.key row hrow

theorem ending (h : db.Counted) {lease : WorkLease} {at' : Timestamp} {reason : String}
    {e : Raised} {q : WorkLeaseRow → Bool} {p : WorkItemRow → Bool}
    {f : WorkItemRow → WorkItemRow}
    (hend : (db.endLease lease at' reason q >>= fun db => db.updateItem key e p f) = .ok db')
    (hf : ∀ item, 0 ≤ item.attemptCount → 0 ≤ (f item).attemptCount) : db'.Counted := by
  obtain ⟨db₁, h₁, h₂⟩ := bind_eq_ok.1 hend
  exact (h.endLease h₁).updateItem h₂ hf

theorem modifyItem (h : db.Counted) {f : WorkItemRow → WorkItemRow}
    (hf : ∀ item, 0 ≤ item.attemptCount → 0 ≤ (f item).attemptCount)
    (hitems : db'.workItems = db.workItems.modify key f)
    (hleases : db'.workLeases = db.workLeases) : db'.Counted where
  attempts k item hitem := by
    rw [hitems, Table.lookup_modify] at hitem
    by_cases hk : k = key
    · rw [if_pos hk, Option.map_eq_some_iff] at hitem
      obtain ⟨old, hold, rfl⟩ := hitem
      exact hf old (h.attempts k old hold)
    · rw [if_neg hk] at hitem
      exact h.attempts k item hitem
  generations k row hrow := by
    rw [hleases] at hrow
    exact h.generations k row hrow

/-- **Every mutation of the work projection counts on.** -/
theorem run (h : db.Counted) {m : WorkMutation} {now : Timestamp} (hrun : m.run now db = .ok db') :
    db'.Counted := by
  cases m with
  | insertWork request id =>
    simp only [WorkMutation.run, Database.insertWork, bind_eq_ok, orRaise_eq_ok,
      Table.insertNew_eq_some, pure_eq_ok] at hrun
    obtain ⟨-, -, items, ⟨-, rfl⟩, rfl⟩ := hrun
    refine h.upsertItem ?_ rfl rfl
    exact le_rfl
  | markProjection => exact h.updateItem hrun fun _ hitem => hitem
  | claimProjection request lease duration limit =>
    simp only [WorkMutation.run, Database.claimProjection, bind_eq_ok] at hrun
    obtain ⟨-, -, db₁, h₁, h₂⟩ := hrun
    obtain ⟨-, rfl⟩ := Database.acquireLease_eq_ok h₂
    have hattempt := lease.one_le_attempt
    have hcounted : db₁.Counted := h.updateItem h₁ fun _ _ => by
      show (0 : ℤ) ≤ lease.attempt
      omega
    refine hcounted.upsertLease ?_ rfl rfl
    exact lease.one_le_generation
  | markStarted => exact h.updateItem hrun fun _ hitem => hitem
  | renewLease lease =>
    simp only [WorkMutation.run, Database.renewLease, bind_eq_ok, orRaise_eq_ok,
      Table.updateWhere_eq_some, pure_eq_ok] at hrun
    obtain ⟨leases, ⟨row, hrow, -, rfl⟩, rfl⟩ := hrun
    refine h.upsertLease ?_ rfl rfl
    exact h.generations lease.key row hrow
  | cancelProjection => exact h.updateItem hrun fun _ hitem => hitem
  | succeed => exact h.ending hrun fun _ hitem => hitem
  | cancel => exact h.ending hrun fun _ hitem => hitem
  | deadLetter lease =>
    simp only [WorkMutation.run, Database.deadLetterInTransaction, bind_eq_ok, pure_eq_ok] at hrun
    obtain ⟨db₁, h₁, rfl⟩ := hrun
    refine (h.ending h₁ fun _ hitem => hitem).modifyItem ?_ rfl rfl
    exact fun _ hitem => hitem
  | retry => exact h.ending hrun fun _ hitem => hitem
  | releaseProjection => exact h.ending hrun fun _ hitem => hitem
  | redriveProjection =>
    simp only [WorkMutation.run, Database.redriveProjection, bind_eq_ok, orRaise_eq_ok,
      pure_eq_ok] at hrun
    obtain ⟨outbox, -, rfl⟩ := hrun
    exact h.of_eq rfl rfl
  | expireProjection =>
    simp only [WorkMutation.run, Database.expireProjection, bind_eq_ok] at hrun
    obtain ⟨-, -, hrun⟩ := hrun
    split at hrun
    · simp only [Database.deadLetterExpiredInTransaction, bind_eq_ok, pure_eq_ok] at hrun
      obtain ⟨db₁, h₁, db₂, h₂, rfl⟩ := hrun
      exact ((h.endLease h₁).updateItem h₂ fun _ hitem => hitem).of_eq rfl rfl
    · exact h.ending hrun fun _ hitem => hitem
  | requeueProjection =>
    simp only [WorkMutation.run, Database.requeueProjection, bind_eq_ok, pure_eq_ok] at hrun
    obtain ⟨-, -, db₁, h₁, rfl⟩ := hrun
    exact (h.updateItem h₁ fun _ _ => le_rfl).of_eq rfl rfl

end Database.Counted

namespace World

variable {w w' : World} {c : Txn} {r : Except Raised Reply} {Legit : Txn → World → Prop}

theorem counted_initial (tenants : List String) (quotas : Table String QuotaLimits)
    (clock : Timestamp) : (World.initial tenants quotas clock).db.Counted where
  attempts _ _ h := by cases h
  generations _ _ h := by cases h

theorem counted_runAppend {a : Append} {startedAt : Timestamp} {db' : Database} {reply : Reply}
    (h : w.db.Counted) (hrun : w.runAppend a startedAt = .ok (db', reply)) : db'.Counted := by
  simp only [runAppend, bind_eq_ok, pure_eq_ok, Prod.mk.injEq, Prod.exists] at hrun
  obtain ⟨db₀, version, happend, db₂, hmut, rfl, -⟩ := hrun
  obtain ⟨first, -, -, -, hdb₀, -⟩ := Database.appendInTransaction_spec happend
  have hmutation : ∀ db₁ : Database, db₁.Counted →
      a.mutation.run w.clock (fun tenantId => tenantId ∈ w.maintenance) db₁ = .ok db₂ →
      db₂.Counted := by
    intro db₁ hcounted hrun
    cases hm : a.mutation with
    | none =>
      rw [hm] at hrun
      cases hrun
      exact hcounted
    | work m =>
      rw [hm] at hrun
      exact hcounted.run hrun
    | gateway m =>
      rw [hm] at hrun
      exact hcounted.of_eq (by rw [GatewayMutation.run_rest hrun])
        (by rw [GatewayMutation.run_rest hrun])
  have hcounted : db₀.Counted := h.of_eq (by rw [hdb₀]) (by rw [hdb₀])
  cases hinbox : a.inbox with
  | none =>
    rw [hinbox] at hmut
    exact hmutation db₀ hcounted hmut
  | some message =>
    rw [hinbox] at hmut
    refine hmutation _ ?_ hmut
    exact hcounted.of_eq rfl rfl

theorem counted_exec (h : w.db.Counted) (hexec : exec c w = some (w', r)) : w'.db.Counted := by
  rcases exec_applied hexec with ⟨hitems, hleases, -⟩ | ⟨a, startedAt, reply, -, hrun⟩
  · exact h.of_eq hitems hleases
  · exact counted_runAppend h hrun

/-- Nothing that happens to the database makes a counter negative. -/
theorem counted_move (h : w.db.Counted) (hm : Move postgres Legit w w') : w'.db.Counted := by
  rcases hm with ⟨c, r, -, hexec⟩ | ⟨c, rfl⟩ | ht
  · exact counted_exec h hexec
  · show (World.abort c w).1.db.Counted
    rw [(abort_cases c w).1]
    exact h
  · obtain ⟨clock, maintenance, locked, -, rfl⟩ := ht
    exact h

end World

/-! ## Genuine deliveries -/

/-- The publisher built the delivery's envelope from a stored message, at some time. -/
def Genuine (conv : Conversions) (delivery : QueueDelivery) (w : World) : Prop :=
  ∃ context claim now, w.db.message (context.tenantId, claim.messageId) = some claim.row.content ∧
    Publisher.envelope conv context claim now = .ok delivery.envelope

section

variable {conv : Conversions} {py : PyText} {delivery : QueueDelivery} {request : WorkRequest}
  {w w' : World}

theorem isDict_requestPayload (h : JsonValue.isDict (.obj request.payload) = true) :
    JsonValue.isDict (.obj (requestPayload py request)) = true := by
  have hcausation : JsonValue.isDict (uuidOrNull request.causationId) = true := by
    cases request.causationId <;> rfl
  simp [requestPayload, JsonValue.isDict, JsonValue.isDictFields, hcausation] at h ⊢
  exact h

theorem isDict_announcedHeaders (request : WorkRequest) (retry : Bool) :
    JsonValue.isDict (.obj (announcedHeaders request retry)) = true := by
  cases retry <;> simp [announcedHeaders, workHeaders, JsonValue.isDict, JsonValue.isDictFields]

theorem isFiniteFields_announcedHeaders (request : WorkRequest) (retry : Bool) :
    JsonValue.isFiniteFields (announcedHeaders request retry) = true := by
  cases retry <;> rfl

/-- What a request with the default version was announced with is read back. -/
theorem requestFromDelivery_announced (hfaithful : py.Faithful)
    (hpayload : delivery.envelope.payload = requestPayload py request)
    (hworkId : delivery.envelope.workId = request.workId)
    (htenant : delivery.envelope.tenantId = request.tenantId)
    (hcorrelation : delivery.envelope.correlationId = request.correlationId)
    (hcausation : delivery.envelope.causationId = request.causationId)
    (hversion : request.schemaVersion = 1) : requestFromDelivery py delivery = .ok request := by
  have hmake : WorkRequestFields.make {
      workId := request.workId
      tenantId := request.tenantId
      workKind := request.workKind
      idempotencyKey := request.idempotencyKey
      correlationId := request.correlationId
      causationId := request.causationId
      requestedAt := request.requestedAt
      payload := request.payload
      maxAttempts := request.maxAttempts
      timeoutSeconds := request.timeoutSeconds } = .ok request := by
    obtain ⟨⟨_, _, _, _, _, _, _, _, _, _, version⟩, hvalid⟩ := request
    obtain rfl : version = 1 := hversion
    unfold WorkRequestFields.make
    split
    · rfl
    · rename_i e he
      rw [hvalid] at he
      cases he
  have hfields : ∀ key value, (requestPayload py request).get? key = some value →
      delivery.envelope.payload.get? key = some value := by
    intro key value hget
    rw [hpayload]
    exact hget
  have hrequest := hfields "request_payload" _ rfl
  have hkind := hfields "work_kind" _ rfl
  have hkey := hfields "idempotency_key" _ rfl
  have hat := hfields "requested_at" _ rfl
  have hmax := hfields "max_attempts" _ rfl
  have htimeout := hfields "timeout_seconds" _ rfl
  simp only [requestFromDelivery, hrequest, hkind, hkey, hat, hmax, htimeout, Option.bind_some,
    hfaithful.str_str, hfaithful.int_str, hfaithful.fromisoformat_isoformat, hworkId, htenant,
    hcorrelation, hcausation]
  simp only [bind, Except.bind, Option.bind, hfaithful.str_str, hmake]
  rfl

theorem Registered.Holds.version {item : Registered} (h : item.Holds request) :
    request.schemaVersion = 1 ∧ request.correlationId = item.correlationId ∧
      request.causationId = item.causationId ∧
      JsonValue.pyEq (.obj request.payload) (.obj item.requestPayload) = true := by
  obtain ⟨authoritative, hmake, hequal⟩ := h
  have hfields := WorkRequestFields.make_eq hmake
  simp only [WorkRequest.pyEq, Bool.and_eq_true, decide_eq_true_eq, hfields] at hequal
  exact ⟨hequal.2, hequal.1.1.1.1.1.1.2, hequal.1.1.1.2, hequal.1.1.1.1.2⟩

/-- **What the publisher built from a stored message matches what is stored.** -/
theorem Genuine.authentic (h : Genuine conv delivery w) (hfaithful : conv.Faithful)
    (hw : w.Posted conv.toPyText) :
    Authentic conv.toPyText delivery.envelope.tenantId delivery w := by
  obtain ⟨context, claim, now, hmessage, henvelope⟩ := h
  obtain ⟨request, item, hannounces, htenant, hitem, hholds⟩ :=
    hw.messages context.tenantId claim.messageId _ hmessage
  obtain ⟨retry, hheaders⟩ := hannounces.headers
  obtain ⟨built, hbuilt, hid, htenant', hworkId, heventId, hdestination, hcorrelation, hcausation,
    -, hpayload, hheaders'⟩ := envelope_eq_ok hfaithful htenant hannounces.payload hheaders
      hannounces.destination now
  rw [henvelope, Except.ok.injEq] at hbuilt
  subst hbuilt
  obtain ⟨hversion, hcorrelation', hcausation', hequal⟩ := hholds.version
  have hpayload' : delivery.envelope.payload = requestPayload conv.toPyText request :=
    hpayload.trans hannounces.payload
  have hread := requestFromDelivery_announced hfaithful.text hpayload' hworkId
    (htenant'.trans htenant.symm) hcorrelation hcausation hversion
  refine ⟨item, claim.row.content, ?_, ?_, ?_⟩
  · rw [htenant', hworkId, ← htenant]
    exact hitem
  · rw [htenant', hid]
    exact hmessage
  · refine ⟨rfl, ?_, heventId, hdestination, hcorrelation.trans hcorrelation',
      hcausation.trans hcausation', ?_, ?_, ?_, request, hread, hholds⟩
    · rw [hannounces.payload, hworkId]
      exact text_requestPayload _ request
    · rw [hannounces.payload, hpayload']
      exact JsonValue.pyEq_refl (isDict_requestPayload hannounces.isDict) (by
        rw [JsonValue.isFinite]
        exact isFiniteFields_requestPayload _)
    · rw [hheaders']
      show JsonValue.pyEq (.obj claim.row.content.headers) (.obj claim.row.content.headers) = true
      rw [hheaders]
      exact JsonValue.pyEq_refl (isDict_announcedHeaders request retry)
        (isFiniteFields_announcedHeaders request retry)
    · obtain ⟨-, -, -, -, hhandler⟩ := requestFromDelivery_eq_ok hread
      rw [← hhandler]
      exact hequal

end

/-! ## What does not raise a `ValueError` -/

/-- Is it caught by `except ValueError`? -/
def Raised.isValueError : Raised → Bool
  | valueError _ => true
  | _ => false

/-- The computation raises no `ValueError`. -/
abbrev Accepts {α : Type} (x : Except Raised α) : Prop :=
  RaisesOnly (fun e => e.isValueError = false) x

theorem Thrown.isValueError_raised (e : Raised) :
    (Thrown.raised e).isValueError = e.isValueError := by cases e <;> rfl

theorem accepts_updateItem {db : Database} {key : WorkKey} {e : Raised} {p : WorkItemRow → Bool}
    {f : WorkItemRow → WorkItemRow} (he : e.isValueError = false) :
    Accepts (db.updateItem key e p f) :=
  raisesOnly_bind (raisesOnly_orRaise fun _ => he) fun _ _ => raisesOnly_ok _

theorem accepts_acquireLease {db : Database} {key : WorkKey} {lease : WorkLease} {duration : ℤ}
    {now : Timestamp} : Accepts (db.acquireLease key lease duration now) :=
  raisesOnly_bind (raisesOnly_raiseIf fun _ => rfl) fun _ _ =>
    raisesOnly_bind (raisesOnly_raiseIf fun _ => rfl) fun _ _ => raisesOnly_ok _

/-- The mutations of a publication and of a claim. -/
def Mutation.isClaim : Mutation → Bool
  | .work (.markProjection _) | .work (.claimProjection ..) => true
  | _ => false

theorem accepts_mutation {m : Mutation} (hm : m.isClaim = true) {now : Timestamp}
    {underMaintenance : String → Bool} {db : Database} :
    Accepts (m.run now underMaintenance db) := by
  unfold Mutation.isClaim at hm
  split at hm
  · exact accepts_updateItem rfl
  · exact raisesOnly_bind (raisesOnly_raiseIf fun _ => rfl) fun _ _ =>
      raisesOnly_bind (accepts_updateItem rfl) fun _ _ => accepts_acquireLease
  · cases hm

/-- The transaction of a publication or of a claim raises no `ValueError`. -/
theorem accepts_exec {a : Append} {w w' : World} {r : Except Raised Reply}
    (hevents : a.events ≠ []) (hm : a.mutation.isClaim = true)
    (h : World.exec (.append a) w = some (w', r)) : Accepts r := by
  have hrun : Accepts (w.runAppend a w.clock) := by
    refine raisesOnly_bind (Database.raisesOnly_appendInTransaction rfl (fun hnone => ?_)
      fun _ _ _ => rfl) fun _ _ => ?_
    · exact absurd (List.head?_eq_none_iff.1 hnone) hevents
    · exact raisesOnly_bind (accepts_mutation hm) fun _ _ => raisesOnly_ok _
  simp only [World.exec] at h
  split at h
  · rename_i answer hdup
    cases h
    simp only [World.duplicate, Option.bind_eq_some_iff, Option.map_eq_some_iff] at hdup
    obtain ⟨-, -, row, -, rfl⟩ := hdup
    split
    · exact raisesOnly_ok _
    · exact raisesOnly_error rfl
  · split at h
    · cases h
    · rw [Option.some.injEq] at h
      cases hresult : w.runAppend a w.clock with
      | error e =>
        rw [hresult] at h
        cases h
        exact raisesOnly_error (hrun e hresult)
      | ok result =>
        rw [hresult] at h
        cases h
        exact raisesOnly_ok _

/-- Such a transaction leaves the messages as they are. -/
theorem outbox_exec {a : Append} {w w' : World} {r : Except Raised Reply}
    (hm : a.mutation.isClaim = true) (h : World.exec (.append a) w = some (w', r))
    {k : String × UUID} {row : OutboxRow} (hrow : w.db.outbox.lookup k = some row) :
    w'.db.outbox.lookup k = some row := by
  have hmutation : ∀ {now : Timestamp} {underMaintenance : String → Bool} {db db' : Database},
      a.mutation.run now underMaintenance db = .ok db' → db'.outbox = db.outbox := by
    intro now underMaintenance db db' hrun
    unfold Mutation.isClaim at hm
    split at hm
    · rename_i request hmut
      rw [hmut] at hrun
      obtain ⟨_, -, -, rfl⟩ := Database.updateItem_eq_ok.1 hrun
      rfl
    · rename_i request lease duration limit hmut
      rw [hmut] at hrun
      simp only [Mutation.run, WorkMutation.run, Database.claimProjection, bind_eq_ok] at hrun
      obtain ⟨-, -, db₁, h₁, h₂⟩ := hrun
      obtain ⟨-, rfl⟩ := Database.acquireLease_eq_ok h₂
      obtain ⟨_, -, -, rfl⟩ := Database.updateItem_eq_ok.1 h₁
      rfl
    · cases hm
  rcases World.exec_append h with ⟨rfl, -⟩ | ⟨db', reply, -, hrun, rfl, -⟩
  · exact hrow
  simp only [World.runAppend, bind_eq_ok, pure_eq_ok, Prod.mk.injEq, Prod.exists] at hrun
  obtain ⟨db₀, version, happend, db₂, hmut, rfl, -⟩ := hrun
  obtain ⟨first, -, -, -, -, hins⟩ := Database.appendInTransaction_spec happend
  show db₂.outbox.lookup k = some row
  rw [hmutation hmut]
  cases a.inbox <;> exact hins.kept k row hrow

theorem toEvent_eq_ok (t : WorkTransition) {request : WorkRequest} (id : UUID)
    (causation : Option UUID) (htenant : isBlank request.tenantId = false)
    (hlease : ∀ lease ∈ t.lease, lease.workId = request.workId ∧ lease.tenantId = request.tenantId)
    (hdetails : JsonValue.isFiniteFields t.details = true) :
    ∃ event, t.toEvent request id causation = .ok event ∧ event.tenantId = request.tenantId ∧
      event.aggregateSequence = 0 ∧ event.globalPosition = none := by
  have hpayload : JsonValue.isFiniteFields (t.payload request) = true := by
    have hrouted : JsonValue.isFiniteFields ((t.details.set "work_id"
        (.str request.workId.str)).set "work_kind" (.str request.workKind)) = true :=
      JsonValue.isFiniteFields_set (JsonValue.isFiniteFields_set hdetails rfl) rfl
    unfold WorkTransition.payload
    split
    · exact hrouted
    · exact JsonValue.isFiniteFields_set (JsonValue.isFiniteFields_set
        (JsonValue.isFiniteFields_set hrouted rfl) rfl) rfl
  have hbelongs : raiseIf (t.lease.any fun lease =>
      lease.workId ≠ request.workId ∨ lease.tenantId ≠ request.tenantId)
      (Raised.valueError "lease does not belong to work request") = .ok () := by
    rw [raiseIf_eq_ok]
    cases hl : t.lease with
    | none => simp
    | some lease =>
      obtain ⟨hwork, htenant⟩ := hlease lease hl
      simp [hwork, htenant]
  have hkey : some (request.idempotencyKey ++ ":" ++ t.eventType.value ++ ":" ++ id.str) ≠
      some "" := by
    intro h
    have hlist := congrArg String.toList (Option.some.inj h)
    simp at hlist
  have hok : ∃ event, t.toEvent request id causation = .ok event := by
    simp only [WorkTransition.toEvent, bind_eq_ok]
    refine ⟨_, (), hbelongs, EventEnvelope.make_eq_ok ?_ ?_ ?_ ?_ ?_⟩
    · rfl
    · exact htenant
    · exact UUID.isBlank_str request.workId
    · exact hkey
    · exact hpayload
  obtain ⟨event, hevent⟩ := hok
  refine ⟨event, hevent, ?_⟩
  simp only [WorkTransition.toEvent, bind_eq_ok] at hevent
  obtain ⟨-, -, hmake⟩ := hevent
  rw [EventEnvelope.make_eq hmake]
  exact ⟨rfl, rfl, rfl⟩

/-! ## Messages that stay with the publisher -/

/-- Leased or published. -/
def OutboxState.isOut : OutboxState → Bool
  | leased .. | published _ => true
  | _ => false

/-- The message is leased or published. -/
def World.Out (k : String × UUID) (w : World) : Prop :=
  ∃ row, w.db.outbox.lookup k = some row ∧ row.state.isOut = true

/-- The transaction does not take the message back: no failure of a publication is marked for
it, it is not made a dead letter, and it is not sent again. -/
def Txn.KeepsOut (k : String × UUID) (c : Txn) (w : World) : Prop :=
  ∀ w' r, World.exec c w = some (w', r) → w.Out k → w'.Out k

/-- The message a delivery names. -/
def QueueDelivery.messageKey (delivery : QueueDelivery) : String × UUID :=
  (delivery.envelope.tenantId, delivery.envelope.messageId)

/-- The delivery matches what is stored, and its message is out. -/
structure Ready (py : PyText) (delivery : QueueDelivery) (w : World) : Prop where
  authentic : Authentic py delivery.envelope.tenantId delivery w
  counted : w.db.Counted
  out : w.Out delivery.messageKey

section

variable {py : PyText} {context : TenantContext} {delivery : QueueDelivery} {w w' : World}

theorem Ready.move (h : Ready py delivery w)
    (hm : Move postgres (Txn.KeepsOut delivery.messageKey) w w') : Ready py delivery w' := by
  refine ⟨h.authentic.kept (World.rowsKept_move hm), World.counted_move h.counted hm, ?_⟩
  have hout := h.out
  rcases hm with ⟨c, r, hc, hexec⟩ | ⟨c, rfl⟩ | ht
  · exact hc w' r hexec hout
  · show (World.abort c w).1.Out delivery.messageKey
    unfold World.Out
    rw [(World.abort_cases c w).1]
    exact hout
  · obtain ⟨clock, maintenance, locked, -, rfl⟩ := ht
    exact hout

theorem Ready.moves (h : Ready py delivery w)
    (hm : Moves postgres (Txn.KeepsOut delivery.messageKey) w w') : Ready py delivery w' :=
  hm.keeps (fun _ _ h hm => h.move hm) h

/-- The rows of a delivery that is ready. -/
theorem Ready.rows (h : Ready py delivery w) : ∃ item row supplied authoritative,
    deliveryRows w delivery.envelope.tenantId delivery.envelope = some (item, row) ∧
      requestFromDelivery py delivery = .ok supplied ∧
      supplied.tenantId = delivery.envelope.tenantId ∧
      item.request delivery.envelope.tenantId delivery.envelope.workId = .ok authoritative ∧
      supplied.pyEq authoritative = true ∧ row.destination = delivery.envelope.destination ∧
      row.eventId = delivery.envelope.eventId ∧
      JsonValue.pyEq (.obj row.payload) (.obj delivery.envelope.payload) = true ∧
      JsonValue.pyEq (.obj row.headers) (.obj delivery.envelope.headers) = true := by
  obtain ⟨registered, message, hregistered, hmessage, hmatches⟩ := h.authentic
  obtain ⟨item, hitem, rfl⟩ := Option.map_eq_some_iff.1 hregistered
  obtain ⟨row, hrow, rfl⟩ := Option.map_eq_some_iff.1 hmessage
  obtain ⟨supplied, hsupplied, authoritative, hmake, hequal⟩ := hmatches.request
  obtain ⟨htenant, hworkId, -⟩ := requestFromDelivery_eq_ok hsupplied
  rw [htenant, hworkId] at hmake
  have hout : row.state.isOut = true := by
    obtain ⟨row', hrow', hout⟩ := h.out
    rw [QueueDelivery.messageKey, hrow, Option.some.injEq] at hrow'
    rw [hrow']
    exact hout
  have hfor : row.isFor delivery.envelope.workId = true := by
    simpa [OutboxRow.isFor, OutboxRow.content] using hmatches.workId
  refine ⟨item, row, supplied, authoritative, ?_, hsupplied, htenant, hmake, hequal,
    hmatches.destination.symm, hmatches.eventId.symm, hmatches.payload, hmatches.headers⟩
  simp only [deliveryRows, hitem, hrow, Option.bind_eq_bind, Option.bind_some]
  cases hstate : row.state with
  | leased owner expiresAt => exact if_pos hfor
  | published publishedAt => exact if_pos hfor
  | _ =>
    rw [hstate] at hout
    cases hout

/-- What the calls of a delivery that is ready end with. -/
abbrev Accepted (delivery : QueueDelivery) {α : Type} (p : Op α) (w : World) : Prop :=
  wp postgres (Txn.KeepsOut delivery.messageKey) (fun r _ => Accepts r) p w

/-- **`_verify_delivery` lets a delivery that is ready through.** -/
theorem verifyDelivery_ready (htenant : delivery.envelope.tenantId = context.tenantId)
    (hw : Ready py delivery w) :
    wp postgres (Txn.KeepsOut delivery.messageKey)
      (fun r t => Ready py delivery t ∧ ∃ request, r = .ok request ∧
        request.tenantId = context.tenantId ∧ request.workId = delivery.envelope.workId)
      (verifyDelivery py context delivery) w := by
  obtain ⟨-, -, supplied, -, -, hsupplied, hsuppliedTenant, -⟩ := hw.rows
  have hcontext : validateRequestContext context supplied = .ok () := by
    rw [validateRequestContext, raiseIf_eq_ok, not_not, hsuppliedTenant, htenant]
  refine wp_passed hsupplied (wp_passed hcontext (wp_query_bind fun t ht => ?_))
  have hready := hw.moves ht
  obtain ⟨item, row, supplied', authoritative, hrows, hsupplied', -, hmake, hequal, hdestination,
    heventId, hpayload, hheaders⟩ := hready.rows
  rw [hsupplied, Except.ok.injEq] at hsupplied'
  subst hsupplied'
  rw [htenant] at hrows hmake
  refine wp_passed (orRaise_eq_ok.2 hrows) (wp_passed hmake ?_)
  have hmatch : supplied.pyEq authoritative ∧ row.destination = delivery.envelope.destination ∧
      row.eventId = delivery.envelope.eventId ∧
      JsonValue.pyEq (.obj row.payload) (.obj delivery.envelope.payload) ∧
      JsonValue.pyEq (.obj row.headers) (.obj delivery.envelope.headers) :=
    ⟨hequal, hdestination, heventId, hpayload, hheaders⟩
  refine wp_passed (raiseIf_eq_ok (u := ()) |>.2 (not_not.2 hmatch)) fun u hu => ?_
  have hfields := WorkRequestFields.make_eq hmake
  refine ⟨hready.moves hu, authoritative, rfl, ?_, ?_⟩
  · rw [hfields]
  · rw [hfields]

/-- The transaction of a publication or of a claim takes no message back. -/
theorem keepsOut_claim {a : Append} (hm : a.mutation.isClaim = true) (k : String × UUID)
    (w : World) : (Txn.append a).KeepsOut k w := by
  rintro w' r hexec ⟨row, hrow, hout⟩
  exact ⟨row, outbox_exec hm hexec hrow, hout⟩

theorem accepted_txn {a : Append} (hevents : a.events ≠ []) (hm : a.mutation.isClaim = true) :
    Accepted delivery (Proc.txn (.append a) : Op Reply) w := by
  refine wp_txn (fun t _ => keepsOut_claim hm _ t) (fun t u r v _ hexec _ => ?_) fun t v _ _ => ?_
  · exact accepts_exec hevents hm hexec
  · exact raisesOnly_error rfl

theorem validateAppend_one {event : EventEnvelope} (htenant : event.tenantId = context.tenantId)
    (hsequence : event.aggregateSequence = 0) (hposition : event.globalPosition = none) :
    validateAppend context [event] = .ok () := by
  simp only [validateAppend, bind_eq_ok, orRaise_eq_ok, raiseIf_eq_ok]
  exact ⟨event, rfl, (), by simp [htenant], (), by simp, (), by simp [hsequence],
    by simp [hposition]⟩

/-- What follows a call that was accepted, if it raises nothing itself. -/
theorem accepted_bind {α β : Type} {p : Op α} {f : α → Op β} (hp : Accepted delivery p w)
    (hf : ∀ a t, Accepted delivery (f a) t) : Accepted delivery (p.bind f) w := by
  refine wp_bind _ (wp_mono ?_ _ hp)
  rintro (e | a) t ha
  · exact raisesOnly_error (ha e rfl)
  · exact hf a t

/-- **A publication that is ready raises no `ValueError`.** -/
theorem markPublished_accepted (htenant : delivery.envelope.tenantId = context.tenantId)
    {at' : Timestamp} {ids : ℕ → UUID} (hw : Ready py delivery w) :
    Accepted delivery (markPublished py context delivery at' ids) w := by
  refine wp_bind _ (wp_mono ?_ _ (verifyDelivery_ready htenant hw))
  rintro - t ⟨-, request, rfl, hrequest, -⟩
  refine wp_query_bind fun u _ => ?_
  have hblank : isBlank request.tenantId = false := by
    rw [hrequest]
    exact isBlank_of_isIdentifier context.valid
  have hmessageId : delivery.envelope.messageId.str ≠ "" := by
    intro hempty
    have hblank' := UUID.isBlank_str delivery.envelope.messageId
    rw [hempty] at hblank'
    cases hblank'
  -- the text of an identifier is never unfolded
  generalize delivery.envelope.messageId.str = messageId at hmessageId ⊢
  obtain ⟨event, hevent, heventTenant, hsequence, hposition⟩ := toEvent_eq_ok
    { eventType := .workPublished, occurredAt := at' } (ids 0) delivery.envelope.eventId hblank
    (fun _ h => (by cases h)) rfl
  have hvalid := validateAppend_one (heventTenant.trans hrequest) hsequence hposition
  refine wp_passed hevent (accepted_bind ?_ fun _ _ _ _ => raisesOnly_ok ())
  refine wp_passed (a := ()) ?_ (wp_passed hvalid (accepted_txn (List.cons_ne_nil _ _) rfl))
  rw [raiseIf_eq_ok, not_or]
  exact ⟨by decide, hmessageId⟩

theorem WorkLeaseFields.accepts_make {l : WorkLeaseFields} (htenant : l.tenantId ≠ "")
    (howner : l.owner ≠ "") (hgeneration : 1 ≤ l.generation) (hattempt : 1 ≤ l.attempt)
    (hexpires : l.heartbeatAt < l.expiresAt) : Accepts l.make := by
  have hcheck : l.check = .ok () := by
    simp only [check, bind_eq_ok, raiseIf_eq_ok]
    refine ⟨(), ?_, (), ?_, ?_⟩
    · simp [htenant, howner]
    · omega
    · exact not_le.2 hexpires
  unfold make
  split
  · exact raisesOnly_ok _
  · rename_i e he
    rw [hcheck] at he
    cases he

/-- A claim that commits answers with a lease that has yet to run out. -/
theorem claimTxn_accepted {a : Append} {request : WorkRequest} {lease : WorkLease} {duration limit : ℤ}
    (hevents : a.events ≠ []) (hinbox : a.inbox = none)
    (hm : a.mutation = .work (.claimProjection request lease duration limit)) :
    wp postgres (Txn.KeepsOut delivery.messageKey)
      (fun r _ => Accepts r ∧ ∀ reply, r = .ok reply →
        ∃ acquiredAt, reply.times = some (acquiredAt, acquiredAt + duration))
      (Proc.txn (.append a) : Op Reply) w := by
  have hclaim : a.mutation.isClaim = true := by
    rw [hm]
    rfl
  refine wp_txn (fun t _ => keepsOut_claim hclaim _ t) (fun t u r v _ hexec _ => ?_)
    fun t v _ _ => ?_
  · refine ⟨accepts_exec hevents hclaim hexec, fun reply hreply => ?_⟩
    rcases World.exec_append hexec with ⟨-, herror⟩ | ⟨db', reply', -, hrun, -, hr⟩
    · obtain ⟨e, he⟩ := herror hinbox
      rw [he] at hreply
      cases hreply
    · rw [hr, Except.ok.injEq] at hreply
      subst hreply
      simp only [World.runAppend, bind_eq_ok, pure_eq_ok, Prod.mk.injEq, Prod.exists] at hrun
      obtain ⟨-, -, -, -, -, -, rfl⟩ := hrun
      exact ⟨t.clock, by rw [hm]; rfl⟩
  · exact ⟨raisesOnly_error rfl, fun _ h => (by cases h)⟩

/-- **A claim that is ready raises no `ValueError`**, for a lease of five seconds to an hour. -/
theorem claim_accepted (htenant : delivery.envelope.tenantId = context.tenantId)
    {owner : String} {now expiresAt : Timestamp} {limit : ℤ} {ids : ℕ → UUID}
    (howner : owner ≠ "") (hlimit : 0 ≤ limit)
    (hduration : seconds 5 ≤ expiresAt - now ∧ expiresAt - now ≤ seconds 3600)
    (hw : Ready py delivery w) :
    Accepted delivery (claim py context delivery owner now expiresAt limit ids) w := by
  have hpositive : now < expiresAt := by
    have hfive : seconds 5 = 5000000 := rfl
    exact Int.lt_of_sub_pos (by omega)
  have harguments : ¬ (owner = "" ∨ expiresAt ≤ now ∨ limit < 0) := by
    rintro (h | h | h)
    · exact howner h
    · exact absurd hpositive (not_lt.2 h)
    · omega
  refine wp_passed (a := ()) (raiseIf_eq_ok.2 harguments) ?_
  refine wp_passed (a := ()) (raiseIf_eq_ok.2 (not_not.2 hduration)) ?_
  refine wp_bind _ (wp_mono ?_ _ (verifyDelivery_ready htenant hw))
  rintro - t ⟨ht, request, rfl, hrequest, -⟩
  have hcontext : validateRequestContext context request = .ok () := by
    rw [validateRequestContext, raiseIf_eq_ok, not_not, hrequest]
  refine wp_passed hcontext ?_
  dsimp only
  split
  · exact fun _ _ => raisesOnly_ok none
  refine wp_query_bind fun u hu => ?_
  have hready := ht.moves hu
  cases hitem : (u.db.workItems.lookup request.key).filter fun item =>
      (item.status = .published || item.status = .retryWait) && item.cancelRequestedAt = none with
  | none => exact fun _ _ => raisesOnly_ok none
  | some item =>
    dsimp only
    split
    · exact fun _ _ => raisesOnly_ok none
    have hattempts : 0 ≤ item.attemptCount :=
      hready.counted.attempts request.key item (Option.filter_eq_some_iff.1 hitem).1
    refine wp_query_bind fun v hv => ?_
    have hgenerations := (hready.moves hv).counted.generations request.key
    generalize v.db.workLeases.lookup request.key = row at hgenerations ⊢
    have hattempt : 1 ≤ item.attemptCount + 1 := by omega
    refine wp_check (fun e he _ => ?_) fun lease hlease => wp_query_bind fun x _ => ?_
    · refine raisesOnly_error (WorkLeaseFields.accepts_make request.tenantId_ne howner ?_
        hattempt hpositive e he)
      cases row with
      | none => exact le_rfl
      | some row =>
        have hrow := hgenerations row rfl
        show 1 ≤ row.generation + 1
        omega
    have hfields := WorkLeaseFields.make_eq hlease
    have hblank : isBlank request.tenantId = false := by
      rw [hrequest]
      exact isBlank_of_isIdentifier context.valid
    obtain ⟨event, hevent, heventTenant, hsequence, hposition⟩ := toEvent_eq_ok
      { eventType := .workClaimed, occurredAt := now, lease := some lease } (ids 1) none hblank
      (fun held hheld => by cases hheld; rw [hfields]; exact ⟨rfl, rfl⟩) rfl
    have hvalid := validateAppend_one (heventTenant.trans hrequest) hsequence hposition
    -- a claim that lost its race returns nothing
    have hrefused : ∀ (e : Raised) (t : World), e.isValueError = false →
        Accepted delivery (if e = .claimUnavailable ∨ e.isConcurrencyError then pure none
          else throw e : Op (Option WorkLease)) t := by
      intro e t he
      split
      · exact fun _ _ => raisesOnly_ok none
      · exact fun _ _ => raisesOnly_error he
    refine wp_passed hevent (wp_handle _ (wp_bind _ ?_))
    refine wp_passed hvalid (wp_mono ?_ _ (claimTxn_accepted (List.cons_ne_nil _ _) rfl rfl))
    rintro (e | reply) y ⟨hanswer, htimes⟩
    · exact hrefused e y (hanswer e rfl)
    · obtain ⟨acquiredAt, htimes⟩ := htimes reply rfl
      have hheld : acquiredAt < acquiredAt + (expiresAt - now) :=
        lt_add_of_pos_right _ (sub_pos.2 hpositive)
      refine wp_passed (orRaise_eq_ok.2 htimes) ?_
      refine wp_check (fun e he t => hrefused e t ?_) fun held _ _ _ => raisesOnly_ok _
      refine WorkLeaseFields.accepts_make (l := { lease.toWorkLeaseFields with
        acquiredAt := acquiredAt, heartbeatAt := acquiredAt,
        expiresAt := acquiredAt + (expiresAt - now) }) ?_ ?_ lease.one_le_generation
        lease.one_le_attempt hheld e he
      · rw [hfields]
        exact request.tenantId_ne
      · rw [hfields]
        exact howner

end

/-! ## The supervisor -/

/-- Is it a call of `quarantine`? -/
def WorkerCall.isQuarantine : WorkerCall → Bool
  | quarantine .. => true
  | _ => false

/-- The call, made on a platform that goes on running, ends with the outcome. -/
def Platform.EndsWith (Calls : Platform → Op Outcome → Prop)
    (Meets : Platform → Action Txn → Prop) (s : Platform) (c : Call) (py : PyText)
    (o : Except Raised Outcome) : Prop :=
  ∃ u t, Run postgres Calls Meets s u ∧
    Run postgres Calls Meets ⟨u.store, u.procs ++ [c.proc py]⟩ t ∧
    t.procs[u.procs.length]? = some (Proc.ofExcept o)

/-- The answers of a supervisor's environment: what `mark_published` and `claim` raise is what
the repository raises on a platform that goes on running, and quotas are not negative. -/
def RepositoryAnswers (py : PyText) (Calls : Platform → Op Outcome → Prop)
    (Meets : Platform → Action Txn → Prop) (s : Platform) :
    (c : WorkerCall) → Except Thrown c.Reply → Prop
  | .markPublished tenant delivery at', r => ∀ e, r = .error (.raised e) →
      ∃ ids, s.EndsWith Calls Meets (.markPublished tenant delivery at' ids) py (.error e)
  | .claim tenant delivery owner now expiresAt limit, r => ∀ e, r = .error (.raised e) →
      ∃ ids, s.EndsWith Calls Meets (.claim tenant delivery owner now expiresAt limit ids) py
        (.error e)
  | .quota _, r => ∃ quota, r = .ok quota ∧ (0 : ℤ) ≤ quota
  | _, _ => True

/-- The step leaves the message with the publisher. -/
def KeepsMessage (k : String × UUID) (s : Platform) (a : Action Txn) : Prop :=
  ∀ i c, a = .commit i c → c.KeepsOut k s.store

section

variable {settings : WorkerSettings} {tenant : TenantContext} {delivery : QueueDelivery}
  {lease : WorkLease}

/-- The program quarantines nothing. -/
abbrev NoQuarantine {α : Type} (p : Worker α) : Prop :=
  p.Asks fun c => c.isQuarantine = false

theorem noQuarantine_recordFailure {failureClass : FailureClass} {errorCode : String} :
    NoQuarantine (recordFailure settings tenant delivery lease failureClass errorCode) := by
  have hrest : ∀ retryAt : Option Timestamp, NoQuarantine (do
      let at' ← Worker.clock
      tryCatch (do
          let _terminal ← Worker.ask
            (.fail tenant delivery lease at' failureClass errorCode retryAt)
          pure true)
        fun e => if e.isFencingError then pure false else throw e) := by
    intro retryAt
    refine Prog.asks_bind (Prog.asks_ask rfl) fun at' => Prog.asks_handle
      (Prog.asks_bind (Prog.asks_ask rfl) fun _ => Prog.asks_pure _) fun e => ?_
    split
    · exact Prog.asks_pure _
    · exact Prog.asks_throw e
  unfold recordFailure
  dsimp only
  split
  · exact Prog.asks_bind (Prog.asks_ask rfl) fun now => hrest _
  · exact hrest none

theorem noQuarantine_recordCancel : NoQuarantine (recordCancel tenant delivery lease) :=
  Prog.asks_bind (Prog.asks_ask rfl) fun _ =>
    Prog.asks_bind (Prog.asks_ask rfl) fun _ => Prog.asks_pure _

theorem noQuarantine_attempt : NoQuarantine (attempt tenant delivery lease) := by
  refine Prog.asks_bind (Prog.asks_ask rfl) fun at' => Prog.asks_bind (Prog.asks_ask rfl) fun _ =>
    Prog.asks_bind (Prog.asks_ask rfl) fun race => Prog.asks_bind (Prog.asks_ofExcept _)
    fun result => Prog.asks_bind (Prog.asks_ask rfl) fun requested => ?_
  cases requested with
  | true => exact noQuarantine_recordCancel
  | false =>
    exact Prog.asks_bind (Prog.asks_ask rfl) fun _ => Prog.asks_bind (Prog.asks_ask rfl) fun _ =>
      Prog.asks_bind (Prog.asks_ask rfl) fun _ => Prog.asks_pure _

theorem noQuarantine_handleFailure (e : Thrown) :
    NoQuarantine (handleFailure settings tenant delivery lease e) := by
  unfold handleFailure
  split
  · exact noQuarantine_recordFailure
  · split
    · refine Prog.asks_bind (Prog.asks_ask rfl) fun requested => ?_
      cases requested with
      | true => exact noQuarantine_recordCancel
      | false => exact Prog.asks_pure _
    · exact noQuarantine_recordFailure
  · refine Prog.asks_bind (Prog.asks_ask rfl) fun requested => ?_
    cases requested with
    | true =>
      refine Prog.asks_handle noQuarantine_recordCancel fun e => ?_
      split
      · exact Prog.asks_pure _
      · exact Prog.asks_throw e
    | false => exact Prog.asks_pure _
  · exact Prog.asks_throw _
  · exact noQuarantine_recordFailure

theorem noQuarantine_acknowledgeComplete : NoQuarantine (acknowledgeComplete tenant delivery) := by
  refine Prog.asks_bind (Prog.asks_ask rfl) fun complete => ?_
  cases complete with
  | true => exact Prog.asks_ask rfl
  | false => exact Prog.asks_pure _

variable {py : PyText} {Calls : Platform → Op Outcome → Prop} {s : Platform}

/-- What a call that is ready raises on a running platform is no `ValueError`. -/
theorem Platform.EndsWith.accepted {c : Call} {e : Raised}
    (h : s.EndsWith Calls (KeepsMessage delivery.messageKey) c py (.error e))
    (hs : Ready py delivery s.store)
    (hc : ∀ w, Ready py delivery w → Accepted delivery (c.proc py) w) : e.isValueError = false := by
  obtain ⟨u, t, hrun, hcall, hdone⟩ := h
  have hlegit : ∀ (s : Platform) j c, KeepsMessage delivery.messageKey s (.commit j c) →
      c.KeepsOut delivery.messageKey s.store := fun s j c hm => hm j c rfl
  have hready := hs.moves (hrun.moves hlegit)
  have hclient : (u.procs ++ [c.proc py])[u.procs.length]? = some (c.proc py) := by simp
  exact hcall.outcome hlegit hclient (hc u.store hready) hdone e rfl

theorem claimDelivery_noQuarantine {startedAt : Timestamp} {h : WorkerHistory}
    (htenant : delivery.envelope.tenantId = tenant.tenantId) (hs : Ready py delivery s.store)
    (hduration : seconds 5 ≤ settings.leaseDuration ∧ settings.leaseDuration ≤ seconds 3600) :
    (claimDelivery settings tenant delivery startedAt).wp
      (RepositoryAnswers py Calls (KeepsMessage delivery.messageKey) s)
      (fun _ c => c.isQuarantine = false) (fun _ _ => True) h := by
  have hallowed : ∀ (h : WorkerHistory) (c : WorkerCall), c.isQuarantine = false →
      c.isQuarantine = false := fun _ _ hc => hc
  -- what the `except` clauses do with anything but a `ValueError`
  have hrefused : ∀ (e : Thrown), e.isValueError = false →
      NoQuarantine (if e.isValueError then do
          let _ ← Worker.ask (.quarantine delivery "authoritative_delivery_rejected")
          pure none
        else if e.isConcurrencyError then do
          acknowledgeComplete tenant delivery
          pure none
        else throw e : Worker (Option (Option WorkLease))) := by
    intro e he
    rw [if_neg (by simp [he])]
    split
    · exact Prog.asks_bind noQuarantine_acknowledgeComplete fun _ => Prog.asks_pure _
    · exact Prog.asks_throw e
  have hthrown : ∀ (e : Thrown), (∀ raised, e = .raised raised → raised.isValueError = false) →
      e.isValueError = false := by
    intro e he
    cases e with
    | raised e => rw [Thrown.isValueError_raised, he e rfl]
    | _ => rfl
  refine Prog.wp_handle _ ?_
  refine Prog.wp_ask_bind rfl (fun e he => ?_) fun _ _ => ?_
  · refine (hrefused e (hthrown e ?_)).wp hallowed _
    rintro e rfl
    obtain ⟨ids, hends⟩ := he e rfl
    exact hends.accepted hs fun w hw =>
      accepted_bind (markPublished_accepted htenant hw) fun _ _ _ _ => raisesOnly_ok _
  refine Prog.wp_ask_bind rfl (fun e he => ?_) fun quota hquota => ?_
  · obtain ⟨_, hok, -⟩ := he
    cases hok
  obtain ⟨quota', hok, hnonneg⟩ := hquota
  cases hok
  refine Prog.wp_ask_bind rfl (fun e he => ?_) fun _ _ => trivial
  refine (hrefused e (hthrown e ?_)).wp hallowed _
  rintro e rfl
  obtain ⟨ids, hends⟩ := he e rfl
  refine hends.accepted hs fun w hw =>
    accepted_bind (claim_accepted htenant settings.identified hnonneg ?_ hw) fun _ _ _ _ =>
      raisesOnly_ok _
  rw [add_sub_cancel_left]
  exact hduration

theorem process_noQuarantine (hs : Ready py delivery s.store)
    (htenant : isIdentifier delivery.envelope.tenantId = true)
    (hduration : seconds 5 ≤ settings.leaseDuration ∧ settings.leaseDuration ≤ seconds 3600) :
    (process settings delivery).wp
      (RepositoryAnswers py Calls (KeepsMessage delivery.messageKey) s)
      (fun _ c => c.isQuarantine = false) (fun _ _ => True) [] := by
  have hallowed : ∀ (h : WorkerHistory) (c : WorkerCall), c.isQuarantine = false →
      c.isQuarantine = false := fun _ _ hc => hc
  unfold process
  rw [dif_pos htenant]
  refine Prog.wp_ask_bind rfl (fun _ _ => trivial) fun startedAt _ => ?_
  refine Prog.wp_ask_bind rfl (fun _ _ => trivial) fun complete _ => ?_
  cases complete with
  | true =>
    rw [if_pos rfl]
    exact Prog.Asks.wp hallowed (Prog.asks_ask rfl) _
  | false =>
    refine Prog.wp_bind _ (Prog.wp_mono (fun o t _ => ?_) _
      (claimDelivery_noQuarantine rfl hs hduration))
    cases o with
    | error e => trivial
    | ok answer =>
      cases answer with
      | none => trivial
      | some answer =>
        cases answer with
        | none => exact noQuarantine_acknowledgeComplete.wp hallowed _
        | some lease =>
          refine Prog.Asks.wp hallowed (Prog.asks_bind (Prog.asks_handle noQuarantine_attempt
            noQuarantine_handleFailure) fun durable => ?_) _
          cases durable with
          | true => exact Prog.asks_ask rfl
          | false => exact Prog.asks_pure _

end

/-! ## Deliveries that are quarantined

A claim refuses a lease of two seconds, which the supervisor's constructor allows; and a
publication is refused once its message has failed to be marked as published. -/

section

variable {py : PyText} {conv : Conversions} {context : TenantContext} {delivery : QueueDelivery}
  {w : World}

/-- **Every stored message can be published**, whatever has become of it. -/
theorem exists_genuine (hfaithful : conv.Faithful) (hw : w.Posted conv.toPyText)
    {messageId : UUID} {message : OutboxContent}
    (hmessage : w.db.message (context.tenantId, messageId) = some message) (now : Timestamp) :
    ∃ delivery : QueueDelivery, Genuine conv delivery w ∧
      delivery.messageKey = (context.tenantId, messageId) := by
  obtain ⟨request, item, hannounces, htenant, -, -⟩ :=
    hw.messages context.tenantId messageId message hmessage
  obtain ⟨retry, hheaders⟩ := hannounces.headers
  obtain ⟨row, -, rfl⟩ := Option.map_eq_some_iff.1 hmessage
  let claim : ClaimedOutboxMessage := ⟨messageId, row, "", 0⟩
  have hpayload : claim.row.payload = requestPayload conv.toPyText request := hannounces.payload
  obtain ⟨built, hbuilt, hid, htenant', -⟩ := envelope_eq_ok hfaithful htenant hpayload hheaders
    hannounces.destination now
  refine ⟨⟨built⟩, ⟨context, claim, now, hmessage, hbuilt⟩, ?_⟩
  rw [QueueDelivery.messageKey, htenant', hid]

/-- What a claim raises for a lease that is too short or too long. -/
abbrev badDuration : Raised := .valueError "lease duration must be between 5 and 3600 seconds"

/-- What is raised for a delivery whose message is not out. -/
abbrev notPublished : Raised := .valueError "delivery has no authoritative published outbox row"

/-- A claim refuses leases of other durations. -/
theorem claim_refuses {owner : String} {now expiresAt : Timestamp} {limit : ℤ} {ids : ℕ → UUID}
    (harguments : ¬ (owner = "" ∨ expiresAt ≤ now ∨ limit < 0))
    (hduration : ¬ (seconds 5 ≤ expiresAt - now ∧ expiresAt - now ≤ seconds 3600)) :
    claim py context delivery owner now expiresAt limit ids =
      Proc.ofExcept (.error badDuration) := by
  unfold claim
  simp only [raiseIf, harguments, hduration, not_false_eq_true, if_true, if_false]
  rfl

theorem deliveryRows_eq_none (h : ¬ w.Out delivery.messageKey) :
    deliveryRows w delivery.envelope.tenantId delivery.envelope = none := by
  by_contra hsome
  obtain ⟨⟨item, row⟩, hrows⟩ := Option.ne_none_iff_exists'.1 hsome
  refine h ⟨row, (deliveryRows_eq_some hrows).2.1, ?_⟩
  simp only [deliveryRows, Option.bind_eq_bind, Option.bind_eq_some_iff] at hrows
  obtain ⟨item', -, row', -, hrows⟩ := hrows
  split at hrows
  · rename_i hstate
    split at hrows
    · cases hrows
      rw [hstate]
      rfl
    · cases hrows
  · rename_i hstate
    split at hrows
    · cases hrows
      rw [hstate]
      rfl
    · cases hrows
  · cases hrows

/-- A delivery is looked up, and refused if its message is not out. -/
theorem verifyDelivery_refuses {request : WorkRequest}
    (hrequest : requestFromDelivery py delivery = .ok request)
    (htenant : request.tenantId = context.tenantId) :
    ∃ next, verifyDelivery py context delivery = .read next ∧
      ∀ w, deliveryRows w context.tenantId delivery.envelope = none → next w = Proc.ofExcept
        (.error notPublished) := by
  have hcontext : validateRequestContext context request = .ok () := by
    rw [validateRequestContext, raiseIf_eq_ok, not_not, htenant]
  unfold verifyDelivery
  rw [hrequest]
  simp only [bind, Proc.ofExcept, Proc.bind, hcontext, Proc.query]
  refine ⟨_, rfl, fun w hw => ?_⟩
  simp only [hw]
  rfl

variable {Calls : Platform → Op Outcome → Prop} {k : String × UUID} {s : Platform} {e : Raised}

theorem endsWith_raise {c : Call} (hc : c.proc py = Proc.ofExcept (.error e)) :
    s.EndsWith Calls (KeepsMessage k) c py (.error e) := by
  refine ⟨s, _, Run.refl s, Run.refl _, ?_⟩
  rw [hc]
  simp

theorem endsWith_read {c : Call} (hread : ∃ next, c.proc py = .read next ∧
    next s.store = Proc.ofExcept (.error e)) : s.EndsWith Calls (KeepsMessage k) c py (.error e) := by
  obtain ⟨next, hc, hnext⟩ := hread
  have hclient : (s.procs ++ [c.proc py])[s.procs.length]? = some (.read next) := by
    rw [hc]
    simp
  refine ⟨s, _, Run.refl s, (Run.refl _).tail (.read hclient) ?_, ?_⟩
  · rintro i c ⟨⟩
  · rw [hnext]
    simp

/-- A genuine delivery is quarantined in some state, with what the repository answers there. -/
def QuarantinesGenuine (settings : WorkerSettings) (out : Prop → Prop) : Prop :=
  ∃ (s : Platform) (delivery : QueueDelivery) (env : Env WorkerCall WorkerCall.Reply Thrown),
    Run postgres (PostingCall plainConversions.toPyText) (fun _ _ => True) samplePlatform s ∧
    Genuine plainConversions delivery s.store ∧ out (s.store.Out delivery.messageKey) ∧
    (∀ x ∈ ((process settings delivery).run env []).1,
      RepositoryAnswers plainConversions.toPyText (PostingCall plainConversions.toPyText)
        (KeepsMessage delivery.messageKey) s x.1 x.2) ∧
    ∃ x ∈ ((process settings delivery).run env []).1, x.1.isQuarantine = true

/-- The sample item is registered and its message claimed. -/
def outSchedule : List Scheduled :=
  Scheduled.whole 0 (.register sampleContext sampleRequest (UUID.ofNat 3) (UUID.ofNat 4)) ++
  Scheduled.whole 1 (.claimOutbox sampleContext "publisher" (seconds 60) 0 10 none)

/-- Then its publication is marked as failed. -/
def failedSchedule : List Scheduled := outSchedule ++
  Scheduled.whole 2 (.markOutboxFailed sampleContext (UUID.ofNat 4) "publisher" (seconds 60) 0
    "unreachable")

/-- The scheduled call is as its callers make it, in any state. -/
def Scheduled.posts : Scheduled → Bool
  | .call (.register _ request _ _) => JsonValue.isDict (.obj request.payload)
  | .call (.fail ..) => false
  | _ => true

theorem posting_allowed {cs : List Scheduled} (hcs : cs.all Scheduled.posts = true) :
    ∀ c ∈ cs.map (Scheduled.choice py), c.Allowed postgres (PostingCall py) := by
  intro c hc
  obtain ⟨x, hx, rfl⟩ := List.mem_map.1 hc
  have hposts := List.all_eq_true.1 hcs x hx
  cases x with
  | call c =>
    refine fun _ => ⟨c, rfl, ?_⟩
    cases c with
    | register => exact hposts
    | fail => cases hposts
    | _ => trivial
  | go i => trivial
  | wait duration => exact tick_wait duration

/-- An environment in which publication and claim are answered so. -/
def refusingEnv (published : Except Thrown Unit) (claimed : Except Thrown (Option WorkLease)) :
    Env WorkerCall WorkerCall.Reply Thrown
  | _, .clock => .ok 0
  | _, .deliveryComplete .. | _, .cancellationRequested .. | _, .fail .. => .ok false
  | _, .quota _ => .ok 1
  | _, .markPublished .. => published
  | _, .claim .. => claimed
  | _, .execute .. => .ok ⟨[], none⟩
  | _, .acknowledge _ | _, .quarantine .. | _, .start .. | _, .succeed .. | _, .cancel .. => .ok ()

/-- Leases of two seconds, renewed every second. -/
def shortSettings : WorkerSettings where
  workerId := "worker"
  maxConcurrency := 16
  leaseDuration := seconds 2
  heartbeatInterval := seconds 1
  delay _ := seconds 1
  identified := plainSettings.identified
  bounded := plainSettings.bounded
  renewed := by decide

/-- The message of the sample, and whether it is out. -/
def sampleMessage (out : Bool) (s : Platform) : Bool :=
  (s.store.db.outbox.lookup ("acme", UUID.ofNat 4)).any (·.state.isOut = out)

/-- A genuine delivery of the sample's message, in a state that a schedule leads to. -/
theorem exists_sample (cs : List Scheduled) (out : Bool) (hcs : cs.all Scheduled.posts = true)
    (h : (Sys.drive postgres anyTest (cs.map (Scheduled.choice plainConversions.toPyText))
      samplePlatform).any (sampleMessage out) = true) :
    ∃ (s : Platform) (delivery : QueueDelivery),
      Run postgres (PostingCall plainConversions.toPyText) (fun _ _ => True) samplePlatform s ∧
      Genuine plainConversions delivery s.store ∧ delivery.envelope.tenantId = "acme" ∧
      (s.store.Out delivery.messageKey ↔ out = true) ∧
      ∃ request, requestFromDelivery plainConversions.toPyText delivery = .ok request ∧
        request.tenantId = "acme" := by
  obtain ⟨s, hrun, hmessage⟩ := Sys.exists_run h (posting_allowed hcs) meets_of_anyTest
  obtain ⟨row, hrow, hstate⟩ := (Option.any_eq_true _ _).1 hmessage
  have hposted := (run_posted hrun Platform.posted_initial).store
  have hcontent : s.store.db.message (sampleContext.tenantId, UUID.ofNat 4) = some row.content :=
    Option.map_eq_some_iff.2 ⟨row, hrow, rfl⟩
  obtain ⟨delivery, hgenuine, hkey⟩ := exists_genuine plainConversions_faithful hposted hcontent 0
  have htenant : delivery.envelope.tenantId = "acme" := congrArg Prod.fst hkey
  obtain ⟨_, _, -, -, hmatches⟩ := hgenuine.authentic plainConversions_faithful hposted
  obtain ⟨request, hrequest, -⟩ := hmatches.request
  refine ⟨s, delivery, hrun, hgenuine, htenant, ?_, request, hrequest, ?_⟩
  · rw [hkey]
    constructor
    · rintro ⟨row', hrow', hout⟩
      rw [show sampleContext.tenantId = "acme" from rfl, hrow, Option.some.injEq] at hrow'
      subst hrow'
      simpa [hout] using hstate
    · rintro rfl
      exact ⟨row, hrow, by simpa using hstate⟩
  · rw [(requestFromDelivery_eq_ok hrequest).1, htenant]

/-- A genuine delivery of a claimed message is quarantined under short leases. -/
theorem short_lease_quarantines : QuarantinesGenuine shortSettings fun out => out := by
  obtain ⟨s, delivery, hrun, hgenuine, htenant, hout, -⟩ :=
    exists_sample outSchedule true (by decide) (by decide +kernel)
  have hvalid : isIdentifier delivery.envelope.tenantId = true := by
    rw [htenant]
    decide
  let tenant : TenantContext := ⟨delivery.envelope.tenantId, hvalid⟩
  have hclaim : s.EndsWith (PostingCall plainConversions.toPyText)
      (KeepsMessage delivery.messageKey)
      (.claim tenant delivery "worker" 0 (seconds 2) 1 (sampleIds 20)) plainConversions.toPyText
      (.error badDuration) := by
    refine endsWith_raise ?_
    rw [Call.proc, claim_refuses (by decide) (by decide)]
    rfl
  have hhistory : ((process shortSettings delivery).run (refusingEnv (.ok ())
      (.error (.raised badDuration))) []).1 =
      [⟨.clock, .ok 0⟩, ⟨.deliveryComplete tenant delivery.envelope.workId, .ok false⟩,
        ⟨.markPublished tenant delivery 0, .ok ()⟩, ⟨.quota tenant, .ok 1⟩,
        ⟨.claim tenant delivery "worker" 0 (seconds 2) 1, .error (.raised badDuration)⟩,
        ⟨.quarantine delivery "authoritative_delivery_rejected", .ok ()⟩] := by
    unfold process
    rw [dif_pos hvalid]
    rfl
  refine ⟨s, delivery, refusingEnv (.ok ()) (.error (.raised badDuration)), hrun, hgenuine,
    hout.2 rfl, ?_, ?_⟩
  · rw [hhistory]
    simp only [List.forall_mem_cons, List.not_mem_nil, false_implies, implies_true, and_true]
    refine ⟨trivial, trivial, fun e he => (by cases he), ⟨1, rfl, Int.one_nonneg⟩, fun e he => ?_,
      trivial⟩
    cases he
    exact ⟨sampleIds 20, hclaim⟩
  · rw [hhistory]
    exact ⟨⟨.quarantine delivery "authoritative_delivery_rejected", .ok ()⟩, by simp, rfl⟩

/-- A genuine delivery is quarantined after its publication was marked as failed. -/
theorem failed_publication_quarantines : QuarantinesGenuine plainSettings fun out => ¬ out := by
  obtain ⟨s, delivery, hrun, hgenuine, htenant, hout, request, hrequest, hrequestTenant⟩ :=
    exists_sample failedSchedule false (by decide) (by decide +kernel)
  have hnotOut : ¬ s.store.Out delivery.messageKey := fun h => absurd (hout.1 h) (by decide)
  have hvalid : isIdentifier delivery.envelope.tenantId = true := by
    rw [htenant]
    decide
  let tenant : TenantContext := ⟨delivery.envelope.tenantId, hvalid⟩
  have hpublish : s.EndsWith (PostingCall plainConversions.toPyText)
      (KeepsMessage delivery.messageKey) (.markPublished tenant delivery 0 (sampleIds 10))
      plainConversions.toPyText (.error notPublished) := by
    have hcontext : request.tenantId = tenant.tenantId := hrequestTenant.trans htenant.symm
    obtain ⟨next, hread, hrefuses⟩ := verifyDelivery_refuses hrequest hcontext
    have hnext := hrefuses s.store (deliveryRows_eq_none hnotOut)
    refine endsWith_read ?_
    simp only [Call.proc, markPublished, bind, hread, Proc.bind]
    refine ⟨_, rfl, ?_⟩
    rw [hnext]
    rfl
  have hhistory : ((process plainSettings delivery).run (refusingEnv
      (.error (.raised notPublished)) (.ok none)) []).1 =
      [⟨.clock, .ok 0⟩, ⟨.deliveryComplete tenant delivery.envelope.workId, .ok false⟩,
        ⟨.markPublished tenant delivery 0, .error (.raised notPublished)⟩,
        ⟨.quarantine delivery "authoritative_delivery_rejected", .ok ()⟩] := by
    unfold process
    rw [dif_pos hvalid]
    rfl
  refine ⟨s, delivery, refusingEnv (.error (.raised notPublished)) (.ok none), hrun, hgenuine,
    hnotOut, ?_, ?_⟩
  · rw [hhistory]
    simp only [List.forall_mem_cons, List.not_mem_nil, false_implies, implies_true, and_true]
    refine ⟨trivial, trivial, fun e he => ?_, trivial⟩
    cases he
    exact ⟨sampleIds 10, hpublish⟩
  · rw [hhistory]
    exact ⟨⟨.quarantine delivery "authoritative_delivery_rejected", .ok ()⟩, by simp, rfl⟩

end

end AegisPlatform
