import AegisPlatform.Domain.Equality
import AegisPlatform.Queueing.Publisher
import AegisPlatform.System.Deliveries

/-!
# What messages announce

Messages are inserted in three places: when work is registered, when a failure is retried and
when a dead letter is requeued.  The request they carry comes from the caller, from the
delivery that failed or from the item; in every run it is the one that was registered, as
Python's `==` compares requests.

* `Announces` — a message that carries a request.
* `World.Posted` — every message announces the request of a registered item.
* `PostingCall` — any call, provided that failures are reported for deliveries that were
  verified.
* `run_posted` — the platform goes on having posted what it has registered.
-/

namespace AegisPlatform

open Fallible Interleave

/-- A message that carries a request. -/
structure Announces (py : PyText) (message : OutboxContent) (request : WorkRequest) : Prop where
  payload : message.payload = requestPayload py request
  headers : ∃ retry, message.headers = announcedHeaders request retry
  destination : message.destination = "aegis.work"
  isDict : JsonValue.isDict (.obj request.payload) = true

/-- Every item was registered with a valid request, and every message announces the request
of its item. -/
structure World.Posted (py : PyText) (w : World) : Prop where
  items : ∀ tenantId workId item, w.db.registered (tenantId, workId) = some item →
    (∃ request, (item.fields tenantId workId).make = .ok request) ∧
      JsonValue.isDict (.obj item.requestPayload) = true
  messages : ∀ tenantId messageId message, w.db.message (tenantId, messageId) = some message →
    ∃ request item, Announces py message request ∧ request.tenantId = tenantId ∧
      w.db.registered request.key = some item ∧ item.Holds request

/-- What a transaction inserts is well-formed and announces what is registered, or is
registered by it. -/
def Txn.Posts (py : PyText) (c : Txn) (w : World) : Prop :=
  ∀ a, c.append? = some a →
    (∀ request id, a.mutation.insertion? = some (request, id) →
      JsonValue.isDict (.obj request.payload) = true) ∧
    ∀ m ∈ a.outbox, ∀ first ∈ a.events.head?, ∃ request, Announces py m.content request ∧
      request.tenantId = first.tenantId ∧
      ((∃ inserted id, a.mutation.insertion? = some (inserted, id) ∧
        inserted.key = request.key ∧ (inserted.registered id).Holds request) ∨
      ∃ item, w.db.registered request.key = some item ∧ item.Holds request)

/-! ## Requests that hold -/

section Requests

variable {py : PyText} {request : WorkRequest} {id : UUID}

/-- A request is valid with the default version too. -/
theorem WorkRequest.make_registered (request : WorkRequest) (id : UUID) :
    ∃ default, ((request.registered id).fields request.tenantId request.workId).make =
      .ok default := by
  have hcheck : ((request.registered id).fields request.tenantId request.workId).check = .ok () := by
    have hvalid := request.valid
    simp only [WorkRequestFields.check, bind_eq_ok, raiseIf_eq_ok] at hvalid ⊢
    obtain ⟨_, h₁, _, h₂, _, h₃, -, -, h₅⟩ := hvalid
    exact ⟨(), h₁, (), h₂, (), h₃, (), by simp [Registered.fields], h₅⟩
  refine ⟨⟨_, hcheck⟩, ?_⟩
  unfold WorkRequestFields.make
  split
  · rfl
  · rename_i e he
    rw [hcheck] at he
    cases he

theorem WorkRequest.pyEq_refl (request : WorkRequest)
    (h : JsonValue.isDict (.obj request.payload) = true) : request.pyEq request = true := by
  have hpayload := JsonValue.pyEq_refl h (by
    rw [JsonValue.isFinite]
    exact request.isFinite_payload)
  simp [WorkRequest.pyEq, hpayload]

/-- The request with the default version holds what it registers, and a message does not tell
the versions apart. -/
theorem exists_announced (py : PyText) (request : WorkRequest) (id : UUID)
    (h : JsonValue.isDict (.obj request.payload) = true) :
    ∃ default : WorkRequest, default.key = request.key ∧ default.tenantId = request.tenantId ∧
      default.payload = request.payload ∧
      requestPayload py default = requestPayload py request ∧
      workHeaders default = workHeaders request ∧ (request.registered id).Holds default := by
  obtain ⟨default, hdefault⟩ := request.make_registered id
  have hfields := WorkRequestFields.make_eq hdefault
  have hpayload : default.payload = request.payload := by rw [hfields]; rfl
  have htenant : default.tenantId = request.tenantId := by rw [hfields]; rfl
  have hworkId : default.workId = request.workId := by rw [hfields]; rfl
  refine ⟨default, ?_, htenant, hpayload, ?_, ?_, default, ?_, ?_⟩
  · rw [WorkRequest.key, WorkRequest.key, htenant, hworkId]
  · unfold requestPayload
    rw [hfields]
    rfl
  · rw [workHeaders, workHeaders, htenant]
  · rw [htenant, hworkId]
    exact hdefault
  · exact default.pyEq_refl (by rw [hpayload]; exact h)

end Requests

/-! ## The invariant -/

section Invariant

variable {py : PyText} {w w' : World} {c : Txn} {r : Except Raised Reply}

theorem World.posted_initial (tenants : List String) (quotas : Table String QuotaLimits)
    (clock : Timestamp) : (World.initial tenants quotas clock).Posted py where
  items _ _ _ h := by cases h
  messages _ _ _ h := by cases h

theorem World.Posted.of_same (h : w.Posted py) (hitems : SameItems w.db w'.db)
    (hmessages : ∀ k, w'.db.message k = w.db.message k) : w'.Posted py where
  items tenantId workId item hitem := by
    rw [hitems] at hitem
    exact h.items tenantId workId item hitem
  messages tenantId messageId message hmessage := by
    rw [hmessages] at hmessage
    obtain ⟨request, item, hannounces, htenant, hitem, hholds⟩ :=
      h.messages tenantId messageId message hmessage
    exact ⟨request, item, hannounces, htenant, by rw [hitems]; exact hitem, hholds⟩

/-- **A transaction that posts keeps what is posted.** -/
theorem World.Posted.exec (h : w.Posted py) (hc : c.Posts py w)
    (hexec : World.exec c w = some (w', r)) : w'.Posted py := by
  rcases exec_applied hexec with ⟨hitems, -, hmessages⟩ | ⟨a, startedAt, reply, ha, hrun⟩
  · exact h.of_same (.of_eq hitems) hmessages
  obtain ⟨hdict, hposts⟩ := hc a ha
  have hkept := rowsKept_exec hexec
  have hitems := registered_runAppend hrun
  refine ⟨fun tenantId workId item hitem => ?_, fun tenantId messageId message hmessage => ?_⟩
  · split at hitems
    · rename_i request id hinsertion
      by_cases hkey : (tenantId, workId) = request.key
      · rw [hkey, hitems.self, Option.some.injEq] at hitem
        subst hitem
        obtain ⟨htenant, hworkId⟩ : tenantId = request.tenantId ∧ workId = request.workId :=
          Prod.mk.inj hkey
        rw [htenant, hworkId]
        exact ⟨request.make_registered id, hdict request id hinsertion⟩
      · rw [hitems.other _ hkey] at hitem
        exact h.items tenantId workId item hitem
    · rw [hitems] at hitem
      exact h.items tenantId workId item hitem
  · rcases message_runAppend hrun hmessage with hold | ⟨m, hm, first, hfirst, hk, rfl⟩
    · obtain ⟨request, item, hannounces, htenant, hitem, hholds⟩ :=
        h.messages tenantId messageId message hold
      exact ⟨request, item, hannounces, htenant, hkept.items _ item hitem, hholds⟩
    · obtain ⟨request, hannounces, htenant, hregistered⟩ := hposts m hm first hfirst
      cases hk
      rcases hregistered with ⟨inserted, id, hinsertion, hkey, hholds⟩ | ⟨item, hitem, hholds⟩
      · rw [hinsertion] at hitems
        refine ⟨request, inserted.registered id, hannounces, htenant, ?_, hholds⟩
        rw [← hkey]
        exact hitems.self
      · exact ⟨request, item, hannounces, htenant, hkept.items _ item hitem, hholds⟩

theorem World.Posted.of_db (h : w.Posted py) (hdb : w'.db = w.db) : w'.Posted py :=
  h.of_same (.of_eq (by rw [hdb])) fun k => by rw [hdb]

theorem World.Posted.abort (h : w.Posted py) : (World.abort c w).1.Posted py :=
  h.of_db (World.abort_cases c w).1

theorem World.Posted.tick (h : w.Posted py) (ht : World.tick w w') : w'.Posted py := by
  obtain ⟨clock, maintenance, locked, -, rfl⟩ := ht
  exact h.of_db rfl

theorem World.Posted.move (h : w.Posted py) (hm : Move postgres (Txn.Posts py) w w') :
    w'.Posted py := by
  rcases hm with ⟨c, r, hc, hexec⟩ | ⟨c, rfl⟩ | ht
  · exact h.exec hc hexec
  · exact h.abort
  · exact h.tick ht

end Invariant

/-! ## The calls -/

/-- The call is as its callers make it: the payload of a request is a `dict`, and failures are
reported for deliveries that were verified. -/
def Call.PostsIn (py : PyText) (w : World) : Call → Prop
  | .register _ request _ _ => JsonValue.isDict (.obj request.payload) = true
  | .fail context delivery .. => JsonValue.isDict (.obj delivery.envelope.payload) = true ∧
      Authentic py context.tenantId delivery w
  | _ => True

/-- Any client makes any call, as its callers make it. -/
def PostingCall (py : PyText) (s : Platform) (p : Op Outcome) : Prop :=
  ∃ c : Call, p = c.proc py ∧ c.PostsIn py s.store

section Calls

variable {py : PyText} {w : World} {context : TenantContext}

/-- A transaction that inserts nothing posts. -/
theorem Txn.Quiet.posts {c : Txn} (h : c.Quiet) (w : World) : c.Posts py w := by
  intro a ha
  have hquiet : a.outbox = [] ∧ a.mutation.insertion? = none := by
    cases c <;> cases ha <;> exact h
  refine ⟨fun request id hinsertion => ?_, fun m hm => ?_⟩
  · rw [hquiet.2] at hinsertion
    cases hinsertion
  · rw [hquiet.1] at hm
    cases hm

/-- What a client does as long as it posts. -/
abbrev Posting (py : PyText) {α : Type} (p : Op α) (w : World) : Prop :=
  wp postgres (Txn.Posts py) (fun _ _ => True) p w

theorem posting_check {α β : Type} {x : Except Raised α} {f : α → Op β}
    (h : ∀ a, x = .ok a → Posting py (f a) w) : Posting py ((Proc.ofExcept x).bind f) w :=
  wp_ofExcept_bind (fun _ _ => trivial) h

theorem posting_bind {α β : Type} {p : Op α} {f : α → Op β} (hp : Posting py p w)
    (hf : ∀ a t, Posting py (f a) t) : Posting py (p.bind f) w := by
  refine wp_bind _ (wp_mono ?_ _ hp)
  rintro (e | a) t -
  · trivial
  · exact hf a t

theorem posting_txn {c : Txn} (h : ∀ t, Moves postgres (Txn.Posts py) w t → c.Posts py t) :
    Posting py (Proc.txn c : Op Reply) w :=
  wp_txn h (fun _ _ _ _ _ _ _ => trivial) fun _ _ _ _ => trivial

theorem posting_pure {α : Type} (a : α) : Posting py (pure a : Op α) w := fun _ _ => trivial

/-- One message with the events of one tenant. -/
theorem posts_one {a : Append} {m : OutboxMessage} {request : WorkRequest}
    (houtbox : a.outbox = [m]) (hannounces : Announces py m.content request)
    (htenant : ∀ first ∈ a.events.head?, request.tenantId = first.tenantId)
    (hdict : ∀ inserted id, a.mutation.insertion? = some (inserted, id) →
      JsonValue.isDict (.obj inserted.payload) = true)
    (hregistered : (∃ inserted id, a.mutation.insertion? = some (inserted, id) ∧
        inserted.key = request.key ∧ (inserted.registered id).Holds request) ∨
      ∃ item, w.db.registered request.key = some item ∧ item.Holds request)
    {c : Txn} (hc : c.append? = some a) : c.Posts py w := by
  intro a' ha'
  rw [hc, Option.some.injEq] at ha'
  subst ha'
  refine ⟨hdict, fun m' hm' first hfirst => ?_⟩
  rw [houtbox] at hm'
  rw [List.mem_singleton.1 hm']
  exact ⟨request, hannounces, htenant first hfirst, hregistered⟩

theorem posting_register {request : WorkRequest} {eventId messageId : UUID}
    (hdict : JsonValue.isDict (.obj request.payload) = true) :
    Posting py (register py context request eventId messageId) w := by
  refine posting_check fun _ _ => posting_check fun _ _ => posting_check fun event hevent => ?_
  refine posting_bind (posting_check fun _ _ => posting_txn fun t _ => ?_) fun _ _ => posting_pure _
  obtain ⟨hfor, -⟩ := WorkTransition.toEvent_spec hevent rfl
  obtain ⟨default, hkey, htenant, hpayload, hrequest, hheaders, hholds⟩ :=
    exists_announced py request eventId hdict
  refine posts_one rfl ?_ ?_ ?_ (Or.inl ⟨request, eventId, rfl, hkey.symm, hholds⟩) rfl
  · exact ⟨hrequest.symm, ⟨false, hheaders.symm⟩, rfl, by rw [hpayload]; exact hdict⟩
  · intro first hfirst
    cases hfirst
    rw [htenant, hfor.tenantId]
    rfl
  · intro inserted id hinserted
    cases hinserted
    exact hdict

/-- A request that was loaded holds. -/
theorem loaded_holds {t : World} (ht : t.Posted py) {workId : UUID} {row : WorkItemRow}
    {request : WorkRequest} (hrow : t.db.workItems.lookup (context.tenantId, workId) = some row)
    (hrequest : row.request context.tenantId workId = .ok request) :
    request.key = (context.tenantId, workId) ∧
      JsonValue.isDict (.obj request.payload) = true ∧
      t.db.registered (context.tenantId, workId) = some row.registered ∧
      row.registered.Holds request := by
  have hfields := WorkRequestFields.make_eq hrequest
  have hregistered : t.db.registered (context.tenantId, workId) = some row.registered :=
    Option.map_eq_some_iff.2 ⟨row, hrow, rfl⟩
  have hdict : JsonValue.isDict (.obj request.payload) = true := by
    rw [hfields]
    exact (ht.items _ _ _ hregistered).2
  refine ⟨?_, hdict, hregistered, request, ?_, request.pyEq_refl hdict⟩
  · rw [WorkRequest.key, hfields]
  · rw [hfields]
    exact hrequest

theorem posting_requeueDeadLetter (hw : w.Posted py) {workId : UUID} {at' : Timestamp}
    {approval : RequeueApproval} {actorId : String} {ids : ℕ → UUID} :
    Posting py (requeueDeadLetter py context workId at' approval actorId ids) w := by
  refine wp_bind _ (wp_query_bind fun t ht => wp_ofExcept_bind (fun _ _ => trivial)
    fun row hrow => wp_ofExcept fun u hu => ?_)
  cases hrequest : row.request context.tenantId workId with
  | error e => trivial
  | ok request =>
    have hposted := ht.keeps (fun _ _ h hm => h.move hm) hw
    obtain ⟨hkey, hdict, hregistered, hholds⟩ :=
      loaded_holds hposted (orRaise_eq_ok.1 hrow) hrequest
    refine posting_check fun event hevent => wp_query_bind fun v hv => ?_
    refine posting_bind (posting_check fun _ _ => posting_txn fun x hx => ?_) fun _ _ =>
      posting_pure _
    obtain ⟨hfor, -⟩ := WorkTransition.toEvent_spec hevent rfl
    -- what was loaded is still registered
    have hitem := ((hu.trans hv).trans hx).keeps
      (fun _ _ h hm => (World.rowsKept_move hm).items _ _ h) hregistered
    refine posts_one rfl ?_ ?_ ?_ (Or.inr ⟨row.registered, ?_, hholds⟩) rfl
    · exact ⟨rfl, ⟨false, rfl⟩, rfl, hdict⟩
    · intro first hfirst
      cases hfirst
      rw [hfor.tenantId]
      rfl
    · intro inserted id hinserted
      cases hinserted
    · rw [hkey]
      exact hitem

theorem isDict_handlerPayload {delivery : QueueDelivery}
    (h : JsonValue.isDict (.obj delivery.envelope.payload) = true) :
    JsonValue.isDict (.obj delivery.handlerPayload) = true := by
  unfold QueueDelivery.handlerPayload
  split
  · rename_i fields hfield
    exact (JsonValue.isDict_obj_iff.1 h).2 _ (JsonValue.mem_of_lookup hfield)
  · rfl

theorem posting_fail {delivery : QueueDelivery} {lease : WorkLease} {at' : Timestamp}
    {failureClass : FailureClass} {errorCode : String} {retryAt : Option Timestamp}
    {ids : ℕ → UUID} (hdict : JsonValue.isDict (.obj delivery.envelope.payload) = true)
    (hauthentic : Authentic py context.tenantId delivery w) :
    Posting py (AegisPlatform.fail py context delivery lease at' failureClass errorCode retryAt ids)
      w := by
  refine posting_check fun _ _ => posting_check fun request hrequest => ?_
  refine posting_check fun failed hfailed => ?_
  obtain ⟨hfor, -⟩ := WorkTransition.toEvent_spec hfailed rfl
  obtain ⟨htenant, hworkId, -, -, hpayload⟩ := requestFromDelivery_eq_ok hrequest
  split
  · refine posting_check fun _ _ => wp_query_bind fun t _ => ?_
    refine posting_bind ?_ fun _ _ => posting_pure _
    exact (commits_appendFenced (fun _ => trivial) fun _ => ⟨rfl, rfl⟩).wp
      (fun _ _ h => Txn.Quiet.posts h _) t
  · refine posting_check fun _ _ => wp_query_bind fun t ht => ?_
    refine posting_bind (posting_check fun _ _ => posting_check fun _ _ =>
      wp_bind _ (wp_mono ?_ _ (wp_later _ (posting_txn fun u _ => ?_)))) fun _ _ => posting_pure _
    · rintro (e | opened) u ⟨-, hu⟩
      · trivial
      · refine posting_txn fun v hv => ?_
        obtain ⟨item, message, hitem, -, hmatches⟩ := ((ht.trans hu).trans hv).keeps
          (fun _ _ h hm => h.kept (World.rowsKept_move hm)) hauthentic
        obtain ⟨supplied, hsupplied, hholds⟩ := hmatches.request
        rw [hrequest, Except.ok.injEq] at hsupplied
        subst hsupplied
        refine posts_one rfl ?_ ?_ ?_ (Or.inr ⟨item, ?_, hholds⟩) rfl
        · refine ⟨rfl, ⟨true, rfl⟩, rfl, ?_⟩
          rw [hpayload]
          exact isDict_handlerPayload hdict
        · intro first hfirst
          cases hfirst
          rw [hfor.tenantId]
          rfl
        · intro inserted id hinserted
          cases hinserted
        · rw [WorkRequest.key, htenant, hworkId, hmatches.tenantId]
          exact hitem
    · intro a ha
      cases ha

/-- **Every call posts**, made as its callers make it. -/
theorem posting_call {s : Platform} {p : Op Outcome} (hs : s.store.Posted py)
    (hp : PostingCall py s p) : Posting py p s.store := by
  obtain ⟨c, rfl, hc⟩ := hp
  have hquiet := c.commits_quiet py
  cases c with
  | register => exact posting_bind (posting_register hc) fun _ _ => posting_pure _
  | fail => exact posting_bind (posting_fail hc.1 hc.2) fun _ _ => posting_pure _
  | requeueDeadLetter =>
    exact posting_bind (posting_requeueDeadLetter hs) fun _ _ => posting_pure _
  | _ => exact (hquiet rfl).wp (fun _ _ h => Txn.Quiet.posts h _) _

end Calls

/-! ## Runs -/

section Runs

variable {py : PyText} {Meets : Platform → Action Txn → Prop} {s t : Platform}

/-- The platform has posted what it has registered, and its clients go on to. -/
structure Platform.Posted (py : PyText) (s : Platform) : Prop where
  store : s.store.Posted py
  follows : Sys.Follows postgres (Txn.Posts py) (fun _ _ => True) s

theorem Platform.posted_initial {tenants : List String} {quotas : Table String QuotaLimits}
    {clock : Timestamp} : (Platform.initial tenants quotas clock).Posted py where
  store := World.posted_initial tenants quotas clock
  follows _ h := by cases h

/-- **Every message announces a registered request**, in every run. -/
theorem run_posted (hrun : Run postgres (PostingCall py) Meets s t) (hs : s.Posted py) :
    t.Posted py := by
  obtain ⟨hstore, hfollows⟩ := hrun.invariant hs.store hs.follows
    (fun _ _ hI _ hp => posting_call hI hp) (fun _ _ _ _ _ hI hc _ hexec => hI.exec hc hexec)
    (fun _ _ hI _ => hI.abort) fun _ _ hI ht => hI.tick ht
  exact ⟨hstore, hfollows⟩

end Runs

end AegisPlatform
