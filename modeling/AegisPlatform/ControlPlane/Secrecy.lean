import AegisPlatform.ControlPlane.Access
import AegisPlatform.Lib.TwoRuns

/-!
# What a request gives away

Two environments of one request: they may hold other data of other tenants, and other values under
sensitive keys of the ledger.  The request does not tell them apart.

* `LedgerEvent.Agree` — two events that differ in what is stored under sensitive keys.
* `Same` — answers that a principal of the tenant may not tell apart.
* `noninterference` — the calls and the outcome of the request are the same, every byte it sends and
  every audit record among them.
-/

namespace AegisPlatform

open Fallible Effects Effects.Prog

/-- The events differ in what is stored under sensitive keys. -/
structure LedgerEvent.Agree (e e' : LedgerEvent) : Prop where
  event : e'.event = { e.event with payload := e'.event.payload }
  payload : WordCharacters.AgreeDetails e.event.payload e'.event.payload
  metadata : WordCharacters.AgreeDetails e.metadata e'.metadata

/-- So do the pages. -/
structure LedgerPage.Agree (page page' : LedgerPage) : Prop where
  events : List.Forall₂ LedgerEvent.Agree page.events page'.events
  nextCursor : page.nextCursor = page'.nextCursor

/-! ## Bodies -/

section

variable (T : ControlText)

/-- **What is stored under sensitive keys is not shown.** -/
theorem eventBody_agree {e e' : LedgerEvent} (h : e.Agree e') : eventBody T e = eventBody T e' := by
  have hpayload := T.words.redactDetails_agree h.payload
  have hmetadata := T.words.redactDetails_agree h.metadata
  have hevent := h.event
  generalize e'.event.payload = payload at *
  rw [eventBody, eventBody, hevent]
  simp only [hpayload, hmetadata]

theorem map_eventBody_agree {events events' : List LedgerEvent}
    (h : List.Forall₂ LedgerEvent.Agree events events') :
    events.map (eventBody T) = events'.map (eventBody T) := by
  induction h with
  | nil => rfl
  | cons hfirst _ ih => rw [List.map_cons, List.map_cons, eventBody_agree T hfirst, ih]

theorem ledgerBody_agree {page page' : LedgerPage} (h : page.Agree page') :
    ledgerBody T page = ledgerBody T page' := by
  rw [ledgerBody, ledgerBody, map_eventBody_agree T h.events, h.nextCursor]

theorem getLast?_agree {events events' : List LedgerEvent}
    (h : List.Forall₂ LedgerEvent.Agree events events') :
    events.getLast?.map (·.event.aggregateSequence) =
      events'.getLast?.map (·.event.aggregateSequence) := by
  induction h with
  | nil => rfl
  | cons hfirst hrest ih =>
    cases hrest with
    | nil =>
      rw [List.getLast?_singleton, List.getLast?_singleton, Option.map_some, Option.map_some,
        hfirst.event]
    | cons => simpa [List.getLast?_cons_cons] using ih

theorem timelineBody_agree (runId : String) {events events' : List LedgerEvent}
    (h : List.Forall₂ LedgerEvent.Agree events events') :
    timelineBody T runId events = timelineBody T runId events' := by
  have hcursor : optional (fun e : LedgerEvent => .int e.event.aggregateSequence) events.getLast? =
      optional (fun e : LedgerEvent => .int e.event.aggregateSequence) events'.getLast? := by
    have hlast := getLast?_agree h
    cases hget : events.getLast? <;> cases hget' : events'.getLast? <;>
      simp_all [optional]
  rw [timelineBody, timelineBody, map_eventBody_agree T h, h.length_eq, hcursor]

end

namespace ControlPlaneApp

/-! ## Answers -/

/-- Answers that a principal of the tenant may not tell apart.  What is read of other tenants is
arbitrary; the ledger of the tenant agrees but for secrets; everything else is the same. -/
def Same (tenantId : TenantId) :
    (c : ControlOp) → Except ControlRaised c.Reply → Except ControlRaised c.Reply → Prop
  | .authenticate _, r, r' => r = r' ∧ ∀ principal, r = .ok principal → principal.tenantId = tenantId
  | .tenant context, r, r' => context = tenantId.context → r = r'
  | .policy context, r, r' => context = tenantId.context → r = r'
  | .usageSummary context, r, r' => context = tenantId.context → r = r'
  | .runStatus context _, r, r' => context = tenantId.context → r = r'
  | .readAll context _ _, r, r' => context = tenantId.context → Answer LedgerPage.Agree r r'
  | .readStream context _ _ _, r, r' =>
    context = tenantId.context → Answer (List.Forall₂ LedgerEvent.Agree) r r'
  | _, r, r' => r = r'

section

variable {t tenantId : TenantId} {T : ControlText} {app : ControlPlaneApp} {α : Type}
  {principal : Principal} {correlationId : UUID}

/-- What is not read of a tenant is the same. -/
theorem eq_of_ungoverned (c : ControlOp) (r r' : Except ControlRaised c.Reply)
    (hc : c.governed? = none) (h : Same t c r r') : r = r' := by
  cases c <;> first | exact h | exact h.1 | cases hc

theorem alike_of_ungoverned {p : Handling α} (hp : p.Asks fun c => c.governed? = none) :
    Alike (Same t) Eq p p :=
  .refl eq_of_ungoverned hp

theorem alike_respond {status : ℕ} {body body' : JsonValue}
    {extraHeaders : List (String × String)} (h : body = body') :
    Alike (Same t) Eq (respond T status body extraHeaders) (respond T status body' extraHeaders) :=
  h ▸ alike_of_ungoverned (asks_respond (fun _ => rfl) fun _ => rfl)

theorem alike_of_plain {p : Handling α} (hp : p.Asks Plain) : Alike (Same t) Eq p p :=
  alike_of_ungoverned (hp.mono fun _ hc => hc.reads)

/-- Responses that end a part in `none`. -/
theorem alike_none {p : Handling Unit} {S : Option α → Option α → Prop} (hp : Alike (Same t) Eq p p)
    (hS : S none none) : Alike (Same t) S (do p; return none) (do p; return none) :=
  hp.bind fun _ _ _ => .pure hS

/-! ## The parts -/

theorem alike_authenticate {scope : Scope} : Alike (Same t)
    (fun o o' => o = o' ∧ ∀ principal ∈ o, principal.tenantId = t)
    (authenticate T app scope correlationId) (authenticate T app scope correlationId) := by
  have hnone : (none : Option Principal) = none ∧
      ∀ principal ∈ (none : Option Principal), principal.tenantId = t :=
    ⟨rfl, fun _ h => by cases h⟩
  unfold authenticate
  split
  · exact alike_none (alike_of_plain (plain_respond (by decide))) hnone
  refine Alike.bind (S := fun o o' => o = o' ∧ ∀ principal ∈ o, principal.tenantId = t)
    (.handle ?_ fun e => ?_) ?_
  · refine Alike.bind (S := fun p p' : Principal => p = p' ∧ p.tenantId = t)
      (.ask (c := ControlOp.authenticate (scope.singleHeader "authorization")) ?_) ?_
    · rintro r _ ⟨rfl, htenant⟩
      cases r with
      | error e => exact .error e
      | ok principal => exact .ok ⟨rfl, htenant principal rfl⟩
    · rintro principal _ ⟨rfl, htenant⟩
      refine .pure ⟨rfl, fun _ hmem => ?_⟩
      cases hmem
      exact htenant
  · split
    · exact alike_none (alike_of_plain plain_refuse) hnone
    · exact alike_none (alike_of_plain (plain_respond (by decide))) hnone
    · exact .throw _
  · rintro principal? _ ⟨rfl, htenant⟩
    cases principal? with
    | none => exact .pure hnone
    | some principal =>
      exact (alike_of_plain plain_auditEvent).bind fun _ _ _ => .pure ⟨rfl, htenant⟩

/-- Only what is of the principal's own tenant is authorized. -/
theorem alike_authorize {permission : Permission} {resource : String} : Alike (Same t)
    (fun b b' => b = b' ∧ (b = true → principal.tenantId = tenantId))
    (authorize T principal tenantId correlationId permission resource)
    (authorize T principal tenantId correlationId permission resource) := by
  refine (alike_of_plain (asks_ask plain_now)).bind ?_
  rintro at' _ rfl
  refine (alike_of_plain plain_auditEvent).bind fun _ _ _ => ?_
  split
  · rename_i hallowed
    exact .pure ⟨rfl, fun _ => (AuthorizationService.decide_allowed_iff.1 hallowed).1⟩
  · exact (alike_of_plain (plain_respond (by decide))).bind fun _ _ _ =>
      .pure ⟨rfl, fun h => by cases h⟩

theorem alike_whenAuthorized {permission : Permission} {resource : String}
    {next next' : Handling Unit} (htenant : principal.tenantId = t)
    (hnext : tenantId = t → Alike (Same t) Eq next next') :
    Alike (Same t) Eq
      (whenAuthorized T principal tenantId correlationId permission resource next)
      (whenAuthorized T principal tenantId correlationId permission resource next') := by
  refine alike_authorize.bind ?_
  rintro authorized _ ⟨rfl, hsame⟩
  cases authorized with
  | false => exact .pure rfl
  | true => exact hnext ((hsame rfl).symm.trans htenant)

theorem alike_whenRead {S : α → α → Prop} {read read' : Handling α}
    {next next' : α → Handling Unit} (hread : Alike (Same t) S read read')
    (hnext : ∀ a a', S a a' → Alike (Same t) Eq (next a) (next' a')) :
    Alike (Same t) Eq (whenRead T read next) (whenRead T read' next') := by
  refine Alike.bind (S := Option.Rel S) (.handle
    (hread.bind fun a a' ha => .pure (.some ha)) fun e => ?_) fun o o' ho => ?_
  · split
    · exact alike_none (alike_of_plain (plain_respond (by decide))) .none
    · exact .throw _
  · cases ho with
    | none => exact .pure rfl
    | some ha => exact hnext _ _ ha

/-- A read of the tenant's own data that is the same. -/
theorem alike_ask {c : ControlOp} (h : ∀ r r', Same t c r r' → r = r') :
    Alike (Same t) Eq (ask c : Handling c.Reply) (ask c) :=
  .ask fun r r' hr => h r r' hr ▸ .refl (fun _ => rfl) r

/-- What reads for no tenant is the same. -/
theorem alike_of_readsFor {p : Handling α} (hp : p.Asks (ReadsFor .notFound)) :
    Alike (Same t) Eq p p := by
  refine alike_of_ungoverned (hp.mono fun c hc => ?_)
  by_contra hne
  obtain ⟨⟨context, permissions⟩, hsome⟩ := Option.ne_none_iff_exists'.1 hne
  obtain ⟨_, _, hneeds, -⟩ := hc context permissions hsome
  cases hneeds

theorem alike_modelView {g : GatewayOperations} {view : String} {policy : TenantPolicy}
    {at' : Timestamp} : Alike (Same t) Eq (modelView principal t g view policy at')
      (modelView principal t g view policy at') := by
  unfold modelView
  split
  · exact alike_of_readsFor (asks_bind readsFor_entries fun _ => asks_pure _)
  split
  · refine (alike_of_readsFor readsFor_require).bind fun _ _ _ => ?_
    refine (alike_ask (c := ControlOp.usageSummary t.context) fun r r' hr => hr rfl).bind ?_
    rintro summary _ rfl
    exact .pure rfl
  · exact alike_of_readsFor (asks_bind readsFor_require fun _ =>
      asks_bind readsFor_entries fun _ => asks_bind (readsFor_states _) fun _ => asks_pure _)

/-- A handler. -/
theorem alike_handle {scope : Scope} {route : Route} (htenant : principal.tenantId = t) :
    Alike (Same t) Eq (handle T app principal correlationId scope route)
      (handle T app principal correlationId scope route) := by
  have hplain : ∀ {status : ℕ} {body : JsonValue}, Alike (Same t) Eq (respond T status body)
      (respond T status body) := alike_respond rfl
  have hcursor : ∀ next : ℤ → Handling Unit, (∀ cursor, Alike (Same t) Eq (next cursor)
      (next cursor)) → Alike (Same t) Eq (withCursor T scope next) (withCursor T scope next) := by
    intro next hnext
    unfold withCursor
    split
    · exact hplain
    · exact hnext _
  cases route with
  | me =>
    refine (alike_of_plain (asks_ask plain_now)).bind ?_
    rintro at' _ rfl
    exact hplain
  | notFound => exact hplain
  | invalidTenantId => exact hplain
  | tenant tenantId =>
    refine alike_whenAuthorized htenant fun hsame => ?_
    subst hsame
    refine alike_whenRead (alike_ask (c := ControlOp.tenant tenantId.context) fun r r' hr => hr rfl) ?_
    rintro tenant? _ rfl
    cases tenant? <;> exact hplain
  | policy tenantId =>
    refine alike_whenAuthorized htenant fun hsame => ?_
    subst hsame
    refine alike_whenRead (alike_ask (c := ControlOp.policy tenantId.context) fun r r' hr => hr rfl) ?_
    rintro policy? _ rfl
    cases policy? <;> exact hplain
  | modelView tenantId view =>
    refine alike_whenAuthorized htenant fun hsame => ?_
    subst hsame
    cases app.gatewayOperations with
    | none => exact hplain
    | some g =>
      refine (alike_ask (c := ControlOp.policy tenantId.context) fun r r' hr => hr rfl).bind ?_
      rintro policy? _ rfl
      cases policy? with
      | none => exact hplain
      | some policy =>
        refine (alike_of_plain (asks_ask plain_now)).bind ?_
        rintro at' _ rfl
        refine Alike.bind (S := Eq) (.handle (alike_modelView.bind fun body body' hbody => ?_)
          fun e => ?_) ?_
        · exact .pure (congrArg some hbody)
        · split
          · exact alike_none hplain rfl
          · exact .throw _
        · rintro body? _ rfl
          cases body? with
          | none => exact .pure rfl
          | some body => exact hplain
  | ledger tenantId =>
    refine hcursor _ fun cursor => alike_whenAuthorized htenant fun hsame => ?_
    subst hsame
    split
    · exact hplain
    · exact alike_whenRead (.ask (c := ControlOp.readAll tenantId.context cursor 100) fun r r' hr => hr rfl)
        fun page page' hpage => alike_respond (ledgerBody_agree T hpage)
  | timeline tenantId runId =>
    refine hcursor _ fun cursor => ?_
    unfold getTimeline
    split
    · exact hplain
    refine alike_whenAuthorized htenant fun hsame => ?_
    subst hsame
    split
    · exact hplain
    · exact alike_whenRead
        (.ask (c := ControlOp.readStream tenantId.context runId cursor 100) fun r r' hr => hr rfl)
        fun events events' hevents => alike_respond (timelineBody_agree T runId hevents)
  | runStatus tenantId =>
    refine alike_whenAuthorized htenant fun hsame => ?_
    subst hsame
    split
    · exact hplain
    · refine alike_whenRead
        (alike_ask (c := ControlOp.runStatus tenantId.context 100) fun r r' hr => hr rfl) ?_
      rintro rows _ rfl
      exact hplain

/-- A request. -/
theorem alike_call {scope : Scope} :
    Alike (Same t) Eq (call T app scope) (call T app scope) := by
  have hplain : ∀ {status : ℕ} {body : JsonValue}, Alike (Same t) Eq (respond T status body)
      (respond T status body) := alike_respond rfl
  unfold call
  split
  · exact .pure rfl
  split
  · exact hplain
  split
  · exact hplain
  split
  · exact hplain
  split
  · exact alike_of_ungoverned asks_readiness
  split
  · exact hplain
  refine (alike_of_plain (asks_ask ⟨rfl, fun _ heq => by cases heq⟩)).bind ?_
  rintro correlationId _ rfl
  refine alike_authenticate.bind ?_
  rintro principal? _ ⟨rfl, htenant⟩
  cases principal? with
  | none => exact .pure rfl
  | some principal => exact alike_handle (htenant principal rfl)

end

/-- **A request gives nothing else away.**  Let a request be answered twice, by environments in
which it is authenticated as the same principal of a tenant, in which what is read of that tenant
is the same but for what is stored under sensitive keys of the ledger, and in which what is read of
other tenants is arbitrary.  Then it makes the same calls, so that it sends the same responses and
leaves the same audit records, and it ends in the same way. -/
theorem noninterference (T : ControlText) (app : ControlPlaneApp) (scope : Scope)
    (tenantId : TenantId) {env env' : ControlEnv}
    (henv : ∀ h h' c, Related (Same tenantId) h h' → Same tenantId c (env h c) (env' h' c)) :
    ((call T app scope).run env []).1.map Sigma.fst =
        ((call T app scope).run env' []).1.map Sigma.fst ∧
      ((call T app scope).run env []).2 = ((call T app scope).run env' []).2 := by
  obtain ⟨hrelated, houtcome⟩ := alike_call.run henv .nil
  exact ⟨hrelated.calls, houtcome.eq⟩

/-- Alice asks for the ledger of her tenant. -/
def ledgerScope : Scope where
  path := some "/v1/tenants/acme/ledger"
  headers := some [some (asciiBytes "Authorization", asciiBytes "Bearer t1")]

/-- An event with a password. -/
def loginEvent (password : String) : LedgerEvent where
  event := {
    eventId := UUID.ofNat 1
    tenantId := "acme"
    aggregateId := "run-1"
    eventType := .workRequested
    occurredAt := 0
    payload := [("password", .str password)]
    aggregateSequence := 1
    globalPosition := some 1 }
  metadata := []

/-- A ledger that holds it. -/
def loginEnv (password : String) : ControlEnv := fun h c => match c with
  | .readAll .. => .ok ⟨[loginEvent password], none⟩
  | c => sampleEnv h c

theorem loginEvent_agree (password password' : String) :
    (loginEvent password).Agree (loginEvent password') := by
  have hkey : isSensitive "password" = true := by decide +kernel
  exact ⟨rfl, .secret _ _ hkey .nil, .nil⟩

/-- Only Alice is let in. -/
theorem tenantId_of_sampleEnv {h : ControlHistory} {header : Option String} {principal : Principal}
    (hanswer : sampleEnv h (.authenticate header) = .ok principal) :
    principal.tenantId = acmeTenantId := by
  obtain ⟨_, _, claims, -, -, -, hresolve⟩ :=
    AuthenticationService.authenticate_spec (mapError_eq_ok.1 hanswer)
  obtain ⟨record, hmem, -, -, -, -, htenant, -⟩ :=
    InMemoryIdentityDirectory.resolve_spec (d := sampleDirectory) hresolve
  rw [htenant, List.mem_singleton.1 hmem]
  rfl

/-- Two ledgers with different passwords are shown in the same way. -/
theorem noninterference_sample :
    ((call sampleControlText sampleApp ledgerScope).run (loginEnv "hunter2") []).1.map Sigma.fst =
      ((call sampleControlText sampleApp ledgerScope).run (loginEnv "letmein") []).1.map
        Sigma.fst := by
  refine (noninterference sampleControlText sampleApp ledgerScope acmeTenantId fun h h' c _ => ?_).1
  cases c with
  | readAll => exact fun _ => .ok ⟨.cons (loginEvent_agree _ _) .nil, rfl⟩
  | authenticate header => exact ⟨rfl, fun _ => tenantId_of_sampleEnv (h := h)⟩
  | readStream => exact fun _ => .ok .nil
  | tenant => exact fun _ => rfl
  | policy => exact fun _ => rfl
  | usageSummary => exact fun _ => rfl
  | runStatus => exact fun _ => rfl
  | _ => exact rfl

end ControlPlaneApp

end AegisPlatform
