import AegisPlatform.ControlPlane.App
import AegisPlatform.Providers.Requests

/-!
# Who is given what

* `Clearance` — authentication, authorization and audit, as they stand in the history of a request.
* `Admitted` — the request may be given what its route asks for.
* `access_controlled` — nothing of a tenant is read, and nothing is given out, before that.
* `access_granted_by_directory` — with the platform's own authentication: whose word it rests on.
-/

namespace AegisPlatform

open Fallible Effects Effects.Prog

/-- What a request has called so far. -/
abbrev ControlHistory := History ControlOp ControlOp.Reply ControlRaised

/-- What answers the calls of requests. -/
abbrev ControlEnv := Env ControlOp ControlOp.Reply ControlRaised

/-- The tenant whose data a call reads, and the permissions it is read under. -/
def ControlOp.governed? : ControlOp → Option (TenantContext × List Permission)
  | tenant context => some (context, [.tenantRead])
  | policy context => some (context, [.policyRead, .modelRead])
  | usageSummary context => some (context, [.modelRead])
  | readAll context .. | readStream context .. | runStatus context _ =>
    some (context, [.resourceRead])
  | _ => none

/-- What a route needs. -/
def Route.needs? : Route → Option (TenantId × Permission)
  | me | notFound | invalidTenantId => none
  | tenant tenantId => some (tenantId, .tenantRead)
  | policy tenantId => some (tenantId, .policyRead)
  | modelView tenantId _ => some (tenantId, .modelRead)
  | ledger tenantId | timeline tenantId _ | runStatus tenantId => some (tenantId, .resourceRead)

namespace ControlPlaneApp

/-- The authentication has named the principal. -/
def Authenticated (scope : Scope) (h : ControlHistory) (principal : Principal) : Prop :=
  ⟨.authenticate (scope.singleHeader "authorization"), .ok principal⟩ ∈ h

/-- A principal was authenticated, it may do this in the tenant at a reading of the clock, and
the audit store has it on record. -/
structure Clearance (W : WordCharacters) (scope : Scope) (h : ControlHistory) (tenantId : TenantId)
    (permission : Permission) (principal : Principal) (at' : Timestamp) : Prop where
  authenticated : Authenticated scope h principal
  now : ⟨.now, .ok at'⟩ ∈ h
  allowed : (AuthorizationService.decide principal tenantId (.inl permission) at').allowed = true
  audited : ∃ event : AuditEvent, ⟨.appendAudit tenantId.context event, .ok ()⟩ ∈ h ∧
    event.Made W ∧ event.eventType = .authorizationDecision ∧ event.outcome = .success ∧
    event.actorId = principal.actorId ∧ event.action = permission.value

/-- Somebody was. -/
def Cleared (W : WordCharacters) (scope : Scope) (h : ControlHistory) (tenantId : TenantId)
    (permission : Permission) : Prop :=
  ∃ principal at', Clearance W scope h tenantId permission principal at'

/-- The request may be given what its route asks for. -/
structure Admitted (W : WordCharacters) (scope : Scope) (route : Route) (h : ControlHistory) :
    Prop where
  authenticated : ∃ principal, Authenticated scope h principal
  cleared : ∀ tenantId permission, route.needs? = some (tenantId, permission) →
    Cleared W scope h tenantId permission

/-- The probes, which everybody may ask. -/
def probes : List String := ["/healthz", "/health/live", "/readyz", "/health/ready"]

/-- The call reads for the route: data of its tenant, under its permission. -/
def ReadsFor (route : Route) (c : ControlOp) : Prop :=
  ∀ context permissions, c.governed? = some (context, permissions) → ∃ tenantId permission,
    route.needs? = some (tenantId, permission) ∧ context = tenantId.context ∧
      permission ∈ permissions

/-- What a request may call after its history: data are read for the route of an admitted request,
and `200` is sent to an admitted request or a probe. -/
structure Permitted (W : WordCharacters) (scope : Scope) (h : ControlHistory) (c : ControlOp) :
    Prop where
  reads : c.governed? ≠ none → ∃ path, scope.path = some path ∧ ReadsFor (Route.of path) c ∧
    Admitted W scope (Route.of path) h
  sends : ∀ headers, c = .send (.start 200 headers) → ∃ path, scope.path = some path ∧
    (path ∈ probes ∨ Admitted W scope (Route.of path) h)

/-! ## What is kept -/

section

variable {W : WordCharacters} {scope : Scope} {h : ControlHistory} {route : Route} {path : String}
  {Lawful : (c : ControlOp) → Except ControlRaised c.Reply → Prop}
  {α : Type} {T : ControlText} {app : ControlPlaneApp}

theorem Clearance.mono {tenantId : TenantId} {permission : Permission} {principal : Principal}
    {at' : Timestamp} (hclear : Clearance W scope h tenantId permission principal at')
    (later : ControlHistory) :
    Clearance W scope (h ++ later) tenantId permission principal at' := by
  obtain ⟨hauthenticated, hnow, hallowed, event, hevent, hrest⟩ := hclear
  exact ⟨List.mem_append_left _ hauthenticated, List.mem_append_left _ hnow, hallowed, event,
    List.mem_append_left _ hevent, hrest⟩

theorem Admitted.mono (hadmitted : Admitted W scope route h) (later : ControlHistory) :
    Admitted W scope route (h ++ later) := by
  obtain ⟨⟨principal, hprincipal⟩, hcleared⟩ := hadmitted
  refine ⟨⟨principal, List.mem_append_left _ hprincipal⟩, fun tenantId permission hneeds => ?_⟩
  obtain ⟨principal, at', hclear⟩ := hcleared tenantId permission hneeds
  exact ⟨principal, at', hclear.mono later⟩

/-- An admitted request may call whatever reads for its route. -/
theorem wp_of_admitted {p : Handling α} (hpath : scope.path = some path)
    (hp : p.Asks (ReadsFor (Route.of path))) (hadmitted : Admitted W scope (Route.of path) h) :
    p.wp Lawful (Permitted W scope) (fun _ _ => True) h :=
  wp_mono (fun _ _ _ => trivial) _ (Asks.under
    (fun _ _ hadmitted hreads =>
      ⟨fun _ => ⟨path, hpath, hreads, hadmitted⟩, fun _ _ => ⟨path, hpath, .inr hadmitted⟩⟩)
    (fun _ _ _ _ hadmitted => hadmitted.mono _) hp hadmitted)

/-- A call that needs no clearance. -/
structure Plain (c : ControlOp) : Prop where
  reads : c.governed? = none
  sends : ∀ headers, c ≠ .send (.start 200 headers)

theorem Plain.permitted {c : ControlOp} (hc : Plain c) : Permitted W scope h c :=
  ⟨fun hreads => absurd hc.reads hreads, fun headers heq => absurd heq (hc.sends headers)⟩

theorem ReadsFor.of_none {c : ControlOp} (hc : c.governed? = none) : ReadsFor route c :=
  fun _ _ hsome => by rw [hc] at hsome; cases hsome

/-- Calls that need no clearance are always permitted. -/
theorem wp_of_plain {p : Handling α} (hp : p.Asks Plain) :
    p.wp Lawful (Permitted W scope) (fun _ _ => True) h :=
  hp.wp (fun _ _ hc => hc.permitted) h

/-! ## What the parts call -/

theorem plain_now : Plain .now := ⟨rfl, fun _ h => by cases h⟩

theorem asks_respond {P : ControlOp → Prop} {status : ℕ} {body : JsonValue}
    {extraHeaders : List (String × String)} (hstart : ∀ headers, P (.send (.start status headers)))
    (hbody : ∀ encoded, P (.send (.body encoded))) :
    (respond T status body extraHeaders).Asks P :=
  asks_bind (asks_ask (hstart _)) fun _ => asks_ask (hbody _)

/-- A response that gives nothing out. -/
theorem plain_respond {status : ℕ} (hstatus : status ≠ 200) {body : JsonValue}
    {extraHeaders : List (String × String)} :
    (respond T status body extraHeaders).Asks Plain :=
  asks_respond (fun _ => ⟨rfl, fun _ heq => hstatus (by cases heq; rfl)⟩)
    fun _ => ⟨rfl, fun _ heq => by cases heq⟩

theorem readsFor_respond {status : ℕ} {body : JsonValue} {extraHeaders : List (String × String)} :
    (respond T status body extraHeaders).Asks (ReadsFor route) :=
  asks_respond (fun _ => .of_none rfl) fun _ => .of_none rfl

theorem plain_auditEvent {tenantId : TenantId} {eventType : AuditEventType} {outcome : AuditOutcome}
    {actorId action resource : String} {correlationId : UUID} {details : Dict} :
    (auditEvent T tenantId eventType outcome actorId action resource correlationId details).Asks
      Plain :=
  asks_bind (asks_ask ⟨rfl, fun _ h => by cases h⟩) fun _ =>
    asks_bind (asks_ask plain_now) fun _ => asks_bind (asks_ofExcept _) fun _ =>
      asks_ask ⟨rfl, fun _ h => by cases h⟩

theorem plain_refuse {correlationId : UUID} {error : AuthenticationError} :
    (refuse T correlationId error).Asks Plain :=
  asks_bind plain_auditEvent fun _ => plain_respond (by decide)

theorem asks_whenRead {P : ControlOp → Prop} {read : Handling α} {next : α → Handling Unit}
    (hplain : ∀ c, Plain c → P c) (hread : read.Asks P) (hnext : ∀ a, (next a).Asks P) :
    (whenRead T read next).Asks P := by
  refine asks_bind (asks_handle (asks_bind hread fun a => asks_pure _) fun e => ?_) fun read? => ?_
  · have hunavailable : (do
        respond T 503 (errorBody "storage_unavailable")
        return (none : Option α) : Handling (Option α)).Asks P :=
      asks_bind ((plain_respond (by decide)).mono hplain) fun _ => asks_pure _
    split
    · exact hunavailable
    · exact asks_throw _
  · cases read? with
    | none => exact asks_pure _
    | some a => exact hnext a

theorem plain_readsFor (c : ControlOp) (hc : Plain c) : ReadsFor route c := .of_none hc.reads

theorem readsFor_require {principal : Principal} {tenantId : TenantId} {at' : Timestamp} :
    (GatewayOperations.require principal tenantId at').Asks (ReadsFor route) := by
  unfold GatewayOperations.require
  dsimp only
  split
  · exact asks_pure _
  · exact asks_throw _

theorem readsFor_entries {g : GatewayOperations} {principal : Principal} {tenantId : TenantId}
    {at' : Timestamp} {policy : TenantPolicy} :
    (g.entries principal tenantId at' policy).Asks (ReadsFor route) := by
  refine asks_bind readsFor_require fun _ => ?_
  split
  · exact asks_throw _
  · exact asks_pure _

theorem readsFor_states (entries : List ModelCatalogEntry) :
    (GatewayOperations.states entries).Asks (ReadsFor route) := by
  induction entries with
  | nil => exact asks_pure _
  | cons entry rest ih =>
    exact asks_bind (asks_ask (.of_none rfl)) fun _ => asks_bind ih fun _ => asks_pure _

theorem readsFor_modelView {g : GatewayOperations} {principal : Principal} {tenantId : TenantId}
    {at' : Timestamp} {policy : TenantPolicy} {view : String} (hneeds :
      route.needs? = some (tenantId, .modelRead)) :
    (modelView principal tenantId g view policy at').Asks (ReadsFor route) := by
  unfold modelView
  split
  · exact asks_bind readsFor_entries fun _ => asks_pure _
  split
  · refine asks_bind readsFor_require fun _ => asks_bind (asks_ask ?_) fun _ => asks_pure _
    rintro _ _ hgoverned
    cases hgoverned
    exact ⟨tenantId, _, hneeds, rfl, List.mem_singleton.2 rfl⟩
  · exact asks_bind readsFor_require fun _ => asks_bind readsFor_entries fun _ =>
      asks_bind (readsFor_states _) fun _ => asks_pure _

/-- A call that is governed by one of these permissions reads for a route that needs it. -/
theorem ReadsFor.of_needs {c : ControlOp} {tenantId : TenantId} {permission : Permission}
    {permissions : List Permission} (hneeds : route.needs? = some (tenantId, permission))
    (hc : c.governed? = some (tenantId.context, permissions)) (hmem : permission ∈ permissions) :
    ReadsFor route c := by
  intro context permissions' hsome
  rw [hc] at hsome
  cases hsome
  exact ⟨tenantId, permission, hneeds, rfl, hmem⟩

/-! ## Authentication and authorization -/

/-- After an audit event has been appended, the store has it on record. -/
theorem wp_auditEvent {tenantId : TenantId} {eventType : AuditEventType} {outcome : AuditOutcome}
    {actorId action resource : String} {correlationId : UUID} {details : Dict}
    {Q : Except ControlRaised Unit → ControlHistory → Prop}
    (hok : ∀ later, ∀ event : AuditEvent, event.Made T.words →
      event.eventType = eventType → event.outcome = outcome → event.actorId = actorId →
      event.action = action →
      ⟨.appendAudit tenantId.context event, .ok ()⟩ ∈ later → Q (.ok ()) (h ++ later))
    (herror : ∀ e later, Q (.error e) (h ++ later)) :
    (auditEvent T tenantId eventType outcome actorId action resource correlationId details).wp
      Lawful (Permitted T.words scope) Q h := by
  have hplain : ∀ c, c.governed? = none → (∀ headers, c ≠ .send (.start 200 headers)) →
      ∀ h', Permitted T.words scope h' c := fun c hc hsend h' => Plain.permitted ⟨hc, hsend⟩
  refine wp_ask_bind (hplain _ rfl (fun _ heq => by cases heq) _) (fun e _ => herror e _)
    fun eventId _ => ?_
  refine wp_ask_bind (hplain _ rfl (fun _ heq => by cases heq) _) (fun e _ => ?_)
    fun occurredAt _ => ?_
  · rw [List.append_assoc]
    exact herror e _
  refine wp_ofExcept_bind (fun e _ => ?_) fun event hevent => ?_
  · rw [List.append_assoc]
    exact herror e _
  rw [mapError_eq_ok] at hevent
  have hmade := PostgresAuditStore.made_of_make hevent
  simp only [AuditEvent.make, bind_eq_ok, pure_eq_ok] at hevent
  obtain ⟨-, -, -, -, rfl⟩ := hevent
  refine wp_ask (hplain _ rfl (fun _ heq => by cases heq) _) fun r _ => ?_
  rw [List.append_assoc, List.append_assoc]
  cases r with
  | error e => exact herror e _
  | ok _ => exact hok _ _ hmade rfl rfl rfl rfl (by simp)

/-- A part that needs no clearance, and what follows it. -/
theorem wp_plain_bind {β : Type} {p : Handling β} {f : β → Handling α}
    {Q : Except ControlRaised α → ControlHistory → Prop} (hp : p.Asks Plain)
    (herror : ∀ e h', Q (.error e) h')
    (hok : ∀ b h', (f b).wp Lawful (Permitted W scope) Q h') :
    (p >>= f).wp Lawful (Permitted W scope) Q h := by
  refine wp_bind _ (wp_mono (fun o h' _ => ?_) _ (wp_of_plain hp))
  cases o with
  | ok b => exact hok b h'
  | error e => exact herror e h'

/-- Whoever is let in was authenticated. -/
theorem wp_authenticate {correlationId : UUID} :
    (authenticate T app scope correlationId).wp Lawful (Permitted T.words scope)
      (fun o h' => ∀ principal, o = .ok (some principal) → Authenticated scope h' principal) h := by
  have hnone : ∀ {p : Handling Unit} {h' : ControlHistory}, p.Asks Plain →
      (do p; return none : Handling (Option Principal)).wp Lawful (Permitted T.words scope)
        (fun o _ => ∀ principal, o ≠ .ok (some principal)) h' := fun hp =>
    wp_plain_bind hp (fun _ _ _ heq => by cases heq) fun _ _ _ heq => by cases heq
  unfold authenticate
  split
  · exact wp_mono (fun o h' hne principal ho => absurd ho (hne principal)) _
      (hnone (plain_respond (by decide)))
  · refine wp_bind _ (wp_mono (Q := fun o h' => ∀ principal, o = .ok (some principal) →
      Authenticated scope h' principal) (fun o h' hpost => ?_) _ (wp_handle _ (wp_ask_bind
        (Plain.permitted ⟨rfl, fun _ heq => by cases heq⟩) (fun e _ => ?_) fun principal _ => ?_)))
    · cases o with
      | error e => exact fun _ heq => by cases heq
      | ok principal? =>
        cases principal? with
        | none => exact fun _ heq => by cases heq
        | some principal =>
          refine wp_bind _ (wp_auditEvent (fun later event _ _ _ _ _ _ => ?_) fun e later => ?_)
          · intro _ heq
            cases heq
            exact List.mem_append_left _ (hpost principal rfl)
          · exact fun _ heq => by cases heq
    · dsimp only
      split
      · exact wp_mono (fun o h' hne principal ho => absurd ho (hne principal)) _
          (hnone plain_refuse)
      · exact wp_mono (fun o h' hne principal ho => absurd ho (hne principal)) _
          (hnone (plain_respond (by decide)))
      · exact fun _ heq => by cases heq
    · intro _ heq
      cases heq
      exact List.mem_append_right _ List.mem_cons_self

variable {principal : Principal} {tenantId : TenantId} {permission : Permission}

/-- What is authorized is cleared. -/
theorem wp_authorize {correlationId : UUID} {resource : String}
    (hprincipal : Authenticated scope h principal) :
    (authorize T principal tenantId correlationId permission resource).wp Lawful
      (Permitted T.words scope) (fun o h' => o = .ok true →
        Authenticated scope h' principal ∧ Cleared T.words scope h' tenantId permission) h := by
  unfold authorize auditAuthorization
  refine wp_ask_bind plain_now.permitted (fun _ _ heq => by cases heq) fun at' _ => ?_
  dsimp only
  refine wp_bind _ (wp_auditEvent (fun later event hmade htype houtcome hactor haction hevent => ?_)
    fun e later heq => by cases heq)
  dsimp only
  have hkept : Authenticated scope (h ++ [⟨.now, .ok at'⟩] ++ later) principal :=
    List.mem_append_left _ (List.mem_append_left _ hprincipal)
  split
  · rename_i hallowed
    rintro -
    have htenant : principal.tenantId = tenantId :=
      (AuthorizationService.decide_allowed_iff.1 hallowed).1
    refine ⟨hkept, principal, at', hkept, ?_, hallowed, event, ?_, hmade, htype, ?_, hactor, ?_⟩
    · exact List.mem_append_left _ (List.mem_append_right _ List.mem_cons_self)
    · exact List.mem_append_right _ (htenant ▸ hevent)
    · rw [houtcome, if_pos hallowed]
    · rw [haction, AuthorizationService.decide_permission]
  · exact wp_plain_bind (plain_respond (by decide)) (fun _ _ heq => by cases heq)
      fun _ _ heq => by cases heq

/-! ## Routes -/

/-- What is done once it is authorized reads for the route. -/
theorem wp_whenAuthorized {correlationId : UUID} {resource : String} {next : Handling Unit}
    (hpath : scope.path = some path) (hprincipal : Authenticated scope h principal)
    (hneeds : (Route.of path).needs? = some (tenantId, permission))
    (hnext : next.Asks (ReadsFor (Route.of path))) :
    (whenAuthorized T principal tenantId correlationId permission resource next).wp Lawful
      (Permitted T.words scope) (fun _ _ => True) h := by
  refine wp_bind _ (wp_mono (fun o h' hpost => ?_) _ (wp_authorize hprincipal))
  cases o with
  | error e => trivial
  | ok authorized =>
    cases authorized with
    | false => trivial
    | true =>
      obtain ⟨hkept, hcleared⟩ := hpost rfl
      refine wp_of_admitted hpath hnext ⟨⟨principal, hkept⟩, fun _ _ hneeds' => ?_⟩
      rw [hneeds] at hneeds'
      cases hneeds'
      exact hcleared

/-- A read under the permission of the route, and a response. -/
theorem readsFor_whenRead {c : ControlOp} {permissions : List Permission}
    {next : c.Reply → Handling Unit} (hneeds : route.needs? = some (tenantId, permission))
    (hc : c.governed? = some (tenantId.context, permissions)) (hmem : permission ∈ permissions)
    (hnext : ∀ a, (next a).Asks (ReadsFor route)) :
    (whenRead T (ask c) next).Asks (ReadsFor route) :=
  asks_whenRead (fun _ => plain_readsFor _) (asks_ask (.of_needs hneeds hc hmem)) hnext

/-- A handler serves its route. -/
theorem wp_handler {correlationId : UUID} (hpath : scope.path = some path)
    (hprincipal : Authenticated scope h principal) :
    (handle T app principal correlationId scope (Route.of path)).wp Lawful
      (Permitted T.words scope) (fun _ _ => True) h := by
  have hplain : ∀ {status body}, status ≠ 200 → ∀ h', (respond T status body).wp Lawful
      (Permitted T.words scope) (fun _ _ => True) h' :=
    fun hstatus _ => wp_of_plain (plain_respond hstatus)
  have hcursor : ∀ next : ℤ → Handling Unit,
      (∀ cursor, (next cursor).wp Lawful (Permitted T.words scope) (fun _ _ => True) h) →
      (withCursor T scope next).wp Lawful (Permitted T.words scope) (fun _ _ => True) h := by
    intro next hnext
    unfold withCursor
    split
    · exact hplain (by decide) _
    · exact hnext _
  cases hroute : Route.of path with
  | me =>
    have hneeds : (Route.of path).needs? = none := by rw [hroute]; rfl
    refine wp_of_admitted hpath (asks_bind (asks_ask (.of_none rfl)) fun _ => readsFor_respond)
      ⟨⟨principal, hprincipal⟩, fun _ _ hsome => ?_⟩
    rw [hneeds] at hsome
    cases hsome
  | notFound => exact hplain (by decide) _
  | invalidTenantId => exact hplain (by decide) _
  | tenant tenantId =>
    have hneeds : (Route.of path).needs? = some (tenantId, .tenantRead) := by rw [hroute]; rfl
    refine wp_whenAuthorized hpath hprincipal hneeds
      (readsFor_whenRead hneeds rfl (List.mem_singleton.2 rfl) fun tenant? => ?_)
    cases tenant? <;> exact readsFor_respond
  | policy tenantId =>
    have hneeds : (Route.of path).needs? = some (tenantId, .policyRead) := by rw [hroute]; rfl
    refine wp_whenAuthorized hpath hprincipal hneeds
      (readsFor_whenRead hneeds rfl List.mem_cons_self fun policy? => ?_)
    cases policy? <;> exact readsFor_respond
  | modelView tenantId view =>
    have hneeds : (Route.of path).needs? = some (tenantId, .modelRead) := by rw [hroute]; rfl
    refine wp_whenAuthorized hpath hprincipal hneeds ?_
    cases app.gatewayOperations with
    | none => exact readsFor_respond
    | some g =>
      refine asks_bind (asks_ask (.of_needs hneeds rfl (List.mem_cons_of_mem _ List.mem_cons_self)))
        fun policy? => ?_
      cases policy? with
      | none => exact readsFor_respond
      | some policy =>
        refine asks_bind (asks_ask (.of_none rfl)) fun at' => asks_bind (asks_handle
          (asks_bind (readsFor_modelView hneeds) fun body => asks_pure _) fun e => ?_)
          fun body? => ?_
        · split
          · exact asks_bind readsFor_respond fun _ => asks_pure _
          · exact asks_throw _
        · cases body? with
          | none => exact asks_pure _
          | some body => exact readsFor_respond
  | ledger tenantId =>
    have hneeds : (Route.of path).needs? = some (tenantId, .resourceRead) := by rw [hroute]; rfl
    refine hcursor _ fun cursor => wp_whenAuthorized hpath hprincipal hneeds ?_
    split
    · exact readsFor_respond
    · exact readsFor_whenRead hneeds rfl (List.mem_singleton.2 rfl) fun _ => readsFor_respond
  | timeline tenantId runId =>
    have hneeds : (Route.of path).needs? = some (tenantId, .resourceRead) := by rw [hroute]; rfl
    refine hcursor _ fun cursor => ?_
    unfold getTimeline
    split
    · exact hplain (by decide) _
    refine wp_whenAuthorized hpath hprincipal hneeds ?_
    split
    · exact readsFor_respond
    · exact readsFor_whenRead hneeds rfl (List.mem_singleton.2 rfl) fun _ => readsFor_respond
  | runStatus tenantId =>
    have hneeds : (Route.of path).needs? = some (tenantId, .resourceRead) := by rw [hroute]; rfl
    refine wp_whenAuthorized hpath hprincipal hneeds ?_
    split
    · exact readsFor_respond
    · exact readsFor_whenRead hneeds rfl (List.mem_singleton.2 rfl) fun _ => readsFor_respond

/-- A probe reads no data. -/
theorem asks_readiness : (readiness T app).Asks fun c => c.governed? = none := by
  have hrespond : ∀ {status : ℕ} {body : JsonValue},
      (respond T status body).Asks fun c => c.governed? = none :=
    asks_respond (fun _ => rfl) fun _ => rfl
  refine asks_bind (asks_handle (asks_bind (asks_ask rfl) fun _ => asks_pure _) fun e => ?_)
    fun invalid? => ?_
  · split
    · exact asks_pure _
    · exact asks_throw _
  · cases invalid? with
    | some message => exact hrespond
    | none =>
      refine asks_bind ?_ fun ready => ?_
      · unfold storageIsReady
        split
        · exact asks_ask rfl
        · exact asks_pure _
      · split <;> exact hrespond

/-- **Every call of a request is permitted by what came before it.** -/
theorem wp_call : (call T app scope).wp Lawful (Permitted T.words scope) (fun _ _ => True) h := by
  have hprobe : ∀ {p : Handling Unit} {path : String}, scope.path = some path → path ∈ probes →
      (p.Asks fun c => c.governed? = none) →
      p.wp Lawful (Permitted T.words scope) (fun _ _ => True) h := fun {p path} hpath hmem hp =>
    hp.wp (fun _ _ hc => ⟨fun hne => absurd hc hne, fun _ _ => ⟨path, hpath, .inl hmem⟩⟩) h
  unfold call
  split
  · trivial
  split
  · exact wp_of_plain (plain_respond (by decide))
  split
  · exact wp_of_plain (plain_respond (by decide))
  rename_i path hpath
  split
  · rename_i hhealth
    refine hprobe hpath ?_ (asks_respond (fun _ => rfl) fun _ => rfl)
    rcases hhealth with rfl | rfl <;> simp [probes]
  split
  · rename_i hready
    refine hprobe hpath ?_ asks_readiness
    rcases hready with rfl | rfl <;> simp [probes]
  split
  · exact wp_of_plain (plain_respond (by decide))
  · refine wp_plain_bind (asks_ask ⟨rfl, fun _ heq => by cases heq⟩) (fun _ _ => trivial)
      fun correlationId h' => wp_bind _ (wp_mono (fun o h'' hpost => ?_) _ wp_authenticate)
    cases o with
    | error e => trivial
    | ok principal? =>
      cases principal? with
      | none => trivial
      | some principal => exact wp_handler hpath (hpost principal rfl)

end

/-! ## Runs -/

/-- **Access is controlled.**  Whatever answers a request, and whichever exceptions are raised:
data are read for the tenant and under the permission that its route needs, after somebody has been
authenticated who has the permission in the tenant, and after that is on the audit record; and the
status `200` is sent after the same, or to a probe. -/
theorem access_controlled (T : ControlText) (app : ControlPlaneApp) (scope : Scope)
    (env : ControlEnv) {n : ℕ} {c : ControlOp} {r : Except ControlRaised c.Reply}
    (hcall : ((call T app scope).run env []).1[n]? = some ⟨c, r⟩) :
    Permitted T.words scope (((call T app scope).run env []).1.take n) c := by
  have hrule : (call T app scope).wp (fun _ _ => True) (Permitted T.words scope)
      (fun _ _ => True) [] := wp_call
  exact run_calls_at (fun _ _ => trivial) hrule hcall

/-- What an access rests on: a bearer token, a key that vouches for it, the record of its subject
and a role of that record. -/
structure Granted (s : AuthenticationService) (d : InMemoryIdentityDirectory) (scope : Scope)
    (tenantId : TenantId) (permission : Permission) (at' : Timestamp) (claims : VerifiedClaims)
    (record : IdentityRecord) : Prop where
  token : ∃ text token, scope.singleHeader "authorization" = some text ∧
    bearerToken? text = some token ∧ s.Vouched token claims
  issuer : claims.issuer = s.config.issuer
  registered : record ∈ d.records ∧ record.issuer = claims.issuer ∧ record.subject = claims.subject
  enabled : record.enabled = true
  tenant : record.tenantId = tenantId
  asserted : ∀ asserted ∈ claims.assertedTenantId, asserted = tenantId
  binding : ∃ b ∈ record.roleBindings, b.isActive at' = true ∧ permission ∈ rolePermissions b.role

/-- `jwt.decode` checks the issuer it is given. -/
def Documented (jwt : Jwt) : Prop :=
  ∀ now call payload, jwt.decode now call = .ok payload →
    payload.get? "iss" = some (.str call.issuer)

/-- What a principal of the platform's own authentication may do. -/
theorem granted_of_authenticate {s : AuthenticationService} {d : InMemoryIdentityDirectory}
    {scope : Scope} {principal : Principal} {tenantId : TenantId} {permission : Permission}
    {at' : Timestamp} (hjwt : Documented s.jwt) (hdirectory : s.directory = d.resolve)
    (hauthenticate : s.authenticate (scope.singleHeader "authorization") = .ok principal)
    (hallowed : (AuthorizationService.decide principal tenantId (.inl permission) at').allowed =
      true) :
    ∃ claims record, Granted s d scope tenantId permission at' claims record := by
  obtain ⟨text, token, claims, htext, htoken, hvouched, hresolve⟩ :=
    AuthenticationService.authenticate_spec hauthenticate
  rw [hdirectory] at hresolve
  obtain ⟨record, hmem, hissuer, hsubject, henabled, hasserted, htenant, hbindings, -, -⟩ :=
    InMemoryIdentityDirectory.resolve_spec hresolve
  obtain ⟨hsame, b, hb, hactive, hrole⟩ := AuthorizationService.decide_allowed_iff.1 hallowed
  have htrusted : claims.issuer = s.config.issuer := by
    obtain ⟨-, -, key, payload, -, -, -, -, -, hdecode, hclaims⟩ := hvouched
    obtain ⟨hiss, -, -⟩ := AuthenticationService.issuer_of_verifiedClaims hclaims
    have hdocumented := hjwt _ _ _ hdecode
    rw [hiss] at hdocumented
    simpa [JwtVerifier.decodeCall] using hdocumented
  refine ⟨claims, record, ⟨text, token, htext, htoken, hvouched⟩, htrusted,
    ⟨hmem, hissuer, hsubject⟩, henabled, ?_, fun asserted hmem => ?_, b, ?_, hactive, hrole⟩
  · rw [← htenant, hsame]
  · rw [hasserted asserted hmem, ← htenant, hsame]
  · rw [← hbindings]
    exact hb

/-- **Access is granted by the directory.**  When the platform's own services authenticate, with
their keys, clock and records as they are at the moment: whatever data a request reads, it has
brought one bearer token, which a trusted key vouches for, of a registered and enabled subject of
the tenant, which has a role there that is active and has the permission. -/
theorem access_granted_by_directory (T : ControlText) (app : ControlPlaneApp) (scope : Scope)
    (env : ControlEnv) (service : ControlHistory → AuthenticationService)
    (directory : ControlHistory → InMemoryIdentityDirectory)
    (hjwt : ∀ h, Documented (service h).jwt)
    (hdirectory : ∀ h, (service h).directory = (directory h).resolve)
    (hservice : ∀ h header, env h (.authenticate header) =
      ((service h).authenticate header).mapError ControlRaised.ofAuth)
    {n : ℕ} {c : ControlOp} {r : Except ControlRaised c.Reply}
    (hcall : ((call T app scope).run env []).1[n]? = some ⟨c, r⟩) (hreads : c.governed? ≠ none) :
    ∃ path tenantId permission permissions, scope.path = some path ∧
      (Route.of path).needs? = some (tenantId, permission) ∧
      c.governed? = some (tenantId.context, permissions) ∧ permission ∈ permissions ∧
      ∃ k < n, ∃ at' claims record,
        ⟨.now, .ok at'⟩ ∈ ((call T app scope).run env []).1.take n ∧
        Granted (service (((call T app scope).run env []).1.take k))
          (directory (((call T app scope).run env []).1.take k)) scope tenantId permission at'
          claims record := by
  obtain ⟨path, hpath, hroute, hadmitted⟩ := (access_controlled T app scope env hcall).reads hreads
  obtain ⟨⟨context, permissions⟩, hgoverned⟩ := Option.ne_none_iff_exists'.1 hreads
  obtain ⟨tenantId, permission, hneeds, rfl, hmem⟩ := hroute _ _ hgoverned
  obtain ⟨principal, at', hclear⟩ := hadmitted.cleared tenantId permission hneeds
  refine ⟨path, tenantId, permission, permissions, hpath, hneeds, hgoverned, hmem, ?_⟩
  obtain ⟨k, hk⟩ := List.getElem?_of_mem hclear.authenticated
  rw [List.getElem?_take] at hk
  split at hk
  · rename_i hlt
    have hanswer := run_answers_at hk
    dsimp only at hanswer
    rw [hservice] at hanswer
    have hauthenticate := mapError_eq_ok.1 hanswer.symm
    obtain ⟨claims, record, hgranted⟩ :=
      granted_of_authenticate (hjwt _) (hdirectory _) hauthenticate hclear.allowed
    exact ⟨k, hlt, at', claims, record, hclear.now, hgranted⟩
  · cases hk

/-! ## A request -/

/-- Texts of ASCII that are quoted as they are. -/
def sampleControlText : ControlText where
  py := plainConversions.toPyText
  floats := OpenAI.bitsText
  words := .asciiWords
  unquote := String.ofList
  isdigit text := text ≠ "" && text.toList.all Char.isDigit
  formatF x := String.ofList (Numeral.integer x.num)

def acmeTenantId : TenantId := ⟨"acme", isIdentifier_acme⟩

theorem isIdentifier_alice : isIdentifier "alice" = true := by decide

def alice : UserId := ⟨"alice", isIdentifier_alice⟩

theorem aliceBinding_valid : (Role.viewer = .platformAdmin → acmeTenantId = platformTenantId) ∧
    ∀ expires ∈ (none : Option Timestamp), (0 : Timestamp) < expires :=
  ⟨fun h => (by cases h), fun _ h => (by cases h)⟩

/-- A viewer of the tenant. -/
def aliceBinding : RoleBinding where
  tenantId := acmeTenantId
  role := .viewer
  assignedBy := .inl alice
  assignedAt := 0
  valid := aliceBinding_valid

theorem aliceRecord_valid : "https://id.example" ≠ "" ∧ "alice" ≠ "" ∧
    (some alice).isSome ≠ (none : Option ServiceIdentity).isSome ∧
    (PrincipalKind.user = .user → (some alice).isSome = true) ∧
    (PrincipalKind.user = .service → (none : Option ServiceIdentity).isSome = true) ∧
    ∀ b ∈ [aliceBinding], b.tenantId = acmeTenantId :=
  ⟨by decide, by decide, by decide, fun _ => rfl, fun h => (by cases h),
    List.forall_mem_singleton.2 rfl⟩

def aliceRecord : IdentityRecord where
  issuer := "https://id.example"
  subject := "alice"
  tenantId := acmeTenantId
  kind := .user
  roleBindings := [aliceBinding]
  userId := some alice
  valid := aliceRecord_valid

/-- A library that takes every token for alice's. -/
def sampleJwt : Jwt where
  getUnverifiedHeader _ := .ok [("alg", .str "RS256"), ("kid", .str "k1")]
  decode _ call := .ok [("sub", .str "alice"), ("iss", .str call.issuer), ("exp", .int 100),
    ("iat", .int 1), ("aud", .str call.audience)]
  fromFloat _ := none

theorem sampleConfig_valid : "https://id.example" ≠ "" ∧ "aegis" ≠ "" ∧
    (0 ≤ seconds 30 ∧ seconds 30 ≤ seconds 300) ∧ ["RS256"] ≠ [] := by decide

def sampleConfig : JwtValidationConfig where
  issuer := "https://id.example"
  audience := "aegis"
  valid := sampleConfig_valid

def sampleDirectory : InMemoryIdentityDirectory := ⟨[aliceRecord], List.nodup_singleton _⟩

def sampleAuthentication : AuthenticationService where
  jwt := sampleJwt
  config := sampleConfig
  getKey keyId := VerificationKey.make keyId "RS256" [1]
  now := seconds 2
  directory := sampleDirectory.resolve

/-- Alice's credentials are taken, and there is nothing to be read. -/
def sampleEnv : ControlEnv := fun _ c => match c with
  | .uuid4 => .ok (UUID.ofNat 7)
  | .now => .ok (seconds 2)
  | .authenticate header => (sampleAuthentication.authenticate header).mapError .ofAuth
  | .storageReady => .ok true
  | .circuitState _ => .ok .closed
  | .tenant _ | .policy _ => .ok none
  | .readAll .. => .ok ⟨[], none⟩
  | .usageSummary _ | .readStream .. | .runStatus .. => .ok []
  | .settings | .appendAudit .. | .send _ => .ok ()

/-- Alice asks for the record of her tenant. -/
def sampleScope : Scope where
  path := some "/v1/tenants/acme"
  headers := some [some (asciiBytes "Authorization", asciiBytes "Bearer t1")]

def sampleApp : ControlPlaneApp := ⟨true, true, true, true, none⟩

/-- The record is read, by the tenth call. -/
theorem sample_reads : ∃ x,
    ((call sampleControlText sampleApp sampleScope).run sampleEnv []).1[9]? = some x ∧
      x.1.governed? ≠ none := by
  have hany : (((call sampleControlText sampleApp sampleScope).run sampleEnv []).1[9]?.any
      fun x => x.1.governed?.isSome) = true := by decide +kernel
  obtain ⟨x, hx, hsome⟩ := (Option.any_eq_true _ _).1 hany
  exact ⟨x, hx, fun hnone => by rw [hnone] at hsome; cases hsome⟩

theorem access_controlled_sample : ∃ c h, c.governed? ≠ none ∧
    Permitted sampleControlText.words sampleScope h c := by
  obtain ⟨⟨c, r⟩, hcall, hreads⟩ := sample_reads
  exact ⟨c, _, hreads, access_controlled sampleControlText sampleApp sampleScope sampleEnv hcall⟩

theorem access_granted_by_directory_sample : ∃ tenantId permission at' claims record,
    Granted sampleAuthentication sampleDirectory sampleScope tenantId permission at' claims
      record := by
  obtain ⟨⟨c, r⟩, hcall, hreads⟩ := sample_reads
  have hjwt : Documented sampleJwt := by
    intro now call payload hdecode
    cases hdecode
    rfl
  obtain ⟨-, tenantId, permission, -, -, -, -, -, -, -, at', claims, record, -, hgranted⟩ :=
    access_granted_by_directory sampleControlText sampleApp sampleScope sampleEnv
      (fun _ => sampleAuthentication) (fun _ => sampleDirectory) (fun _ => hjwt) (fun _ => rfl)
      (fun _ _ => rfl) hcall hreads
  exact ⟨tenantId, permission, at', claims, record, hgranted⟩

end ControlPlaneApp

end AegisPlatform
