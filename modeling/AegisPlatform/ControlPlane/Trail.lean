import AegisPlatform.ControlPlane.Access

/-!
# The audit trail of a request

A request that raises nothing is answered once, and what it leaves on the audit record goes with the
status it is answered with.

* `audited`, `sent` — the audit events that were appended, and the messages that were sent.
* `Trail` — which events go with which status.
* `accountable` — a request under `/v1/` leaves such a trail.
-/

namespace AegisPlatform

open Fallible Effects Effects.Prog

namespace ControlPlaneApp

/-! ## What a history shows -/

/-- The event that a call has appended. -/
def audit? : Answered ControlOp ControlOp.Reply ControlRaised → Option AuditEvent
  | ⟨.appendAudit _ event, .ok _⟩ => some event
  | _ => none

/-- The message that a call has sent. -/
def sent? : Answered ControlOp ControlOp.Reply ControlRaised → Option AsgiMessage
  | ⟨.send message, .ok _⟩ => some message
  | _ => none

/-- The audit events that were appended. -/
def audited (h : ControlHistory) : List AuditEvent := h.filterMap audit?

/-- The messages that were sent. -/
def sent (h : ControlHistory) : List AsgiMessage := h.filterMap sent?

/-- A response has been sent since. -/
def Responded (h h' : ControlHistory) (status : ℕ) : Prop :=
  ∃ headers encoded, sent h' = sent h ++ [.start status headers, .body encoded]

/-- An event as it is appended in a request. -/
structure Records (W : WordCharacters) (correlationId : UUID) (eventType : AuditEventType)
    (outcome : AuditOutcome) (tenantId : TenantId) (actorId action : String) (event : AuditEvent) :
    Prop where
  made : event.Made W
  correlationId : event.correlationId = correlationId
  eventType : event.eventType = eventType
  outcome : event.outcome = outcome
  tenantId : event.tenantId = tenantId.value
  actorId : event.actorId = actorId
  action : event.action = action

/-- What a request leaves on the audit record, and the status it is answered with. -/
inductive Trail (W : WordCharacters) (correlationId : UUID) (route : Route) :
    List AuditEvent → ℕ → Prop
  /-- Nobody could be authenticated. -/
  | unavailable : Trail W correlationId route [] 503
  /-- The credentials were refused. -/
  | refused {event : AuditEvent} : Records W correlationId .authenticationOutcome .failure
      platformTenantId "unauthenticated" "authenticate" event →
      Trail W correlationId route [event] 401
  /-- Nothing was asked for that needs a permission. -/
  | ungoverned {event : AuditEvent} {status : ℕ} (principal : Principal) :
      Records W correlationId .authenticationOutcome .success principal.tenantId principal.actorId
        "authenticate" event →
      status ∈ [200, 400, 404] → (status = 200 → route = .me) →
      Trail W correlationId route [event] status
  /-- The principal may not have it. -/
  | denied {event event' : AuditEvent} (principal : Principal) (tenantId : TenantId)
      (permission : Permission) : route.needs? = some (tenantId, permission) →
      Records W correlationId .authenticationOutcome .success principal.tenantId principal.actorId
        "authenticate" event →
      Records W correlationId .authorizationDecision .denied principal.tenantId principal.actorId
        permission.value event' →
      Trail W correlationId route [event, event'] 403
  /-- The principal may have it, if it is there. -/
  | cleared {event event' : AuditEvent} {status : ℕ} (principal : Principal)
      (permission : Permission) :
      route.needs? = some (principal.tenantId, permission) →
      Records W correlationId .authenticationOutcome .success principal.tenantId principal.actorId
        "authenticate" event →
      Records W correlationId .authorizationDecision .success principal.tenantId principal.actorId
        permission.value event' →
      status ∈ [200, 403, 404, 503] →
      Trail W correlationId route [event, event'] status

section

variable {T : ControlText} {app : ControlPlaneApp} {scope : Scope} {α : Type}
  {h h' h'' : ControlHistory} {route : Route}

theorem audited_concat (x : Answered ControlOp ControlOp.Reply ControlRaised) :
    audited (h ++ [x]) = audited h ++ (audit? x).toList := by
  rw [audited, List.filterMap_append]
  cases hx : audit? x <;> simp [audited, hx]

theorem sent_concat (x : Answered ControlOp ControlOp.Reply ControlRaised) :
    sent (h ++ [x]) = sent h ++ (sent? x).toList := by
  rw [sent, List.filterMap_append]
  cases hx : sent? x <;> simp [sent, hx]

/-- A call that neither appends nor sends. -/
structure Silent (c : ControlOp) : Prop where
  audit : ∀ r, audit? ⟨c, r⟩ = none
  sent : ∀ r, sent? ⟨c, r⟩ = none

/-- Neither record has changed. -/
structure Unchanged (h h' : ControlHistory) : Prop where
  audited : audited h' = audited h
  sent : sent h' = sent h

theorem Unchanged.refl (h : ControlHistory) : Unchanged h h := ⟨rfl, rfl⟩

theorem Unchanged.call {c : ControlOp} (hc : Silent c) (r : Except ControlRaised c.Reply)
    (hsame : Unchanged h h') : Unchanged h (h' ++ [⟨c, r⟩]) := by
  refine ⟨?_, ?_⟩
  · rw [audited_concat, hc.audit r, Option.toList_none, List.append_nil, hsame.audited]
  · rw [sent_concat, hc.sent r, Option.toList_none, List.append_nil, hsame.sent]

/-- Silent calls change neither. -/
theorem wp_silent {p : Handling α} (hp : p.Asks Silent) :
    p.wp (fun _ _ => True) (fun _ _ => True) (fun _ h' => Unchanged h h') h :=
  hp.keeps (fun _ _ _ => trivial) (fun _ _ r hc hsame => hsame.call hc r) (.refl h)

theorem leaves_silent {p : Handling α} (hp : p.Asks Silent) :
    p.Leaves h fun _ h' => Unchanged h h' :=
  wp_mono (fun _ _ hsame _ _ => hsame) _ (wp_silent hp)

/-! ## Responses -/

/-- The part answers once, with such a status, and appends nothing. -/
def Responds (S : List ℕ) (p : Handling Unit) : Prop :=
  ∀ h, p.Leaves h fun _ h' => audited h' = audited h ∧ ∃ status ∈ S, Responded h h' status

theorem responds_respond {S : List ℕ} {status : ℕ} {body : JsonValue}
    {extraHeaders : List (String × String)} (hstatus : status ∈ S) :
    Responds S (respond T status body extraHeaders) := by
  intro h
  refine leaves_bind (leaves_ask fun _ => leaves_ask fun _ => ?_)
  refine ⟨?_, status, hstatus, ?_⟩
  · rw [audited_concat, audited_concat, List.append_assoc]
    exact List.append_nil _
  · rw [Responded, sent_concat, sent_concat, List.append_assoc]
    exact ⟨_, _, rfl⟩

theorem Responds.after {S : List ℕ} {p : Handling Unit} (hp : Responds S p)
    (hsame : Unchanged h h') :
    p.Leaves h' fun _ h'' => audited h'' = audited h ∧ ∃ status ∈ S, Responded h h'' status := by
  refine (hp h').mono fun _ h'' ⟨haudited, status, hstatus, headers, encoded, hsent⟩ => ?_
  exact ⟨haudited.trans hsame.audited, status, hstatus, headers, encoded, hsame.sent ▸ hsent⟩

theorem responds_bind {S : List ℕ} {p : Handling α} {f : α → Handling Unit} (hp : p.Asks Silent)
    (hf : ∀ a, Responds S (f a)) : Responds S (p >>= f) :=
  fun _ => leaves_bind ((leaves_silent hp).mono fun a _ hsame => (hf a).after hsame)

/-- A part that is caught, and what follows it: either there was a response already, or nothing has
changed. -/
theorem responds_caught {S : List ℕ} {p : Handling α} {f : ControlRaised → Handling (Option α)}
    {next : Option α → Handling Unit} (hp : p.Asks Silent)
    (hf : ∀ e h, (f e).Leaves h fun o h' => o = none ∧ audited h' = audited h ∧
      ∃ status ∈ S, Responded h h' status)
    (hnone : next none = pure ()) (hnext : ∀ a, Responds S (next (some a))) :
    Responds S (tryCatch (do let a ← p; return some a) f >>= next) := by
  intro h
  have hcaught : (tryCatch (do let a ← p; return some a) f : Handling (Option α)).Leaves h
      fun o h' => (o = none ∧ audited h' = audited h ∧ ∃ status ∈ S, Responded h h' status) ∨
        (∃ a, o = some a ∧ Unchanged h h') := by
    refine wp_handle _ (wp_bind _ (wp_mono (fun o h' hsame => ?_) _ (wp_silent hp)))
    cases o with
    | ok a =>
      intro _ heq
      cases heq
      exact .inr ⟨a, rfl, hsame⟩
    | error e =>
      refine (hf e h').mono
        fun o h'' ⟨hnone, haudited, status, hstatus, headers, encoded, hsent⟩ => ?_
      exact .inl ⟨hnone, haudited.trans hsame.audited, status, hstatus, headers, encoded,
        hsame.sent ▸ hsent⟩
  refine leaves_bind (hcaught.mono fun o h' ho => ?_)
  rcases ho with ⟨rfl, hresponded⟩ | ⟨a, rfl, hsame⟩
  · rw [hnone]
    exact leaves_pure hresponded
  · exact (hnext a).after hsame

/-- A response that a part ends with, in `none`. -/
theorem leaves_respond_none {S : List ℕ} {p : Handling Unit} (hp : Responds S p) :
    (do p; return none : Handling (Option α)).Leaves h fun o h' => o = none ∧
      audited h' = audited h ∧ ∃ status ∈ S, Responded h h' status :=
  leaves_bind ((hp h).mono fun _ _ hresponded => leaves_pure ⟨rfl, hresponded⟩)

theorem responds_whenRead {S : List ℕ} {read : Handling α} {next : α → Handling Unit}
    (hS : 503 ∈ S) (hread : read.Asks Silent) (hnext : ∀ a, Responds S (next a)) :
    Responds S (whenRead T read next) := by
  refine responds_caught hread (fun e h => ?_) rfl hnext
  split
  · exact leaves_respond_none (responds_respond hS)
  · exact leaves_throw

/-! ## The parts -/

theorem silent_of_needs {c : ControlOp} {context : TenantContext} {permissions : List Permission}
    (hc : c.governed? = some (context, permissions)) : Silent c := by
  cases c <;> first | exact ⟨fun _ => rfl, fun _ => rfl⟩ | cases hc

theorem silent_now : Silent .now := ⟨fun _ => rfl, fun _ => rfl⟩

theorem silent_require {principal : Principal} {tenantId : TenantId} {at' : Timestamp} :
    (GatewayOperations.require principal tenantId at').Asks Silent := by
  unfold GatewayOperations.require
  dsimp only
  split
  · exact asks_pure _
  · exact asks_throw _

theorem silent_entries {g : GatewayOperations} {principal : Principal} {tenantId : TenantId}
    {at' : Timestamp} {policy : TenantPolicy} :
    (g.entries principal tenantId at' policy).Asks Silent := by
  refine asks_bind silent_require fun _ => ?_
  split
  · exact asks_throw _
  · exact asks_pure _

theorem silent_states (entries : List ModelCatalogEntry) :
    (GatewayOperations.states entries).Asks Silent := by
  induction entries with
  | nil => exact asks_pure _
  | cons entry rest ih =>
    exact asks_bind (asks_ask ⟨fun _ => rfl, fun _ => rfl⟩) fun _ => asks_bind ih fun _ =>
      asks_pure _

theorem silent_modelView {g : GatewayOperations} {principal : Principal} {tenantId : TenantId}
    {at' : Timestamp} {policy : TenantPolicy} {view : String} :
    (modelView principal tenantId g view policy at').Asks Silent := by
  unfold modelView
  split
  · exact asks_bind silent_entries fun _ => asks_pure _
  split
  · exact asks_bind silent_require fun _ =>
      asks_bind (asks_ask ⟨fun _ => rfl, fun _ => rfl⟩) fun _ => asks_pure _
  · exact asks_bind silent_require fun _ => asks_bind silent_entries fun _ =>
      asks_bind (silent_states _) fun _ => asks_pure _

variable {correlationId : UUID} {principal : Principal} {tenantId : TenantId}
  {permission : Permission} {status : ℕ}

/-- An event is appended. -/
theorem leaves_auditEvent {eventType : AuditEventType} {outcome : AuditOutcome}
    {actorId action resource : String} {details : Dict} :
    (auditEvent T tenantId eventType outcome actorId action resource correlationId details).Leaves h
      fun _ h' => sent h' = sent h ∧ ∃ event, audited h' = audited h ++ [event] ∧
        Records T.words correlationId eventType outcome tenantId actorId action event := by
  refine leaves_bind (leaves_ask fun eventId => leaves_bind (leaves_ask fun occurredAt =>
    leaves_bind (leaves_ofExcept fun event hevent => leaves_ask fun _ => ?_)))
  rw [mapError_eq_ok] at hevent
  have hmade := PostgresAuditStore.made_of_make hevent
  simp only [AuditEvent.make, bind_eq_ok, pure_eq_ok] at hevent
  obtain ⟨-, -, -, -, rfl⟩ := hevent
  refine ⟨?_, _, ?_, hmade, rfl, rfl, rfl, rfl, rfl, rfl⟩
  · rw [sent_concat, sent_concat, sent_concat]
    simp [sent?]
  · rw [audited_concat, audited_concat, audited_concat]
    simp [audit?]

/-- How the authentication ends. -/
def AuthenticationEnds (W : WordCharacters) (correlationId : UUID) (h : ControlHistory) :
    Option Principal → ControlHistory → Prop
  | none, h' => (audited h' = audited h ∧ Responded h h' 503) ∨
    ∃ event, audited h' = audited h ++ [event] ∧ Records W correlationId .authenticationOutcome
      .failure platformTenantId "unauthenticated" "authenticate" event ∧ Responded h h' 401
  | some principal, h' => sent h' = sent h ∧ ∃ event, audited h' = audited h ++ [event] ∧
    Records W correlationId .authenticationOutcome .success principal.tenantId principal.actorId
      "authenticate" event

theorem leaves_refuse {error : AuthenticationError} :
    (refuse T correlationId error).Leaves h fun _ h' => ∃ event,
      audited h' = audited h ++ [event] ∧ Records T.words correlationId .authenticationOutcome
        .failure platformTenantId "unauthenticated" "authenticate" event ∧ Responded h h' 401 := by
  refine leaves_bind (leaves_auditEvent.mono fun _ h' ⟨hsent, event, haudited, hrecords⟩ => ?_)
  refine (responds_respond (S := [401]) (List.mem_singleton.2 rfl) h').mono
    fun _ h'' ⟨hsame, status, hstatus, headers, encoded, hresponse⟩ => ?_
  rw [List.mem_singleton.1 hstatus] at hresponse
  exact ⟨event, hsame.trans haudited, hrecords, headers, encoded, hsent ▸ hresponse⟩

theorem leaves_authenticate : (authenticate T app scope correlationId).Leaves h
    (AuthenticationEnds T.words correlationId h) := by
  have hunavailable : ∀ {body : JsonValue} {h' : ControlHistory}, Unchanged h h' →
      (do respond T 503 body; return none : Handling (Option Principal)).Leaves h'
        (fun o h'' => o = none ∧ audited h'' = audited h ∧ Responded h h'' 503) := by
    intro body h' hsame
    refine leaves_bind (((responds_respond (S := [503]) (List.mem_singleton.2 rfl)).after
      hsame).mono fun _ h'' ⟨haudited, status, hstatus, hresponse⟩ => leaves_pure ?_)
    rw [List.mem_singleton.1 hstatus] at hresponse
    exact ⟨rfl, haudited, hresponse⟩
  unfold authenticate
  split
  · refine (hunavailable (.refl h)).mono fun o h' ⟨hnone, hends⟩ => ?_
    rw [hnone]
    exact .inl hends
  have hsilent : Silent (.authenticate (scope.singleHeader "authorization")) :=
    ⟨fun _ => rfl, fun _ => rfl⟩
  refine leaves_bind (Leaves.mono (R := fun o h' => o = none ∧
      AuthenticationEnds T.words correlationId h none h' ∨
        ∃ principal, o = some principal ∧ Unchanged h h')
    (wp_handle _ (wp_ask_bind trivial (fun e _ => ?_) fun principal _ => ?_)) fun o h' hends => ?_)
  · have hsame := (Unchanged.refl h).call hsilent (.error e)
    dsimp only
    split
    · refine leaves_bind (leaves_refuse.mono
        fun _ h' ⟨event, haudited, hrecords, headers, encoded, hresponse⟩ => leaves_pure ?_)
      exact .inl ⟨rfl, .inr ⟨event, haudited.trans (by rw [hsame.audited]), hrecords, headers,
        encoded, hsame.sent ▸ hresponse⟩⟩
    · exact (hunavailable hsame).mono fun o h' ⟨hnone, hends⟩ => .inl ⟨hnone, .inl hends⟩
    · exact leaves_throw
  · rintro _ heq
    cases heq
    exact .inr ⟨principal, rfl, (Unchanged.refl h).call hsilent _⟩
  · rcases hends with ⟨rfl, hends⟩ | ⟨principal, rfl, hsame⟩
    · exact leaves_pure hends
    · refine leaves_bind (leaves_auditEvent.mono
        fun _ h'' ⟨hsent, event, haudited, hrecords⟩ => leaves_pure ?_)
      exact ⟨hsent.trans hsame.sent, event, haudited.trans (by rw [hsame.audited]), hrecords⟩

/-- What authorization appends, and whether it answers. -/
theorem leaves_authorize {resource : String} :
    (authorize T principal tenantId correlationId permission resource).Leaves h
      fun authorized h' => ∃ event, audited h' = audited h ++ [event] ∧
        Records T.words correlationId .authorizationDecision
          (if authorized then .success else .denied) principal.tenantId principal.actorId
          permission.value event ∧
        if authorized then principal.tenantId = tenantId ∧ sent h' = sent h
        else Responded h h' 403 := by
  refine leaves_bind (leaves_ask fun at' => ?_)
  have hsame := (Unchanged.refl h).call silent_now (.ok at')
  dsimp only [auditAuthorization]
  rw [AuthorizationService.decide_permission]
  refine leaves_bind (leaves_auditEvent.mono fun _ h' ⟨hsent, event, haudited, hrecords⟩ => ?_)
  rw [hsame.audited] at haudited
  rw [hsame.sent] at hsent
  split
  · rename_i hallowed
    rw [if_pos hallowed] at hrecords
    exact leaves_pure ⟨event, haudited, hrecords,
      (AuthorizationService.decide_allowed_iff.1 hallowed).1, hsent⟩
  · rename_i hdenied
    rw [if_neg hdenied] at hrecords
    refine leaves_bind ((responds_respond (S := [403]) (List.mem_singleton.2 rfl) h').mono
      fun _ h'' ⟨hkept, status, hstatus, headers, encoded, hresponse⟩ => leaves_pure ?_)
    rw [List.mem_singleton.1 hstatus] at hresponse
    exact ⟨event, hkept.trans haudited, hrecords, headers, encoded, hsent ▸ hresponse⟩

/-! ## Routes -/

/-- The statuses of what is given to a cleared request. -/
abbrev clearedStatuses : List ℕ := [200, 403, 404, 503]

variable {event : AuditEvent}

/-- How a request ends whose principal is on record. -/
def RequestEnds (W : WordCharacters) (correlationId : UUID) (route : Route)
    (event : AuditEvent) (h h' : ControlHistory) : Prop :=
  ∃ later status, audited h' = audited h ++ later ∧ Responded h h' status ∧
    Trail W correlationId route (event :: later) status

/-- An answer without a permission. -/
theorem leaves_ungoverned {p : Handling Unit} (hevent : Records T.words correlationId
      .authenticationOutcome .success principal.tenantId principal.actorId "authenticate" event)
    (hp : Responds [status] p) (hstatus : status ∈ [200, 400, 404])
    (hme : status = 200 → route = .me) :
    p.Leaves h fun _ h' => RequestEnds T.words correlationId route event h h' := by
  refine (hp h).mono fun _ h' ⟨haudited, status', hmem, hresponse⟩ => ?_
  rw [List.mem_singleton.1 hmem] at hresponse
  exact ⟨[], status, by rw [haudited, List.append_nil], hresponse,
    .ungoverned principal hevent hstatus hme⟩

/-- An answer to a request that is authorized, and the refusal of one that is not. -/
theorem leaves_whenAuthorized {resource : String} {next : Handling Unit}
    (hevent : Records T.words correlationId .authenticationOutcome .success principal.tenantId
      principal.actorId "authenticate" event)
    (hneeds : route.needs? = some (tenantId, permission)) (hnext : Responds clearedStatuses next) :
    (whenAuthorized T principal tenantId correlationId permission resource next).Leaves h
      fun _ h' => RequestEnds T.words correlationId route event h h' := by
  refine leaves_bind (leaves_authorize.mono
    fun authorized h' ⟨event', haudited, hrecords, hends⟩ => ?_)
  cases authorized with
  | false =>
    exact leaves_pure ⟨[event'], 403, haudited, hends,
      .denied principal tenantId permission hneeds hevent hrecords⟩
  | true =>
    obtain ⟨rfl, hsent⟩ := hends
    refine (hnext h').mono fun _ h'' ⟨hkept, status, hstatus, headers, encoded, hresponse⟩ => ?_
    exact ⟨[event'], status, hkept.trans haudited, ⟨headers, encoded, hsent ▸ hresponse⟩,
      .cleared principal permission hneeds hevent hrecords hstatus⟩

/-- A read, and an answer. -/
theorem responds_read {c : ControlOp} {context : TenantContext} {permissions : List Permission}
    {next : c.Reply → Handling Unit} (hc : c.governed? = some (context, permissions))
    (hnext : ∀ a, Responds clearedStatuses (next a)) :
    Responds clearedStatuses (whenRead T (ask c) next) :=
  responds_whenRead (by decide) (asks_ask (silent_of_needs hc)) hnext

theorem responds_cleared (hstatus : status ∈ clearedStatuses) {body : JsonValue} :
    Responds clearedStatuses (respond T status body) :=
  responds_respond hstatus

/-- **A handler leaves a trail.** -/
theorem leaves_handle (hevent : Records T.words correlationId .authenticationOutcome .success
      principal.tenantId principal.actorId "authenticate" event) :
    (handle T app principal correlationId scope route).Leaves h
      fun _ h' => RequestEnds T.words correlationId route event h h' := by
  have hcursor : ∀ next : ℤ → Handling Unit, (∀ cursor, (next cursor).Leaves h
      fun _ h' => RequestEnds T.words correlationId route event h h') →
      (withCursor T scope next).Leaves h
        fun _ h' => RequestEnds T.words correlationId route event h h' := by
    intro next hnext
    unfold withCursor
    split
    · exact leaves_ungoverned hevent (responds_respond (List.mem_singleton.2 rfl)) (by decide)
        fun h => by cases h
    · exact hnext _
  cases route with
  | me =>
    exact leaves_ungoverned hevent (responds_bind (asks_ask silent_now) fun _ =>
      responds_respond (List.mem_singleton.2 rfl)) (by decide) fun _ => rfl
  | notFound =>
    exact leaves_ungoverned hevent (responds_respond (List.mem_singleton.2 rfl)) (by decide)
      fun h => by cases h
  | invalidTenantId =>
    exact leaves_ungoverned hevent (responds_respond (List.mem_singleton.2 rfl)) (by decide)
      fun h => by cases h
  | tenant tenantId =>
    refine leaves_whenAuthorized hevent rfl (responds_read rfl fun tenant? => ?_)
    cases tenant? <;> exact responds_cleared (by decide)
  | policy tenantId =>
    refine leaves_whenAuthorized hevent rfl (responds_read rfl fun policy? => ?_)
    cases policy? <;> exact responds_cleared (by decide)
  | modelView tenantId view =>
    refine leaves_whenAuthorized hevent rfl ?_
    cases app.gatewayOperations with
    | none => exact responds_cleared (by decide)
    | some g =>
      refine responds_bind (asks_ask (silent_of_needs rfl)) fun policy? => ?_
      cases policy? with
      | none => exact responds_cleared (by decide)
      | some policy =>
        refine responds_bind (asks_ask silent_now) fun at' =>
          responds_caught silent_modelView (fun e h => ?_) rfl fun body =>
            responds_cleared (by decide)
        split
        · exact leaves_respond_none (responds_cleared (by decide))
        · exact leaves_throw
  | ledger tenantId =>
    refine hcursor _ fun cursor => leaves_whenAuthorized hevent rfl ?_
    split
    · exact responds_cleared (by decide)
    · exact responds_read rfl fun _ => responds_cleared (by decide)
  | timeline tenantId runId =>
    refine hcursor _ fun cursor => ?_
    unfold getTimeline
    split
    · exact leaves_ungoverned hevent (responds_respond (List.mem_singleton.2 rfl)) (by decide)
        fun h => by cases h
    refine leaves_whenAuthorized hevent rfl ?_
    split
    · exact responds_cleared (by decide)
    · exact responds_read rfl fun _ => responds_cleared (by decide)
  | runStatus tenantId =>
    refine leaves_whenAuthorized hevent rfl ?_
    split
    · exact responds_cleared (by decide)
    · exact responds_read rfl fun _ => responds_cleared (by decide)

/-- A request under `/v1/` leaves a trail. -/
theorem leaves_serve (path : String) : (serve T app scope path).Leaves h fun _ h' =>
    ∃ correlationId later status, audited h' = audited h ++ later ∧ Responded h h' status ∧
      Trail T.words correlationId (Route.of path) later status := by
  refine leaves_bind (leaves_ask fun correlationId => ?_)
  have hsame := (Unchanged.refl h).call (c := ControlOp.uuid4) ⟨fun _ => rfl, fun _ => rfl⟩
    (.ok correlationId)
  refine leaves_bind (leaves_authenticate.mono fun principal? h' hends => ?_)
  cases principal? with
  | none =>
    refine leaves_pure ⟨correlationId, ?_⟩
    rcases hends with ⟨haudited, headers, encoded, hresponse⟩ |
      ⟨event, haudited, hrecords, headers, encoded, hresponse⟩
    · exact ⟨[], 503, by rw [haudited, hsame.audited, List.append_nil],
        ⟨headers, encoded, hsame.sent ▸ hresponse⟩, .unavailable⟩
    · exact ⟨[event], 401, by rw [haudited, hsame.audited],
        ⟨headers, encoded, hsame.sent ▸ hresponse⟩, .refused hrecords⟩
  | some principal =>
    obtain ⟨hsent, event, haudited, hrecords⟩ := hends
    refine (leaves_handle hrecords).mono
      fun _ h'' ⟨later, status, hmore, ⟨headers, encoded, hresponse⟩, htrail⟩ => ?_
    refine ⟨correlationId, event :: later, status, ?_, ⟨headers, encoded, ?_⟩, htrail⟩
    · rw [hmore, haudited, hsame.audited, List.append_assoc, List.singleton_append]
    · rw [hresponse, hsent, hsame.sent]

end

/-- Alice's request for the record of her tenant is answered. -/
theorem sample_returns :
    ((call sampleControlText sampleApp sampleScope).run sampleEnv []).2 = .ok () := by
  have hok : ((call sampleControlText sampleApp sampleScope).run sampleEnv []).2.isOk = true := by
    decide +kernel
  generalize ((call sampleControlText sampleApp sampleScope).run sampleEnv []).2 = outcome at hok
  cases outcome with
  | ok _ => rfl
  | error e => cases hok

end ControlPlaneApp

end AegisPlatform
