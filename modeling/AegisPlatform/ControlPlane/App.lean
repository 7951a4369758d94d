import AegisPlatform.Audit.Events
import AegisPlatform.EventStore.Reads
import AegisPlatform.Gateway.Resilience
import AegisPlatform.Gateway.Router
import AegisPlatform.Identity.Authentication
import AegisPlatform.Lib.Effects
import AegisPlatform.Lib.Runs
import AegisPlatform.Queueing.JsonText

/-!
# A request of the control plane

`ControlPlaneApp.__call__`, as a program over what it calls: the clock, the authentication, the
audit store, the repositories, and the channel that the response is sent on.  Each of these is a
`ControlOp`, and any of them may be answered by an exception.

* `Scope`, `singleHeader`, `cursorParameter` — what is read of a request.
* `respond`, `authenticate`, `authorize` — the parts that every request goes through.
* `Route`, `handle`, `call` — the rest of the code.
-/

namespace AegisPlatform

open Fallible Effects Effects.Prog

/-! ## Requests -/

/-- A byte string. -/
abbrev Bytes := List UInt8

/-- The scope of a request. -/
structure Scope where
  type : Option String := some "http"
  method : Option String := none
  /-- `none` if it is no text. -/
  path : Option String
  /-- `none` if they are no list; an item is `none` if it is no pair of byte strings. -/
  headers : Option (List (Option (Bytes × Bytes))) := some []
  /-- `none` if it is no byte string. -/
  queryString : Option Bytes := some []

/-- `text.encode("ascii")`. -/
def asciiBytes (text : String) : Bytes := text.toList.map fun c => UInt8.ofNat c.toNat

/-- `raw.decode("latin-1")`. -/
def latin1 (raw : Bytes) : List Char := raw.map fun b => Char.ofNat b.toNat

/-- `raw.lower()`. -/
def lowerBytes (raw : Bytes) : Bytes := raw.map fun b => if 65 ≤ b ∧ b ≤ 90 then b + 32 else b

/-- `_matching_header`. -/
def matchingHeader (name : Bytes) : Option (Bytes × Bytes) → Option String
  | some (key, value) => if lowerBytes key = name then some (String.ofList (latin1 value)) else none
  | none => none

/-- `_single_header`. -/
def Scope.singleHeader (scope : Scope) (name : String) : Option String :=
  match (scope.headers.getD []).filterMap (matchingHeader (asciiBytes name)) with
  | [value] => some value
  | _ => none

/-- What is taken from the standard library as it comes, besides `PyText`. -/
structure ControlText where
  py : PyText
  floats : Json.FloatText
  words : WordCharacters
  /-- `urllib.parse.unquote`. -/
  unquote : List Char → String
  /-- `text.isdigit()`. -/
  isdigit : String → Bool
  /-- `format(value, "f")`. -/
  formatF : Decimal → String

/-- `segment for segment in path.split("/") if segment`. -/
def segments (path : String) : List String :=
  (Runs.runs (· = '/') path.toList).map String.ofList

section

variable (T : ControlText)

/-- A name or a value of a query. -/
def unquotePlus (text : List Char) : String :=
  T.unquote (text.map fun c => if c = '+' then ' ' else c)

/-- `parse_qs(text, keep_blank_values=True).get(name)`, empty for `None`. -/
def queryValues (text : List Char) (name : String) : List String :=
  (Runs.runs (· = '&') text).filterMap fun field =>
    if unquotePlus T (field.takeWhile (· ≠ '=')) = name then
      some (unquotePlus T ((field.dropWhile (· ≠ '=')).drop 1))
    else none

/-- `_cursor_parameter`. -/
def Scope.cursorParameter (scope : Scope) : Except Raised ℤ := do
  let raw ← orRaise (.valueError "query string must be bytes") scope.queryString
  raiseIf (raw.any (128 ≤ ·)) (.valueError "query string must be ASCII")
  match queryValues T (latin1 raw) "cursor" with
  | [] => return 0
  | [value] =>
    raiseIf (T.isdigit value = false) (.valueError "cursor must be one non-negative integer")
    let cursor ← orRaise (.valueError "invalid literal for int() with base 10") (T.py.int value)
    raiseIf (9223372036854775807 < cursor)
      (.valueError "cursor exceeds maximum database cursor value")
    return cursor
  | _ => throw (.valueError "cursor must be one non-negative integer")

end

/-! ## Calls -/

/-- A tenant's record. -/
structure Tenant where
  tenantId : TenantId
  displayName : String
  enabled : Bool := true
  valid : isBlank displayName = false

/-- An event of the ledger, with its metadata. -/
structure LedgerEvent where
  event : EventEnvelope
  metadata : Dict

/-- A page of the ledger. -/
structure LedgerPage where
  events : List LedgerEvent
  nextCursor : Option ℕ

/-- What is sent in response. -/
inductive AsgiMessage where
  | start (status : ℕ) (headers : List (String × String))
  | body (encoded : List Char)
  deriving DecidableEq, Repr

/-- What may be raised while a request is handled. -/
inductive ControlRaised where
  | authenticationError (error : AuthenticationError)
  | raised (e : Raised)
  | permissionError (reason : String)
  | configurationError (message : String)
  /-- Any other exception. -/
  | other
  deriving DecidableEq, Repr

/-- What the authentication raises. -/
def ControlRaised.ofAuth : AuthRaised → ControlRaised
  | .authenticationError error => .authenticationError error
  | .raised e => .raised e
  | .other => .other

inductive ControlOp where
  | uuid4
  /-- `datetime.now(UTC)`. -/
  | now
  /-- `Settings.from_env()`. -/
  | settings
  | storageReady
  | authenticate (authorizationHeader : Option String)
  | appendAudit (context : TenantContext) (event : AuditEvent)
  /-- `self._tenants.get(context)`. -/
  | tenant (context : TenantContext)
  /-- `self._policies.get(context)`. -/
  | policy (context : TenantContext)
  /-- The state of a model's circuit. -/
  | circuitState (model : ModelIdentity)
  | usageSummary (context : TenantContext)
  | readAll (context : TenantContext) (afterPosition limit : ℤ)
  | readStream (context : TenantContext) (aggregateId : String) (afterVersion limit : ℤ)
  | runStatus (context : TenantContext) (limit : ℤ)
  | send (message : AsgiMessage)

/-- What a call is answered with. -/
abbrev ControlOp.Reply : ControlOp → Type
  | uuid4 => UUID
  | now => Timestamp
  | storageReady => Bool
  | authenticate _ => Principal
  | tenant _ => Option Tenant
  | policy _ => Option TenantPolicy
  | circuitState _ => CircuitState
  | usageSummary _ => Dict
  | readAll .. => LedgerPage
  | readStream .. => List LedgerEvent
  | runStatus .. => List Dict
  | settings | appendAudit .. | send _ => Unit

/-- A part of the handling of a request. -/
abbrev Handling := Prog ControlOp ControlOp.Reply ControlRaised

/-- A computation of the domain's own. -/
def Handling.check {α : Type} (x : Except Raised α) : Handling α :=
  Prog.ofExcept (x.mapError .raised)

open Handling

/-- `GatewayOperations`: what it was made of. -/
structure GatewayOperations where
  catalog : ModelCatalog
  environment : Environment := .production

/-- `ControlPlaneApp`: which of its parts are configured. -/
structure ControlPlaneApp where
  authentication : Bool
  eventStore : Bool
  projections : Bool
  storageReady : Bool
  gatewayOperations : Option GatewayOperations

/-! ## Bodies -/

/-- A body that says what went wrong. -/
def errorBody (code : String) : JsonValue := .obj [("error", .obj [("code", .str code)])]

def notFoundBody : JsonValue := .obj [("status", .str "not-found")]

/-- `sorted(values)`, of a set of texts. -/
def sortedTexts (values : Finset String) : JsonValue := .list ((values.sort (· ≤ ·)).map .str)

/-- `_principal_body`. -/
def principalBody (principal : Principal) (at' : Timestamp) : JsonValue :=
  let active := (principal.roleBindings.filter (·.isActive at')).map (·.role.value)
  .obj [("actor_id", .str principal.actorId), ("kind", .str principal.kind.value),
    ("tenant_id", .str principal.tenantId.value), ("roles", sortedTexts active.toFinset)]

def tenantBody (tenant : Tenant) : JsonValue :=
  .obj [("tenant_id", .str tenant.tenantId.value), ("display_name", .str tenant.displayName),
    ("enabled", .bool tenant.enabled)]

/-- `risk.name.lower()`. -/
def RiskLevel.name : RiskLevel → String
  | low => "low"
  | medium => "medium"
  | high => "high"
  | critical => "critical"

/-- The stored name of a state. -/
def CircuitState.value : CircuitState → String
  | closed => "closed"
  | «open» => "open"
  | halfOpen => "half_open"

section

variable (T : ControlText)

/-- `_policy_body`. -/
def policyBody (policy : TenantPolicy) : JsonValue :=
  .obj [("tenant_id", .str policy.tenantId), ("version", .str policy.version),
    ("allow", .obj [("models", sortedTexts policy.allowedModels),
      ("providers", sortedTexts policy.allowedProviders),
      ("tools", sortedTexts policy.allowedTools),
      ("connectors", sortedTexts policy.allowedConnectors),
      ("environments", sortedTexts policy.allowedEnvironments),
      ("data_residencies", sortedTexts policy.allowedDataResidencies)]),
    ("data", .obj [("allow_provider_retention", .bool policy.allowProviderRetention)]),
    ("risk", .obj [("maximum", .str policy.maxRisk.name),
      ("approval_from", .str policy.approvalFromRisk.name)]),
    ("quotas", .obj [("max_run_tokens", .int policy.quotas.maxRunTokens),
      ("max_run_cost_usd", .str (T.formatF policy.quotas.maxRunCostUsd)),
      ("max_tenant_tokens_per_period", .int policy.quotas.maxTenantTokensPerPeriod),
      ("max_tenant_cost_usd_per_period", .str (T.formatF policy.quotas.maxTenantCostUsdPerPeriod)),
      ("max_concurrent_runs", .int policy.quotas.maxConcurrentRuns)])]

/-- `None`, or what there is. -/
def optional {α : Type} (f : α → JsonValue) (value : Option α) : JsonValue := value.elim .null f

/-- `_event_body`. -/
def eventBody (e : LedgerEvent) : JsonValue :=
  .obj [("event_id", .str e.event.eventId.str), ("aggregate_id", .str e.event.aggregateId),
    ("aggregate_sequence", .int e.event.aggregateSequence),
    ("global_position", optional (.int ·) (e.event.globalPosition.map (↑))),
    ("event_type", .str e.event.eventType.value),
    ("schema_version", .int e.event.schemaVersion),
    ("occurred_at", .str (T.py.isoformat e.event.occurredAt)),
    ("recorded_at", optional (.str ∘ T.py.isoformat) e.event.recordedAt),
    ("correlation_id", optional (.str ∘ UUID.str) e.event.correlationId),
    ("payload", .obj (T.words.redactDetails e.event.payload)),
    ("metadata", .obj (T.words.redactDetails e.metadata))]

def ledgerBody (page : LedgerPage) : JsonValue :=
  .obj [("events", .list (page.events.map (eventBody T))),
    ("next_cursor", optional (.int ·) (page.nextCursor.map (↑)))]

def timelineBody (runId : String) (events : List LedgerEvent) : JsonValue :=
  .obj [("run_id", .str runId), ("events", .list (events.map (eventBody T))),
    ("next_cursor", if events.length = 100 then
      optional (fun e : LedgerEvent => .int e.event.aggregateSequence) events.getLast? else .null)]

def runStatusBody (rows : List Dict) : JsonValue := .obj [("runs", .list (rows.map .obj))]

/-- An entry of `GatewayOperations.catalog`. -/
def catalogBody (entry : ModelCatalogEntry) : JsonValue :=
  .obj [("provider", .str entry.identity.provider), ("model", .str entry.identity.model),
    ("pricing_version", .str entry.pricing.version),
    ("max_context_tokens", .int entry.capabilities.maxContextTokens),
    ("max_output_tokens", .int entry.capabilities.maxOutputTokens),
    ("supports_tools", .bool entry.capabilities.supportsTools),
    ("supports_vision", .bool entry.capabilities.supportsVision),
    ("supports_structured_output", .bool entry.capabilities.supportsStructuredOutput),
    ("data_residencies", sortedTexts entry.dataResidencies.toFinset),
    ("provider_retains_data", .bool entry.providerRetainsData)]

/-- An entry of `GatewayOperations.health`. -/
def healthBody (entry : ModelCatalogEntry) (state : CircuitState) : JsonValue :=
  .obj [("provider", .str entry.identity.provider), ("model", .str entry.identity.model),
    ("circuit_state", .str state.value)]

end

/-! ## Gateway operations -/

namespace GatewayOperations

variable (g : GatewayOperations) (principal : Principal) (tenantId : TenantId) (at' : Timestamp)

/-- `_require`. -/
def require : Handling Unit :=
  let decision := AuthorizationService.decide principal tenantId (.inl .modelRead) at'
  if decision.allowed then return () else throw (.permissionError decision.reason)

/-- The entries of `catalog`. -/
def entries (policy : TenantPolicy) : Handling (List ModelCatalogEntry) := do
  require principal tenantId at'
  if policy.tenantId ≠ tenantId.value then throw (.permissionError "cross_tenant_policy")
  else
    return g.catalog.entries.filter fun entry =>
      ModelRouter.policyFailures entry policy g.environment = []

/-- `catalog`. -/
def catalogView (policy : TenantPolicy) : Handling JsonValue := do
  let entries ← g.entries principal tenantId at' policy
  return .obj [("models", .list (entries.map catalogBody))]

/-- `usage`. -/
def usageView : Handling JsonValue := do
  require principal tenantId at'
  let summary : Dict ← ask (ControlOp.usageSummary tenantId.context)
  return .obj summary

/-- The states of the entries' circuits. -/
def states : List ModelCatalogEntry → Handling (List JsonValue)
  | [] => return []
  | entry :: rest => do
    let state : CircuitState ← ask (ControlOp.circuitState entry.identity)
    let views ← states rest
    return healthBody entry state :: views

/-- `health`. -/
def healthView (policy : TenantPolicy) : Handling JsonValue := do
  require principal tenantId at'
  let entries ← g.entries principal tenantId at' policy
  let views ← states entries
  return .obj [("providers", .list views)]

end GatewayOperations

/-! ## Routes -/

/-- What a request with a path under `/v1/` asks for. -/
inductive Route where
  | me
  | notFound
  | invalidTenantId
  | tenant (tenantId : TenantId)
  | policy (tenantId : TenantId)
  | modelView (tenantId : TenantId) (view : String)
  | ledger (tenantId : TenantId)
  | timeline (tenantId : TenantId) (runId : String)
  | runStatus (tenantId : TenantId)

/-- The route of a path. -/
def Route.of (path : String) : Route :=
  if path = "/v1/me" then .me
  else match segments path with
    | "v1" :: "tenants" :: name :: rest =>
      match TenantId.make name with
      | .error _ => .invalidTenantId
      | .ok tenantId =>
        match rest with
        | [] => .tenant tenantId
        | [last] =>
          if last = "policy" then .policy tenantId
          else if last ∈ ["models", "model-usage", "provider-health"] then
            .modelView tenantId last
          else if last = "ledger" then .ledger tenantId
          else .notFound
        | [first, second] =>
          if first = "projections" ∧ second = "run-status" then .runStatus tenantId else .notFound
        | [first, runId, last] =>
          if first = "runs" ∧ last = "timeline" then .timeline tenantId runId else .notFound
        | _ => .notFound
    | _ => .notFound

/-! ## The application -/

namespace ControlPlaneApp

variable (T : ControlText)

/-- `_respond`. -/
def respond (status : ℕ) (body : JsonValue) (extraHeaders : List (String × String) := []) :
    Handling Unit := do
  let encoded := Json.print T.floats body
  ask (ControlOp.send (.start status ([("content-type", "application/json"),
    ("content-length", String.ofList (Numeral.natural encoded.length)),
    ("cache-control", "no-store")] ++ extraHeaders)))
  ask (ControlOp.send (.body encoded))

/-- `except TransientStorageError`: a response is sent, and there is nothing to go on with. -/
def unlessUnavailable {α : Type} (p : Handling α) : Handling (Option α) :=
  tryCatch (do let a ← p; return some a) fun
    | .raised .transientStorageError => do
      respond T 503 (errorBody "storage_unavailable")
      return none
    | e => throw e

/-- `_audit_event`. -/
def auditEvent (tenantId : TenantId) (eventType : AuditEventType) (outcome : AuditOutcome)
    (actorId action resource : String) (correlationId : UUID) (details : Dict) :
    Handling Unit := do
  let eventId : UUID ← ask ControlOp.uuid4
  let occurredAt : Timestamp ← ask ControlOp.now
  let event ← check (AuditEvent.make T.words {
    eventId := eventId
    tenantId := tenantId.value
    eventType := eventType
    occurredAt := occurredAt
    outcome := outcome
    actorId := actorId
    action := action
    resource := resource
    correlationId := correlationId
    details := details
    validTenant := tenantId.valid })
  ask (ControlOp.appendAudit tenantId.context event)

variable (app : ControlPlaneApp)

/-- Is the storage ready, as far as it is asked? -/
def storageIsReady : Handling Bool :=
  if app.storageReady then ask ControlOp.storageReady else return true

/-- `_readiness`. -/
def readiness : Handling Unit := do
  let invalid? : Option String ← tryCatch (do ask ControlOp.settings; return none) fun
    | .configurationError message => return some message
    | e => throw e
  match invalid? with
  | some message =>
    respond T 503 (.obj [("status", .str "not-ready"), ("reason", .str message)])
  | none => do
    let ready ← app.storageIsReady
    if ready then
      respond T 200 (.obj [("status", .str "ready"), ("checks", .list
        (if app.storageReady then [.str "configuration", .str "storage"]
          else [.str "configuration"]))])
    else respond T 503 (.obj [("status", .str "not-ready"), ("reason", .str "storage_unavailable")])

/-- What follows on an `AuthenticationError`. -/
def refuse (correlationId : UUID) (error : AuthenticationError) : Handling Unit := do
  auditEvent T platformTenantId .authenticationOutcome .failure "unauthenticated" "authenticate"
    "control-plane" correlationId [("error_code", .str error.code.value)]
  respond T 401 (.obj [("error", .obj [("code", .str error.code.value),
    ("message", .str "authentication failed")])]) [("www-authenticate", "Bearer realm=\"aegis\"")]

/-- `_authenticate`. -/
def authenticate (scope : Scope) (correlationId : UUID) : Handling (Option Principal) :=
  if app.authentication = false then do
    respond T 503 (errorBody "authentication_not_configured")
    return none
  else do
    let principal? : Option Principal ←
      tryCatch (do
        let principal : Principal ← ask (ControlOp.authenticate (scope.singleHeader "authorization"))
        return some principal) fun
      | .authenticationError error => do
        refuse T correlationId error
        return none
      | .raised .transientStorageError => do
        respond T 503 (errorBody "storage_unavailable")
        return none
      | e => throw e
    match principal? with
    | none => return none
    | some principal => do
      auditEvent T principal.tenantId .authenticationOutcome .success principal.actorId
        "authenticate" "control-plane" correlationId
        [("subject", .str principal.subject), ("issuer", .str principal.issuer)]
      return some principal

/-- `_audit_authorization`. -/
def auditAuthorization (principal : Principal) (resource : String)
    (decision : AuthorizationDecision) (correlationId : UUID) : Handling Unit :=
  auditEvent T principal.tenantId .authorizationDecision
    (if decision.allowed then .success else .denied) principal.actorId decision.permission resource
    correlationId [("attempted_tenant_id", .str decision.tenantId.value),
      ("reason", .str decision.reason),
      ("roles", .list (decision.activeRoles.map fun role => .str role.value))]

variable (principal : Principal) (tenantId : TenantId) (correlationId : UUID)

/-- `_authorize`. -/
def authorize (permission : Permission) (resource : String) : Handling Bool := do
  let at' : Timestamp ← ask ControlOp.now
  let decision := AuthorizationService.decide principal tenantId (.inl permission) at'
  auditAuthorization T principal resource decision correlationId
  if decision.allowed then return true
  else do
    respond T 403 (.obj [("error", .obj [("code", .str "authorization_denied"),
      ("reason", .str decision.reason)])])
    return false

/-- What a handler does once it is authorized. -/
def whenAuthorized (permission : Permission) (resource : String) (next : Handling Unit) :
    Handling Unit := do
  let authorized ← authorize T principal tenantId correlationId permission resource
  if authorized then next else return ()

/-- What a handler does with what it has read, if the storage is available. -/
def whenRead {α : Type} (read : Handling α) (next : α → Handling Unit) : Handling Unit := do
  let read? ← unlessUnavailable T read
  match read? with
  | none => return ()
  | some a => next a

/-- `_get_tenant`. -/
def getTenant : Handling Unit :=
  whenAuthorized T principal tenantId correlationId .tenantRead ("tenant/" ++ tenantId.value) <|
    whenRead T (ask (ControlOp.tenant tenantId.context)) fun tenant? : Option Tenant =>
      match tenant? with
      | none => respond T 404 (errorBody "tenant_not_found")
      | some tenant => respond T 200 (tenantBody tenant)

/-- `_get_policy`. -/
def getPolicy : Handling Unit :=
  whenAuthorized T principal tenantId correlationId .policyRead
      ("tenant/" ++ tenantId.value ++ "/policy") <|
    whenRead T (ask (ControlOp.policy tenantId.context)) fun policy? : Option TenantPolicy =>
      match policy? with
      | none => respond T 404 (errorBody "policy_not_found")
      | some policy => respond T 200 (policyBody T policy)

/-- The view that is asked for. -/
def modelView (g : GatewayOperations) (view : String) (policy : TenantPolicy) (at' : Timestamp) :
    Handling JsonValue :=
  if view = "models" then g.catalogView principal tenantId at' policy
  else if view = "model-usage" then GatewayOperations.usageView principal tenantId at'
  else g.healthView principal tenantId at' policy

/-- `_get_model_view`. -/
def getModelView (view : String) : Handling Unit :=
  whenAuthorized T principal tenantId correlationId .modelRead
      ("tenant/" ++ tenantId.value ++ "/" ++ view) <|
    match app.gatewayOperations with
    | none => respond T 503 (errorBody "gateway_not_configured")
    | some g => do
      let policy? : Option TenantPolicy ← ask (ControlOp.policy tenantId.context)
      match policy? with
      | none => respond T 404 (errorBody "policy_not_found")
      | some policy => do
        let at' : Timestamp ← ask ControlOp.now
        let body? : Option JsonValue ←
          tryCatch (do
            let body ← modelView principal tenantId g view policy at'
            return some body) fun
          | .permissionError _ => do
            respond T 403 (errorBody "permission_denied")
            return none
          | e => throw e
        match body? with
        | none => return ()
        | some body => respond T 200 body

/-- `_get_ledger`. -/
def getLedger (afterPosition : ℤ) : Handling Unit :=
  whenAuthorized T principal tenantId correlationId .resourceRead
      ("tenant/" ++ tenantId.value ++ "/ledger") <|
    if app.eventStore = false then respond T 503 (errorBody "storage_not_configured")
    else whenRead T (ask (ControlOp.readAll tenantId.context afterPosition 100)) fun page : LedgerPage =>
      respond T 200 (ledgerBody T page)

/-- `_get_timeline`. -/
def getTimeline (runId : String) (afterVersion : ℤ) : Handling Unit :=
  if runId = "" then respond T 400 (errorBody "invalid_run_id")
  else
    whenAuthorized T principal tenantId correlationId .resourceRead
        ("tenant/" ++ tenantId.value ++ "/runs/" ++ runId ++ "/timeline") <|
      if app.eventStore = false then respond T 503 (errorBody "storage_not_configured")
      else
        whenRead T (ask (ControlOp.readStream tenantId.context runId afterVersion 100))
          fun events : List LedgerEvent => respond T 200 (timelineBody T runId events)

/-- `_get_run_status`. -/
def getRunStatus : Handling Unit :=
  whenAuthorized T principal tenantId correlationId .resourceRead
      ("tenant/" ++ tenantId.value ++ "/projections/run-status") <|
    if app.projections = false then respond T 503 (errorBody "storage_not_configured")
    else whenRead T (ask (ControlOp.runStatus tenantId.context 100)) fun rows : List Dict =>
      respond T 200 (runStatusBody rows)

/-- A handler that needs a cursor. -/
def withCursor (scope : Scope) (next : ℤ → Handling Unit) : Handling Unit :=
  match scope.cursorParameter T with
  | .error _ => respond T 400 (errorBody "invalid_cursor")
  | .ok cursor => next cursor

/-- What a route leads to, for a principal. -/
def handle (scope : Scope) : Route → Handling Unit
  | .me => do
    let at' : Timestamp ← ask ControlOp.now
    respond T 200 (principalBody principal at')
  | .notFound => respond T 404 notFoundBody
  | .invalidTenantId => respond T 400 (errorBody "invalid_tenant_id")
  | .tenant tenantId => getTenant T principal tenantId correlationId
  | .policy tenantId => getPolicy T principal tenantId correlationId
  | .modelView tenantId view => getModelView T app principal tenantId correlationId view
  | .ledger tenantId =>
    withCursor T scope (getLedger T app principal tenantId correlationId)
  | .timeline tenantId runId =>
    withCursor T scope (getTimeline T app principal tenantId correlationId runId)
  | .runStatus tenantId => getRunStatus T app principal tenantId correlationId

/-- A path under `/v1/`: who asks, and then what for. -/
def serve (scope : Scope) (path : String) : Handling Unit := do
  let correlationId : UUID ← ask ControlOp.uuid4
  let principal? ← authenticate T app scope correlationId
  match principal? with
  | none => return ()
  | some principal => handle T app principal correlationId scope (Route.of path)

/-- `__call__`. -/
def call (scope : Scope) : Handling Unit :=
  if scope.type ≠ some "http" then return ()
  else if scope.method.getD "GET" ≠ "GET" then respond T 405 (errorBody "method_not_allowed")
  else match scope.path with
    | none => respond T 404 notFoundBody
    | some path =>
      if path = "/healthz" ∨ path = "/health/live" then
        respond T 200 (.obj [("status", .str "ok"), ("service", .str "control-plane")])
      else if path = "/readyz" ∨ path = "/health/ready" then readiness T app
      else if startswith path "/v1/" = false then respond T 404 notFoundBody
      else serve T app scope path

end ControlPlaneApp

end AegisPlatform
