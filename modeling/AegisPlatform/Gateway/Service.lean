import AegisPlatform.Gateway.Resilience
import AegisPlatform.Gateway.Router
import AegisPlatform.Gateway.Structured
import AegisPlatform.Lib.Effects

/-!
# A call of the gateway

`ModelGateway.complete`, as a program over what it awaits and what it reads: the clocks, the
repository, the controls of the models, the providers.  Each of these is a `GatewayOp`, and any of
them may be answered by an exception.

* `RetryPolicy`, `ExponentialBackoff` — how often and how late a failed attempt is made again.
* `attemptOnce`, `attempts` — the body and the loop of `_try_model`.
* `tryModel`, `tryCandidates`, `complete` — the rest of the code.

Durations and readings of the event loop's clock are seconds, as rationals.
-/

namespace AegisPlatform

open Fallible Effects Effects.Prog

/-! ## Retries -/

/-- `ExponentialBackoff`, its jitter apart. -/
structure ExponentialBackoff where
  base : ℚ
  maximum : ℚ
  valid : 0 < base ∧ base ≤ maximum

/-- The delay before jitter. -/
def ExponentialBackoff.unjittered (b : ExponentialBackoff) (attempt : ℕ) : ℚ :=
  min b.maximum (b.base * 2 ^ min (attempt - 1) 30)

structure RetryPolicy where
  maxAttempts : ℕ
  maxFailovers : ℕ
  backoff : ExponentialBackoff
  valid : (1 ≤ maxAttempts ∧ maxAttempts ≤ 10) ∧ maxFailovers ≤ 5

/-- `may_retry`. -/
def RetryPolicy.mayRetry (p : RetryPolicy) (error : ModelGatewayError) (attempt : ℕ) : Bool :=
  error.retryable && decide (attempt < p.maxAttempts)

theorem RetryPolicy.mayRetry_iff {p : RetryPolicy} {error : ModelGatewayError} {attempt : ℕ} :
    p.mayRetry error attempt = true ↔ error.retryable = true ∧ attempt < p.maxAttempts := by
  rw [mayRetry, Bool.and_eq_true, decide_eq_true_eq]

/-- `_provider_health_failure`. -/
def ModelGatewayError.providerHealthFailure (error : ModelGatewayError) : Bool :=
  match error.errorClass with
  | .rateLimit => error.code ≠ "local_rate_limit"
  | .timeout => error.code ≠ "gateway_concurrency_timeout"
  | .transient | .providerUnavailable | .malformedResponse | .providerBug => true
  | _ => false

/-- `replace(request, timeout_seconds=…)`. -/
def ModelRequest.withTimeout (request : ModelRequest) (timeoutSeconds : ℚ)
    (h : 0 < timeoutSeconds ∧ timeoutSeconds ≤ 600) : ModelRequest :=
  { request with timeoutSeconds := timeoutSeconds, timeout_valid := h }

/-! ## What a call awaits and reads -/

/-- What may be raised in the course of a call. -/
inductive GatewayRaised where
  | modelGatewayError (error : ModelGatewayError)
  | raised (e : Raised)
  | routing (e : RoutingError)
  | circuitOpenError
  /-- Any other exception, such as the cancellation of the task. -/
  | other

/-- What a repository raises, as the call sees it: the `ModelGatewayError`s of the repositories
are all of one kind. -/
def GatewayRaised.of : Raised → GatewayRaised
  | .modelGatewayError code =>
    if h : code = "" then .raised (.modelGatewayError code)
    else .modelGatewayError {
      errorClass := .providerBug
      code := code
      retryable := false
      billingAmbiguous := true
      valid := ⟨h, fun _ hseconds => by cases hseconds⟩ }
  | e => .raised e

theorem GatewayRaised.of_eq_modelGatewayError {e : Raised} {error : ModelGatewayError}
    (h : GatewayRaised.of e = .modelGatewayError error) : ∃ code, e = .modelGatewayError code := by
  cases e <;> first | exact ⟨_, rfl⟩ | cases h

/-- How waiting for a permit ends: `Permits` is the machine behind it. -/
inductive SemaphoreOutcome where
  | acquired
  | timedOut
  | cancelled
  deriving DecidableEq, Repr

inductive GatewayOp where
  /-- `self._clock()`. -/
  | clock
  /-- The time of the event loop. -/
  | time
  | circuitState (model : ModelIdentity)
  | completed (at' : Timestamp)
  | reserve (route : RouteDecision) (quotas : QuotaLimits) (tokenLimit : ℤ)
      (costLimitUsd : Decimal) (priceVersion : String) (at' : Timestamp)
  | acquireCircuit (model : ModelIdentity)
  | succeedCircuit (model : ModelIdentity)
  | failCircuit (model : ModelIdentity)
  | abandonCircuit (model : ModelIdentity)
  | releaseProbe (model : ModelIdentity)
  | admitCall (model : ModelIdentity) (tokens : ℤ)
  /-- `cancellation.is_set()`. -/
  | cancellationIsSet
  | acquireSemaphore (model : ModelIdentity) (timeout : ℚ)
  | releaseSemaphore (model : ModelIdentity)
  | recordAttempt (reservation : BudgetReservation) (model : ModelIdentity)
      (attempt fallbackIndex : ℕ) (at' : Timestamp)
  /-- `provider.complete(…)`. -/
  | provide (request : ModelRequest) (model : ModelIdentity)
  | recordAttemptFailure (reservation : BudgetReservation) (error : ModelGatewayError)
      (model : ModelIdentity) (attempt fallbackIndex : ℕ) (at' : Timestamp)
  /-- The jitter of the backoff. -/
  | jitter (attempt : ℕ) (seconds : ℚ)
  | sleep (delay : ℚ)
  /-- Sleeping until the cancellation: has the delay passed? -/
  | sleepUnlessCancelled (delay : ℚ)
  | succeed (reservation : BudgetReservation) (response : ModelResponse)
      (pricing : PricingVersion) (at' : Timestamp)
  | recordUsageFailure (reservation : BudgetReservation) (response : ModelResponse)
      (pricing : PricingVersion) (error : ModelGatewayError) (at' : Timestamp)
  | fail (reservation : BudgetReservation) (error : ModelGatewayError) (at' : Timestamp)

/-- What an operation is answered with. -/
abbrev GatewayOp.Reply : GatewayOp → Type
  | clock => Timestamp
  | time | jitter .. => ℚ
  | circuitState _ => CircuitState
  | completed _ => Option ModelResponse
  | reserve .. => BudgetReservation
  | admitCall .. | cancellationIsSet | sleepUnlessCancelled _ => Bool
  | acquireSemaphore .. => SemaphoreOutcome
  | provide .. => ModelResponse
  | _ => Unit

/-- A part of a call. -/
abbrev Calling := Prog GatewayOp GatewayOp.Reply GatewayRaised

/-- A computation of the repository's or the domain's own. -/
def Calling.check {α : Type} (x : Except Raised α) : Calling α :=
  Prog.ofExcept (x.mapError .raised)

/-- A validation. -/
def Calling.validate {α : Type} (x : Except ModelGatewayError α) : Calling α :=
  Prog.ofExcept (x.mapError .modelGatewayError)

open Calling GatewayOp

/-- `ModelGateway`: what a call reads of it.  The three lists are the models that
`ProviderControls`, `GatewayMetrics` and `GatewayTracer` were made for. -/
structure ModelGateway where
  catalog : ModelCatalog
  retryPolicy : RetryPolicy
  controlledModels : List ModelIdentity
  meteredModels : List ModelIdentity
  tracedModels : List ModelIdentity
  validator : SchemaValidator

/-- The arguments of `complete`. -/
structure Completion where
  context : TenantContext
  request : ModelRequest
  lease : WorkLease
  policy : TenantPolicy
  environment : Environment
  preference : ModelRouter.RoutePreference
  /-- Is there a cancellation token? -/
  cancellation : Bool

/-- Tokens set aside for a call. -/
def Completion.tokenLimit (c : Completion) : ℤ :=
  c.request.promptTokenEstimate + c.request.maxOutputTokens

namespace ModelGateway

/-- `GatewayMetrics._NAMES`. -/
def metricNames : List String :=
  ["attempts", "latency_ms", "input_tokens", "output_tokens", "cache_read_tokens",
    "cache_write_tokens", "reasoning_tokens", "cost_usd", "route_decisions", "retries",
    "fallbacks", "rate_limits", "circuit_open", "malformed_responses", "budget_denials",
    "reservation_drift_tokens", "reservation_drift_cost_usd"]

variable (g : ModelGateway)

/-- `GatewayMetrics.add`. -/
def add (name : String) (model : ModelIdentity) (value : ℚ) : Except Raised Unit := do
  raiseIf (name ∉ metricNames ∨ model ∉ g.meteredModels)
    (.valueError "metric name and model must be bounded catalog values")
  raiseIf (value < 0) (.valueError "metric increments cannot be negative")

/-- One more of a metric. -/
def count (name : String) (model : ModelIdentity) : Calling Unit := check (g.add name model 1)

/-- `GatewayMetrics.usage`. -/
def addUsage (model : ModelIdentity) (usage : TokenUsage) : Except Raised Unit := do
  g.add "input_tokens" model usage.inputTokens
  g.add "output_tokens" model usage.outputTokens
  g.add "cache_read_tokens" model usage.cacheReadTokens
  g.add "cache_write_tokens" model usage.cacheWriteTokens
  g.add "reasoning_tokens" model usage.reasoningTokens

/-- `ProviderControls._known`. -/
def known (model : ModelIdentity) : Calling Unit :=
  check (raiseIf (model ∉ g.controlledModels)
    (.valueError "model is not configured for runtime controls"))

/-- What `GatewayTracer.attempt` checks. -/
def traced (model : ModelIdentity) : Calling Unit :=
  check (raiseIf (model ∉ g.tracedModels)
    (.valueError "trace model must be a bounded catalog value"))

variable (c : Completion)

/-! ## One attempt -/

/-- `ExponentialBackoff.delay`. -/
def backoffDelay (attempt : ℕ) : Calling ℚ := do
  check (raiseIf (attempt < 1) (.valueError "attempt must be positive"))
  let backoff := g.retryPolicy.backoff
  let seconds : ℚ ← ask (jitter attempt (backoff.unjittered attempt))
  check (raiseIf (seconds < 0 ∨ backoff.maximum < seconds)
    (.valueError "jitter returned an out-of-bounds delay"))
  return seconds

/-- The delay that the provider asks for, or the backoff's. -/
def retryDelay (error : ModelGatewayError) (attempt : ℕ) : Calling ℚ :=
  match error.retryAfterSeconds with
  | some seconds => return seconds
  | none => g.backoffDelay attempt

/-- `_wait_for_retry`. -/
def waitForRetry (delay : ℚ) : Calling Bool :=
  if c.cancellation then ask (sleepUnlessCancelled delay)
  else do
    ask (sleep delay)
    return true

def concurrencyCancelled : ModelGatewayError :=
  .create .cancelled "gateway_concurrency_cancelled" false

def concurrencyTimeout : ModelGatewayError := .create .timeout "gateway_concurrency_timeout" true

/-- The first check of `_acquire_semaphore`. -/
def raiseIfCancelled : Calling Unit :=
  if c.cancellation then do
    let isSet : Bool ← ask cancellationIsSet
    if isSet then throw (.modelGatewayError concurrencyCancelled) else return ()
  else return ()

/-- `_acquire_semaphore`. -/
def acquirePermit (model : ModelIdentity) (deadline : ℚ) : Calling Unit := do
  raiseIfCancelled c
  let now : ℚ ← ask time
  let remainingSeconds := deadline - now
  if remainingSeconds ≤ 0 then
    throw (.modelGatewayError concurrencyTimeout)
  else
    let outcome : SemaphoreOutcome ← ask (acquireSemaphore model remainingSeconds)
    match outcome with
    | .acquired => return ()
    | .timedOut => throw (.modelGatewayError concurrencyTimeout)
    | .cancelled => throw (.modelGatewayError concurrencyCancelled)

/-- How an attempt ends, if it raises nothing. -/
inductive Attempted where
  | response (response : ModelResponse)
  /-- The loop is left. -/
  | stop (error : ModelGatewayError)
  /-- The loop goes on. -/
  | retry (error : ModelGatewayError)

def attemptTimeout : ModelGatewayError := .create .timeout "provider_attempt_timeout" true

def retryCancelled : ModelGatewayError := .create .cancelled "gateway_retry_cancelled" false

/-- The call of the provider, once the attempt is recorded. -/
def invoke (model : ModelIdentity) (deadline : ℚ) : Calling ModelResponse := do
  g.count "attempts" model
  let now : ℚ ← ask time
  let remainingSeconds := deadline - now
  if h : remainingSeconds ≤ 0 then
    throw (.modelGatewayError attemptTimeout)
  else
    g.traced model
    ask (provide (c.request.withTimeout (min c.request.timeoutSeconds remainingSeconds)
      ⟨lt_min c.request.timeout_valid.1 (not_le.1 h),
        (min_le_left _ _).trans c.request.timeout_valid.2⟩) model)

variable (reservation : BudgetReservation) (deadline : ℚ) (fallbackIndex : ℕ)

/-- The metric of a failure. -/
def countFailure (model : ModelIdentity) (error : ModelGatewayError) : Calling Unit :=
  match error.errorClass with
  | .malformedResponse => g.count "malformed_responses" model
  | .rateLimit => g.count "rate_limits" model
  | _ => return ()

/-- The failure of an attempt that is on record is recorded. -/
def recordFailure (model : ModelIdentity) (attempt : ℕ) (attemptStarted : Bool)
    (error : ModelGatewayError) : Calling Unit :=
  if attemptStarted then do
    let at' : Timestamp ← ask clock
    ask (recordAttemptFailure reservation error model attempt fallbackIndex at')
  else return ()

/-- `except ModelGatewayError`. -/
def handleError (model : ModelIdentity) (attempt : ℕ) (attemptStarted : Bool)
    (error : ModelGatewayError) : Calling Attempted := do
  g.countFailure model error
  recordFailure reservation fallbackIndex model attempt attemptStarted error
  if g.retryPolicy.mayRetry error attempt then
    g.count "retries" model
    let delay ← g.retryDelay error attempt
    let now : ℚ ← ask time
    let remainingSeconds := deadline - now
    if remainingSeconds ≤ 0 then
      return .stop error
    else
      let waited ← waitForRetry c (min delay remainingSeconds)
      return if waited then .retry error else .stop retryCancelled
  else
    return .stop error

/-- What is raised in an attempt. -/
def handle (model : ModelIdentity) (attempt : ℕ) (attemptStarted : Bool) :
    GatewayRaised → Calling Attempted
  | .modelGatewayError error =>
    g.handleError c reservation deadline fallbackIndex model attempt attemptStarted error
  | e => throw e

/-- The attempt is recorded. -/
def recordStart (model : ModelIdentity) (attempt : ℕ) : Calling Unit := do
  let at' : Timestamp ← ask clock
  ask (recordAttempt reservation model attempt fallbackIndex at')

/-- An attempt that holds a permit. -/
def permitted (model : ModelIdentity) (attempt : ℕ) : Calling Attempted := do
  match ← (recordStart reservation fallbackIndex model attempt).caught with
  | .error e => g.handle c reservation deadline fallbackIndex model attempt false e
  | .ok _ =>
    match ← (g.invoke c model deadline).caught with
    | .error e => g.handle c reservation deadline fallbackIndex model attempt true e
    | .ok response => return .response response

/-- The body of the loop, from the permit on. -/
def attemptOnce (model : ModelIdentity) (attempt : ℕ) : Calling Attempted := do
  g.known model
  match ← (acquirePermit c model deadline).caught with
  | .error e => g.handle c reservation deadline fallbackIndex model attempt false e
  | .ok _ =>
    (g.permitted c reservation deadline fallbackIndex model attempt).ensure
      (ask (releaseSemaphore model))

/-! ## The attempts on one model -/

def localRateLimit : ModelGatewayError := .create .rateLimit "local_rate_limit" true

def circuitOpen : ModelGatewayError := .create .providerUnavailable "provider_circuit_open" true

/-- The loop of `_try_model`: `n` attempts are left.  It returns a response, or the last error. -/
def attempts (model : ModelIdentity) :
    ℕ → ℕ → Option ModelGatewayError → Calling (ModelResponse ⊕ Option ModelGatewayError)
  | 0, _, lastError => return .inr lastError
  | n + 1, attempt, _ => do
    g.known model
    let admitted : Bool ← ask (admitCall model c.tokenLimit)
    if admitted then
      match ← g.attemptOnce c reservation deadline fallbackIndex model attempt with
      | .response response =>
        ask (succeedCircuit model)
        return .inl response
      | .stop error => return .inr (some error)
      | .retry error => attempts model n (attempt + 1) (some error)
    else
      g.count "rate_limits" model
      return .inr (some localRateLimit)

/-- How `_try_model` begins: does it hold the probe? -/
def enterCircuit (model : ModelIdentity) : Calling Bool := do
  ask (acquireCircuit model)
  let state : CircuitState ← ask (circuitState model)
  return decide (state = .halfOpen)

/-- How `_try_model` ends without a response. -/
def tellCircuit (model : ModelIdentity) (error : ModelGatewayError) : Calling Unit :=
  if error.providerHealthFailure then ask (failCircuit model) else ask (abandonCircuit model)

/-- `_try_model`. -/
def tryModel (candidate : ModelCatalogEntry) :
    Calling (Option ModelResponse × Option ModelGatewayError) := do
  let model := candidate.identity
  g.known model
  match ← (enterCircuit model).caught with
  | .error .circuitOpenError =>
    g.count "circuit_open" model
    return (none, some circuitOpen)
  | .error e => throw e
  | .ok probeAcquired =>
    let release : Calling Unit := if probeAcquired then ask (releaseProbe model) else pure ()
    let loop := g.attempts c reservation deadline fallbackIndex model g.retryPolicy.maxAttempts 1 none
    match ← loop.ensure release with
    | .inl response => return (some response, none)
    | .inr (some error) =>
      tellCircuit model error
      return (none, some error)
    | .inr none => return (none, none)

/-! ## The candidates -/

def noAttempt : ModelGatewayError :=
  .create .providerUnavailable "no_provider_attempt_succeeded" true

/-- The settlement of a response: it is paid for as a success, or as a failure if it is not what
was asked for or if it cost too much. -/
def settleResponse (candidate : ModelCatalogEntry) (response : ModelResponse) : Calling Unit :=
  tryCatch
    (do
      validate (g.validator.validateResponse c.request response candidate.identity)
      let at' : Timestamp ← ask clock
      ask (succeed reservation response candidate.pricing at'))
    fun
      | .modelGatewayError error => do
        let at' : Timestamp ← ask clock
        ask (recordUsageFailure reservation response candidate.pricing error at')
        throw (.modelGatewayError error)
      | e => throw e

/-- The handler of `settleResponse`. -/
def recordInvalid (candidate : ModelCatalogEntry) (response : ModelResponse) :
    GatewayRaised → Calling Unit
  | .modelGatewayError error => do
    let at' : Timestamp ← ask clock
    ask (recordUsageFailure reservation response candidate.pricing error at')
    throw (.modelGatewayError error)
  | e => throw e

theorem settleResponse_eq (candidate : ModelCatalogEntry) (response : ModelResponse) :
    g.settleResponse c reservation candidate response =
      tryCatch
        (do
          validate (g.validator.validateResponse c.request response candidate.identity)
          let at' : Timestamp ← ask clock
          ask (succeed reservation response candidate.pricing at'))
        (recordInvalid reservation candidate response) :=
  rfl

/-- What is measured of a call that has succeeded. -/
def measure (reservationCost : ℚ) (candidate : ModelCatalogEntry) (response : ModelResponse) :
    Except Raised Unit := do
  let model := candidate.identity
  let cost := candidate.pricing.cost response.usage
  g.addUsage model response.usage
  g.add "latency_ms" model response.latencyMs
  g.add "cost_usd" model cost
  g.add "reservation_drift_tokens" model ((c.tokenLimit - response.usage.billableTokens : ℤ) : ℚ)
  g.add "reservation_drift_cost_usd" model (Decimal.sub reservationCost cost)

/-- The settlement of a call without a response. -/
def settleFailure (lastError : Option ModelGatewayError) : Calling ModelResponse := do
  let error := lastError.getD noAttempt
  let at' : Timestamp ← ask clock
  ask (fail reservation error at')
  throw (.modelGatewayError error)

/-- The metric of a fallback. -/
def countFallback (model : ModelIdentity) : Calling Unit :=
  if 0 < fallbackIndex then g.count "fallbacks" model else return ()

/-- The loop over the candidates; `fallbackIndex` is the place of the first one left. -/
def tryCandidates (reservationCost : ℚ) :
    ℕ → Option ModelGatewayError → List ModelCatalogEntry → Calling ModelResponse
  | _, lastError, [] => settleFailure reservation lastError
  | fallbackIndex, _, candidate :: rest => do
    g.countFallback fallbackIndex candidate.identity
    match ← g.tryModel c reservation deadline fallbackIndex candidate with
    | (some response, _) =>
      g.settleResponse c reservation candidate response
      check (g.measure c reservationCost candidate response)
      return response
    | (none, lastError) =>
      if lastError.all (·.retryable) then
        tryCandidates reservationCost (fallbackIndex + 1) lastError rest
      else
        settleFailure reservation lastError

/-! ## The call -/

/-- The models whose circuit is open. -/
def openCircuits : List ModelCatalogEntry → Calling (Finset ModelIdentity)
  | [] => return ∅
  | entry :: rest => do
    g.known entry.identity
    let state : CircuitState ← ask (circuitState entry.identity)
    let others ← openCircuits rest
    return if state = .open then insert entry.identity others else others

/-- What the repository is told of a route. -/
def recordedRoute (route : ModelRouter.RouteDecision) : RouteDecision where
  selected := route.selected.identity
  candidateCount := route.candidates.length
  rationale := route.rationale

/-- The reservation of a call; a denial is counted. -/
def reserveBudget (route : ModelRouter.RouteDecision) (reservationCost : ℚ) :
    Calling BudgetReservation :=
  tryCatch
    (do
      let at' : Timestamp ← ask clock
      ask (reserve (recordedRoute route) c.policy.quotas c.tokenLimit reservationCost
        route.selected.pricing.version at'))
    fun
      | .raised (.budgetDenied code) => do
        g.count "budget_denials" route.selected.identity
        throw (.raised (.budgetDenied code))
      | e => throw e

/-- The handler of `reserveBudget`. -/
def countDenial (route : ModelRouter.RouteDecision) : GatewayRaised → Calling BudgetReservation
  | .raised (.budgetDenied code) => do
    g.count "budget_denials" route.selected.identity
    throw (.raised (.budgetDenied code))
  | e => throw e

theorem reserveBudget_eq (route : ModelRouter.RouteDecision) (reservationCost : ℚ) :
    g.reserveBudget c route reservationCost =
      tryCatch
        (do
          let at' : Timestamp ← ask clock
          ask (reserve (recordedRoute route) c.policy.quotas c.tokenLimit reservationCost
            route.selected.pricing.version at'))
        (g.countDenial route) :=
  rfl

/-- A call that has to be made: no response to it is stored. -/
def perform : Calling ModelResponse := do
  let unavailable ← g.openCircuits g.catalog.entries
  let now : ℚ ← ask time
  let deadline := now + c.request.timeoutSeconds
  let route ← Prog.ofExcept ((ModelRouter.route c.request g.catalog c.policy c.environment unavailable
    c.preference).mapError .routing)
  let candidates := route.candidates.take (g.retryPolicy.maxFailovers + 1)
  let reservationCost ← check (Arithmetic.decimal.reservationCost candidates
    c.request.promptTokenEstimate c.request.maxOutputTokens)
  let reservation ← g.reserveBudget c route reservationCost
  g.count "route_decisions" route.selected.identity
  g.tryCandidates c reservation deadline reservationCost 0 none candidates

/-- `complete`. -/
def complete : Calling ModelResponse := do
  validate (g.validator.validateRequest c.request)
  let at' : Timestamp ← ask clock
  let cached : Option ModelResponse ← ask (completed at')
  match cached with
  | some response => return response
  | none => g.perform c

end ModelGateway

end AegisPlatform
