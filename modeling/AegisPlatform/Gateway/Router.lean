import AegisPlatform.Gateway.Catalog
import AegisPlatform.Lib.Ranking
import AegisPlatform.Policy.Evaluator
import Mathlib.Data.Prod.Lex

/-!
# Routing

`ModelRouter.route` chooses the models a call may go to, best first.

* `ModelCatalog`, `policyFailures`, `failures`, `consider`, `route` — the code.
* `Check` — what an entry can fail; `mem_failures` says that the code names the checks failed.
* `Considered`, `Eligible` — what the candidates are; `route_eq` is the result in these terms.
* `Tighter` — nothing was allowed or made available; `routing` is what holds of every route.
-/

namespace AegisPlatform

open Fallible Ranking

/-! ## The catalog -/

/-- `catalog_key`. -/
def ModelIdentity.catalogKey (identity : ModelIdentity) : String :=
  identity.provider ++ "/" ++ identity.model

/-- What a route may be refused with. -/
inductive RoutingError where
  | catalogError (message : String)
  /-- `RouteDeniedError`. -/
  | routeDenied (reasons : List String)
  deriving DecidableEq, Repr

/-- The entries of a catalog in the order given, one for each identity. -/
structure ModelCatalog where
  given : List ModelCatalogEntry
  distinct : (given.map (·.identity)).Nodup

namespace ModelCatalog

/-- `ModelCatalog(entries)`. -/
def make (entries : List ModelCatalogEntry) : Except Raised ModelCatalog :=
  if h : (entries.map (·.identity)).Nodup then .ok ⟨entries, h⟩
  else .error (.valueError "duplicate catalog model identity")

/-- `get`. -/
def get (catalog : ModelCatalog) (identity : ModelIdentity) :
    Except RoutingError ModelCatalogEntry :=
  orRaise (.catalogError ("unknown model: " ++ identity.catalogKey))
    (catalog.given.find? fun entry => entry.identity = identity)

/-- `entries`.  Two identities may have one key: these stay in the order given. -/
def entries (catalog : ModelCatalog) : List ModelCatalogEntry :=
  ranked (fun entry => entry.identity.catalogKey) catalog.given

end ModelCatalog

/-! ## The route -/

namespace ModelRouter

/-- `RoutePreference`. -/
inductive RoutePreference where
  | cost
  | latency
  deriving DecidableEq, Repr

/-- The stored name of a preference. -/
def RoutePreference.value : RoutePreference → String
  | cost => "cost"
  | latency => "latency"

/-- The candidates of a call, best first. -/
structure RouteDecision where
  selected : ModelCatalogEntry
  candidates : List ModelCatalogEntry
  rationale : List String

/-- The names of the checks that failed. -/
def failed (checks : List (String × Bool)) : List String :=
  (checks.filter (·.2)).map (·.1)

/-- `policy_failures`. -/
def policyFailures (entry : ModelCatalogEntry) (policy : TenantPolicy)
    (environment : Environment) : List String :=
  let identity := entry.identity
  let allowedModel : Bool :=
    identity.catalogKey ∈ policy.allowedModels || identity.model ∈ policy.allowedModels
  failed [("model_not_allowed", !allowedModel),
    ("provider_not_allowed", identity.provider ∉ policy.allowedProviders),
    ("environment_not_allowed", environment ∉ entry.environments ||
      environment.value ∉ policy.allowedEnvironments),
    ("residency_not_allowed",
      !entry.dataResidencies.any fun residency => residency ∈ policy.allowedDataResidencies),
    ("retention_not_allowed", entry.providerRetainsData && !policy.allowProviderRetention)]

/-- `_uses_vision`. -/
def usesVision (request : ModelRequest) : Bool :=
  request.messages.any fun message => message.content.any (·.isImage)

/-- The checks an entry fails, as `route` collects them. -/
def failures (request : ModelRequest) (policy : TenantPolicy) (environment : Environment)
    (unavailable : Finset ModelIdentity) (entry : ModelCatalogEntry) : List String :=
  failed ((policyFailures entry policy environment).map (·, true) ++
    [("provider_unavailable", decide (entry.identity ∈ unavailable)),
      ("context_limit_exceeded", entry.capabilities.maxContextTokens <
        request.promptTokenEstimate + request.maxOutputTokens),
      ("output_limit_exceeded", entry.capabilities.maxOutputTokens < request.maxOutputTokens),
      ("tools_unsupported", !request.tools.isEmpty && !entry.capabilities.supportsTools),
      ("vision_unsupported", usesVision request && !entry.capabilities.supportsVision),
      ("structured_output_unsupported", request.responseSchema.isSome &&
        !entry.capabilities.supportsStructuredOutput)])

/-- One turn of the loop: the entry becomes eligible, or what it fails is noted. -/
def consider (failures : ModelCatalogEntry → List String)
    (found : List ModelCatalogEntry × List String) (entry : ModelCatalogEntry) :
    List ModelCatalogEntry × List String :=
  if failures entry ≠ [] then (found.1, found.2 ++ failures entry)
  else (found.1 ++ [entry], found.2)

/-- What the candidates are sorted by. -/
def key : RoutePreference → ModelCatalogEntry → ℤ ×ₗ ℤ ×ₗ String ×ₗ String
  | .cost, entry => toLex (entry.costRank, toLex (entry.latencyRank,
      toLex (entry.identity.provider, entry.identity.model)))
  | .latency, entry => toLex (entry.latencyRank, toLex (entry.costRank,
      toLex (entry.identity.provider, entry.identity.model)))

theorem ranked_ne_nil {preference : RoutePreference} {l : List ModelCatalogEntry} (h : l ≠ []) :
    ranked (key preference) l ≠ [] :=
  fun hnil => h (ranked_eq_nil.mp hnil)

/-- The end of `route`: what the loop has found, put in order. -/
def select (preference : RoutePreference) (reasons : List String)
    (found : List ModelCatalogEntry × List String) : Except RoutingError RouteDecision :=
  let (eligible, denied) := found
  if h : eligible = [] then
    let denied := ranked id denied.dedup
    .error (.routeDenied (if denied = [] then ["no_catalog_candidates"] else denied))
  else
    let ordered := ranked (key preference) eligible
    .ok {
      selected := ordered.head (ranked_ne_nil h)
      candidates := ordered
      rationale := reasons ++ ["tenant_policy_allowed", "capabilities_matched",
        preference.value ++ "_preference"] }

/-- The entries that `route` goes through, with the first reasons. -/
def entriesFor (request : ModelRequest) (catalog : ModelCatalog) :
    Except RoutingError (List ModelCatalogEntry × List String) :=
  match request.requestedModel with
  | none => .ok (catalog.entries, [])
  | some model => (catalog.get model).map fun entry => ([entry], ["explicit_model"])

/-- `route`. -/
def route (request : ModelRequest) (catalog : ModelCatalog) (policy : TenantPolicy)
    (environment : Environment) (unavailable : Finset ModelIdentity)
    (preference : RoutePreference) : Except RoutingError RouteDecision := do
  raiseIf (policy.tenantId ≠ request.tenantId) (.routeDenied ["cross_tenant_policy"])
  let (entries, reasons) ← entriesFor request catalog
  select preference reasons
    (entries.foldl (consider (failures request policy environment unavailable)) ([], []))

/-! ## The checks -/

/-- What an entry can fail. -/
inductive Check where
  | model
  | provider
  | environment
  | residency
  | retention
  | availability
  | contextLimit
  | outputLimit
  | tools
  | vision
  | structuredOutput
  deriving DecidableEq, Repr

namespace Check

/-- The name a failed check is given by. -/
def name : Check → String
  | model => "model_not_allowed"
  | provider => "provider_not_allowed"
  | environment => "environment_not_allowed"
  | residency => "residency_not_allowed"
  | retention => "retention_not_allowed"
  | availability => "provider_unavailable"
  | contextLimit => "context_limit_exceeded"
  | outputLimit => "output_limit_exceeded"
  | tools => "tools_unsupported"
  | vision => "vision_unsupported"
  | structuredOutput => "structured_output_unsupported"

def all : List Check :=
  [model, provider, environment, residency, retention, availability, contextLimit, outputLimit,
    tools, vision, structuredOutput]

theorem mem_all (check : Check) : check ∈ all := by
  cases check <;> decide

/-- Does the entry fail the check? -/
def Failed (request : ModelRequest) (policy : TenantPolicy) (deployment : Environment)
    (unavailable : Finset ModelIdentity) (entry : ModelCatalogEntry) : Check → Prop
  | model => entry.identity.catalogKey ∉ policy.allowedModels ∧
      entry.identity.model ∉ policy.allowedModels
  | provider => entry.identity.provider ∉ policy.allowedProviders
  | environment => deployment ∉ entry.environments ∨
      deployment.value ∉ policy.allowedEnvironments
  | residency => ∀ residency ∈ entry.dataResidencies, residency ∉ policy.allowedDataResidencies
  | retention => entry.providerRetainsData = true ∧ policy.allowProviderRetention = false
  | availability => entry.identity ∈ unavailable
  | contextLimit => entry.capabilities.maxContextTokens <
      request.promptTokenEstimate + request.maxOutputTokens
  | outputLimit => entry.capabilities.maxOutputTokens < request.maxOutputTokens
  | tools => request.tools ≠ [] ∧ entry.capabilities.supportsTools = false
  | vision => (∃ message ∈ request.messages, ∃ part ∈ message.content, part.isImage = true) ∧
      entry.capabilities.supportsVision = false
  | structuredOutput => request.responseSchema ≠ none ∧
      entry.capabilities.supportsStructuredOutput = false

end Check

/-- The entry passes every check. -/
def Eligible (request : ModelRequest) (policy : TenantPolicy) (environment : Environment)
    (unavailable : Finset ModelIdentity) (entry : ModelCatalogEntry) : Prop :=
  ∀ check : Check, ¬check.Failed request policy environment unavailable entry

variable {request : ModelRequest} {catalog catalog' : ModelCatalog} {policy policy' : TenantPolicy}
  {environment : Environment} {unavailable unavailable' : Finset ModelIdentity}
  {preference : RoutePreference} {entry : ModelCatalogEntry} {name : String}

theorem mem_failed {checks : List (String × Bool)} : name ∈ failed checks ↔ (name, true) ∈ checks := by
  constructor
  · intro h
    obtain ⟨⟨name', b⟩, hmem, rfl⟩ := List.mem_map.mp h
    obtain ⟨hmem, hb⟩ := List.mem_filter.mp hmem
    exact (show b = true from hb) ▸ hmem
  · intro h
    exact List.mem_map.mpr ⟨(name, true), List.mem_filter.mpr ⟨h, rfl⟩, rfl⟩

/-- **The code names the checks failed.** -/
theorem mem_failures : name ∈ failures request policy environment unavailable entry ↔
    ∃ check : Check, check.Failed request policy environment unavailable entry ∧
      check.name = name := by
  have hchecks : name ∈ failures request policy environment unavailable entry ↔
      ∃ check ∈ Check.all, name = check.name ∧
        check.Failed request policy environment unavailable entry := by
    simp [failures, policyFailures, mem_failed, Check.all, Check.Failed, Check.name, usesVision,
      or_assoc, Option.isSome_iff_ne_none]
  rw [hchecks]
  constructor
  · rintro ⟨check, -, hname, hfailed⟩
    exact ⟨check, hfailed, hname.symm⟩
  · rintro ⟨check, hfailed, hname⟩
    exact ⟨check, check.mem_all, hname.symm, hfailed⟩

theorem failures_eq_nil : failures request policy environment unavailable entry = [] ↔
    Eligible request policy environment unavailable entry := by
  rw [List.eq_nil_iff_forall_not_mem]
  constructor
  · intro h check hfailed
    exact h check.name (mem_failures.mpr ⟨check, hfailed, rfl⟩)
  · intro h name hname
    obtain ⟨check, hfailed, -⟩ := mem_failures.mp hname
    exact h check hfailed

/-! ## The loop -/

theorem foldl_consider (f : ModelCatalogEntry → List String) (entries : List ModelCatalogEntry)
    (found : List ModelCatalogEntry × List String) :
    entries.foldl (consider f) found =
      (found.1 ++ entries.filter fun entry => f entry = [], found.2 ++ entries.flatMap f) := by
  induction entries generalizing found with
  | nil => simp
  | cons entry rest ih =>
    rw [List.foldl_cons, ih]
    by_cases h : f entry = []
    · simp [consider, h]
    · simp [consider, h]

/-! ## The result -/

/-- The entries a request is about: the one requested, or all. -/
def considered (request : ModelRequest) (catalog : ModelCatalog) : List ModelCatalogEntry :=
  match request.requestedModel with
  | none => catalog.given
  | some model => catalog.given.filter fun entry => entry.identity = model

/-- What the loop finds in a list of entries. -/
def found (request : ModelRequest) (policy : TenantPolicy) (environment : Environment)
    (unavailable : Finset ModelIdentity) (entries : List ModelCatalogEntry) :
    List ModelCatalogEntry × List String :=
  (entries.filter fun entry => failures request policy environment unavailable entry = [],
    entries.flatMap (failures request policy environment unavailable))

/-- No model is requested, or a known one. -/
def Known (request : ModelRequest) (catalog : ModelCatalog) : Prop :=
  ∀ model, request.requestedModel = some model → ∃ entry ∈ catalog.given, entry.identity = model

theorem mem_considered : entry ∈ considered request catalog ↔
    entry ∈ catalog.given ∧ ∀ model, request.requestedModel = some model →
      entry.identity = model := by
  unfold considered
  cases hmodel : request.requestedModel with
  | none => simp
  | some model => simp

theorem considered_sublist : (considered request catalog).Sublist catalog.given := by
  unfold considered
  cases request.requestedModel with
  | none => exact List.Sublist.refl _
  | some model => exact List.filter_sublist

/-- Keys are as distinct as identities. -/
theorem key_injective {a b : ModelCatalogEntry} (h : key preference a = key preference b) :
    a.identity = b.identity := by
  rcases a with ⟨⟨provider, model, _⟩⟩
  rcases b with ⟨⟨provider', model', _⟩⟩
  cases preference with
  | cost =>
    simp only [key, toLex_inj, Prod.mk.injEq] at h
    simp [h.2.2.1, h.2.2.2]
  | latency =>
    simp only [key, toLex_inj, Prod.mk.injEq] at h
    simp [h.2.2.1, h.2.2.2]

theorem nodup_key (catalog : ModelCatalog) (preference : RoutePreference) :
    (catalog.given.map (key preference)).Nodup := by
  have hidentity := List.pairwise_map.mp catalog.distinct
  exact List.pairwise_map.mpr (hidentity.imp fun hne h => hne (key_injective h))

theorem nodup_considered_key :
    ((considered request catalog).map (key preference)).Nodup :=
  (nodup_key catalog preference).sublist (considered_sublist.map _)

theorem select_eq_ok {reasons : List String} {eligible : List ModelCatalogEntry}
    {denied : List String} {d : RouteDecision} :
    select preference reasons (eligible, denied) = .ok d ↔
      d.candidates = ranked (key preference) eligible ∧ d.candidates.head? = some d.selected ∧
        d.rationale = reasons ++ ["tenant_policy_allowed", "capabilities_matched",
          preference.value ++ "_preference"] := by
  obtain ⟨selected, candidates, rationale⟩ := d
  by_cases h : eligible = []
  · have hranked : ranked (key preference) eligible = [] := ranked_eq_nil.mpr h
    simp only [select, dif_pos h]
    constructor
    · intro herror
      cases herror
    · rintro ⟨rfl, hhead, -⟩
      rw [hranked] at hhead
      cases hhead
  · simp only [select, dif_neg h, Except.ok.injEq, RouteDecision.mk.injEq]
    constructor
    · rintro ⟨rfl, rfl, rfl⟩
      exact ⟨rfl, List.head?_eq_some_head _, rfl⟩
    · rintro ⟨rfl, hhead, rfl⟩
      rw [List.head?_eq_some_head (ranked_ne_nil h)] at hhead
      exact ⟨Option.some.inj hhead, rfl, rfl⟩

/-- Nothing hangs on the order in which the entries were found. -/
theorem select_perm {reasons : List String} {eligible eligible' : List ModelCatalogEntry}
    {denied denied' : List String} (h : eligible.Perm eligible') (hdenied : denied.Perm denied')
    (hkeys : (eligible.map (key preference)).Nodup) :
    select preference reasons (eligible, denied) =
      select preference reasons (eligible', denied') := by
  have hcandidates := ranked_congr h hkeys
  have hdenials : ranked id denied.dedup = ranked id denied'.dedup :=
    ranked_congr hdenied.dedup (by rw [List.map_id]; exact List.nodup_dedup denied)
  by_cases hnil : eligible = []
  · have hnil' : eligible' = [] := by
      rw [hnil] at h
      exact h.nil_eq.symm
    simp only [select, dif_pos hnil, dif_pos hnil', hdenials]
  · have hnil' : eligible' ≠ [] := fun hnil' => hnil (by rw [hnil'] at h; exact h.eq_nil)
    simp only [select, dif_neg hnil, dif_neg hnil', hcandidates]

/-- There is one entry of an identity. -/
theorem filter_identity (hentry : entry ∈ catalog.given) :
    catalog.given.filter (fun e => e.identity = entry.identity) = [entry] := by
  obtain ⟨given, hdistinct⟩ := catalog
  change entry ∈ given at hentry
  show given.filter _ = _
  induction given with
  | nil => exact absurd hentry List.not_mem_nil
  | cons first rest ih =>
    obtain ⟨hfirst, hrest⟩ := List.nodup_cons.mp hdistinct
    rcases List.mem_cons.mp hentry with rfl | hmem
    · have hnone : rest.filter (fun e => e.identity = entry.identity) = [] := by
        rw [List.filter_eq_nil_iff]
        intro e he hidentity
        exact hfirst (List.mem_map.mpr ⟨e, he, of_decide_eq_true hidentity⟩)
      simp [hnone]
    · have hne : first.identity ≠ entry.identity := fun h =>
        hfirst (List.mem_map.mpr ⟨entry, hmem, h.symm⟩)
      simpa [hne] using ih hrest hmem

theorem get_eq (hentry : entry ∈ catalog.given) : catalog.get entry.identity = .ok entry := by
  rw [ModelCatalog.get, orRaise_eq_ok, ← List.head?_filter, filter_identity hentry]
  rfl

/-- The reasons for an explicit model. -/
def explicit (request : ModelRequest) : List String :=
  if request.requestedModel.isSome then ["explicit_model"] else []

/-- An unknown model is an error of the catalog. -/
theorem route_unknown (htenant : policy.tenantId = request.tenantId) {model : ModelIdentity}
    (hmodel : request.requestedModel = some model)
    (hunknown : ∀ entry ∈ catalog.given, entry.identity ≠ model) :
    route request catalog policy environment unavailable preference =
      .error (.catalogError ("unknown model: " ++ model.catalogKey)) := by
  have hfind : catalog.given.find? (fun entry => decide (entry.identity = model)) = none := by
    rw [List.find?_eq_none]
    intro entry hentry hidentity
    exact hunknown entry hentry (of_decide_eq_true hidentity)
  rw [route, raiseIf_bind, if_neg (not_not_intro htenant), entriesFor, hmodel]
  simp only [ModelCatalog.get, hfind]
  rfl

/-- **The result of a route** in the request's tenant, among no model or a known one. -/
theorem route_known (htenant : policy.tenantId = request.tenantId)
    (hknown : Known request catalog) :
    route request catalog policy environment unavailable preference =
      select preference (explicit request)
        (found request policy environment unavailable (considered request catalog)) := by
  rw [route, raiseIf_bind, if_neg (not_not_intro htenant), entriesFor]
  cases hmodel : request.requestedModel with
  | none =>
    have hperm : catalog.entries.Perm (considered request catalog) := by
      rw [considered, hmodel]
      exact ranked_perm _ _
    have hkeys : (catalog.entries.map (key preference)).Nodup :=
      (hperm.map _).nodup_iff.mpr nodup_considered_key
    show select preference [] (catalog.entries.foldl _ _) = _
    rw [foldl_consider, explicit, hmodel]
    exact select_perm (hperm.filter _) (hperm.flatMap_right _)
      (hkeys.sublist (List.filter_sublist.map _))
  | some model =>
    obtain ⟨entry, hentry, rfl⟩ := hknown model hmodel
    have hconsidered : considered request catalog = [entry] := by
      rw [considered, hmodel]
      exact filter_identity hentry
    simp only [get_eq hentry, hconsidered, explicit, hmodel]
    show select preference ["explicit_model"] (consider _ ([], []) entry) = _
    have hloop := foldl_consider (failures request policy environment unavailable) [entry] ([], [])
    exact congrArg (select preference ["explicit_model"]) hloop

/-- Candidates are entries of the catalog. -/
theorem mem_candidates {d : RouteDecision}
    (h : route request catalog policy environment unavailable preference = .ok d)
    (hentry : entry ∈ d.candidates) : entry ∈ catalog.given := by
  simp only [route, bind_eq_ok] at h
  obtain ⟨-, -, ⟨entries, reasons⟩, hentries, hselect⟩ := h
  rw [foldl_consider, List.nil_append, select_eq_ok] at hselect
  rw [hselect.1, mem_ranked, List.mem_filter] at hentry
  unfold entriesFor at hentries
  cases hmodel : request.requestedModel with
  | none =>
    rw [hmodel] at hentries
    cases hentries
    exact mem_ranked.1 hentry.1
  | some model =>
    simp only [hmodel, map_eq_ok] at hentries
    obtain ⟨e, he, heq⟩ := hentries
    cases heq
    rw [List.mem_singleton.1 hentry.1]
    rw [ModelCatalog.get, orRaise_eq_ok] at he
    exact List.mem_of_find?_eq_some he

theorem selected_mem {d : RouteDecision}
    (h : route request catalog policy environment unavailable preference = .ok d) :
    d.selected ∈ d.candidates := by
  simp only [route, bind_eq_ok] at h
  obtain ⟨-, -, ⟨entries, reasons⟩, -, hselect⟩ := h
  rw [foldl_consider, List.nil_append, select_eq_ok] at hselect
  exact List.mem_of_mem_head? hselect.2.1

/-- With nothing eligible the call is denied. -/
theorem select_eq_error {reasons : List String} {found : List ModelCatalogEntry × List String}
    (h : found.1 = []) :
    select preference reasons found =
      .error (.routeDenied (if found.2 = [] then ["no_catalog_candidates"]
        else ranked id found.2.dedup)) := by
  obtain ⟨eligible, denied⟩ := found
  by_cases hdenied : denied = []
  · simp [select, show eligible = [] from h, hdenied, ranked]
  · have hranked : ranked id denied.dedup ≠ [] := by
      intro hnil
      exact hdenied ((List.dedup_eq_nil denied).mp (ranked_eq_nil.mp hnil))
    simp only [select, dif_pos (show eligible = [] from h), if_neg hranked, if_neg hdenied]

theorem nodup_found_key : ((found request policy environment unavailable
    (considered request catalog)).1.map (key preference)).Nodup :=
  nodup_considered_key.sublist (List.filter_sublist.map _)

theorem mem_eligible : entry ∈ (found request policy environment unavailable
      (considered request catalog)).1 ↔
    entry ∈ considered request catalog ∧ Eligible request policy environment unavailable entry := by
  rw [found, List.mem_filter, decide_eq_true_eq, failures_eq_nil]

/-! ## Less to choose from -/

/-- Nothing was allowed and nothing made available: the allowlists have shrunk or stayed, the
unavailable models grown or stayed. -/
structure Tighter (policy : TenantPolicy) (unavailable : Finset ModelIdentity)
    (policy' : TenantPolicy) (unavailable' : Finset ModelIdentity) : Prop where
  tenantId : policy'.tenantId = policy.tenantId
  allowedModels : policy'.allowedModels ⊆ policy.allowedModels
  allowedProviders : policy'.allowedProviders ⊆ policy.allowedProviders
  allowedEnvironments : policy'.allowedEnvironments ⊆ policy.allowedEnvironments
  allowedDataResidencies : policy'.allowedDataResidencies ⊆ policy.allowedDataResidencies
  retention : policy'.allowProviderRetention = true → policy.allowProviderRetention = true
  unavailable : unavailable ⊆ unavailable'

namespace Tighter

/-- A check failed before is failed still. -/
theorem failed (h : Tighter policy unavailable policy' unavailable') {check : Check}
    (hfailed : check.Failed request policy environment unavailable entry) :
    check.Failed request policy' environment unavailable' entry := by
  cases check with
  | model => exact ⟨fun hm => hfailed.1 (h.allowedModels hm),
      fun hm => hfailed.2 (h.allowedModels hm)⟩
  | provider => exact fun hm => hfailed (h.allowedProviders hm)
  | environment => exact hfailed.imp_right fun hout hm => hout (h.allowedEnvironments hm)
  | residency =>
    intro residency hresidency hm
    exact hfailed residency hresidency (h.allowedDataResidencies hm)
  | retention =>
    refine ⟨hfailed.1, ?_⟩
    by_contra hallow
    have hbefore := h.retention (Bool.eq_true_of_not_eq_false hallow)
    exact absurd (hbefore.symm.trans hfailed.2) (by decide)
  | availability => exact h.unavailable hfailed
  | contextLimit => exact hfailed
  | outputLimit => exact hfailed
  | tools => exact hfailed
  | vision => exact hfailed
  | structuredOutput => exact hfailed

theorem eligible (h : Tighter policy unavailable policy' unavailable')
    (he : Eligible request policy' environment unavailable' entry) :
    Eligible request policy environment unavailable entry :=
  fun check hfailed => he check (h.failed hfailed)

/-- The entries found are those found before that still pass. -/
theorem found_eq (h : Tighter policy unavailable policy' unavailable')
    (entries : List ModelCatalogEntry) :
    (found request policy' environment unavailable' entries).1 =
      (found request policy environment unavailable entries).1.filter fun entry =>
        failures request policy' environment unavailable' entry = [] := by
  simp only [found, List.filter_filter]
  refine List.filter_congr fun entry _ => ?_
  rw [← Bool.decide_and, decide_eq_decide, failures_eq_nil, failures_eq_nil]
  exact ⟨fun he => ⟨he, h.eligible he⟩, And.left⟩

end Tighter

/-! ## Every route -/

/-- What a route results in. -/
structure Specified (request : ModelRequest) (catalog : ModelCatalog) (policy : TenantPolicy)
    (environment : Environment) (unavailable : Finset ModelIdentity)
    (preference : RoutePreference) : Prop where
  /-- An unknown model requested is an error of the catalog. -/
  unknown : ∀ model, request.requestedModel = some model →
    (∀ entry ∈ catalog.given, entry.identity ≠ model) →
    route request catalog policy environment unavailable preference =
      .error (.catalogError ("unknown model: " ++ model.catalogKey))
  /-- Where an entry passes, the candidates are those that do, best first. -/
  chosen : Known request catalog →
    (∃ entry ∈ considered request catalog,
      Eligible request policy environment unavailable entry) →
    ∃ d, route request catalog policy environment unavailable preference = .ok d ∧
      (∀ entry, entry ∈ d.candidates ↔ entry ∈ considered request catalog ∧
        Eligible request policy environment unavailable entry) ∧
      d.candidates.Pairwise (fun a b => key preference a < key preference b) ∧
      d.candidates.head? = some d.selected
  /-- Where none does, the call is denied with the names of the checks failed, in order. -/
  denied : Known request catalog →
    (¬∃ entry ∈ considered request catalog,
      Eligible request policy environment unavailable entry) →
    ∃ reasons, route request catalog policy environment unavailable preference =
        .error (.routeDenied reasons) ∧
      (catalog.given = [] → reasons = ["no_catalog_candidates"]) ∧
      (catalog.given ≠ [] → reasons.Pairwise (· < ·) ∧
        ∀ name, name ∈ reasons ↔ ∃ entry ∈ considered request catalog, ∃ check : Check,
          check.Failed request policy environment unavailable entry ∧ check.name = name)

/-- What the loop fails the considered entries for. -/
theorem mem_denied : name ∈ (found request policy environment unavailable
      (considered request catalog)).2 ↔
    ∃ entry ∈ considered request catalog, ∃ check : Check,
      check.Failed request policy environment unavailable entry ∧ check.name = name := by
  simp only [found, List.mem_flatMap, mem_failures]

/-- An empty catalog has no entry to consider; of another, a known model leaves one. -/
theorem considered_eq_nil (hknown : Known request catalog) :
    considered request catalog = [] ↔ catalog.given = [] := by
  constructor
  · intro hnil
    cases hmodel : request.requestedModel with
    | none =>
      rw [considered, hmodel] at hnil
      exact hnil
    | some model =>
      obtain ⟨entry, hentry, hidentity⟩ := hknown model hmodel
      have hmem : entry ∈ considered request catalog := by
        refine mem_considered.mpr ⟨hentry, fun model' hmodel' => ?_⟩
        rw [hidentity]
        exact Option.some.inj (hmodel.symm.trans hmodel')
      rw [hnil] at hmem
      exact absurd hmem List.not_mem_nil
  · intro hnil
    exact List.sublist_nil.mp (hnil ▸ considered_sublist)

theorem specified (htenant : policy.tenantId = request.tenantId) :
    Specified request catalog policy environment unavailable preference where
  unknown := fun _ hmodel hunknown => route_unknown htenant hmodel hunknown
  chosen := by
    rintro hknown ⟨entry, hentry, heligible⟩
    have hmem := mem_eligible.mpr ⟨hentry, heligible⟩
    have hne := List.ne_nil_of_mem hmem
    refine ⟨_, (route_known htenant hknown).trans (by rw [select, dif_neg hne]), ?_, ?_, ?_⟩
    · intro e
      exact mem_ranked.trans mem_eligible
    · exact ranked_strict nodup_found_key
    · exact List.head?_eq_some_head _
  denied := by
    intro hknown hnone
    have hnil : (found request policy environment unavailable
        (considered request catalog)).1 = [] := by
      rw [List.eq_nil_iff_forall_not_mem]
      intro entry hentry
      exact hnone ⟨entry, mem_eligible.mp hentry⟩
    refine ⟨_, (route_known htenant hknown).trans (select_eq_error hnil), ?_, ?_⟩
    · intro hempty
      have hconsidered := (considered_eq_nil hknown).mpr hempty
      rw [hconsidered]
      rfl
    · intro hgiven
      -- every considered entry has failed a check
      have hdenied : (found request policy environment unavailable
          (considered request catalog)).2 ≠ [] := by
        obtain ⟨entry, hentry⟩ := List.exists_mem_of_ne_nil _
          fun hc => hgiven ((considered_eq_nil hknown).mp hc)
        have hfails : ¬Eligible request policy environment unavailable entry :=
          fun he => hnone ⟨entry, hentry, he⟩
        unfold Eligible at hfails
        push Not at hfails
        obtain ⟨check, hfailed⟩ := hfails
        exact List.ne_nil_of_mem (mem_denied.mpr ⟨entry, hentry, check, hfailed, rfl⟩)
      rw [if_neg hdenied]
      constructor
      · exact ranked_strict (f := id) (by rw [List.map_id]; exact List.nodup_dedup _)
      · intro name
        rw [mem_ranked, List.mem_dedup, mem_denied]

theorem considered_perm (h : catalog.given.Perm catalog'.given) :
    (considered request catalog).Perm (considered request catalog') := by
  unfold considered
  cases request.requestedModel with
  | none => exact h
  | some model => exact h.filter _

/-- **The order in which the entries were given does not matter.** -/
theorem route_perm (htenant : policy.tenantId = request.tenantId)
    (h : catalog.given.Perm catalog'.given) :
    route request catalog policy environment unavailable preference =
      route request catalog' policy environment unavailable preference := by
  by_cases hknown : Known request catalog
  · have hknown' : Known request catalog' := by
      intro model hmodel
      obtain ⟨entry, hentry, hidentity⟩ := hknown model hmodel
      exact ⟨entry, h.mem_iff.mp hentry, hidentity⟩
    have hconsidered : (considered request catalog).Perm (considered request catalog') :=
      considered_perm h
    rw [route_known htenant hknown, route_known htenant hknown']
    exact select_perm (hconsidered.filter _) (hconsidered.flatMap_right _) nodup_found_key
  · unfold Known at hknown
    push Not at hknown
    obtain ⟨model, hmodel, hunknown⟩ := hknown
    rw [route_unknown htenant hmodel hunknown, route_unknown htenant hmodel]
    intro entry hentry
    exact hunknown entry (h.mem_iff.mpr hentry)

/-- **With less to choose from** some of the candidates are left, in their order, or the call
is denied. -/
theorem route_tighter (htenant : policy.tenantId = request.tenantId)
    (h : Tighter policy unavailable policy' unavailable') {d : RouteDecision}
    (hd : route request catalog policy environment unavailable preference = .ok d) :
    (∃ d', route request catalog policy' environment unavailable' preference = .ok d' ∧
      d'.candidates.Sublist d.candidates) ∨
    ∃ reasons, route request catalog policy' environment unavailable' preference =
      .error (.routeDenied reasons) := by
  have hknown : Known request catalog := by
    intro model hmodel
    by_contra hunknown
    push Not at hunknown
    rw [route_unknown htenant hmodel hunknown] at hd
    cases hd
  rw [route_known htenant hknown] at hd
  rw [route_known (h.tenantId.trans htenant) hknown]
  by_cases hnil : (found request policy' environment unavailable'
      (considered request catalog)).1 = []
  · exact .inr ⟨_, select_eq_error hnil⟩
  · refine .inl ⟨_, by rw [select, dif_neg hnil], ?_⟩
    show (ranked (key preference) _).Sublist _
    rw [(select_eq_ok.mp hd).1, h.found_eq, ranked_filter]
    · exact List.filter_sublist
    · exact nodup_found_key

/-- **Routing**, in the request's tenant.  The candidates are the entries that pass every
check, best first; a call is denied exactly when there is none; the order of the catalog does
not matter; and with less allowed or available some of the candidates are left, or none. -/
theorem routing (htenant : policy.tenantId = request.tenantId) (catalog : ModelCatalog)
    (environment : Environment) (unavailable : Finset ModelIdentity)
    (preference : RoutePreference) :
    Specified request catalog policy environment unavailable preference ∧
    (∀ catalog' : ModelCatalog, catalog.given.Perm catalog'.given →
      route request catalog' policy environment unavailable preference =
        route request catalog policy environment unavailable preference) ∧
    ∀ policy' unavailable', Tighter policy unavailable policy' unavailable' →
      ∀ d, route request catalog policy environment unavailable preference = .ok d →
        (∃ d', route request catalog policy' environment unavailable' preference = .ok d' ∧
          d'.candidates.Sublist d.candidates) ∨
        ∃ reasons, route request catalog policy' environment unavailable' preference =
          .error (.routeDenied reasons) :=
  ⟨specified htenant, fun _ h => (route_perm htenant h).symm,
    fun _ _ h _ hd => route_tighter htenant h hd⟩

/-- A question for any model of the policy. -/
def sampleRequest : ModelRequest where
  requestId := ⟨1, by decide⟩
  tenantId := "acme"
  runId := ⟨2, by decide⟩
  messages := [⟨.user, [.text "status?" (by decide)], none, by decide⟩]
  maxOutputTokens := 200
  promptTokenEstimate := 1000
  idempotencyKey := "run-2-status"
  valid := by decide

theorem routing_sample :
    Specified sampleRequest ⟨[Arithmetic.sampleEntry], by decide⟩ PolicyEvaluator.samplePolicy
      .production ∅ .cost :=
  (routing rfl ⟨[Arithmetic.sampleEntry], by decide⟩
    .production ∅ .cost).1

end ModelRouter

end AegisPlatform
