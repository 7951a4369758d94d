import AegisPlatform.EventStore.Database
import Mathlib.Data.Finset.Sort
import Mathlib.Data.String.Basic

/-!
# Tenant policy

`PolicyEvaluator.evaluate` decides on a proposed operation from a tenant's policy and its
usage.

* `TenantPolicy`, `PolicyRequest`, `QuotaUsage` — what it is given; `evaluate` is the code.
* `Check` — the ten checks by what they are about; `violations_eq` says that the code lists
  the violated ones.
* `Harder` — nothing was loosened and nothing asked for less; `evaluate_spec` is what becomes
  of the decision.
-/

namespace AegisPlatform

open Fallible

/-! ## What is decided on -/

/-- The governance outcomes, in their order. -/
inductive Decision where
  | deny
  | requireApproval
  | allow
  deriving DecidableEq, Repr

namespace Decision

/-- The stored name of a decision. -/
def value : Decision → String
  | allow => "allow"
  | deny => "deny"
  | requireApproval => "require_approval"

def rank : Decision → ℕ
  | deny => 0
  | requireApproval => 1
  | allow => 2

theorem rank_injective : Function.Injective rank := by
  intro a b h
  cases a <;> cases b <;> simp_all [rank]

instance : LinearOrder Decision := LinearOrder.lift' rank rank_injective

theorem deny_le (d : Decision) : deny ≤ d := Nat.zero_le d.rank

theorem le_allow (d : Decision) : d ≤ allow := by
  show d.rank ≤ 2
  cases d <;> decide

end Decision

/-- `RiskLevel`. -/
inductive RiskLevel where
  | low
  | medium
  | high
  | critical
  deriving DecidableEq, Repr

namespace RiskLevel

def value : RiskLevel → ℕ
  | low => 1
  | medium => 2
  | high => 3
  | critical => 4

theorem value_injective : Function.Injective value := by
  intro a b h
  cases a <;> cases b <;> simp_all [value]

instance : LinearOrder RiskLevel := LinearOrder.lift' value value_injective

end RiskLevel

/-- `Role`. -/
inductive Role where
  | viewer
  | investigator
  | approver
  | operator
  | tenantAdmin
  | platformAdmin
  deriving DecidableEq, Repr

/-- The stored name of a role. -/
def Role.value : Role → String
  | viewer => "viewer"
  | investigator => "investigator"
  | approver => "approver"
  | operator => "operator"
  | tenantAdmin => "tenant_admin"
  | platformAdmin => "platform_admin"

theorem Role.value_injective : Function.Injective Role.value := by
  intro a b h
  cases a <;> cases b <;> first | rfl | exact absurd h (by decide)

/-- Roles in the order of their names. -/
instance : LinearOrder Role := LinearOrder.lift' Role.value Role.value_injective

/-- Versioned governance policy of a tenant. -/
structure TenantPolicy where
  tenantId : String
  version : String
  allowedModels : Finset String
  allowedTools : Finset String
  allowedConnectors : Finset String
  allowedEnvironments : Finset String
  maxRisk : RiskLevel
  approvalFromRisk : RiskLevel
  toolsRequiringApproval : Finset String
  approverRoles : Finset Role
  quotas : QuotaLimits
  allowedProviders : Finset String := ∅
  allowedDataResidencies : Finset String := ∅
  allowProviderRetention : Bool := false
  valid : version ≠ "" ∧ approverRoles ≠ ∅

/-- A proposed operation. -/
structure PolicyRequest where
  tenantId : String
  model : String
  tool : String
  connector : String
  environment : String
  risk : RiskLevel
  estimatedTokens : ℤ
  estimatedCostUsd : Decimal
  valid : model ≠ "" ∧ tool ≠ "" ∧ connector ≠ "" ∧ environment ≠ "" ∧ 0 ≤ estimatedTokens ∧
    0 ≤ estimatedCostUsd

/-- What a tenant has used in the period. -/
structure QuotaUsage where
  tenantId : String
  tenantTokensUsed : ℤ
  tenantCostUsd : Decimal
  activeRuns : ℤ
  valid : 0 ≤ tenantTokensUsed ∧ 0 ≤ activeRuns ∧ 0 ≤ tenantCostUsd

/-- A decision with its reasons. -/
structure PolicyDecision where
  decision : Decision
  reasons : List String
  policyVersion : String
  tenantId : String
  requiredApproverRoles : List Role := []
  deriving DecidableEq

/-! ## Evaluation -/

namespace PolicyEvaluator

/-- The reasons to deny, in the order they are found. -/
def violations (policy : TenantPolicy) (request : PolicyRequest) (usage : QuotaUsage) :
    List String :=
  let selectors := [("model_not_allowed", request.model, policy.allowedModels),
    ("tool_not_allowed", request.tool, policy.allowedTools),
    ("connector_not_allowed", request.connector, policy.allowedConnectors),
    ("environment_not_allowed", request.environment, policy.allowedEnvironments)]
  let quotas := policy.quotas
  (selectors.filter fun s => s.2.1 ∉ s.2.2).map (·.1) ++
    (if policy.maxRisk < request.risk then ["risk_threshold_exceeded"] else []) ++
    (if quotas.maxRunTokens < request.estimatedTokens then ["run_token_limit_exceeded"] else []) ++
    (if quotas.maxRunCostUsd < request.estimatedCostUsd then ["run_cost_limit_exceeded"]
      else []) ++
    (if quotas.maxTenantTokensPerPeriod < usage.tenantTokensUsed + request.estimatedTokens then
      ["tenant_token_limit_exceeded"] else []) ++
    (if quotas.maxTenantCostUsdPerPeriod <
        Decimal.add usage.tenantCostUsd request.estimatedCostUsd then
      ["tenant_cost_limit_exceeded"] else []) ++
    (if quotas.maxConcurrentRuns ≤ usage.activeRuns then ["tenant_concurrency_limit_exceeded"]
      else [])

/-- Does the operation need an approval? -/
def requiresApproval (policy : TenantPolicy) (request : PolicyRequest) : Prop :=
  policy.approvalFromRisk ≤ request.risk ∨ request.tool ∈ policy.toolsRequiringApproval

instance (policy : TenantPolicy) (request : PolicyRequest) :
    Decidable (requiresApproval policy request) :=
  inferInstanceAs (Decidable (_ ∨ _))

/-- `evaluate`. -/
def evaluate (context : TenantContext) (policy : TenantPolicy) (request : PolicyRequest)
    (usage : QuotaUsage) : PolicyDecision :=
  if policy.tenantId ≠ context.tenantId ∨ request.tenantId ≠ context.tenantId ∨
      usage.tenantId ≠ context.tenantId then
    { decision := .deny
      reasons := ["cross_tenant_policy"]
      policyVersion := policy.version
      tenantId := policy.tenantId }
  else if violations policy request usage ≠ [] then
    { decision := .deny
      reasons := violations policy request usage
      policyVersion := policy.version
      tenantId := policy.tenantId }
  else if requiresApproval policy request then
    { decision := .requireApproval
      reasons := ["approval_required"]
      policyVersion := policy.version
      tenantId := policy.tenantId
      requiredApproverRoles := policy.approverRoles.sort }
  else
    { decision := .allow
      reasons := ["policy_allowed"]
      policyVersion := policy.version
      tenantId := policy.tenantId }

/-! ## The checks -/

/-- What can stand against an operation. -/
inductive Check where
  | model
  | tool
  | connector
  | environment
  | risk
  | runTokens
  | runCost
  | tenantTokens
  | tenantCost
  | concurrency
  deriving DecidableEq, Repr

namespace Check

/-- The reason a violated check is given as. -/
def reason : Check → String
  | model => "model_not_allowed"
  | tool => "tool_not_allowed"
  | connector => "connector_not_allowed"
  | environment => "environment_not_allowed"
  | risk => "risk_threshold_exceeded"
  | runTokens => "run_token_limit_exceeded"
  | runCost => "run_cost_limit_exceeded"
  | tenantTokens => "tenant_token_limit_exceeded"
  | tenantCost => "tenant_cost_limit_exceeded"
  | concurrency => "tenant_concurrency_limit_exceeded"

def all : List Check :=
  [model, tool, connector, environment, risk, runTokens, runCost, tenantTokens, tenantCost,
    concurrency]

theorem mem_all (check : Check) : check ∈ all := by
  cases check <;> decide

/-- Is the check violated? -/
def Violated (policy : TenantPolicy) (request : PolicyRequest) (usage : QuotaUsage) : Check → Prop
  | model => request.model ∉ policy.allowedModels
  | tool => request.tool ∉ policy.allowedTools
  | connector => request.connector ∉ policy.allowedConnectors
  | environment => request.environment ∉ policy.allowedEnvironments
  | risk => policy.maxRisk < request.risk
  | runTokens => policy.quotas.maxRunTokens < request.estimatedTokens
  | runCost => policy.quotas.maxRunCostUsd < request.estimatedCostUsd
  | tenantTokens =>
    policy.quotas.maxTenantTokensPerPeriod < usage.tenantTokensUsed + request.estimatedTokens
  | tenantCost => policy.quotas.maxTenantCostUsdPerPeriod <
      Decimal.add usage.tenantCostUsd request.estimatedCostUsd
  | concurrency => policy.quotas.maxConcurrentRuns ≤ usage.activeRuns

instance (policy : TenantPolicy) (request : PolicyRequest) (usage : QuotaUsage) (check : Check) :
    Decidable (check.Violated policy request usage) := by
  cases check <;> unfold Violated <;> infer_instance

end Check

variable {context : TenantContext} {policy policy' : TenantPolicy}
  {request request' : PolicyRequest} {usage usage' : QuotaUsage}

/-- The reasons of the violated checks. -/
def violated (policy : TenantPolicy) (request : PolicyRequest) (usage : QuotaUsage) :
    List String :=
  (Check.all.filter fun check => check.Violated policy request usage).map Check.reason

theorem map_filter_cons {α β : Type*} (f : α → β) (p : α → Prop) [DecidablePred p] (a : α)
    (l : List α) :
    ((a :: l).filter fun x => p x).map f =
      (if p a then [f a] else []) ++ (l.filter fun x => p x).map f := by
  by_cases h : p a
  · simp [h]
  · simp [h]

/-- **The code lists the violated checks**, each once. -/
theorem violations_eq (policy : TenantPolicy) (request : PolicyRequest) (usage : QuotaUsage) :
    violations policy request usage = violated policy request usage := by
  simp only [violations, violated, Check.all, map_filter_cons, List.filter_nil, List.map_nil,
    List.append_nil, List.append_assoc]
  rfl

theorem violations_ne_nil :
    violations policy request usage ≠ [] ↔ ∃ check : Check, check.Violated policy request usage := by
  rw [violations_eq, violated, ne_eq, List.map_eq_nil_iff, List.filter_eq_nil_iff]
  push Not
  constructor
  · rintro ⟨check, -, h⟩
    exact ⟨check, of_decide_eq_true h⟩
  · rintro ⟨check, h⟩
    exact ⟨check, check.mem_all, decide_eq_true h⟩

theorem mem_violated {reason : String} :
    reason ∈ violated policy request usage ↔
      ∃ check : Check, check.Violated policy request usage ∧ check.reason = reason := by
  constructor
  · intro h
    obtain ⟨check, hc, rfl⟩ := List.mem_map.mp h
    exact ⟨check, of_decide_eq_true (List.mem_filter.mp hc).2, rfl⟩
  · rintro ⟨check, hc, rfl⟩
    exact List.mem_map.mpr ⟨check, List.mem_filter.mpr ⟨check.mem_all, decide_eq_true hc⟩, rfl⟩

theorem nodup_violated : (violated policy request usage).Nodup := by
  have hall : (Check.all.map Check.reason).Nodup := by decide
  exact hall.sublist (List.Sublist.map Check.reason List.filter_sublist)

/-! ## The outcomes -/

/-- The three inputs are of the context's tenant. -/
structure Own (context : TenantContext) (policy : TenantPolicy) (request : PolicyRequest)
    (usage : QuotaUsage) : Prop where
  policy : policy.tenantId = context.tenantId
  request : request.tenantId = context.tenantId
  usage : usage.tenantId = context.tenantId

theorem not_foreign (h : Own context policy request usage) :
    ¬(policy.tenantId ≠ context.tenantId ∨ request.tenantId ≠ context.tenantId ∨
      usage.tenantId ≠ context.tenantId) := by
  rintro (hp | hr | hu)
  · exact hp h.policy
  · exact hr h.request
  · exact hu h.usage

/-- An input of another tenant is denied whatever the rest. -/
theorem evaluate_foreign (h : ¬Own context policy request usage) :
    (evaluate context policy request usage).decision = .deny ∧
      (evaluate context policy request usage).reasons = ["cross_tenant_policy"] := by
  have hf : policy.tenantId ≠ context.tenantId ∨ request.tenantId ≠ context.tenantId ∨
      usage.tenantId ≠ context.tenantId := by
    by_contra hn
    push Not at hn
    exact h ⟨hn.1, hn.2.1, hn.2.2⟩
  rw [evaluate, if_pos hf]
  exact ⟨rfl, rfl⟩

theorem evaluate_violated (h : Own context policy request usage)
    (hv : ∃ check : Check, check.Violated policy request usage) :
    (evaluate context policy request usage).decision = .deny ∧
      (evaluate context policy request usage).reasons = violated policy request usage := by
  rw [evaluate, if_neg (not_foreign h), if_pos (violations_ne_nil.mpr hv)]
  exact ⟨rfl, violations_eq policy request usage⟩

/-- What passes every check is allowed, or put to the approvers. -/
theorem evaluate_passed (h : Own context policy request usage)
    (hv : ¬∃ check : Check, check.Violated policy request usage) :
    (evaluate context policy request usage).decision =
      if requiresApproval policy request then .requireApproval else .allow := by
  rw [evaluate, if_neg (not_foreign h), if_neg fun hn => hv (violations_ne_nil.mp hn)]
  by_cases ha : requiresApproval policy request
  · rw [if_pos ha, if_pos ha]
  · rw [if_neg ha, if_neg ha]

theorem decision_eq_deny (h : Own context policy request usage) :
    (evaluate context policy request usage).decision = .deny ↔
      ∃ check : Check, check.Violated policy request usage := by
  constructor
  · intro hd
    by_contra hv
    rw [evaluate_passed h hv] at hd
    by_cases ha : requiresApproval policy request
    · rw [if_pos ha] at hd
      exact absurd hd (by decide)
    · rw [if_neg ha] at hd
      exact absurd hd (by decide)
  · intro hv
    exact (evaluate_violated h hv).1

/-! ## Asking for more of less -/

/-- From the first operation to the second nothing was loosened: the risk, the estimates, the
usage and the tools under approval have grown or stayed, the allowlists, the quotas and the
risk thresholds have shrunk or stayed, and the same things are asked for. -/
structure Harder (policy : TenantPolicy) (request : PolicyRequest) (usage : QuotaUsage)
    (policy' : TenantPolicy) (request' : PolicyRequest) (usage' : QuotaUsage) : Prop where
  model : request'.model = request.model
  tool : request'.tool = request.tool
  connector : request'.connector = request.connector
  environment : request'.environment = request.environment
  risk : request.risk ≤ request'.risk
  estimatedTokens : request.estimatedTokens ≤ request'.estimatedTokens
  estimatedCostUsd : request.estimatedCostUsd ≤ request'.estimatedCostUsd
  tenantTokensUsed : usage.tenantTokensUsed ≤ usage'.tenantTokensUsed
  tenantCostUsd : usage.tenantCostUsd ≤ usage'.tenantCostUsd
  activeRuns : usage.activeRuns ≤ usage'.activeRuns
  toolsRequiringApproval : policy.toolsRequiringApproval ⊆ policy'.toolsRequiringApproval
  allowedModels : policy'.allowedModels ⊆ policy.allowedModels
  allowedTools : policy'.allowedTools ⊆ policy.allowedTools
  allowedConnectors : policy'.allowedConnectors ⊆ policy.allowedConnectors
  allowedEnvironments : policy'.allowedEnvironments ⊆ policy.allowedEnvironments
  maxRisk : policy'.maxRisk ≤ policy.maxRisk
  approvalFromRisk : policy'.approvalFromRisk ≤ policy.approvalFromRisk
  maxRunTokens : policy'.quotas.maxRunTokens ≤ policy.quotas.maxRunTokens
  maxRunCostUsd : policy'.quotas.maxRunCostUsd ≤ policy.quotas.maxRunCostUsd
  maxTenantTokens : policy'.quotas.maxTenantTokensPerPeriod ≤ policy.quotas.maxTenantTokensPerPeriod
  maxTenantCost : policy'.quotas.maxTenantCostUsdPerPeriod ≤ policy.quotas.maxTenantCostUsdPerPeriod
  maxConcurrentRuns : policy'.quotas.maxConcurrentRuns ≤ policy.quotas.maxConcurrentRuns

namespace Harder

/-- The rounded sum of costs only grows. -/
theorem cost_le (h : Harder policy request usage policy' request' usage') :
    Decimal.add usage.tenantCostUsd request.estimatedCostUsd ≤
      Decimal.add usage'.tenantCostUsd request'.estimatedCostUsd :=
  Decimal.add_mono usage.valid.2.2 request.valid.2.2.2.2.2 h.tenantCostUsd h.estimatedCostUsd

/-- A violated check stays violated. -/
theorem violated (h : Harder policy request usage policy' request' usage') {check : Check}
    (hc : check.Violated policy request usage) : check.Violated policy' request' usage' := by
  cases check with
  | model =>
    intro hm
    rw [h.model] at hm
    exact hc (h.allowedModels hm)
  | tool =>
    intro hm
    rw [h.tool] at hm
    exact hc (h.allowedTools hm)
  | connector =>
    intro hm
    rw [h.connector] at hm
    exact hc (h.allowedConnectors hm)
  | environment =>
    intro hm
    rw [h.environment] at hm
    exact hc (h.allowedEnvironments hm)
  | risk => exact (h.maxRisk.trans_lt hc).trans_le h.risk
  | runTokens => exact (h.maxRunTokens.trans_lt hc).trans_le h.estimatedTokens
  | runCost => exact (h.maxRunCostUsd.trans_lt hc).trans_le h.estimatedCostUsd
  | tenantTokens =>
    exact (h.maxTenantTokens.trans_lt hc).trans_le
      (add_le_add h.tenantTokensUsed h.estimatedTokens)
  | tenantCost => exact (h.maxTenantCost.trans_lt hc).trans_le h.cost_le
  | concurrency => exact (h.maxConcurrentRuns.trans hc).trans h.activeRuns

/-- What needed an approval still needs one. -/
theorem requiresApproval (h : Harder policy request usage policy' request' usage')
    (ha : PolicyEvaluator.requiresApproval policy request) :
    PolicyEvaluator.requiresApproval policy' request' := by
  rcases ha with hr | ht
  · exact .inl ((h.approvalFromRisk.trans hr).trans h.risk)
  · exact .inr (h.tool ▸ h.toolsRequiringApproval ht)

/-- **The decision never rises.** -/
theorem decision_le (h : Harder policy request usage policy' request' usage')
    (hown : Own context policy request usage) (hown' : Own context policy' request' usage') :
    (evaluate context policy' request' usage').decision ≤
      (evaluate context policy request usage).decision := by
  by_cases hv' : ∃ check : Check, check.Violated policy' request' usage'
  · rw [(evaluate_violated hown' hv').1]
    exact Decision.deny_le _
  · have hv : ¬∃ check : Check, check.Violated policy request usage := by
      rintro ⟨check, hc⟩
      exact hv' ⟨check, h.violated hc⟩
    rw [evaluate_passed hown hv, evaluate_passed hown' hv']
    by_cases ha : PolicyEvaluator.requiresApproval policy request
    · rw [if_pos ha, if_pos (h.requiresApproval ha)]
    · rw [if_neg ha]
      exact Decision.le_allow _

end Harder

/-- **The evaluation of policies.**  Nothing harder is decided more kindly; an operation of the
context's tenant is denied exactly when a check stands against it, with the reasons of exactly
those that do; and with an input of another tenant it is denied. -/
theorem evaluate_spec (context : TenantContext) :
    (∀ policy request usage policy' request' usage', Own context policy request usage →
      Own context policy' request' usage' → Harder policy request usage policy' request' usage' →
      (evaluate context policy' request' usage').decision ≤
        (evaluate context policy request usage).decision) ∧
    (∀ policy request usage, Own context policy request usage →
      ((evaluate context policy request usage).decision = .deny ↔
        ∃ check : Check, check.Violated policy request usage) ∧
      ((evaluate context policy request usage).decision = .deny →
        (evaluate context policy request usage).reasons.Nodup ∧
        ∀ reason, reason ∈ (evaluate context policy request usage).reasons ↔
          ∃ check : Check, check.Violated policy request usage ∧ check.reason = reason)) ∧
    ∀ policy request usage, (policy.tenantId ≠ context.tenantId ∨
        request.tenantId ≠ context.tenantId ∨ usage.tenantId ≠ context.tenantId) →
      (evaluate context policy request usage).decision = .deny := by
  refine ⟨fun _ _ _ _ _ _ hown hown' h => h.decision_le hown hown', fun policy request usage h =>
    ⟨decision_eq_deny h, fun hd => ?_⟩, fun policy request usage h => ?_⟩
  · rw [(evaluate_violated h ((decision_eq_deny h).mp hd)).2]
    exact ⟨nodup_violated, fun reason => mem_violated⟩
  · refine (evaluate_foreign fun hown => ?_).1
    exact not_foreign hown h

/-- A policy under which the sample operation may run once, after an approval. -/
def samplePolicy : TenantPolicy where
  tenantId := "acme"
  version := "3"
  allowedModels := {"large"}
  allowedTools := {"search"}
  allowedConnectors := {"tickets"}
  allowedEnvironments := {"staging"}
  maxRisk := .high
  approvalFromRisk := .high
  toolsRequiringApproval := {"search"}
  approverRoles := {.approver}
  quotas := ⟨1000, 5, 10000, 50, 1, by decide +kernel⟩
  valid := by decide

def sampleRequest : PolicyRequest where
  tenantId := "acme"
  model := "large"
  tool := "search"
  connector := "tickets"
  environment := "staging"
  risk := .medium
  estimatedTokens := 400
  estimatedCostUsd := 2
  valid := by decide +kernel

/-- With one run under way the sample operation no longer passes. -/
theorem evaluate_spec_sample :
    (evaluate ⟨"acme", by decide⟩ samplePolicy sampleRequest
      ⟨"acme", 0, 0, 1, by decide +kernel⟩).decision ≤
    (evaluate ⟨"acme", by decide⟩ samplePolicy sampleRequest
      ⟨"acme", 0, 0, 0, by decide +kernel⟩).decision := by
  refine (evaluate_spec ⟨"acme", by decide⟩).1 samplePolicy sampleRequest
    ⟨"acme", 0, 0, 0, by decide +kernel⟩ samplePolicy sampleRequest
    ⟨"acme", 0, 0, 1, by decide +kernel⟩ ⟨rfl, rfl, rfl⟩ ⟨rfl, rfl, rfl⟩ ?_
  constructor
  case activeRuns => decide
  all_goals rfl

end PolicyEvaluator

end AegisPlatform
