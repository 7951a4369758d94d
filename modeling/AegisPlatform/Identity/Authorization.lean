import AegisPlatform.Policy.Evaluator

/-!
# Principals and what they may do

* `TenantId`, `RoleBinding`, `Principal` — who asks, with the checks of the constructors.
* `rolePermissions`, `decide` — the fixed table of roles, and `AuthorizationService.decide`.
* `decide_allowed_iff` — a principal may do in its own tenant what one of its roles may do, as long
  as the binding is active.
-/

namespace AegisPlatform

open Fallible

/-! ## Identifiers -/

/-- Stable tenant identifier. -/
structure TenantId where
  value : String
  valid : isIdentifier value = true
  deriving Repr

theorem TenantId.value_inj {a b : TenantId} : a.value = b.value ↔ a = b := by
  cases a
  cases b
  simp

instance : DecidableEq TenantId := fun _ _ => decidable_of_iff _ TenantId.value_inj

/-- `TenantId(value)`. -/
def TenantId.make (value : String) : Except Raised TenantId :=
  if h : isIdentifier value = true then .ok ⟨value, h⟩
  else .error (.valueError "tenant_id must be a non-empty normalized identifier")

/-- `TenantContext(tenant_id)`. -/
def TenantId.context (t : TenantId) : TenantContext := ⟨t.value, t.valid⟩

theorem isIdentifier_platform : isIdentifier "platform" = true := by decide

def platformTenantId : TenantId := ⟨"platform", isIdentifier_platform⟩

structure UserId where
  value : String
  valid : isIdentifier value = true
  deriving Repr

theorem UserId.value_inj {a b : UserId} : a.value = b.value ↔ a = b := by
  cases a
  cases b
  simp

instance : DecidableEq UserId := fun _ _ => decidable_of_iff _ UserId.value_inj

structure ServiceIdentity where
  value : String
  valid : isIdentifier value = true
  deriving Repr

theorem ServiceIdentity.value_inj {a b : ServiceIdentity} : a.value = b.value ↔ a = b := by
  cases a
  cases b
  simp

instance : DecidableEq ServiceIdentity := fun _ _ => decidable_of_iff _ ServiceIdentity.value_inj

inductive PrincipalKind where
  | user
  | service
  deriving DecidableEq, Repr

/-- The stored name of a kind. -/
def PrincipalKind.value : PrincipalKind → String
  | user => "user"
  | service => "service"

/-! ## Permissions -/

inductive Permission where
  | tenantRead
  | resourceRead
  | investigationCreate
  | approvalDecide
  | operationPropose
  | policyRead
  | policyManage
  | quotaManage
  | auditRead
  | identityManage
  | roleBindingManage
  | secretReferenceManage
  | platformTenantCreate
  | platformAuditRead
  | queueRead
  | workCancel
  | dlqRequeue
  | workReconcile
  | modelRead
  | modelDiagnostic
  deriving DecidableEq, Repr

/-- The stored name of a permission. -/
def Permission.value : Permission → String
  | tenantRead => "tenant:read"
  | resourceRead => "resource:read"
  | investigationCreate => "investigation:create"
  | approvalDecide => "approval:decide"
  | operationPropose => "operation:propose"
  | policyRead => "policy:read"
  | policyManage => "policy:manage"
  | quotaManage => "quota:manage"
  | auditRead => "audit:read"
  | identityManage => "identity:manage"
  | roleBindingManage => "role_binding:manage"
  | secretReferenceManage => "secret_reference:manage"
  | platformTenantCreate => "platform:tenant:create"
  | platformAuditRead => "platform:audit:read"
  | queueRead => "queue:read"
  | workCancel => "work:cancel"
  | dlqRequeue => "dlq:requeue"
  | workReconcile => "work:reconcile"
  | modelRead => "model:read"
  | modelDiagnostic => "model:diagnostic"

/-- `ROLE_PERMISSIONS`. -/
def rolePermissions : Role → List Permission
  | .viewer => [.tenantRead, .resourceRead, .policyRead, .modelRead]
  | .investigator => [.tenantRead, .resourceRead, .policyRead, .investigationCreate, .modelRead,
      .modelDiagnostic]
  | .approver => [.tenantRead, .resourceRead, .policyRead, .approvalDecide, .modelRead]
  | .operator => [.tenantRead, .resourceRead, .policyRead, .operationPropose, .queueRead,
      .workCancel, .modelRead, .modelDiagnostic]
  | .tenantAdmin => [.tenantRead, .resourceRead, .policyRead, .policyManage, .quotaManage,
      .auditRead, .identityManage, .roleBindingManage, .secretReferenceManage, .queueRead,
      .workCancel, .dlqRequeue, .workReconcile, .modelRead, .modelDiagnostic]
  | .platformAdmin => [.tenantRead, .platformTenantCreate, .platformAuditRead, .workReconcile]

/-! ## Principals -/

/-- Server-side role assignment. -/
structure RoleBinding where
  tenantId : TenantId
  role : Role
  assignedBy : UserId ⊕ ServiceIdentity
  assignedAt : Timestamp
  expiresAt : Option Timestamp := none
  revokedAt : Option Timestamp := none
  valid : (role = .platformAdmin → tenantId = platformTenantId) ∧
    ∀ expires ∈ expiresAt, assignedAt < expires

/-- `is_active`. -/
def RoleBinding.isActive (b : RoleBinding) (at' : Timestamp) : Bool :=
  b.assignedAt ≤ at' && b.expiresAt.all (at' < ·) && b.revokedAt.all (at' < ·)

/-- Who an authenticated request comes from. -/
structure Principal where
  subject : String
  issuer : String
  tenantId : TenantId
  kind : PrincipalKind
  roleBindings : List RoleBinding
  userId : Option UserId := none
  serviceIdentity : Option ServiceIdentity := none
  valid : isIdentifier subject = true ∧ issuer ≠ "" ∧ userId.isSome ≠ serviceIdentity.isSome ∧
    (kind = .user → userId.isSome = true) ∧ (kind = .service → serviceIdentity.isSome = true) ∧
    ∀ b ∈ roleBindings, b.tenantId = tenantId

namespace Principal

/-- `actor_id`; the last case is ruled out by the constructor. -/
def actorId (p : Principal) : String :=
  match p.userId, p.serviceIdentity with
  | some user, _ => user.value
  | none, some service => service.value
  | none, none => ""

theorem actorId_ne (p : Principal) : p.actorId ≠ "" := by
  have hne : ∀ {s : String}, isIdentifier s = true → s ≠ "" := by
    rintro s hs rfl
    exact absurd hs (by decide)
  obtain ⟨-, -, hone, -⟩ := p.valid
  unfold actorId
  cases huser : p.userId with
  | some user => exact hne user.valid
  | none =>
    cases hservice : p.serviceIdentity with
    | some service => exact hne service.valid
    | none =>
      rw [huser, hservice] at hone
      exact absurd rfl hone

end Principal

/-! ## The decision -/

/-- Complete decision. -/
structure AuthorizationDecision where
  allowed : Bool
  reason : String
  tenantId : TenantId
  permission : String
  activeRoles : List Role

namespace AuthorizationService

/-- The roles of a principal that are active in the tenant, in the order of their names. -/
def activeRoles (principal : Principal) (tenantId : TenantId) (at' : Timestamp) : List Role :=
  ((principal.roleBindings.filter fun b => b.tenantId = tenantId && b.isActive at').map
    (·.role)).dedup.insertionSort (· ≤ ·)

/-- `decide`; a permission may also be a name that is none. -/
def decide (principal : Principal) (tenantId : TenantId) (permission : Permission ⊕ String)
    (at' : Timestamp) : AuthorizationDecision :=
  let permissionName := permission.elim Permission.value id
  if principal.tenantId ≠ tenantId then
    ⟨false, "cross_tenant_access_denied", tenantId, permissionName, []⟩
  else
    match permission with
    | .inr _ => ⟨false, "unknown_permission", tenantId, permissionName, []⟩
    | .inl permission =>
      let roles := activeRoles principal tenantId at'
      let granted := roles.any fun role => permission ∈ rolePermissions role
      ⟨granted, if granted then "role_permission_granted" else "permission_not_granted", tenantId,
        permissionName, roles⟩

variable {principal : Principal} {tenantId : TenantId} {permission : Permission} {at' : Timestamp}

theorem mem_activeRoles {role : Role} : role ∈ activeRoles principal tenantId at' ↔
    ∃ b ∈ principal.roleBindings, b.tenantId = tenantId ∧ b.isActive at' = true ∧ b.role = role := by
  simp only [activeRoles, List.mem_insertionSort, List.mem_dedup, List.mem_map, List.mem_filter,
    Bool.and_eq_true, decide_eq_true_eq, and_assoc]

/-- **Who is allowed**: a principal of the tenant, with an active binding to a role that may. -/
theorem decide_allowed_iff : (decide principal tenantId (.inl permission) at').allowed = true ↔
    principal.tenantId = tenantId ∧ ∃ b ∈ principal.roleBindings, b.isActive at' = true ∧
      permission ∈ rolePermissions b.role := by
  unfold decide
  by_cases htenant : principal.tenantId = tenantId
  · rw [if_neg (not_not.2 htenant)]
    simp only [List.any_eq_true, mem_activeRoles, decide_eq_true_eq]
    constructor
    · rintro ⟨role, ⟨b, hb, -, hactive, rfl⟩, hmem⟩
      exact ⟨htenant, b, hb, hactive, hmem⟩
    · rintro ⟨-, b, hb, hactive, hmem⟩
      exact ⟨b.role, ⟨b, hb, (principal.valid.2.2.2.2.2 b hb).trans htenant, hactive, rfl⟩, hmem⟩
  · rw [if_pos htenant]
    exact ⟨fun h => (by cases h), fun h => absurd h.1 htenant⟩

@[simp] theorem decide_tenantId (permission : Permission ⊕ String) :
    (decide principal tenantId permission at').tenantId = tenantId := by
  unfold decide
  split
  · rfl
  · cases permission <;> rfl

@[simp] theorem decide_permission :
    (decide principal tenantId (.inl permission) at').permission = permission.value := by
  unfold decide
  split <;> rfl

end AuthorizationService

end AegisPlatform
