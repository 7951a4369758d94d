import AegisPlatform.System.Operations

/-!
# The calls clients make

`Call` lists the public operations of the work repository, of the gateway
repository and of the outbox, each with the arguments its callers choose;
`Call.proc` is the program of a call.  `Call.obeys` is the rule for all of them,
and from it comes what every run of the platform keeps.

* `AnyCall` — any client may make any call, with any lease.
* `HonestCall` — calls of the work repository present leases as a claim or a
  heartbeat returned them.
* `run_inv` — the invariant in every state of every run.
* `run_view_at` — an invariant of the steps of an item, in every run.
* `run_view` — an invariant of the steps that meet a condition, in every run
  whose commits meet it.
-/

namespace AegisPlatform

open Fallible Interleave

/-! ## The operations of the gateway repository -/

namespace Gateway

variable {strict : Prop} {w : World} {py : PyText} {context : TenantContext}
  {request : ModelRequest} {lease : WorkLease} {reservation : BudgetReservation}
  {at' : Timestamp} {ids : ℕ → UUID}

theorem lawful_record (hw : w.Inv) {values : List (DomainEventType × Dict)} {mutation : Mutation}
    {u : Unit} (hvalid : validate context request lease = .ok u)
    (hvalues : ∀ v ∈ values, v.1.isWork = false) (hwork : ∀ m, mutation ≠ .work m)
    (hgateway : ∀ m, mutation = .gateway m → m.tenantId = request.tenantId ∧ m.lease = lease) :
    Lawful strict (record py context request lease reservation at' ids values mutation) w := by
  obtain ⟨hcontext, htenant, -⟩ := validate_eq_ok hvalid
  refine obeys_check fun batch hbatch => obeys_query fun t ht => ?_
  have hfor := events_isFor htenant hbatch
  refine obeys_bind (lawful_appendFenced (hw.moves ht) rfl fun hall hfence v _ => ?_)
    fun _ _ _ _ => lawful_pure
  refine ⟨hfence, hall, fun m hm => absurd hm (hwork m), fun _ e he => ?_, fun m hm => ?_⟩
  · obtain ⟨value, hvalue, hisfor⟩ := hfor e he
    refine ⟨?_, hisfor.generation⟩
    rw [EventEnvelope.isWork, hisfor.eventType]
    exact hvalues value hvalue
  · obtain ⟨hmtenant, hmlease⟩ := hgateway m hm
    rw [hmlease]
    exact ⟨hmtenant.trans hcontext.symm, rfl, rfl, rfl⟩

theorem lawful_reserve (hw : w.Inv) (route : RouteDecision) (quotas : QuotaLimits)
    (tokenLimit : ℤ) (costLimitUsd : Decimal) (priceVersion : String) :
    Lawful strict (reserve py context request lease route quotas tokenLimit costLimitUsd
      priceVersion at' ids) w := by
  refine obeys_check fun _ hvalid => ?_
  refine obeys_bind (lawful_record hw hvalid ?_ (fun _ h => (by cases h)) fun m hm => ?_)
    fun _ _ _ _ => lawful_pure
  · simp only [List.forall_mem_cons, List.not_mem_nil, false_implies, implies_true, and_true]
    exact ⟨rfl, rfl, rfl⟩
  · cases hm
    exact ⟨rfl, rfl⟩

theorem lawful_recordAttempt (hw : w.Inv) (provider model : String) (attempt fallbackIndex : ℤ) :
    Lawful strict (recordAttempt py context request lease reservation provider model attempt
      fallbackIndex at' ids) w := by
  refine obeys_check fun _ hvalid => lawful_record hw hvalid ?_ (fun _ h => (by cases h))
    fun m hm => (by cases hm)
  intro v hv
  rcases List.mem_append.1 hv with hv | hv
  · split at hv
    · rw [List.mem_singleton.1 hv]; rfl
    · cases hv
  · rw [List.mem_singleton.1 hv]
    dsimp only
    split <;> rfl

theorem lawful_recordAttemptFailure (hw : w.Inv) (error : ModelGatewayError)
    (provider model : String) (attempt fallbackIndex : ℤ) :
    Lawful strict (recordAttemptFailure py context request lease reservation error provider model
      attempt fallbackIndex at' ids) w := by
  refine obeys_check fun _ hvalid => lawful_record hw hvalid ?_ (fun _ h => (by cases h))
    fun m hm => (by cases hm)
  intro v hv
  rw [List.mem_singleton.1 hv]
  exact isWork_failureEventType error

theorem lawful_succeed (hw : w.Inv) (response : ModelResponse) (pricing : PricingVersion) :
    Lawful strict (succeed py context request lease reservation response pricing at' ids) w := by
  refine obeys_check fun _ hvalid => obeys_check fun totals _ =>
    lawful_record hw hvalid ?_ (fun _ h => (by cases h)) fun m hm => ?_
  · simp only [List.forall_mem_cons, List.not_mem_nil, false_implies, implies_true, and_true]
    exact ⟨rfl, rfl, rfl, rfl⟩
  · cases hm
    exact ⟨rfl, rfl⟩

theorem lawful_recordUsageFailure (hw : w.Inv) (response : ModelResponse)
    (pricing : PricingVersion) (error : ModelGatewayError) :
    Lawful strict (recordUsageFailure py context request lease reservation response pricing error
      at' ids) w := by
  refine obeys_check fun _ hvalid => lawful_record hw hvalid ?_ (fun _ h => (by cases h))
    fun m hm => ?_
  · simp only [List.forall_mem_cons, List.not_mem_nil, false_implies, implies_true, and_true]
    exact ⟨isWork_failureEventType error, rfl, rfl, rfl⟩
  · cases hm
    exact ⟨rfl, rfl⟩

theorem lawful_fail (hw : w.Inv) (error : ModelGatewayError) :
    Lawful strict (fail py context request lease reservation error at' ids) w := by
  refine obeys_check fun _ hvalid => lawful_record hw hvalid ?_ (fun _ h => (by cases h))
    fun m hm => ?_
  · simp only [List.forall_mem_cons, List.not_mem_nil, false_implies, implies_true, and_true]
    exact ⟨isWork_failureEventType error, rfl⟩
  · cases hm
    exact ⟨rfl, rfl⟩

end Gateway

/-! ## Calls -/

/-- What a call returns. -/
inductive Outcome where
  | done
  | version (version : ℕ)
  | claimed (lease : Option WorkLease)
  | renewed (lease : WorkLease)
  | terminal (terminal : Bool)
  | reconciled (workIds : List UUID)
  | messages (messages : List ClaimedOutboxMessage)
  | reserved (reservation : BudgetReservation)

/-- The leases a caller gets. -/
def Outcome.leases : Outcome → List WorkLease
  | claimed lease => lease.toList
  | renewed lease => [lease]
  | _ => []

/-- The public operations of the platform with their arguments. -/
inductive Call where
  | register (context : TenantContext) (request : WorkRequest)
      (requestedEventId outboxMessageId : UUID)
  | markPublished (context : TenantContext) (delivery : QueueDelivery) (at' : Timestamp)
      (ids : ℕ → UUID)
  | claim (context : TenantContext) (delivery : QueueDelivery) (owner : String)
      (now expiresAt : Timestamp) (tenantConcurrencyLimit : ℤ) (ids : ℕ → UUID)
  | start (context : TenantContext) (delivery : QueueDelivery) (lease : WorkLease)
      (at' : Timestamp) (ids : ℕ → UUID)
  | heartbeat (context : TenantContext) (delivery : QueueDelivery) (lease : WorkLease)
      (at' expiresAt : Timestamp) (ids : ℕ → UUID)
  | succeed (context : TenantContext) (delivery : QueueDelivery) (lease : WorkLease)
      (at' : Timestamp) (resultReference : String) (ids : ℕ → UUID)
  | cancel (context : TenantContext) (delivery : QueueDelivery) (lease : WorkLease)
      (at' : Timestamp) (ids : ℕ → UUID)
  | fail (context : TenantContext) (delivery : QueueDelivery) (lease : WorkLease)
      (at' : Timestamp) (failureClass : FailureClass) (errorCode : String)
      (retryAt : Option Timestamp) (ids : ℕ → UUID)
  | release (context : TenantContext) (lease : WorkLease) (at' : Timestamp) (reason : String)
      (retryAt : Timestamp) (ids : ℕ → UUID)
  | requestCancel (context : TenantContext) (request : WorkRequest) (at' : Timestamp)
      (actorId : Option String) (ids : ℕ → UUID)
  | cancelById (context : TenantContext) (workId : UUID) (at' : Timestamp) (actorId : String)
      (ids : ℕ → UUID)
  | reconcileExpired (context : TenantContext) (now : Timestamp) (limit : ℤ) (ids : ℕ → UUID)
  | requeueDeadLetter (context : TenantContext) (workId : UUID) (at' : Timestamp)
      (approval : RequeueApproval) (actorId : String) (ids : ℕ → UUID)
  | approveDeadLetterRequeue (context : TenantContext) (workId : UUID)
      (approval : RequeueApproval) (expiresAt : Timestamp)
  | claimOutbox (context : TenantContext) (leaseOwner : String) (leaseExpiresAt now : Timestamp)
      (limit : ℤ) (destination : Option String)
  | markOutboxPublished (context : TenantContext) (messageId : UUID) (leaseOwner : String)
      (leaseExpiresAt publishedAt : Timestamp)
  | markOutboxFailed (context : TenantContext) (messageId : UUID) (leaseOwner : String)
      (leaseExpiresAt retryAt : Timestamp) (errorCode : String)
  | markOutboxDeadLettered (context : TenantContext) (messageId : UUID) (leaseOwner : String)
      (leaseExpiresAt : Timestamp) (errorCode : String)
  | reserve (context : TenantContext) (request : ModelRequest) (lease : WorkLease)
      (route : RouteDecision) (quotas : QuotaLimits) (tokenLimit : ℤ) (costLimitUsd : Decimal)
      (priceVersion : String) (at' : Timestamp) (ids : ℕ → UUID)
  | recordAttempt (context : TenantContext) (request : ModelRequest) (lease : WorkLease)
      (reservation : BudgetReservation) (provider model : String) (attempt fallbackIndex : ℤ)
      (at' : Timestamp) (ids : ℕ → UUID)
  | recordAttemptFailure (context : TenantContext) (request : ModelRequest) (lease : WorkLease)
      (reservation : BudgetReservation) (error : ModelGatewayError) (provider model : String)
      (attempt fallbackIndex : ℤ) (at' : Timestamp) (ids : ℕ → UUID)
  | modelSucceed (context : TenantContext) (request : ModelRequest) (lease : WorkLease)
      (reservation : BudgetReservation) (response : ModelResponse) (pricing : PricingVersion)
      (at' : Timestamp) (ids : ℕ → UUID)
  | recordUsageFailure (context : TenantContext) (request : ModelRequest) (lease : WorkLease)
      (reservation : BudgetReservation) (response : ModelResponse) (pricing : PricingVersion)
      (error : ModelGatewayError) (at' : Timestamp) (ids : ℕ → UUID)
  | modelFail (context : TenantContext) (request : ModelRequest) (lease : WorkLease)
      (reservation : BudgetReservation) (error : ModelGatewayError) (at' : Timestamp)
      (ids : ℕ → UUID)

namespace Call

/-- The lease a call of the work repository presents. -/
def lease? : Call → Option WorkLease
  | start _ _ lease .. | heartbeat _ _ lease .. | succeed _ _ lease .. | cancel _ _ lease .. |
    fail _ _ lease .. | release _ lease .. => some lease
  | _ => none

/-- The program of a call. -/
def proc (py : PyText) : Call → Op Outcome
  | register context request eventId messageId => do
    let version ← AegisPlatform.register py context request eventId messageId
    return .version version
  | markPublished context delivery at' ids => do
    AegisPlatform.markPublished py context delivery at' ids
    return .done
  | claim context delivery owner now expiresAt limit ids => do
    let lease ← AegisPlatform.claim py context delivery owner now expiresAt limit ids
    return .claimed lease
  | start context delivery lease at' ids => do
    AegisPlatform.start py context delivery lease at' ids
    return .done
  | heartbeat context delivery lease at' expiresAt ids => do
    let lease ← AegisPlatform.heartbeat py context delivery lease at' expiresAt ids
    return .renewed lease
  | succeed context delivery lease at' resultReference ids => do
    AegisPlatform.succeed py context delivery lease at' resultReference ids
    return .done
  | cancel context delivery lease at' ids => do
    AegisPlatform.cancel py context delivery lease at' ids
    return .done
  | fail context delivery lease at' failureClass errorCode retryAt ids => do
    let terminal ← AegisPlatform.fail py context delivery lease at' failureClass errorCode retryAt ids
    return .terminal terminal
  | release context lease at' reason retryAt ids => do
    AegisPlatform.release py context lease at' reason retryAt ids
    return .done
  | requestCancel context request at' actorId ids => do
    AegisPlatform.requestCancel context request at' actorId ids
    return .done
  | cancelById context workId at' actorId ids => do
    AegisPlatform.cancelById context workId at' actorId ids
    return .done
  | reconcileExpired context now limit ids => do
    let workIds ← AegisPlatform.reconcileExpired context now limit ids
    return .reconciled workIds
  | requeueDeadLetter context workId at' approval actorId ids => do
    AegisPlatform.requeueDeadLetter py context workId at' approval actorId ids
    return .done
  | approveDeadLetterRequeue context workId approval expiresAt => do
    AegisPlatform.approveDeadLetterRequeue context workId approval expiresAt
    return .done
  | claimOutbox context leaseOwner leaseExpiresAt now limit destination => do
    let messages ← AegisPlatform.claimOutbox context leaseOwner leaseExpiresAt now limit destination
    return .messages messages
  | markOutboxPublished context messageId leaseOwner leaseExpiresAt publishedAt => do
    AegisPlatform.markOutboxPublished context messageId leaseOwner leaseExpiresAt publishedAt
    return .done
  | markOutboxFailed context messageId leaseOwner leaseExpiresAt retryAt errorCode => do
    AegisPlatform.markOutboxFailed context messageId leaseOwner leaseExpiresAt retryAt errorCode
    return .done
  | markOutboxDeadLettered context messageId leaseOwner leaseExpiresAt errorCode => do
    AegisPlatform.markOutboxDeadLettered context messageId leaseOwner leaseExpiresAt errorCode
    return .done
  | reserve context request lease route quotas tokenLimit costLimitUsd priceVersion at' ids => do
    let reservation ← Gateway.reserve py context request lease route quotas tokenLimit costLimitUsd
      priceVersion at' ids
    return .reserved reservation
  | recordAttempt context request lease reservation provider model attempt fallbackIndex at' ids => do
    Gateway.recordAttempt py context request lease reservation provider model attempt fallbackIndex
      at' ids
    return .done
  | recordAttemptFailure context request lease reservation error provider model attempt
      fallbackIndex at' ids => do
    Gateway.recordAttemptFailure py context request lease reservation error provider model attempt
      fallbackIndex at' ids
    return .done
  | modelSucceed context request lease reservation response pricing at' ids => do
    Gateway.succeed py context request lease reservation response pricing at' ids
    return .done
  | recordUsageFailure context request lease reservation response pricing error at' ids => do
    Gateway.recordUsageFailure py context request lease reservation response pricing error at' ids
    return .done
  | modelFail context request lease reservation error at' ids => do
    Gateway.fail py context request lease reservation error at' ids
    return .done

end Call

/-- What is known of the leases of an outcome: those that were claimed are known,
whatever callers present. -/
def Outcome.Promises (strict : Prop) (o : Outcome) (w : World) : Prop :=
  ∀ lease ∈ o.leases, Promise (strict ∨ o = .claimed (some lease)) lease w

/-- **The rule for every call.**  Whatever runs in between, a call commits
legitimate transactions only, and the leases it returns are known. -/
theorem Call.obeys {strict : Prop} {w : World} (py : PyText) (c : Call) (hw : w.Inv)
    (hP : ∀ lease ∈ c.lease?, Promise strict lease w) :
    Obeys strict (Outcome.Promises strict) (c.proc py) w := by
  have hplain : ∀ {α : Type} {p : Op α} {o : α → Outcome}, (∀ a, (o a).leases = []) →
      Lawful strict p w → Obeys strict (Outcome.Promises strict) (p >>= fun a => pure (o a)) w := by
    intro α p o ho hp
    refine obeys_bind hp fun a t _ _ => obeys_pure fun u _ lease hlease => ?_
    rw [ho a] at hlease
    cases hlease
  cases c with
  | register => exact hplain (fun _ => rfl) (lawful_register ..)
  | markPublished => exact hplain (fun _ => rfl) (lawful_markPublished ..)
  | claim context delivery owner now expiresAt limit ids =>
    refine obeys_bind (obeys_claim py context hw delivery owner now expiresAt limit ids)
      fun r t ht hr => obeys_pure fun u hu lease hlease _ => ?_
    have hknown := hr lease (Option.mem_toList.1 hlease)
    exact ((World.stable_known _ _ _).moves (hw.moves ht) hknown hu).2
  | start => exact hplain (fun _ => rfl) (lawful_start hw (hP _ rfl) ..)
  | heartbeat context delivery lease at' expiresAt ids =>
    refine obeys_bind (obeys_heartbeat hw (hP _ rfl) delivery at' ids expiresAt)
      fun renewed t ht hr => obeys_pure fun u hu lease' hlease' hor => ?_
    rw [List.mem_singleton.1 hlease'] at hor ⊢
    rcases hor with hs | heq
    · exact ((stable_promise renewed).moves (hw.moves ht) hr hu).2 hs
    · cases heq
  | succeed => exact hplain (fun _ => rfl) (lawful_succeed hw (hP _ rfl) ..)
  | cancel => exact hplain (fun _ => rfl) (lawful_cancel hw (hP _ rfl) ..)
  | fail => exact hplain (fun _ => rfl) (lawful_fail hw (hP _ rfl) ..)
  | release => exact hplain (fun _ => rfl) (lawful_release hw (hP _ rfl) ..)
  | requestCancel => exact hplain (fun _ => rfl) (lawful_requestCancel ..)
  | cancelById => exact hplain (fun _ => rfl) (lawful_cancelById ..)
  | reconcileExpired => exact hplain (fun _ => rfl) (lawful_reconcileExpired _ _ _ hw _)
  | requeueDeadLetter => exact hplain (fun _ => rfl) (lawful_requeueDeadLetter ..)
  | approveDeadLetterRequeue => exact hplain (fun _ => rfl) (lawful_approveDeadLetterRequeue ..)
  | claimOutbox => exact hplain (fun _ => rfl) (lawful_claimOutbox ..)
  | markOutboxPublished => exact hplain (fun _ => rfl) (lawful_markOutboxPublished ..)
  | markOutboxFailed => exact hplain (fun _ => rfl) (lawful_markOutboxFailed ..)
  | markOutboxDeadLettered => exact hplain (fun _ => rfl) (lawful_markOutboxDeadLettered ..)
  | reserve => exact hplain (fun _ => rfl) (Gateway.lawful_reserve hw ..)
  | recordAttempt => exact hplain (fun _ => rfl) (Gateway.lawful_recordAttempt hw ..)
  | recordAttemptFailure => exact hplain (fun _ => rfl) (Gateway.lawful_recordAttemptFailure hw ..)
  | modelSucceed => exact hplain (fun _ => rfl) (Gateway.lawful_succeed hw ..)
  | recordUsageFailure => exact hplain (fun _ => rfl) (Gateway.lawful_recordUsageFailure hw ..)
  | modelFail => exact hplain (fun _ => rfl) (Gateway.lawful_fail hw ..)

/-! ## Runs of the platform -/

/-- The platform: the database and the calls made on it so far. -/
abbrev Platform := Sys World Txn (Except Raised Reply) Raised Outcome

/-- The platform before any call. -/
def Platform.initial (tenants : List String) (quotas : Table String QuotaLimits)
    (clock : Timestamp) : Platform := ⟨World.initial tenants quotas clock, []⟩

/-- Any client makes any call, with any lease. -/
def AnyCall (py : PyText) (_ : Platform) (p : Op Outcome) : Prop := ∃ c : Call, p = c.proc py

/-- Calls of the work repository present leases as earlier calls returned them. -/
def HonestCall (py : PyText) (s : Platform) (p : Op Outcome) : Prop :=
  ∃ c : Call, p = c.proc py ∧ ∀ lease ∈ c.lease?, ∃ o, .ret o ∈ s.procs ∧ lease ∈ o.leases

/-- Every call under way follows its rule. -/
def Platform.Follows (strict : Prop) (s : Platform) : Prop :=
  Sys.Follows postgres (Legit (Promise strict))
    (fun r t => ∀ o, r = .ok o → Outcome.Promises strict o t) s

/-- The calls the platform allows follow their rule. -/
def Lawfully (strict : Prop) (Calls : Platform → Op Outcome → Prop) : Prop :=
  ∀ s p, s.store.Inv → s.Follows strict → Calls s p →
    Obeys strict (Outcome.Promises strict) p s.store

theorem lawfully_anyCall (py : PyText) : Lawfully False (AnyCall py) := by
  rintro s p hs - ⟨c, rfl⟩
  exact c.obeys py hs fun _ _ h => h.elim

theorem lawfully_honestCall (py : PyText) : Lawfully True (HonestCall py) := by
  rintro s p hs hf ⟨c, rfl, hlease⟩
  refine c.obeys py hs fun lease hl => ?_
  obtain ⟨o, ho, hmem⟩ := hlease lease hl
  exact fun hs => hf _ ho s.store (Moves.refl _) o rfl lease hmem (Or.inl hs)

section Runs

variable {strict : Prop} {Calls : Platform → Op Outcome → Prop}
  {Meets : Platform → Action Txn → Prop} {s s' : Platform}

/-- **What legitimate transactions keep, runs keep.**  An invariant that every
legitimate transaction meeting the condition keeps, and that does not look at
the clock or the fenced transactions under way, holds along every run. -/
theorem run_keeps {I : World → Prop} (hcalls : Lawfully strict Calls)
    (hI : ∀ w w', w'.db = w.db → I w → I w')
    (hcommit : ∀ (s : Platform) i t c r, s.store.Inv → I s.store →
      Legit (Promise strict) c s.store → Meets s (.commit i c) →
      World.exec c s.store = some (t, r) → I t)
    (hrun : Run postgres Calls Meets s s') (hs : s.store.Inv) (hf : s.Follows strict)
    (h₀ : I s.store) : s'.store.Inv ∧ I s'.store ∧ s'.Follows strict := by
  obtain ⟨⟨hinv, hI'⟩, hf'⟩ := hrun.invariant (I := fun w => w.Inv ∧ I w) ⟨hs, h₀⟩ hf
    (fun s p hs hf hp => by
      have h := hcalls s p hs.1 hf hp
      unfold Obeys at h
      exact h)
    (fun s i t c r hs hc hm hexec =>
      ⟨hs.1.exec hc hexec, hcommit s i t c r hs.1 hs.2 hc hm hexec⟩)
    (fun w c hw _ => ⟨hw.1.abort c, hI _ _ (World.abort_cases c w).1 hw.2⟩)
    (fun w w' hw ht => ⟨hw.1.tick ht, by
      obtain ⟨clock, maintenance, locked, -, rfl⟩ := ht
      exact hI w _ rfl hw.2⟩)
  exact ⟨hinv, hI', hf'⟩

/-- The invariant of the platform holds along every run. -/
theorem run_inv (hcalls : Lawfully strict Calls) (hrun : Run postgres Calls Meets s s')
    (hs : s.store.Inv) (hf : s.Follows strict) : s'.store.Inv ∧ s'.Follows strict := by
  obtain ⟨hinv, -, hf'⟩ := run_keeps (I := fun _ => True) hcalls (fun _ _ _ _ => trivial)
    (fun _ _ _ _ _ _ _ _ _ _ => trivial) hrun hs hf trivial
  exact ⟨hinv, hf'⟩

/-- What every step of an item keeps, every run keeps. -/
theorem run_view_at {F : ItemView → Prop} (key : WorkKey) (hcalls : Lawfully strict Calls)
    (hF : ∀ {now op v v'}, v.Wf → F v → ItemStep now op v v' → F v')
    (hrun : Run postgres Calls Meets s s') (hs : s.store.Inv) (hf : s.Follows strict)
    (h₀ : F (s.store.db.view key)) : F (s'.store.db.view key) := by
  refine (run_keeps (I := fun w => F (w.db.view key)) hcalls (fun w w' hdb hw => hdb ▸ hw)
    (fun s i t c r hs hI hc _ hexec => ?_) hrun hs hf h₀).2.1
  rcases (World.effect hs hc hexec).cases key with hsame | ⟨op, hstep⟩
  · rw [hsame]; exact hI
  · exact hF (hs.wf key) hI hstep

theorem follows_initial {tenants : List String} {quotas : Table String QuotaLimits}
    {clock : Timestamp} : (Platform.initial tenants quotas clock).Follows strict :=
  fun _ h => (by cases h)

end Runs

/-- The work mutation of a transaction. -/
def Txn.work? : Txn → Option WorkMutation
  | append a | closeFenced _ a => match a.mutation with
    | .work m => some m
    | _ => none
  | _ => none

/-- Every work mutation, whenever it commits, meets the condition on what it does
and on what it does it to. -/
def CommitsMeet (Cond : ItemOp → ItemView → Prop) (s : Platform) : Action Txn → Prop
  | .commit _ c => ∀ w reply, World.exec c s.store = some (w, .ok reply) →
    ∀ m ∈ c.work?, Cond m.op (s.store.db.view m.key)
  | _ => True

/-- **What the steps that meet a condition keep, runs that meet it keep.** -/
theorem run_view {strict : Prop} {Calls : Platform → Op Outcome → Prop}
    {Cond : ItemOp → ItemView → Prop} {F : ItemView → Prop} {s s' : Platform}
    (hcalls : Lawfully strict Calls) (hmodel : ∀ v, Cond .model v)
    (hF : ∀ {now op v v'}, v.Wf → Cond op v → F v → ItemStep now op v v' → F v')
    (hrun : Run postgres Calls (CommitsMeet Cond) s s') (hs : s.store.Inv)
    (hf : s.Follows strict) (h₀ : ∀ key, F (s.store.db.view key)) (key : WorkKey) :
    F (s'.store.db.view key) := by
  refine (run_keeps (I := fun w => ∀ key, F (w.db.view key)) hcalls (fun w w' hdb hw => hdb ▸ hw)
    (fun s i t c r hs hI hc hm hexec key => ?_) hrun hs hf h₀).2.1 key
  have hkey : ∀ {k : WorkKey} {op : ItemOp}, Cond op (s.store.db.view k) →
      ItemStep s.store.clock op (s.store.db.view k) (t.db.view k) →
      (∀ k', k' ≠ k → t.db.view k' = s.store.db.view k') → F (t.db.view key) := by
    intro k op hcond hstep hframe
    by_cases hk : key = k
    · subst hk
      exact hF (hs.wf key) hcond (hI key) hstep
    · rw [hframe key hk]
      exact hI key
  cases World.effect hs hc hexec with
  | quiet hsame => rw [hsame key]; exact hI key
  | unfenced hmut _ _ hstep hframe =>
    exact hkey (hm _ _ hexec _ (by rw [Txn.work?, hmut]; rfl)) hstep hframe
  | fenced _ hmut _ _ _ _ _ _ hstep hframe =>
    exact hkey (hm _ _ hexec _ (by rw [Txn.work?, hmut]; rfl)) hstep hframe
  | model _ _ hstep hframe => exact hkey (hmodel _) hstep hframe

/-! ## Schedules -/

/-- A decision about what happens next on the platform. -/
inductive Scheduled where
  | call (c : Call)
  | go (i : ℕ)
  | wait (duration : ℕ)

namespace Scheduled

/-- The decision as the scheduler takes it. -/
def choice (py : PyText) : Scheduled → Choice World Txn (Except Raised Reply) Raised Outcome
  | call c => .call (c.proc py)
  | go i => .go i
  | wait duration => .tick fun w => { w with clock := w.clock + duration }

/-- Make a call, the `i`-th, and let it run to its end. -/
def whole (i : ℕ) (c : Call) : List Scheduled := .call c :: List.replicate 8 (.go i)

/-- Does a decision make no call that presents a lease? -/
def isUnleased : Scheduled → Bool
  | call c => c.lease?.isNone
  | _ => true

end Scheduled

theorem tick_wait (duration : ℕ) (w : World) :
    World.tick w { w with clock := w.clock + duration } :=
  ⟨_, _, _, le_add_of_nonneg_right (Int.natCast_nonneg duration), rfl⟩

/-- The test a schedule has to pass for its commits to meet a condition. -/
def meetsTest (Cond : ItemOp → ItemView → Prop) [∀ op v, Decidable (Cond op v)] (s : Platform) :
    Action Txn → Bool
  | .commit _ c => c.work?.all fun m => Cond m.op (s.store.db.view m.key)
  | _ => true

theorem commitsMeet_of_test (Cond : ItemOp → ItemView → Prop) [∀ op v, Decidable (Cond op v)]
    (s : Platform) (a : Action Txn) (h : meetsTest Cond s a = true) : CommitsMeet Cond s a := by
  cases a with
  | commit i c =>
    intro w reply _ m hm
    have hall := (Option.all_eq_true _ _).1 h m hm
    simpa using hall
  | _ => trivial

section

variable {Meets : Platform → Action Txn → Prop} {test : Platform → Action Txn → Bool}
  {s : Platform}

/-- A schedule of any calls is a run. -/
theorem exists_run_any (py : PyText) (cs : List Scheduled) (p : Platform → Bool)
    (htest : ∀ s a, test s a = true → Meets s a)
    (h : (Sys.drive postgres test (cs.map (Scheduled.choice py)) s).any p = true) :
    ∃ u, Run postgres (AnyCall py) Meets s u ∧ p u = true := by
  refine Sys.exists_run h (fun c hc => ?_) htest
  obtain ⟨x, -, rfl⟩ := List.mem_map.1 hc
  cases x with
  | call c => exact fun _ => ⟨c, rfl⟩
  | go i => trivial
  | wait duration => exact tick_wait duration

/-- A schedule of calls that present no lease is a run of honest callers. -/
theorem exists_run_honest (py : PyText) (cs : List Scheduled) (p : Platform → Bool)
    (hcs : cs.all Scheduled.isUnleased = true) (htest : ∀ s a, test s a = true → Meets s a)
    (h : (Sys.drive postgres test (cs.map (Scheduled.choice py)) s).any p = true) :
    ∃ u, Run postgres (HonestCall py) Meets s u ∧ p u = true := by
  refine Sys.exists_run h (fun c hc => ?_) htest
  obtain ⟨x, hx, rfl⟩ := List.mem_map.1 hc
  have hunleased := List.all_eq_true.1 hcs x hx
  cases x with
  | call c =>
    refine fun _ => ⟨c, rfl, fun lease hl => ?_⟩
    rw [Scheduled.isUnleased, Option.isNone_iff_eq_none] at hunleased
    rw [hunleased] at hl
    cases hl
  | go i => trivial
  | wait duration => exact tick_wait duration

/-- The test that lets every step pass. -/
def anyTest (_ : Platform) (_ : Action Txn) : Bool := true

theorem meets_of_anyTest (s : Platform) (a : Action Txn) (_ : anyTest s a = true) : True := trivial

end

end AegisPlatform
