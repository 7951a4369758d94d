import AegisPlatform.System.Outbox

/-!
# Publication leases

A publisher leases outbox messages for a while, sends them, and reports what came
of each under the lease it was given: the owner's name and the moment the lease
expires.  Nothing counts leases; what tells two of them apart is that a message is
leased again only after its lease has expired, and then for longer.

* `StoreCall` — the calls of the platform, and appends with any messages.
* `Txn.Quiet`, `Txn.Admitted`, `Call.commits` — what every client is known to commit.
* `outbox_never_stuck` — no message is left where no publisher may claim it.
* `publication_leases` — one holder at a time, and stale reports are refused.
-/

namespace AegisPlatform

open Fallible Interleave

/-! ## What clients commit -/

/-- The transactions that passed the checks of the operation that runs them: leases
last from a second to an hour, and messages may be tried at least once. -/
def Txn.Admitted : Txn → Prop
  | claimOutbox _ _ duration _ _ => seconds 1 ≤ duration ∧ duration ≤ seconds 3600
  | append a | closeFenced _ a => ∀ m ∈ a.outbox, 1 ≤ m.maxAttempts
  | _ => True

/-- The insertion of an item, if the mutation is one. -/
def WorkMutation.insertion? : WorkMutation → Option (WorkRequest × UUID)
  | insertWork request id => some (request, id)
  | _ => none

/-- The insertion of an item, if the mutation of an append is one. -/
def Mutation.insertion? : Mutation → Option (WorkRequest × UUID)
  | .work m => m.insertion?
  | _ => Option.none

/-- The approval of a requeue, if the mutation is one. -/
def WorkMutation.approval? : WorkMutation → Option RequeueApproval
  | requeueProjection _ _ approval .. => some approval
  | _ => none

/-- The approval of a requeue, if the mutation of an append is one. -/
def Mutation.approval? : Mutation → Option RequeueApproval
  | .work m => m.approval?
  | _ => Option.none

/-- Is the mutation of an append one of the work projection? -/
def Mutation.isWork : Mutation → Bool
  | .work _ => true
  | _ => false

/-- The transactions that add neither a message nor an item. -/
def Txn.Quiet : Txn → Prop
  | claimOutbox _ _ duration _ _ => seconds 1 ≤ duration ∧ duration ≤ seconds 3600
  | append a | closeFenced _ a => a.outbox = [] ∧ a.mutation.insertion? = none
  | _ => True

/-- The quiet transactions that requeue no dead letter. -/
def Txn.Plain : Txn → Prop
  | claimOutbox _ _ duration _ _ => seconds 1 ≤ duration ∧ duration ≤ seconds 3600
  | append a | closeFenced _ a =>
    a.outbox = [] ∧ a.mutation.insertion? = none ∧ a.mutation.approval? = none
  | _ => True

/-- The plain transactions of the work projection. -/
def Txn.PlainWork : Txn → Prop
  | claimOutbox _ _ duration _ _ => seconds 1 ≤ duration ∧ duration ≤ seconds 3600
  | append a | closeFenced _ a => a.outbox = [] ∧ a.mutation.insertion? = none ∧
    a.mutation.approval? = none ∧ a.mutation.isWork = true
  | _ => True

theorem Txn.PlainWork.plain {c : Txn} (h : c.PlainWork) : c.Plain := by
  cases c with
  | claimOutbox => exact h
  | append a => exact ⟨h.1, h.2.1, h.2.2.1⟩
  | closeFenced tx a => exact ⟨h.1, h.2.1, h.2.2.1⟩
  | _ => trivial

theorem Txn.Plain.quiet {c : Txn} (h : c.Plain) : c.Quiet := by
  cases c with
  | claimOutbox => exact h
  | append a => exact ⟨h.1, h.2.1⟩
  | closeFenced tx a => exact ⟨h.1, h.2.1⟩
  | _ => trivial

theorem Txn.Quiet.admitted {c : Txn} (h : c.Quiet) : c.Admitted := by
  cases c with
  | claimOutbox => exact h
  | append a => exact fun m hm => (by rw [h.1] at hm; cases hm)
  | closeFenced tx a => exact fun m hm => (by rw [h.1] at hm; cases hm)
  | _ => trivial

section Operations

open Proc

variable {context : TenantContext} {py : PyText} {P : Txn → Prop}

theorem commits_appendAtomic {events : List EventEnvelope} {version : ℕ} {mutation : Mutation}
    {outbox : List OutboxMessage} (h : P (.append {
      tenantId := context.tenantId
      events := events
      expectedVersion := version
      outbox := outbox
      mutation := mutation })) :
    (appendAtomic context events version mutation outbox).Commits P :=
  commits_bind (commits_ofExcept _) fun _ => commits_txn h

theorem commits_appendFromInbox {source messageId : String} {events : List EventEnvelope}
    {version : ℕ} {mutation : Mutation} (h : P (.append {
      tenantId := context.tenantId
      events := events
      expectedVersion := version
      inbox := some (source, messageId)
      mutation := mutation })) :
    (appendFromInbox context source messageId events version mutation).Commits P :=
  commits_bind (commits_ofExcept _) fun _ => commits_bind (commits_ofExcept _) fun _ =>
    commits_txn h

theorem commits_appendFenced {events : List EventEnvelope} {version : ℕ} {lease : WorkLease}
    {mutation : Mutation} {outbox : List OutboxMessage} (hopen : ∀ f, P (.openFenced f))
    (h : ∀ tx, P (.closeFenced tx {
      tenantId := context.tenantId
      events := events
      expectedVersion := version
      outbox := outbox
      mutation := mutation })) :
    (appendFenced context events version lease mutation outbox).Commits P :=
  commits_bind (commits_ofExcept _) fun _ => commits_bind (commits_ofExcept _) fun _ =>
    commits_bind (commits_txn (hopen _)) fun _ => commits_txn (h _)

theorem commits_appendLease {request : WorkRequest} {transition : WorkTransition}
    {lease : WorkLease} {eventId : UUID} {mutation : WorkMutation}
    (h : mutation.insertion? = none ∧ mutation.approval? = none) :
    (appendLease context request transition lease eventId mutation).Commits Txn.PlainWork :=
  commits_bind (commits_query _) fun _ => commits_bind (commits_ofExcept _) fun _ =>
    commits_appendFenced (fun _ => trivial) fun _ => ⟨rfl, h.1, h.2, rfl⟩

theorem commits_loadRequest {workId : UUID} : (loadRequest context workId).Commits P :=
  commits_bind (commits_query _) fun _ => commits_bind (commits_ofExcept _) fun _ =>
    commits_ofExcept _

theorem commits_verifyDelivery {delivery : QueueDelivery} :
    (verifyDelivery py context delivery).Commits P :=
  commits_bind (commits_ofExcept _) fun _ => commits_bind (commits_ofExcept _) fun _ =>
    commits_bind (commits_query _) fun _ => commits_bind (commits_ofExcept _) fun _ =>
      commits_bind (commits_ofExcept _) fun _ => commits_bind (commits_ofExcept _) fun _ =>
        commits_pure _

theorem admitted_message {message : OutboxMessage} (h : 1 ≤ message.maxAttempts) :
    ∀ m ∈ [message], 1 ≤ m.maxAttempts := by
  intro m hm
  rw [List.mem_singleton.1 hm]
  exact h

theorem commits_register {request : WorkRequest} {eventId messageId : UUID}
    (h : ∀ a : Append, (∀ m ∈ a.outbox, 1 ≤ m.maxAttempts) → a.mutation.approval? = none →
      a.mutation.isWork = true → P (.append a)) :
    (register py context request eventId messageId).Commits P := by
  refine commits_bind (commits_ofExcept _) fun _ => commits_bind (commits_ofExcept _) fun _ =>
    commits_bind (commits_ofExcept _) fun _ => commits_bind (commits_appendAtomic ?_) fun _ => ?_
  · exact h _ (admitted_message request.one_le_maxAttempts) rfl rfl
  · exact commits_pure _

theorem commits_markPublished {delivery : QueueDelivery} {at' : Timestamp} {ids : ℕ → UUID} :
    (markPublished py context delivery at' ids).Commits Txn.PlainWork := by
  refine commits_bind commits_verifyDelivery fun _ => ?_
  refine commits_bind (commits_query _) fun _ => ?_
  refine commits_bind (commits_ofExcept _) fun _ => ?_
  exact commits_bind (commits_appendFromInbox ⟨rfl, rfl, rfl, rfl⟩) fun _ => commits_pure _

theorem commits_claim {delivery : QueueDelivery} {owner : String} {now expiresAt : Timestamp}
    {limit : ℤ} {ids : ℕ → UUID} :
    (claim py context delivery owner now expiresAt limit ids).Commits Txn.PlainWork := by
  refine commits_bind (commits_ofExcept _) fun _ => commits_bind (commits_ofExcept _) fun _ =>
    commits_bind commits_verifyDelivery fun _ => commits_bind (commits_ofExcept _) fun _ => ?_
  split
  · exact commits_pure _
  · refine commits_bind (commits_query _) fun item => ?_
    split
    · exact commits_pure _
    · split
      · exact commits_pure _
      · refine commits_bind (commits_query _) fun _ => commits_bind (commits_ofExcept _) fun _ =>
          commits_bind (commits_query _) fun _ => commits_bind (commits_ofExcept _) fun _ =>
            commits_handle ?_ fun e => ?_
        · exact commits_bind (commits_appendAtomic ⟨rfl, rfl, rfl, rfl⟩) fun _ =>
            commits_bind (commits_ofExcept _) fun _ => commits_bind (commits_ofExcept _) fun _ =>
              commits_pure _
        · split
          · exact commits_pure _
          · exact commits_throw _

theorem commits_fail {delivery : QueueDelivery} {lease : WorkLease} {at' : Timestamp}
    {failureClass : FailureClass} {errorCode : String} {retryAt : Option Timestamp}
    {ids : ℕ → UUID} (hopen : ∀ f, P (.openFenced f))
    (h : ∀ tx (a : Append), (∀ m ∈ a.outbox, 1 ≤ m.maxAttempts) → a.mutation.approval? = none →
      a.mutation.isWork = true → P (.closeFenced tx a)) :
    (AegisPlatform.fail py context delivery lease at' failureClass errorCode retryAt ids).Commits
      P := by
  refine commits_bind (commits_ofExcept _) fun _ => commits_bind (commits_ofExcept _)
    fun request => commits_bind (commits_ofExcept _) fun _ => ?_
  split
  · refine commits_bind (commits_ofExcept _) fun _ => commits_bind (commits_query _) fun _ =>
      commits_bind (commits_appendFenced hopen fun tx => ?_) fun _ => commits_pure _
    exact h tx _ (fun _ hm => (by cases hm)) rfl rfl
  · refine commits_bind (commits_ofExcept _) fun _ => commits_bind (commits_query _) fun _ =>
      commits_bind (commits_appendFenced hopen fun tx => ?_) fun _ => commits_pure _
    exact h tx _ (admitted_message request.one_le_maxAttempts) rfl rfl

theorem commits_requestCancel {request : WorkRequest} {at' : Timestamp} {actorId : Option String}
    {ids : ℕ → UUID} : (requestCancel context request at' actorId ids).Commits Txn.PlainWork := by
  refine commits_bind (commits_query _) fun _ => commits_bind (commits_ofExcept _) fun _ =>
    commits_bind (commits_ofExcept _) fun _ => commits_bind (commits_ofExcept _) fun _ => ?_
  have hrest : ∀ events status, (do
      let version ← currentVersion context request.workId
      let _ ← appendAtomic context events version
        (.work (.cancelProjection request status at'))
      pure () : Op Unit).Commits Txn.PlainWork := fun events status =>
    commits_bind (commits_query _) fun _ =>
      commits_bind (commits_appendAtomic ⟨rfl, rfl, rfl, rfl⟩) fun _ => commits_pure _
  dsimp only
  split
  · exact commits_bind (commits_ofExcept _) fun _ => hrest _ _
  · exact hrest _ _

theorem commits_committed {append : Op Reply} (h : append.Commits P) :
    (committed append).Commits P := by
  refine commits_handle (commits_bind h fun _ => commits_pure _) fun e => ?_
  split
  · exact commits_pure _
  · exact commits_throw _

theorem commits_redriveAll {now : Timestamp} {ids : ℕ → UUID} (n : ℕ)
    (rows : List (UUID × UUID)) : (redriveAll context now ids n rows).Commits Txn.PlainWork := by
  induction rows generalizing n with
  | nil => exact commits_pure _
  | cons row rest ih =>
    refine commits_bind ?_ fun _ => commits_bind (ih _) fun _ => commits_pure _
    exact commits_bind commits_loadRequest fun _ => commits_bind (commits_ofExcept _) fun _ =>
      commits_bind (commits_query _) fun _ =>
        commits_committed (commits_appendAtomic ⟨rfl, rfl, rfl, rfl⟩)

theorem commits_expireAll {now : Timestamp} {ids : ℕ → UUID} (n : ℕ)
    (rows : List ExpiredLeaseRow) : (expireAll context now ids n rows).Commits Txn.PlainWork := by
  induction rows generalizing n with
  | nil => exact commits_pure _
  | cons row rest ih =>
    refine commits_bind ?_ fun _ => commits_bind (ih _) fun _ => commits_pure _
    exact commits_bind (commits_ofExcept _) fun _ => commits_bind commits_loadRequest fun _ =>
      commits_bind (commits_ofExcept _) fun _ => commits_bind (commits_ofExcept _) fun _ =>
        commits_bind (commits_query _) fun _ =>
          commits_committed (commits_appendAtomic ⟨rfl, rfl, rfl, rfl⟩)

theorem commits_reconcileExpired {now : Timestamp} {limit : ℤ} {ids : ℕ → UUID} :
    (reconcileExpired context now limit ids).Commits Txn.PlainWork := by
  have hrest : ∀ redrives expired, (do
      let redriven ← redriveAll context now ids 0 redrives
      let released ← expireAll context now ids redrives.length expired
      pure (redriven ++ released) : Op (List UUID)).Commits Txn.PlainWork := fun redrives expired =>
    commits_bind (commits_redriveAll _ _) fun _ =>
      commits_bind (commits_expireAll _ _) fun _ => commits_pure _
  refine commits_bind (commits_ofExcept _) fun _ => commits_bind (commits_query _) fun _ => ?_
  dsimp only
  split
  · exact commits_bind (commits_query _) fun _ => hrest _ _
  · exact hrest _ _

theorem commits_requeueDeadLetter {workId : UUID} {at' : Timestamp} {approval : RequeueApproval}
    {actorId : String} {ids : ℕ → UUID}
    (h : ∀ a : Append, (∀ m ∈ a.outbox, 1 ≤ m.maxAttempts) →
      a.mutation.approval? = some approval → (∀ e ∈ a.events,
        e.payload.get? "approval_id" = some (.str approval.approvalId.str)) →
      a.mutation.isWork = true → P (.append a)) :
    (requeueDeadLetter py context workId at' approval actorId ids).Commits P := by
  refine commits_bind commits_loadRequest fun request => commits_check fun reconciled hevent =>
    commits_bind (commits_query _) fun _ => commits_bind (commits_appendAtomic ?_)
      fun _ => commits_pure _
  refine h _ (admitted_message request.one_le_maxAttempts) rfl (fun e he => ?_) rfl
  rw [List.mem_singleton.1 he, WorkTransition.payload_toEvent hevent]
  exact (Dict.get?_set_ne (by decide)).trans (Dict.get?_set_ne (by decide))

theorem commits_claimOutbox {leaseOwner : String} {leaseExpiresAt now : Timestamp} {limit : ℤ}
    {destination : Option String} :
    (claimOutbox context leaseOwner leaseExpiresAt now limit destination).Commits Txn.PlainWork := by
  refine commits_check fun _ hlease => ?_
  rw [raiseIf_eq_ok, not_or, not_not] at hlease
  exact commits_bind (commits_ofExcept _) fun _ => commits_bind (commits_txn hlease.2) fun _ =>
    commits_pure _

theorem commits_record {request : ModelRequest} {lease : WorkLease}
    {reservation : BudgetReservation} {at' : Timestamp} {ids : ℕ → UUID}
    {values : List (DomainEventType × Dict)} {mutation : Mutation}
    (hopen : ∀ f, P (.openFenced f))
    (h : ∀ tx version batch, Gateway.events py request lease at' ids 1 none
      (values.map fun v => (v.1, Gateway.common request lease reservation ++ v.2)) = .ok batch →
      P (.closeFenced tx {
        tenantId := context.tenantId
        events := batch
        expectedVersion := version
        mutation := mutation })) :
    (Gateway.record py context request lease reservation at' ids values mutation).Commits P :=
  commits_check fun batch hbatch => commits_bind (commits_query _) fun version =>
    commits_bind (commits_appendFenced hopen fun tx => h tx version batch hbatch) fun _ =>
      commits_pure _

/-- A model call neither adds an item nor requeues one. -/
theorem plain_record {request : ModelRequest} {lease : WorkLease}
    {reservation : BudgetReservation} {at' : Timestamp} {ids : ℕ → UUID}
    {values : List (DomainEventType × Dict)} {mutation : Mutation}
    (h : mutation.insertion? = none ∧ mutation.approval? = none) :
    (Gateway.record py context request lease reservation at' ids values mutation).Commits
      Txn.Plain :=
  commits_record (fun _ => trivial) fun _ _ _ _ => ⟨rfl, h⟩

end Operations

/-- Does the call add messages? -/
def Call.isPosting : Call → Bool
  | register .. | fail .. | requeueDeadLetter .. => true
  | _ => false

/-- Is it a call of the model gateway? -/
def Call.isModel : Call → Bool
  | reserve .. | recordAttempt .. | recordAttemptFailure .. | modelSucceed .. |
    recordUsageFailure .. | modelFail .. => true
  | _ => false

open Proc in
/-- The other calls on items commit plain transactions of the work projection. -/
theorem Call.commits_plainWork (py : PyText) (c : Call) (hc : c.isPosting = false)
    (hmodel : c.isModel = false) : (c.proc py).Commits Txn.PlainWork := by
  have hdone : ∀ {α : Type} {p : Op α} {o : α → Outcome}, p.Commits Txn.PlainWork →
      (p >>= fun a => pure (o a)).Commits Txn.PlainWork :=
    fun hp => commits_bind hp fun _ => commits_pure _
  cases c with
  | register => cases hc
  | markPublished => exact hdone commits_markPublished
  | claim => exact hdone commits_claim
  | start =>
    exact hdone (commits_bind (commits_ofExcept _) fun _ =>
      commits_bind (commits_appendLease ⟨rfl, rfl⟩) fun _ => commits_pure _)
  | heartbeat =>
    exact hdone (commits_bind (commits_ofExcept _) fun _ => commits_bind (commits_ofExcept _)
      fun _ => commits_bind (commits_ofExcept _) fun _ => commits_bind (commits_ofExcept _)
        fun _ => commits_bind (commits_appendLease ⟨rfl, rfl⟩) fun _ => commits_bind (commits_ofExcept _)
          fun _ => commits_ofExcept _)
  | succeed =>
    exact hdone (commits_bind (commits_ofExcept _) fun _ =>
      commits_bind (commits_appendLease ⟨rfl, rfl⟩) fun _ => commits_pure _)
  | cancel =>
    exact hdone (commits_bind (commits_ofExcept _) fun _ =>
      commits_bind (commits_appendLease ⟨rfl, rfl⟩) fun _ => commits_pure _)
  | fail => cases hc
  | release =>
    exact hdone (commits_bind (commits_ofExcept _) fun _ => commits_bind commits_loadRequest
      fun _ => commits_bind (commits_appendLease ⟨rfl, rfl⟩) fun _ => commits_pure _)
  | requestCancel => exact hdone commits_requestCancel
  | cancelById =>
    exact hdone (commits_bind (commits_ofExcept _) fun _ => commits_bind commits_loadRequest
      fun _ => commits_requestCancel)
  | reconcileExpired => exact hdone commits_reconcileExpired
  | requeueDeadLetter => cases hc
  | approveDeadLetterRequeue =>
    exact hdone (commits_bind (commits_ofExcept _) fun _ =>
      commits_bind (commits_txn (by trivial)) fun _ => commits_pure _)
  | claimOutbox => exact hdone commits_claimOutbox
  | markOutboxPublished =>
    exact hdone (commits_bind (commits_txn (by trivial)) fun _ => commits_pure _)
  | markOutboxFailed =>
    exact hdone (commits_bind (commits_ofExcept _) fun _ =>
      commits_bind (commits_txn (by trivial)) fun _ => commits_pure _)
  | markOutboxDeadLettered =>
    exact hdone (commits_bind (commits_ofExcept _) fun _ =>
      commits_bind (commits_txn (by trivial)) fun _ => commits_pure _)
  | reserve | recordAttempt | recordAttemptFailure | modelSucceed | recordUsageFailure | modelFail =>
    cases hmodel

open Proc in
/-- The other calls commit plain transactions. -/
theorem Call.commits_plain (py : PyText) (c : Call) (hc : c.isPosting = false) :
    (c.proc py).Commits Txn.Plain := by
  have hdone : ∀ {α : Type} {p : Op α} {o : α → Outcome}, p.Commits Txn.Plain →
      (p >>= fun a => pure (o a)).Commits Txn.Plain :=
    fun hp => commits_bind hp fun _ => commits_pure _
  have hwork := c.commits_plainWork py hc
  cases c with
  | reserve =>
    exact hdone (commits_bind (commits_ofExcept _) fun _ =>
      commits_bind (plain_record ⟨rfl, rfl⟩) fun _ => commits_pure _)
  | recordAttempt =>
    exact hdone (commits_bind (commits_ofExcept _) fun _ => plain_record ⟨rfl, rfl⟩)
  | recordAttemptFailure =>
    exact hdone (commits_bind (commits_ofExcept _) fun _ => plain_record ⟨rfl, rfl⟩)
  | modelSucceed =>
    exact hdone (commits_bind (commits_ofExcept _) fun _ =>
      commits_bind (commits_ofExcept _) fun _ => plain_record ⟨rfl, rfl⟩)
  | recordUsageFailure =>
    exact hdone (commits_bind (commits_ofExcept _) fun _ => plain_record ⟨rfl, rfl⟩)
  | modelFail => exact hdone (commits_bind (commits_ofExcept _) fun _ => plain_record ⟨rfl, rfl⟩)
  | _ => exact (hwork rfl).mono fun _ => Txn.PlainWork.plain

/-- The transactions whose appends commit mutations of the work projection. -/
def Txn.IsWork : Txn → Prop
  | append a | closeFenced _ a => a.mutation.isWork = true
  | _ => True

theorem Txn.PlainWork.isWork {c : Txn} (h : c.PlainWork) : c.IsWork := by
  cases c with
  | append a => exact h.2.2.2
  | closeFenced tx a => exact h.2.2.2
  | _ => trivial

open Proc in
/-- **The calls on items commit mutations of the work projection only.** -/
theorem Call.commits_isWork (py : PyText) (c : Call) (hmodel : c.isModel = false) :
    (c.proc py).Commits Txn.IsWork := by
  have hplain := c.commits_plainWork py
  cases c with
  | register =>
    exact commits_bind (commits_register fun _ _ _ hwork => hwork) fun _ => commits_pure _
  | fail =>
    exact commits_bind (commits_fail (fun _ => trivial) fun _ _ _ _ hwork => hwork)
      fun _ => commits_pure _
  | requeueDeadLetter =>
    exact commits_bind (commits_requeueDeadLetter fun _ _ _ _ hwork => hwork)
      fun _ => commits_pure _
  | _ => exact (hplain rfl hmodel).mono fun _ => Txn.PlainWork.isWork

/-- **The other calls add neither a message nor an item.** -/
theorem Call.commits_quiet (py : PyText) (c : Call) (hc : c.isPosting = false) :
    (c.proc py).Commits Txn.Quiet :=
  (c.commits_plain py hc).mono fun _ => Txn.Plain.quiet

open Proc in
/-- **What every call is known to commit.** -/
theorem Call.commits (py : PyText) (c : Call) : (c.proc py).Commits Txn.Admitted := by
  have hquiet := c.commits_quiet py
  cases c with
  | register => exact commits_bind (commits_register fun _ h _ _ => h) fun _ => commits_pure _
  | fail =>
    exact commits_bind (commits_fail (fun _ => trivial) fun _ _ h _ _ => h) fun _ => commits_pure _
  | requeueDeadLetter =>
    exact commits_bind (commits_requeueDeadLetter fun _ h _ _ _ => h) fun _ => commits_pure _
  | _ => exact (hquiet rfl).mono fun _ => Txn.Quiet.admitted

/-- The programs of the event store's clients: the calls of the platform, and appends
with any messages that may be tried at least once. -/
inductive StoreCall (py : PyText) : Op Outcome → Prop
  | call (c : Call) : StoreCall py (c.proc py)
  | appendAtomic (context : TenantContext) (events : List EventEnvelope) (expectedVersion : ℕ)
      (mutation : Mutation) (outbox : List OutboxMessage) (h : ∀ m ∈ outbox, 1 ≤ m.maxAttempts) :
      StoreCall py (do
        let reply ← AegisPlatform.appendAtomic context events expectedVersion mutation outbox
        return .version reply.version)
  | appendFromInbox (context : TenantContext) (source messageId : String)
      (events : List EventEnvelope) (expectedVersion : ℕ) (mutation : Mutation) :
      StoreCall py (do
        let reply ← AegisPlatform.appendFromInbox context source messageId events expectedVersion
          mutation
        return .version reply.version)
  | appendFenced (context : TenantContext) (events : List EventEnvelope) (expectedVersion : ℕ)
      (lease : WorkLease) (mutation : Mutation) (outbox : List OutboxMessage)
      (h : ∀ m ∈ outbox, 1 ≤ m.maxAttempts) :
      StoreCall py (do
        let reply ← AegisPlatform.appendFenced context events expectedVersion lease mutation outbox
        return .version reply.version)

/-- Any client of the event store makes any call. -/
def AnyStoreCall (py : PyText) (_ : Platform) (p : Op Outcome) : Prop := StoreCall py p

theorem commits_anyStoreCall {py : PyText} (s : Platform) (p : Op Outcome)
    (h : AnyStoreCall py s p) : p.Commits Txn.Admitted := by
  cases h with
  | call c => exact c.commits py
  | appendAtomic _ _ _ _ _ h =>
    exact Proc.commits_bind (commits_appendAtomic h) fun _ => Proc.commits_pure _
  | appendFromInbox =>
    refine Proc.commits_bind (commits_appendFromInbox ?_) fun _ => Proc.commits_pure _
    exact fun _ hm => (by cases hm)
  | appendFenced _ _ _ _ _ _ h =>
    exact Proc.commits_bind (commits_appendFenced (fun _ => trivial) fun _ => h) fun _ =>
      Proc.commits_pure _

/-- No transaction moves the clock. -/
theorem World.exec_clock {w w' : World} {c : Txn} {r : Except Raised Reply}
    (h : World.exec c w = some (w', r)) : w'.clock = w.clock := by
  cases c with
  | append a =>
    rcases World.exec_append h with ⟨rfl, -⟩ | ⟨db', reply, -, -, rfl, -⟩ <;> rfl
  | openFenced f =>
    rcases World.exec_openFenced h with ⟨rfl, -⟩ | ⟨row, -, -, -, -, rfl, -⟩ <;> rfl
  | closeFenced tx a =>
    rcases World.exec_closeFenced h with
      ⟨-, rfl, -⟩ | ⟨t, -, ⟨e, -, -, rfl⟩ | ⟨db', reply, -, -, rfl⟩⟩ <;> rfl
  | _ =>
    obtain ⟨outbox, approvals, rfl⟩ := World.exec_other rfl h
    rfl

/-! ## No message is stuck -/

/-- The lease columns of a row. -/
def OutboxState.lease? : OutboxState → Option (String × Timestamp)
  | leased owner expiresAt => some (owner, expiresAt)
  | _ => none

/-- Is the message still to be sent: `status IN ('pending', 'leased')`? -/
def OutboxState.isOpen : OutboxState → Bool
  | pending | leased .. => true
  | _ => false

/-- A message whose publisher may still be found. -/
structure OutboxRow.Live (row : OutboxRow) : Prop where
  max : 1 ≤ row.maxAttempts
  pending : row.state = .pending → row.attemptCount < row.maxAttempts
  leased : ∀ owner expiresAt, row.state = .leased owner expiresAt → row.lastErrorCode = none

/-- A live message can be claimed as soon as its time has come and its lease is over. -/
theorem OutboxRow.Live.claimable {row : OutboxRow} (h : row.Live) (hopen : row.state.isOpen = true)
    {now : Timestamp} (havailable : row.availableAt ≤ now)
    (hexpired : ∀ lease ∈ row.state.lease?, lease.2 ≤ now) {destination : Option String}
    (hdestination : ∀ d ∈ destination, row.destination = d) :
    World.claimable now destination row = true := by
  have hd : destination.all (row.destination = ·) = true :=
    (Option.all_eq_true _ _).2 fun d hd => decide_eq_true (hdestination d hd)
  cases hst : row.state with
  | pending =>
    have hcount := h.pending hst
    simp [World.claimable, hst, hd, havailable, hcount]
  | leased owner expiresAt =>
    have herror := h.leased owner expiresAt hst
    have hend : expiresAt ≤ now := by
      rw [hst] at hexpired
      exact hexpired (owner, expiresAt) rfl
    simp [World.claimable, hst, hd, havailable, herror, hend]
  | _ => rw [hst] at hopen; cases hopen

theorem OutboxStep.live {now : Timestamp} {k : String × UUID} {c : Txn}
    {row row' : Option OutboxRow} (h : OutboxStep now k c row row') (hc : c.Admitted)
    (hrow : ∀ x ∈ row, x.Live) : ∀ x ∈ row', x.Live := by
  cases h with
  | same => exact hrow
  | @inserted _ message new hmessage hst hcount hmax =>
    rintro _ ⟨⟩
    have hpositive : 1 ≤ message.maxAttempts := by
      cases c with
      | append => exact hc message hmessage
      | closeFenced => exact hc message hmessage
      | _ => cases hmessage
    exact ⟨by omega, fun _ => by omega, fun _ _ h => by rw [hst] at h; cases h⟩
  | @redriven _ old _ _ _ =>
    rintro _ ⟨⟩
    have hmax := (hrow old rfl).max
    exact ⟨hmax, fun _ => hmax, fun _ _ h => (by cases h)⟩
  | @claimed _ _ _ _ old _ =>
    rintro _ ⟨⟩
    exact ⟨(hrow old rfl).max, fun h => (by cases h), fun _ _ _ => rfl⟩
  | @published _ _ _ old _ =>
    rintro _ ⟨⟩
    exact ⟨(hrow old rfl).max, fun h => (by cases h), fun _ _ h => (by cases h)⟩
  | @failed _ _ _ _ old _ =>
    rintro _ ⟨⟩
    refine ⟨(hrow old rfl).max, fun h => ?_, fun _ _ h => ?_⟩
    · dsimp only at h ⊢
      split at h
      · cases h
      · omega
    · dsimp only at h
      split at h <;> cases h
  | @deadLettered _ _ _ old _ =>
    rintro _ ⟨⟩
    exact ⟨(hrow old rfl).max, fun h => (by cases h), fun _ _ h => (by cases h)⟩

/-- A dead letter was one before, or the transaction made it one. -/
theorem OutboxStep.deadLetter {now : Timestamp} {k : String × UUID} {c : Txn}
    {row : Option OutboxRow} {row' : OutboxRow} (h : OutboxStep now k c row (some row'))
    (hdead : row'.state = .deadLetter) :
    ∃ old, row = some old ∧ (old.state = .deadLetter ∨ c.DeadLetters k old) := by
  cases h with
  | same => exact ⟨row', rfl, Or.inl hdead⟩
  | inserted _ hst => rw [hst] at hdead; cases hdead
  | redriven => cases hdead
  | claimed => cases hdead
  | published => cases hdead
  | @failed _ _ _ _ old =>
    refine ⟨old, rfl, Or.inr ⟨rfl, ?_⟩⟩
    by_contra hmax
    rw [if_neg hmax] at hdead
    cases hdead
  | @deadLettered _ _ _ old => exact ⟨old, rfl, Or.inr rfl⟩

section Runs

variable {py : PyText} {tenants : List String} {quotas : Table String QuotaLimits}
  {clock : Timestamp} {s : Platform}

theorem run_live
    (hrun : Run postgres (AnyStoreCall py) (fun _ _ => True)
      (Platform.initial tenants quotas clock) s) :
    ∀ k row, s.store.db.outbox.lookup k = some row → row.Live := by
  refine hrun.keeps_of_commits (I := fun w => ∀ k row, w.db.outbox.lookup k = some row → row.Live)
    commits_anyStoreCall ?_ ?_ ?_ (fun _ hp => (by cases hp)) (fun _ _ h => (by cases h))
  · intro s i c t r hc _ hs hexec k
    exact (World.outboxStep hexec k).live hc (hs k)
  · intro c w hw
    rw [show postgres.abort = World.abort from rfl, (World.abort_cases c w).1]
    exact hw
  · rintro w _ hw ⟨clock, maintenance, locked, -, rfl⟩
    exact hw

/-- **No message is stuck.**  In every state reached, a message that is pending has
attempts left and no lease, one that is leased has no error, and each of them may be
claimed once it is available and its lease has expired; and a message becomes a dead
letter only when a publisher says so or reports the last failure it is allowed. -/
theorem outbox_never_stuck
    (hrun : Run postgres (AnyStoreCall py) (fun _ _ => True)
      (Platform.initial tenants quotas clock) s) :
    (∀ k row, s.store.db.outbox.lookup k = some row →
      (row.state = .pending → row.attemptCount < row.maxAttempts ∧ row.state.lease? = none) ∧
      (∀ owner expiresAt, row.state = .leased owner expiresAt → row.lastErrorCode = none) ∧
      ∀ now, row.state.isOpen = true → row.availableAt ≤ now →
        (∀ lease ∈ row.state.lease?, lease.2 ≤ now) →
        World.claimable now none row = true ∧
        World.claimable now (some row.destination) row = true) ∧
    ∀ a u k row', Step postgres (AnyStoreCall py) s a u → u.store.db.outbox.lookup k = some row' →
      row'.state = .deadLetter → ∃ row, s.store.db.outbox.lookup k = some row ∧
        (row.state = .deadLetter ∨ ∃ i c, a = .commit i c ∧ c.DeadLetters k row) := by
  constructor
  · intro k row hrow
    have hlive := run_live hrun k row hrow
    refine ⟨fun hst => ⟨hlive.pending hst, by rw [hst]; rfl⟩, hlive.leased,
      fun now hopen havailable hexpired => ⟨?_, ?_⟩⟩
    · exact hlive.claimable hopen havailable hexpired fun _ h => (by cases h)
    · exact hlive.claimable hopen havailable hexpired fun _ h => Option.some.inj h
  · intro a u k row' hstep hrow' hdead
    cases hstep with
    | call _ => exact ⟨row', hrow', Or.inl hdead⟩
    | read _ => exact ⟨row', hrow', Or.inl hdead⟩
    | @commit i c _ _ _ _ hexec =>
      have hrow := World.outboxStep hexec k
      dsimp only at hrow'
      rw [hrow'] at hrow
      obtain ⟨row, hold, hcause⟩ := hrow.deadLetter hdead
      exact ⟨row, hold, hcause.imp id fun h => ⟨i, c, rfl, h⟩⟩
    | @abort i c _ _ =>
      rw [show postgres.abort = World.abort from rfl, (World.abort_cases c s.store).1] at hrow'
      exact ⟨row', hrow', Or.inl hdead⟩
    | tick htick =>
      obtain ⟨clock, maintenance, locked, -, rfl⟩ := htick
      exact ⟨row', hrow', Or.inl hdead⟩

theorem outbox_never_stuck_leased : ∃ s row,
    Run postgres (AnyStoreCall sampleText) (fun _ _ => True) samplePlatform s ∧
    s.store.db.outbox.lookup ("acme", UUID.ofNat 4) = some row ∧
    row.state = .leased "publisher" (seconds 60) ∧ row.attemptCount = row.maxAttempts ∧
    World.claimable (seconds 60) none row = true := by
  obtain ⟨s, hrun, hleased⟩ := exists_run_any (s := samplePlatform) sampleText
    (claimedSchedule.take 18) (fun s => (s.store.db.outbox.lookup ("acme", UUID.ofNat 4)).any
      fun row => row.state = .leased "publisher" (seconds 60) && row.attemptCount = row.maxAttempts &&
        row.availableAt ≤ seconds 60) meets_of_anyTest (by decide +kernel)
  obtain ⟨row, hrow, hleased⟩ := (Option.any_eq_true _ _).1 hleased
  simp only [Bool.and_eq_true, decide_eq_true_eq] at hleased
  obtain ⟨⟨hst, hcount⟩, havailable⟩ := hleased
  have hrun' : Run postgres (AnyStoreCall sampleText) (fun _ _ => True) samplePlatform s := by
    refine hrun.of_calls ?_
    rintro _ _ ⟨c, rfl⟩
    exact StoreCall.call c
  refine ⟨s, row, hrun', hrow, hst, hcount, ?_⟩
  refine (((outbox_never_stuck hrun').1 _ row hrow).2.2 (seconds 60) ?_ havailable ?_).1
  · rw [hst]
    rfl
  · rw [hst]
    rintro _ ⟨⟩
    exact le_rfl

end Runs

/-! ## One holder at a time -/

/-- The transaction reports on the message under the lease of `owner` that expires at
`expiresAt`. -/
def Txn.Marks (c : Txn) (k : String × UUID) (owner : String) (expiresAt : Timestamp) : Prop :=
  match c with
  | .markOutboxPublished tenantId messageId leaseOwner leaseExpiresAt _
  | .markOutboxFailed tenantId messageId leaseOwner leaseExpiresAt _ _
  | .markOutboxDeadLettered tenantId messageId leaseOwner leaseExpiresAt _ =>
    k = (tenantId, messageId) ∧ leaseOwner = owner ∧ leaseExpiresAt = expiresAt
  | _ => False

/-- The step is a claim that returns the message, leased to `owner` until
`expiresAt`. -/
def Leases (k : String × UUID) (owner : String) (expiresAt : Timestamp) (s : Platform)
    (a : Action Txn) : Prop :=
  ∃ i duration limit destination, a = .commit i (.claimOutbox k.1 owner duration limit destination) ∧
    ∃ m ∈ (s.store.claimOutbox k.1 owner duration limit destination).2,
      m.messageId = k.2 ∧ m.leaseExpiresAt = expiresAt

/-- The step is not a report that ends the lease. -/
def Unreleased (k : String × UUID) (owner : String) (expiresAt : Timestamp) (s : Platform) :
    Action Txn → Prop
  | .commit _ c => ∀ w reply, World.exec c s.store = some (w, .ok reply) →
    ¬ c.Marks k owner expiresAt
  | _ => True

namespace World

variable {w w' : World} {c : Txn} {r : Except Raised Reply} {k : String × UUID} {owner : String}
  {expiresAt : Timestamp}

/-- The message is leased to `owner` until `expiresAt`, or that time is over. -/
def LeasedUntil (k : String × UUID) (owner : String) (expiresAt : Timestamp) (w : World) : Prop :=
  (∃ row, w.db.outbox.lookup k = some row ∧ row.state = .leased owner expiresAt) ∨
    expiresAt ≤ w.clock

/-- The time is over, and a lease there is on the message ends later. -/
def LeasedLater (k : String × UUID) (expiresAt : Timestamp) (w : World) : Prop :=
  expiresAt ≤ w.clock ∧ ∀ row o e, w.db.outbox.lookup k = some row → row.state = .leased o e →
    expiresAt < e

/-- Only a report under it ends a lease before its time. -/
theorem leasedUntil_exec (h : exec c w = some (w', r))
    (hmarks : ∀ reply, r = .ok reply → ¬ c.Marks k owner expiresAt)
    (hw : LeasedUntil k owner expiresAt w) : LeasedUntil k owner expiresAt w' := by
  rcases hw with ⟨row, hrow, hst⟩ | hover
  · cases r with
    | error e =>
      unfold LeasedUntil
      rw [db_of_error h]
      exact Or.inl ⟨row, hrow, hst⟩
    | ok reply =>
      have hnot := hmarks reply rfl
      have hstep := outboxStep h k
      rw [hrow] at hstep
      unfold LeasedUntil
      rw [exec_clock h]
      generalize w'.db.outbox.lookup k = row' at hstep ⊢
      cases hstep with
      | same => exact Or.inl ⟨row, rfl, hst⟩
      | redriven hpublished => rw [hst] at hpublished; cases hpublished
      | claimed hclaimable =>
        -- the code leases it again only if the lease is over
        right
        rw [claimable, hst] at hclaimable
        simp only [Bool.and_eq_true, decide_eq_true_eq] at hclaimable
        exact hclaimable.2.2
      | published hleased =>
        rw [hst] at hleased
        cases hleased
        exact absurd ⟨rfl, rfl, rfl⟩ hnot
      | failed hleased =>
        rw [hst] at hleased
        cases hleased
        exact absurd ⟨rfl, rfl, rfl⟩ hnot
      | deadLettered hleased =>
        rw [hst] at hleased
        cases hleased
        exact absurd ⟨rfl, rfl, rfl⟩ hnot
  · right
    rw [exec_clock h]
    exact hover

/-- A lease given after that time ends later. -/
theorem leasedLater_exec (h : exec c w = some (w', r)) (hc : c.Admitted)
    (hw : LeasedLater k expiresAt w) : LeasedLater k expiresAt w' := by
  obtain ⟨hover, hlater⟩ := hw
  refine ⟨by rw [exec_clock h]; exact hover, ?_⟩
  intro row' o e hrow' hst'
  have hstep := outboxStep h k
  rw [hrow'] at hstep
  generalize hold : w.db.outbox.lookup k = old at hstep
  cases hstep with
  | same => exact hlater row' o e hold hst'
  | inserted _ hpending => rw [hpending] at hst'; cases hst'
  | redriven => cases hst'
  | claimed =>
    cases hst'
    have hpositive : 0 < seconds 1 := by decide
    exact lt_of_le_of_lt hover (lt_add_of_pos_right _ (lt_of_lt_of_le hpositive hc.1))
  | published => cases hst'
  | failed =>
    dsimp only at hst'
    split at hst' <;> cases hst'
  | deadLettered => cases hst'

/-- A report under another lease is refused, and changes nothing. -/
theorem exec_stale (hc : c.Marks k owner expiresAt)
    (hstale : ∀ row, w.db.outbox.lookup k = some row → row.state ≠ .leased owner expiresAt) :
    exec c w = some (w, .error (.concurrencyError 1 0)) := by
  have hrefused : ∀ f, w.settle (w.updateOutbox k.1 k.2 owner expiresAt f) =
      (w, .error (.concurrencyError 1 0)) := by
    intro f
    have hnone : w.db.outbox.updateWhere (k.1, k.2)
        (fun row => row.state = .leased owner expiresAt) f = none := by
      unfold Table.updateWhere
      cases hrow : w.db.outbox.lookup (k.1, k.2) with
      | none => rfl
      | some row => simp [hstale row hrow]
    unfold updateOutbox
    rw [hnone]
    rfl
  cases c with
  | markOutboxPublished tenantId messageId leaseOwner leaseExpiresAt publishedAt =>
    obtain ⟨rfl, rfl, rfl⟩ := hc
    exact congrArg some (hrefused _)
  | markOutboxFailed tenantId messageId leaseOwner leaseExpiresAt retryAt errorCode =>
    obtain ⟨rfl, rfl, rfl⟩ := hc
    exact congrArg some (hrefused _)
  | markOutboxDeadLettered tenantId messageId leaseOwner leaseExpiresAt errorCode =>
    obtain ⟨rfl, rfl, rfl⟩ := hc
    exact congrArg some (hrefused _)
  | _ => cases hc

end World

section Runs

variable {py : PyText} {tenants : List String} {quotas : Table String QuotaLimits}
  {clock : Timestamp} {s u : Platform} {a : Action Txn} {k : String × UUID} {owner : String}
  {expiresAt : Timestamp}

/-- A claim finds the message claimable and leaves it leased. -/
theorem leases_step (hstep : Step postgres (AnyStoreCall py) s a u)
    (hleases : Leases k owner expiresAt s a) :
    (∃ row destination, s.store.db.outbox.lookup k = some row ∧
      World.claimable s.store.clock destination row = true) ∧
    (∃ row, u.store.db.outbox.lookup k = some row ∧ row.state = .leased owner expiresAt) ∧
    u.store.clock = s.store.clock := by
  obtain ⟨i, duration, limit, destination, rfl, m, hm, hid, rfl⟩ := hleases
  obtain ⟨row, hrow, hclaimable, -, hexpires⟩ := World.mem_claimOutbox hm
  have hk : (k.1, m.messageId) = k := by rw [hid]
  cases hstep with
  | commit _ hexec =>
    rw [show postgres.exec = World.exec from rfl] at hexec
    have hclock := World.exec_clock hexec
    simp only [World.exec, Option.some.injEq, Prod.mk.injEq] at hexec
    obtain ⟨rfl, -⟩ := hexec
    refine ⟨⟨row, destination, hk ▸ hrow, hclaimable⟩, ?_, hclock⟩
    rcases World.lookup_claimOutbox s.store k.1 owner duration limit destination k with
      ⟨m', -, -, hleased⟩ | ⟨hnot, -⟩
    · rw [hk] at hrow
      rw [hrow] at hleased
      exact ⟨_, hleased, by rw [hexpires]⟩
    · exact absurd hk (hnot m hm)

theorem run_clock_le {Meets : Platform → Action Txn → Prop}
    (hrun : Run postgres (AnyStoreCall py) Meets s u) : s.store.clock ≤ u.store.clock := by
  refine hrun.keeps (I := fun w => s.store.clock ≤ w.clock) ?_ ?_ ?_ le_rfl
  · intro c w w' r hw hexec
    rw [World.exec_clock hexec]
    exact hw
  · intro c w hw
    rw [show postgres.abort = World.abort from rfl, (World.abort_cases c w).2.1]
    exact hw
  · rintro w _ hw ⟨clock, maintenance, locked, hclock, rfl⟩
    exact hw.trans hclock

/-- **One publisher at a time.**  A message is leased again only when the lease it was
under has expired, unless that was ended by a report; and once a lease has expired and
its message has been leased again, every report under it is refused and changes nothing,
for ever. -/
theorem publication_leases
    (hrun : Run postgres (AnyStoreCall py) (fun _ _ => True)
      (Platform.initial tenants quotas clock) s)
    (hstep : Step postgres (AnyStoreCall py) s a u) (hleases : Leases k owner expiresAt s a) :
    (∀ s₂ a₂ u₂ v owner₂ expiresAt₂,
      Run postgres (AnyStoreCall py) (Unreleased k owner expiresAt) u s₂ →
      Step postgres (AnyStoreCall py) s₂ a₂ u₂ → Leases k owner₂ expiresAt₂ s₂ a₂ →
      Run postgres (AnyStoreCall py) (fun _ _ => True) u₂ v →
      ¬ (v.store.clock < expiresAt ∧ v.store.clock < expiresAt₂)) ∧
    (∀ s₂ a₂ u₂ v owner₂ expiresAt₂,
      Run postgres (AnyStoreCall py) (fun _ _ => True) u s₂ → expiresAt ≤ s₂.store.clock →
      Step postgres (AnyStoreCall py) s₂ a₂ u₂ → Leases k owner₂ expiresAt₂ s₂ a₂ →
      Run postgres (AnyStoreCall py) (fun _ _ => True) u₂ v →
      ∀ c : Txn, c.Marks k owner expiresAt →
        World.exec c v.store = some (v.store, .error (.concurrencyError 1 0))) := by
  have hu : u.Commits Txn.Admitted :=
    (hrun.commits commits_anyStoreCall fun _ hp => (by cases hp)).step commits_anyStoreCall hstep
  obtain ⟨-, hleased, -⟩ := leases_step hstep hleases
  constructor
  · intro s₂ a₂ u₂ v owner₂ expiresAt₂ hun hstep₂ hleases₂ hlater hboth
    have huntil : World.LeasedUntil k owner expiresAt s₂.store := by
      refine hun.keeps_of_commits commits_anyStoreCall ?_ ?_ ?_ hu (Or.inl hleased)
      · intro t i c w r _ hm ht hexec
        exact World.leasedUntil_exec hexec (fun reply hr => hm w reply (hr ▸ hexec)) ht
      · intro c w hw
        rw [show postgres.abort = World.abort from rfl]
        unfold World.LeasedUntil
        rw [(World.abort_cases c w).1, (World.abort_cases c w).2.1]
        exact hw
      · rintro w _ hw ⟨clock, maintenance, locked, hclock, rfl⟩
        exact hw.imp id fun h => h.trans hclock
    obtain ⟨⟨row, destination, hrow, hclaimable⟩, -, hclock⟩ := leases_step hstep₂ hleases₂
    have hover : expiresAt ≤ s₂.store.clock := by
      rcases huntil with ⟨row', hrow', hst⟩ | hover
      · rw [hrow, Option.some.injEq] at hrow'
        subst hrow'
        rw [World.claimable, hst] at hclaimable
        simp only [Bool.and_eq_true, decide_eq_true_eq] at hclaimable
        exact hclaimable.2.2
      · exact hover
    have hmono := run_clock_le hlater
    rw [hclock] at hmono
    exact absurd hboth.1 (not_lt.2 (hover.trans hmono))
  · intro s₂ a₂ u₂ v owner₂ expiresAt₂ hun hover hstep₂ hleases₂ hlater c hc
    have hs₂ := hun.commits commits_anyStoreCall hu
    obtain ⟨-, ⟨row, hrow, hst⟩, hclock⟩ := leases_step hstep₂ hleases₂
    have hlonger : expiresAt < expiresAt₂ := by
      obtain ⟨i, duration, limit, destination, rfl, m, hm, -, rfl⟩ := hleases₂
      obtain ⟨-, -, -, -, hexpires⟩ := World.mem_claimOutbox hm
      have hduration : seconds 1 ≤ duration := (hs₂.of_commit hstep₂).1
      have hpositive : 0 < seconds 1 := by decide
      rw [hexpires]
      exact lt_of_le_of_lt hover (lt_add_of_pos_right _ (lt_of_lt_of_le hpositive hduration))
    have hbegin : World.LeasedLater k expiresAt u₂.store := by
      refine ⟨by rw [hclock]; exact hover, fun row' o e hrow' hst' => ?_⟩
      rw [hrow, Option.some.injEq] at hrow'
      subst hrow'
      rw [hst] at hst'
      cases hst'
      exact hlonger
    have hend : World.LeasedLater k expiresAt v.store := by
      refine hlater.keeps_of_commits commits_anyStoreCall ?_ ?_ ?_
        (hs₂.step commits_anyStoreCall hstep₂) hbegin
      · intro t i c w r hadmitted _ ht hexec
        exact World.leasedLater_exec hexec hadmitted ht
      · intro c w hw
        rw [show postgres.abort = World.abort from rfl]
        unfold World.LeasedLater
        rw [(World.abort_cases c w).1, (World.abort_cases c w).2.1]
        exact hw
      · rintro w _ hw ⟨clock, maintenance, locked, hclock, rfl⟩
        exact ⟨hw.1.trans hclock, hw.2⟩
    refine World.exec_stale hc fun row' hrow' hst' => ?_
    exact lt_irrefl _ (hend.2 row' owner expiresAt hrow' hst')

/-- Does the transaction lease the sample message until the given time? -/
def leasesTest (expiresAt : Timestamp) (w : World) : Txn → Bool
  | .claimOutbox tenantId owner duration limit destination =>
    tenantId = "acme" && owner = "publisher" &&
      (w.claimOutbox tenantId owner duration limit destination).2.any fun m =>
        m.messageId = UUID.ofNat 4 && m.leaseExpiresAt = expiresAt
  | _ => false

theorem leases_of_test {i : ℕ} {c : Txn} (h : leasesTest expiresAt s.store c = true) :
    Leases ("acme", UUID.ofNat 4) "publisher" expiresAt s (.commit i c) := by
  cases c with
  | claimOutbox tenantId owner duration limit destination =>
    simp only [leasesTest, Bool.and_eq_true, decide_eq_true_eq, List.any_eq_true] at h
    obtain ⟨⟨rfl, rfl⟩, m, hm, hid, hexpires⟩ := h
    exact ⟨i, duration, limit, destination, rfl, m, hm, hid, hexpires⟩
  | _ => cases h

/-- The test that stops a schedule at a commit. -/
def quietTest (_ : Platform) : Action Txn → Bool
  | .commit .. => false
  | _ => true

theorem unreleased_of_quiet (s : Platform) (a : Action Txn) (h : quietTest s a = true) :
    Unreleased k owner expiresAt s a := by
  cases a with
  | commit => cases h
  | _ => trivial

theorem scheduled_allowed (cs : List Scheduled) :
    ∀ c ∈ cs.map (Scheduled.choice py), c.Allowed postgres (AnyStoreCall py) := by
  intro c hc
  obtain ⟨x, -, rfl⟩ := List.mem_map.1 hc
  cases x with
  | call c => exact fun _ => .call c
  | go i => trivial
  | wait duration => exact tick_wait duration

/-- The sample message is leased, nobody reports, and it is leased again when a minute
has passed. -/
def leasedAgain : Bool :=
  (Sys.drive postgres anyTest ((claimedSchedule.take 10).map (Scheduled.choice sampleText))
    samplePlatform).any fun s => (s.commitOf postgres 1).any fun (c, u) =>
      leasesTest (seconds 60) s.store c &&
      (Sys.drive postgres quietTest ([.wait 60000000, .call (.claimOutbox sampleContext
          "publisher" (seconds 60) 0 10 none)].map (Scheduled.choice sampleText)) u).any fun s₂ =>
        (s₂.commitOf postgres 2).any fun (c₂, _) =>
          leasesTest (seconds 120) s₂.store c₂ && seconds 60 ≤ s₂.store.clock

theorem publication_leases_expired : ∃ s u s₂ u₂ c c₂,
    Run postgres (AnyStoreCall sampleText) (fun _ _ => True) samplePlatform s ∧
    Step postgres (AnyStoreCall sampleText) s (.commit 1 c) u ∧
    Leases ("acme", UUID.ofNat 4) "publisher" (seconds 60) s (.commit 1 c) ∧
    Run postgres (AnyStoreCall sampleText)
      (Unreleased ("acme", UUID.ofNat 4) "publisher" (seconds 60)) u s₂ ∧
    Step postgres (AnyStoreCall sampleText) s₂ (.commit 2 c₂) u₂ ∧
    Leases ("acme", UUID.ofNat 4) "publisher" (seconds 120) s₂ (.commit 2 c₂) ∧
    ¬ (u₂.store.clock < seconds 60 ∧ u₂.store.clock < seconds 120) ∧
    World.exec (.markOutboxPublished "acme" (UUID.ofNat 4) "publisher" (seconds 60) 0) u₂.store =
      some (u₂.store, .error (.concurrencyError 1 0)) := by
  have hleased : leasedAgain = true := by decide +kernel
  obtain ⟨s, hs, hleased⟩ := (Option.any_eq_true _ _).1 hleased
  obtain ⟨⟨c, u⟩, hu, hleased⟩ := (Option.any_eq_true _ _).1 hleased
  rw [Bool.and_eq_true] at hleased
  obtain ⟨s₂, hs₂, hagain⟩ := (Option.any_eq_true _ _).1 hleased.2
  obtain ⟨⟨c₂, u₂⟩, hu₂, hagain⟩ := (Option.any_eq_true _ _).1 hagain
  rw [Bool.and_eq_true, decide_eq_true_eq] at hagain
  have hrun : Run postgres (AnyStoreCall sampleText) (fun _ _ => True) samplePlatform s :=
    Sys.drive_run hs (scheduled_allowed _) meets_of_anyTest
  have hstep : Step postgres (AnyStoreCall sampleText) s (.commit 1 c) u := Sys.step_of_commitOf hu
  have hquiet : Run postgres (AnyStoreCall sampleText)
      (Unreleased ("acme", UUID.ofNat 4) "publisher" (seconds 60)) u s₂ :=
    Sys.drive_run hs₂ (scheduled_allowed _) unreleased_of_quiet
  have hstep₂ : Step postgres (AnyStoreCall sampleText) s₂ (.commit 2 c₂) u₂ :=
    Sys.step_of_commitOf hu₂
  have hleases := leases_of_test (i := 1) hleased.1
  have hleases₂ := leases_of_test (i := 2) hagain.1
  obtain ⟨halone, hrefused⟩ := publication_leases hrun hstep hleases
  exact ⟨s, u, s₂, u₂, c, c₂, hrun, hstep, hleases, hquiet, hstep₂, hleases₂,
    halone s₂ _ u₂ u₂ _ _ hquiet hstep₂ hleases₂ (.refl _),
    hrefused s₂ _ u₂ u₂ _ _ (hquiet.mono fun _ _ _ => trivial) hagain.2 hstep₂ hleases₂ (.refl _) _
      ⟨rfl, rfl, rfl⟩⟩

end Runs

end AegisPlatform
