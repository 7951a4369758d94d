import AegisPlatform.System.Attempts
import AegisPlatform.System.Publishing

/-!
# Requeues of dead letters

A dead letter goes back to the queue under the approval of somebody else.  The requeue
appends its event before it has looked at the approval or at the item, and it is the
transaction that takes the event back when one of them is not what it should be.

* `EventEnvelope.IsApprovedRequeue` — the events that say so, by their reason code.
* `Call.commits_namesApproval` — a requeue names its approval in its event.
* `Requeued` — what a requeue that commits has found, and what it has changed.
* `RequeueStep` — what any step does to events and approvals.
* `two_person_requeue` — over whole runs: every requeue has an approval of its own, given by
  another actor and used once.
-/

namespace AegisPlatform

open Fallible Interleave

/-! ## The events of requeues -/

/-- The event says that it is an approved requeue. -/
def EventEnvelope.IsApprovedRequeue (e : EventEnvelope) : Prop :=
  e.eventType = .workRetryScheduled ∧
    JsonValue.text? e.payload "reason_code" = some "approved_dlq_requeue"

/-- The event says that it is an approved requeue, and was written under no lease. -/
structure EventEnvelope.Requeues (e : EventEnvelope) : Prop where
  approved : e.IsApprovedRequeue
  unleased : e.leaseGeneration? = none

instance (e : EventEnvelope) : Decidable e.IsApprovedRequeue :=
  inferInstanceAs (Decidable (_ ∧ _))

instance (e : EventEnvelope) : Decidable e.Requeues :=
  decidable_of_iff (e.IsApprovedRequeue ∧ e.leaseGeneration? = none)
    ⟨fun h => ⟨h.1, h.2⟩, fun h => ⟨h.1, h.2⟩⟩

/-- The approval that an event names. -/
def EventEnvelope.approval? (e : EventEnvelope) : Option String :=
  JsonValue.text? e.payload "approval_id"

/-- The transactions whose events name the approval under which they requeue. -/
def Txn.NamesApproval : Txn → Prop
  | append a | closeFenced _ a => ∀ approval, a.mutation.approval? = some approval →
    ∀ e ∈ a.events, e.approval? = some approval.approvalId.str
  | _ => True

theorem Txn.NamesApproval.of_plain {c : Txn} (h : c.Plain) : c.NamesApproval := by
  cases c with
  | append a =>
    intro approval happroval
    rw [h.2.2] at happroval
    cases happroval
  | closeFenced tx a =>
    intro approval happroval
    rw [h.2.2] at happroval
    cases happroval
  | _ => trivial

open Proc in
/-- **A requeue names its approval**, and the other calls requeue nothing. -/
theorem Call.commits_namesApproval (py : PyText) (c : Call) :
    (c.proc py).Commits Txn.NamesApproval := by
  have hnone : ∀ {a : Append}, a.mutation.approval? = none → ∀ approval,
      a.mutation.approval? = some approval → ∀ e ∈ a.events,
        e.approval? = some approval.approvalId.str := by
    intro a hnone approval happroval
    rw [hnone] at happroval
    cases happroval
  have hplain := c.commits_plain py
  cases c with
  | register =>
    exact commits_bind (commits_register fun _ _ h _ => hnone h) fun _ => commits_pure _
  | fail =>
    exact commits_bind (commits_fail (fun _ => trivial) fun _ _ _ h _ => hnone h)
      fun _ => commits_pure _
  | requeueDeadLetter context workId at' approval =>
    refine commits_bind (commits_requeueDeadLetter fun a _ hmutation hevents _ => ?_)
      fun _ => commits_pure _
    intro approval' happroval
    rw [hmutation, Option.some.injEq] at happroval
    subst happroval
    intro e he
    unfold EventEnvelope.approval? JsonValue.text?
    rw [hevents e he]
  | _ => exact (hplain rfl).mono fun _ => Txn.NamesApproval.of_plain

/-! ## Approvals -/

/-- A mutation that requeues nothing leaves the approvals alone. -/
theorem WorkMutation.approvals_eq {m : WorkMutation} {now : Timestamp} {db db' : Database}
    (h : m.run now db = .ok db') (hm : m.approval? = none) : db'.approvals = db.approvals := by
  have hending : ∀ {lease : WorkLease} {at' : Timestamp} {reason : String} {e : Raised}
      {q : WorkLeaseRow → Bool} {p : WorkItemRow → Bool} {f : WorkItemRow → WorkItemRow}
      {db' : Database},
      (db.endLease lease at' reason q >>= fun db => db.updateItem lease.key e p f) = .ok db' →
      db'.approvals = db.approvals := by
    intro lease at' reason e q p f db' h
    simp only [bind_eq_ok, Database.endLease_eq_ok, Database.updateItem_eq_ok] at h
    obtain ⟨db₁, ⟨row, -, -, -, rfl⟩, item, -, -, rfl⟩ := h
    rfl
  have hupdate : ∀ {key : WorkKey} {e : Raised} {p : WorkItemRow → Bool}
      {f : WorkItemRow → WorkItemRow} {db' : Database},
      db.updateItem key e p f = .ok db' → db'.approvals = db.approvals := by
    intro key e p f db' h
    obtain ⟨item, -, -, rfl⟩ := Database.updateItem_eq_ok.1 h
    rfl
  cases m with
  | insertWork request id =>
    simp only [run, Database.insertWork, bind_eq_ok, pure_eq_ok] at h
    obtain ⟨-, -, items, -, rfl⟩ := h
    rfl
  | markProjection => exact hupdate h
  | claimProjection =>
    simp only [run, Database.claimProjection, bind_eq_ok] at h
    obtain ⟨-, -, db₁, h₁, h₂⟩ := h
    obtain ⟨-, rfl⟩ := Database.acquireLease_eq_ok h₂
    exact (hupdate h₁ : db₁.approvals = db.approvals)
  | markStarted => exact hupdate h
  | renewLease =>
    simp only [run, Database.renewLease, bind_eq_ok, pure_eq_ok] at h
    obtain ⟨leases, -, rfl⟩ := h
    rfl
  | cancelProjection => exact hupdate h
  | succeed => exact hending h
  | cancel => exact hending h
  | deadLetter lease at' errorCode =>
    simp only [run, Database.deadLetterInTransaction, Database.completeInTransaction, bind_eq_ok,
      pure_eq_ok] at h
    obtain ⟨db₂, hdone, rfl⟩ := h
    exact (hending (bind_eq_ok.2 hdone) : db₂.approvals = db.approvals)
  | retry => exact hending h
  | releaseProjection => exact hending h
  | redriveProjection tenantId messageId workId =>
    simp only [run, Database.redriveProjection, bind_eq_ok, pure_eq_ok] at h
    obtain ⟨outbox, -, rfl⟩ := h
    rfl
  | expireProjection lease cancelRequestedAt exhausted at' =>
    simp only [run, Database.expireProjection, bind_eq_ok] at h
    obtain ⟨-, -, h⟩ := h
    split at h
    · simp only [Database.deadLetterExpiredInTransaction, bind_eq_ok, pure_eq_ok] at h
      obtain ⟨db₁, h₁, db₂, h₂, rfl⟩ := h
      exact (hending (bind_eq_ok.2 ⟨db₁, h₁, h₂⟩) : db₂.approvals = db.approvals)
    · exact hending h
  | requeueProjection => cases hm

theorem Mutation.approvals_eq {m : Mutation} {now : Timestamp} {underMaintenance : String → Bool}
    {db db' : Database} (h : m.run now underMaintenance db = .ok db') (hm : m.approval? = Option.none) :
    db'.approvals = db.approvals := by
  cases m with
  | none =>
    cases h
    rfl
  | work m => exact WorkMutation.approvals_eq h hm
  | gateway m => rw [GatewayMutation.run_rest h]

/-- A mutation adds no event. -/
theorem Mutation.events_eq {m : Mutation} {now : Timestamp} {underMaintenance : String → Bool}
    {db db' : Database} (h : m.run now underMaintenance db = .ok db') : db'.events = db.events := by
  cases m with
  | none =>
    cases h
    rfl
  | work m => exact (WorkMutation.frame h).events
  | gateway m => rw [GatewayMutation.run_rest h]

/-! ## What a step does -/

/-- A requeue that has committed: the approval and the item it found, and what became of the
approval. -/
structure Requeued (w w' : World) (e : EventEnvelope) (workId approvalId : UUID)
    (actorId : String) (row : ApprovalRow) : Prop where
  aggregate : e.aggregateId = workId.str
  named : e.approval? = some approvalId.str
  found : w.db.approvals.lookup (e.tenantId, approvalId) = some row
  sameWork : row.workId = workId
  unconsumed : row.consumed = none
  unexpired : w.clock < row.expiresAt
  other : row.approvedBy ≠ actorId
  item : ∃ item, w.db.workItems.lookup (e.tenantId, workId) = some item ∧
    item.status = .deadLetter
  consumed : w'.db.approvals = w.db.approvals.upsert (e.tenantId, approvalId)
    { row with consumed := some (w.clock, actorId) }

/-- What a step does to events and approvals: it requeues nothing and keeps every approval as it
is, or it is a requeue that commits. -/
def RequeueStep (w w' : World) : Prop :=
  ∃ new, w'.db.events = w.db.events ++ new ∧
    (((∀ e ∈ new, ¬ e.Requeues) ∧ ∀ key row, w.db.approvals.lookup key = some row →
      w'.db.approvals.lookup key = some row) ∨
    ∃ e workId approvalId actorId row, new = [e] ∧
      Requeued w w' e workId approvalId actorId row)

theorem RequeueStep.refl {w w' : World} (h : w'.db = w.db) : RequeueStep w w' :=
  ⟨[], by rw [h, List.append_nil], Or.inl ⟨fun _ he => (by cases he), fun _ _ hrow => by rwa [h]⟩⟩

/-- Under no lease only a requeue schedules a retry. -/
theorem WorkMutation.requeue_of_types {m : WorkMutation} (hlease : m.lease? = none)
    (h : .workRetryScheduled ∈ m.types) : ∃ tenantId workId approval at' actorId,
      m = .requeueProjection tenantId workId approval at' actorId := by
  cases m with
  | requeueProjection tenantId workId approval at' actorId => exact ⟨_, _, _, _, _, rfl⟩
  | retry => cases hlease
  | releaseProjection => cases hlease
  | cancelProjection request status at' =>
    rw [types] at h
    split at h <;> simp at h
  | expireProjection lease cancelRequestedAt exhausted at' =>
    rw [types] at h
    cases cancelRequestedAt <;> cases exhausted <;> simp [expiryOutcome] at h
  | _ => simp [types] at h

/-- A mutation under a lease is no requeue. -/
theorem WorkMutation.approval_of_lease {m : WorkMutation} {lease : WorkLease}
    (h : m.lease? = some lease) : m.approval? = none := by
  cases m with
  | requeueProjection => cases h
  | _ => rfl

namespace World

variable {P : WorkLease → World → Prop} {w w' : World} {c : Txn} {r : Except Raised Reply}

/-- The append of a transaction, before its mutation runs. -/
theorem runAppend_cases {a : Append} {startedAt : Timestamp} {db' : Database} {reply : Reply}
    (h : w.runAppend a startedAt = .ok (db', reply)) : ∃ es db₁,
      (∃ version position, es = EventEnvelope.storeAll startedAt version position a.events) ∧
      db₁.events = w.db.events ++ es ∧ db₁.approvals = w.db.approvals ∧
      db₁.workItems = w.db.workItems ∧
      a.mutation.run w.clock (fun tenantId => tenantId ∈ w.maintenance) db₁ = .ok db' := by
  simp only [runAppend, bind_eq_ok, pure_eq_ok, Prod.mk.injEq, Prod.exists] at h
  obtain ⟨db₀, version, happend, db₂, hrun, rfl, -⟩ := h
  obtain ⟨first, -, -, -, hdb₀, -⟩ := Database.appendInTransaction_spec happend
  refine ⟨_, _, ⟨a.expectedVersion, w.db.nextPosition, rfl⟩, ?_, ?_, ?_, hrun⟩
  all_goals
    cases a.inbox <;> (rw [hdb₀])

/-- An append that schedules no retry but under a lease, and requeues nothing. -/
theorem requeueStep_quiet {a : Append} {startedAt : Timestamp} {db' : Database} {reply : Reply}
    (hrun : w.runAppend a startedAt = .ok (db', reply)) (hw' : w'.db = db')
    (hmutation : a.mutation.approval? = none)
    (hevents : ∀ e ∈ a.events, e.eventType = .workRetryScheduled → e.leaseGeneration? ≠ none) :
    RequeueStep w w' := by
  obtain ⟨es, db₁, ⟨version, position, rfl⟩, hes, happrovals, -, hmut⟩ := runAppend_cases hrun
  refine ⟨_, by rw [hw', Mutation.events_eq hmut, hes], Or.inl ⟨fun e he hrequeues => ?_, ?_⟩⟩
  · obtain ⟨e₀, he₀, -, -, htype, hpay⟩ := EventEnvelope.mem_storeAll he
    refine hevents e₀ he₀ (htype ▸ hrequeues.approved.1) ?_
    have hunleased := hrequeues.unleased
    unfold EventEnvelope.leaseGeneration? at *
    rwa [← hpay]
  · intro key row hrow
    rw [hw', Mutation.approvals_eq hmut hmutation, happrovals]
    exact hrow

/-- A requeue that commits. -/
theorem requeueStep_requeue {a : Append} {startedAt : Timestamp} {db' : Database} {reply : Reply}
    {tenantId actorId : String} {workId : UUID} {approval : RequeueApproval} {at' : Timestamp}
    (hrun : w.runAppend a startedAt = .ok (db', reply)) (hw' : w'.db = db')
    (hmutation : a.mutation = .work (.requeueProjection tenantId workId approval at' actorId))
    (hall : AllOf (tenantId, workId) a.events) (htypes : a.events.map (·.eventType) =
      [.workRetryScheduled])
    (hnamed : ∀ e ∈ a.events, e.approval? = some approval.approvalId.str) :
    RequeueStep w w' := by
  obtain ⟨e₀, hevents⟩ : ∃ e₀, a.events = [e₀] := by
    obtain ⟨e₀, hevents, -⟩ := List.map_eq_singleton_iff.1 htypes
    exact ⟨e₀, hevents⟩
  have hmem : e₀ ∈ a.events := hevents ▸ List.mem_singleton_self e₀
  obtain ⟨htenant, haggregate⟩ := hall e₀ hmem
  obtain ⟨es, db₁, ⟨version, position, rfl⟩, hes, happrovals, hitems, hmut⟩ := runAppend_cases hrun
  have heventsKept := Mutation.events_eq hmut
  rw [hmutation] at hmut
  simp only [Mutation.run, WorkMutation.run, Database.requeueProjection, bind_eq_ok,
    raiseIf_eq_ok, Database.updateItem_eq_ok, pure_eq_ok] at hmut
  obtain ⟨-, hfound, db₂, ⟨item, hitem, hstatus, rfl⟩, rfl⟩ := hmut
  rw [happrovals, Bool.not_eq_true', Bool.not_eq_false] at hfound
  obtain ⟨row, hrow, hp⟩ := (Option.any_eq_true _ _).1 hfound
  simp only [Bool.and_eq_true, decide_eq_true_eq] at hp
  obtain ⟨⟨⟨⟨⟨hwork, -⟩, -⟩, hconsumed⟩, hexpiry⟩, hother⟩ := hp
  rw [hitems] at hitem
  rw [hevents] at hes
  refine ⟨[e₀.stored (version + 1) position startedAt], ?_, Or.inr ⟨_, workId,
    approval.approvalId, actorId, row, rfl, ?_⟩⟩
  · rw [hw', heventsKept, hes]
    rfl
  have htenant' : (e₀.stored (version + 1) position startedAt).tenantId = tenantId := htenant
  refine ⟨haggregate, hnamed e₀ hmem, ?_, hwork, hconsumed, hexpiry, hother, ?_, ?_⟩
  · rw [htenant']
    exact hrow
  · rw [htenant']
    exact ⟨item, hitem, by simpa using hstatus⟩
  · rw [hw', htenant']
    show Table.modify db₁.approvals _ _ = _
    unfold Table.modify
    rw [happrovals, hrow]

/-- **What a legitimate transaction does to events and approvals.** -/
theorem requeueStep_exec (hl : Legit P c w) (hn : c.NamesApproval)
    (h : exec c w = some (w', r)) : RequeueStep w w' := by
  cases c with
  | append a =>
    obtain ⟨m, hm⟩ := hl
    rcases exec_append h with ⟨rfl, -⟩ | ⟨db', reply, -, hrun, rfl, -⟩
    · exact .refl rfl
    · by_cases hretry : .workRetryScheduled ∈ m.types
      · obtain ⟨tenantId, workId, approval, at', actorId, rfl⟩ :=
          WorkMutation.requeue_of_types hm.lease hretry
        refine requeueStep_requeue hrun rfl hm.mutation hm.allOf hm.batch.types (hn approval ?_)
        rw [hm.mutation]
        rfl
      · have hnone : a.mutation.approval? = none := by
          rw [hm.mutation]
          cases m with
          | requeueProjection => exact absurd (List.mem_singleton_self _) hretry
          | _ => rfl
        refine requeueStep_quiet hrun rfl hnone fun e he htype => absurd ?_ hretry
        rw [← hm.batch.types, ← htype]
        exact List.mem_map_of_mem he
  | openFenced f =>
    rcases exec_openFenced h with ⟨rfl, -⟩ | ⟨row, -, -, -, -, rfl, -⟩ <;> exact .refl rfl
  | closeFenced tx a =>
    obtain ⟨-, f, hf, hunder⟩ := hl
    rcases exec_closeFenced h with ⟨-, rfl, -⟩ | ⟨t, ht, ⟨e, -, -, rfl⟩ | ⟨db', reply, hrun, -, rfl⟩⟩
    · exact .refl rfl
    · exact .refl rfl
    · cases hmutation : a.mutation with
      | work m =>
        obtain ⟨lease, hlease, -, -, -, -, hbatch, -⟩ := hunder.work m hmutation
        refine requeueStep_quiet hrun rfl ?_ fun e he _ => ?_
        · rw [hmutation]
          exact WorkMutation.approval_of_lease hlease
        · rw [hbatch.generation e he, (WorkMutation.generation_of_lease hlease).1]
          exact Option.some_ne_none _
      | none =>
        have hm : ∀ m, a.mutation ≠ .work m := by rw [hmutation]; exact fun _ h => (by cases h)
        refine requeueStep_quiet hrun rfl (by rw [hmutation]; rfl) fun e he _ => ?_
        rw [(hunder.model hm e he).2]
        exact Option.some_ne_none _
      | gateway m =>
        have hm : ∀ m, a.mutation ≠ .work m := by rw [hmutation]; exact fun _ h => (by cases h)
        refine requeueStep_quiet hrun rfl (by rw [hmutation]; rfl) fun e he _ => ?_
        rw [(hunder.model hm e he).2]
        exact Option.some_ne_none _
  | approveRequeue tenantId workId approval expiresAt =>
    simp only [exec, Option.some.injEq] at h
    cases happrove : w.approveRequeue tenantId workId approval expiresAt with
    | error e =>
      rw [happrove] at h
      cases h
      exact .refl rfl
    | ok result =>
      rw [happrove] at h
      simp only [approveRequeue, bind_eq_ok, orRaise_eq_ok, Table.insertNew_eq_some, pure_eq_ok]
        at happrove
      obtain ⟨-, -, approvals, ⟨hnew, rfl⟩, rfl⟩ := happrove
      cases h
      refine ⟨[], (List.append_nil _).symm, Or.inl ⟨fun _ he => (by cases he), fun key row hrow => ?_⟩⟩
      dsimp only
      rw [Table.lookup_upsert_ne _ _ fun hkey => by rw [hkey, hnew] at hrow; cases hrow]
      exact hrow
  | claimOutbox tenantId leaseOwner duration limit destination =>
    simp only [exec, Option.some.injEq, Prod.mk.injEq] at h
    obtain ⟨rfl, -⟩ := h
    exact ⟨[], (List.append_nil _).symm, Or.inl ⟨fun _ he => (by cases he), fun _ _ hrow => hrow⟩⟩
  | _ =>
    simp only [exec, Option.some.injEq] at h
    rcases updateOutbox_cases h with rfl | ⟨row, -, -, rfl⟩
    · exact .refl rfl
    · exact ⟨[], (List.append_nil _).symm, Or.inl ⟨fun _ he => (by cases he), fun _ _ hrow => hrow⟩⟩

end World

/-! ## A requeue that raises -/

open Proc in
theorem readOnly_loadRequest (context : TenantContext) (workId : UUID) :
    (loadRequest context workId).ReadOnly :=
  readOnly_bind (readOnly_query _) fun _ => readOnly_bind (readOnly_ofExcept _) fun _ =>
    readOnly_ofExcept _

/-- **A requeue that raises has changed nothing.** -/
theorem changesFor_requeueDeadLetter (py : PyText) (context : TenantContext) (workId : UUID)
    (at' : Timestamp) (approval : RequeueApproval) (actorId : String) (ids : ℕ → UUID) :
    (requeueDeadLetter py context workId at' approval actorId ids).ChangesFor postgres SameDb
      fun o => ∃ a, o = .ok a := by
  unfold requeueDeadLetter
  refine Proc.changesFor_bind (readOnly_loadRequest context workId) fun request => ?_
  refine Proc.changesFor_bind (Proc.readOnly_ofExcept _) fun event => ?_
  refine Proc.changesFor_bind (Proc.readOnly_query _) fun version => ?_
  unfold appendAtomic
  cases validateAppend context [event] with
  | error e => trivial
  | ok u =>
    refine ⟨fun w w' r hexec => ?_, fun w => ⟨Or.inl (World.abort_cases _ w).1, trivial⟩⟩
    rw [show postgres.exec = World.exec from rfl] at hexec
    cases r with
    | ok reply => exact ⟨Or.inr ⟨(), rfl⟩, trivial⟩
    | error e => exact ⟨Or.inl (World.db_of_error hexec), trivial⟩

/-! ## Whole runs -/

/-- **Every requeue on record has an approval of its own**: of its tenant and its item, named by
its event, consumed before it expired and by another actor than the one who gave it. -/
structure World.RequeuesApproved (w : World) : Prop where
  approved : ∀ e ∈ w.db.events, e.Requeues → ∃ workId approvalId row consumedAt actorId,
    e.aggregateId = UUID.str workId ∧ e.approval? = some (UUID.str approvalId) ∧
    w.db.approvals.lookup (e.tenantId, approvalId) = some row ∧ row.workId = workId ∧
    row.consumed = some (consumedAt, actorId) ∧ consumedAt < row.expiresAt ∧
    row.approvedBy ≠ actorId
  distinct : w.db.events.Pairwise fun e e' => e.Requeues → e'.Requeues →
    e.tenantId = e'.tenantId → e.approval? ≠ e'.approval?

theorem RequeueStep.approved {w w' : World} (h : RequeueStep w w') (hw : w.RequeuesApproved) :
    w'.RequeuesApproved := by
  obtain ⟨new, hevents, ⟨hnone, hkept⟩ | ⟨e₁, workId, approvalId, actorId, row, rfl, hnew⟩⟩ := h
  · refine ⟨fun e he hrequeues => ?_, ?_⟩
    · rw [hevents] at he
      rcases List.mem_append.1 he with he | he
      · obtain ⟨workId, approvalId, row, at', actorId, hwork, hnamed, hrow, hrest⟩ :=
          hw.approved e he hrequeues
        exact ⟨workId, approvalId, row, at', actorId, hwork, hnamed, hkept _ _ hrow, hrest⟩
      · exact absurd hrequeues (hnone e he)
    · rw [hevents]
      refine List.pairwise_append.2 ⟨hw.distinct, ?_, fun e _ e' he' _ h => absurd h (hnone e' he')⟩
      exact List.pairwise_of_forall_mem_list fun e he e' _ h => absurd h (hnone e he)
  · -- a consumed approval is not the one that the requeue has found
    have hother : ∀ {key : String × UUID} {row' : ApprovalRow} {by' : Timestamp × String},
        w.db.approvals.lookup key = some row' → row'.consumed = some by' →
        key ≠ (e₁.tenantId, approvalId) := by
      intro key row' by' hrow' hconsumed hkey
      rw [hkey, hnew.found, Option.some.injEq] at hrow'
      rw [← hrow', hnew.unconsumed] at hconsumed
      cases hconsumed
    refine ⟨fun e he hrequeues => ?_, ?_⟩
    · rw [hevents] at he
      rcases List.mem_append.1 he with he | he
      · obtain ⟨workId', approvalId', row', at', actorId', hwork, hnamed, hrow', hsame, hconsumed,
          hrest⟩ := hw.approved e he hrequeues
        refine ⟨workId', approvalId', row', at', actorId', hwork, hnamed, ?_, hsame, hconsumed,
          hrest⟩
        rw [hnew.consumed, Table.lookup_upsert_ne _ _ (hother hrow' hconsumed)]
        exact hrow'
      · rw [List.mem_singleton.1 he]
        refine ⟨workId, approvalId, { row with consumed := some (w.clock, actorId) }, w.clock,
          actorId, hnew.aggregate, hnew.named, ?_,
          hnew.sameWork, rfl, hnew.unexpired, hnew.other⟩
        rw [hnew.consumed, Table.lookup_upsert_self]
    · rw [hevents]
      refine List.pairwise_append.2 ⟨hw.distinct, List.pairwise_singleton _ _, ?_⟩
      intro e he e' he' hrequeues _ htenant happroval
      rw [List.mem_singleton.1 he'] at htenant happroval
      obtain ⟨-, approvalId', row', at', actorId', -, hnamed, hrow', -, hconsumed, -⟩ :=
        hw.approved e he hrequeues
      rw [hnamed, hnew.named, Option.some.injEq, UUID.str_inj] at happroval
      exact hother hrow' hconsumed (by rw [htenant, happroval])

/-- An approval that has been consumed stays as it is. -/
theorem RequeueStep.consumed {w w' : World} (h : RequeueStep w w') {key : String × UUID}
    {row : ApprovalRow} {by' : Timestamp × String} (hrow : w.db.approvals.lookup key = some row)
    (hconsumed : row.consumed = some by') : w'.db.approvals.lookup key = some row := by
  obtain ⟨new, -, ⟨-, hkept⟩ | ⟨e, workId, approvalId, actorId, row', -, hnew⟩⟩ := h
  · exact hkept key row hrow
  · rw [hnew.consumed, Table.lookup_upsert_ne _ _ fun hkey => ?_]
    · exact hrow
    · rw [hkey, hnew.found, Option.some.injEq] at hrow
      rw [← hrow, hnew.unconsumed] at hconsumed
      cases hconsumed

section Runs

variable {py : PyText} {tenants : List String} {quotas : Table String QuotaLimits}
  {clock : Timestamp} {s s' u : Platform} {a : Action Txn}

theorem requeueStep
    (hrun : Run postgres (AnyCall py) (fun _ _ => True) (Platform.initial tenants quotas clock) s)
    (hstep : Step postgres (AnyCall py) s a u) : RequeueStep s.store u.store := by
  obtain ⟨hinv, hfollows⟩ := run_inv (lawfully_anyCall py) hrun (World.inv_initial _ _ _)
    follows_initial
  have hcommits : s.Commits Txn.NamesApproval := by
    refine hrun.commits ?_ fun p hp => (by cases hp)
    rintro s p ⟨c, rfl⟩
    exact c.commits_namesApproval py
  cases hstep with
  | call _ => exact .refl rfl
  | read _ => exact .refl rfl
  | commit hi hexec =>
    exact World.requeueStep_exec (hfollows.legit hi)
      (hcommits.of_commit (.commit hi hexec : Step postgres (AnyCall py) s _ _)) hexec
  | abort hi => exact .refl (World.abort_cases _ _).1
  | tick ht =>
    obtain ⟨clock, maintenance, locked, -, rfl⟩ := ht
    exact .refl rfl

theorem requeues_approved
    (hrun : Run postgres (AnyCall py) (fun _ _ => True) (Platform.initial tenants quotas clock) s) :
    s.store.RequeuesApproved := by
  generalize hs₀ : Platform.initial tenants quotas clock = s₀ at hrun
  induction hrun with
  | refl =>
    subst hs₀
    exact ⟨fun e he => (by cases he), List.Pairwise.nil⟩
  | tail hbefore hstep _ ih =>
    subst hs₀
    exact (requeueStep hbefore hstep).approved ih

theorem consumed_stays
    (hrun : Run postgres (AnyCall py) (fun _ _ => True) (Platform.initial tenants quotas clock) s)
    (hrun' : Run postgres (AnyCall py) (fun _ _ => True) s s') {key : String × UUID}
    {row : ApprovalRow} {by' : Timestamp × String}
    (hrow : s.store.db.approvals.lookup key = some row) (hconsumed : row.consumed = some by') :
    s'.store.db.approvals.lookup key = some row := by
  induction hrun' with
  | refl => exact hrow
  | tail hbefore hstep _ ih =>
    exact (requeueStep (hrun.trans hbefore) hstep).consumed ih hconsumed

end Runs

/-! A worker that fails for good leaves a dead letter; one person approves its requeue, and
another requeues it. -/

def sampleApproval : RequeueApproval where
  approvalId := UUID.ofNat 70
  approvedBy := "alice"
  approvedAt := 0
  scope := "dlq:requeue"
  valid := by decide

def requeuedSchedule : List Scheduled := startedSchedule ++
  Scheduled.whole 5 (.fail sampleContext sampleDelivery sampleLease 0 .permanent "boom" none
    (sampleIds 40)) ++
  Scheduled.whole 6 (.approveDeadLetterRequeue sampleContext sampleRequest.workId sampleApproval
    (seconds 60)) ++
  Scheduled.whole 7 (.requeueDeadLetter sampleContext sampleRequest.workId 0 sampleApproval "bob"
    (sampleIds 80))

end AegisPlatform
