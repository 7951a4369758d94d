import AegisPlatform.EventStore.Interleaved

/-!
# The row locks of the repositories

The transactions of `PostgresWorkRepository` and `PostgresGatewayRepository`, as far as
their row locks go: which entry point of the event store each goes through, and which rows
the statements of its mutation lock, in which order.  What those statements write and
whether they raise is left open.  The transactions that only read lock nothing, and are
left out.

* `MutationCode.Locks`, `Locking` — a mutation that locks these rows in this order.
* `RepositoryCall` — the transactions of one tenant.
* `RepositoryCall.MayLock` — the discipline they follow: every row but the lease row of a
  fence, an inbox row and a new approval is locked under the row of the tenant.
* `repositoryCall_safe`, `locks_good` — they do.
-/

namespace AegisPlatform

open Fallible Transactions

/-! ## The transactions -/

/-- The statements of the mutation lock these rows, one statement after the other; it may
stop at any of them. -/
inductive MutationCode.Locks : List (List Row) → MutationCode → Prop
  | ret {rows : List (List Row)} {a : Unit} : Locks rows (.ret a)
  | raise {rows : List (List Row)} {e : Raised} : Locks rows (.raise e)
  | exec {rest : List (List Row)} {c : MutationStatement} {next : Ledger → MutationCode} :
      (∀ l, Locks rest (next l)) → Locks (c.rows :: rest) (.exec c next)

/-- A mutation that locks these rows, statement by statement. -/
structure Locking (rows : List (List Row)) where
  code : MutationCode
  locks : code.Locks rows

/-- The batch of an append. -/
structure AppendBatch where
  events : List EventEnvelope
  expectedVersion : ℤ
  outbox : List OutboxMessage := []

/-- The batch of a fenced append, and its fence. -/
structure FencedBatch extends AppendBatch where
  workId : UUID
  leaseToken : UUID
  leaseGeneration : ℤ

/-- A transaction of the repositories that locks rows, for the tenant of the context. -/
inductive RepositoryCall (context : TenantContext) where
  | register (batch : AppendBatch) (workId : UUID)
      (insertWork : Locking [[.item (context.tenantId, workId)]])
  | markPublished (batch : AppendBatch) (source messageId : String) (workId : UUID)
      (markProjection : Locking [[.item (context.tenantId, workId)]])
  | claim (batch : AppendBatch) (workId : UUID)
      (claimProjection : Locking [[.commitLock context.tenantId], [.commitLock context.tenantId],
        [], [], [.item (context.tenantId, workId)], [.lease (context.tenantId, workId)]])
  | start (batch : FencedBatch)
      (markStarted : Locking [[.item (context.tenantId, batch.workId)]])
  | heartbeat (batch : FencedBatch)
      (renewLease : Locking [[.lease (context.tenantId, batch.workId)]])
  | requestCancel (batch : AppendBatch) (workId : UUID)
      (cancelProjection : Locking [[.item (context.tenantId, workId)]])
  | succeed (batch : FencedBatch)
      (completeInTransaction : Locking [[.lease (context.tenantId, batch.workId)],
        [.item (context.tenantId, batch.workId)]])
  | cancel (batch : FencedBatch)
      (cancelInTransaction : Locking [[.lease (context.tenantId, batch.workId)],
        [.item (context.tenantId, batch.workId)]])
  /-- The rows of `_release_in_transaction` are the first two of
  `_dead_letter_in_transaction`. -/
  | fail (batch : FencedBatch)
      (updateProjection : Locking [[.lease (context.tenantId, batch.workId)],
        [.item (context.tenantId, batch.workId)], [.item (context.tenantId, batch.workId)],
        [.deadLetter (context.tenantId, batch.workId)]])
  | release (batch : FencedBatch)
      (releaseInTransaction : Locking [[.lease (context.tenantId, batch.workId)],
        [.item (context.tenantId, batch.workId)]])
  /-- `reconcile_expired`, for a message that was published and never claimed. -/
  | redrive (batch : AppendBatch) (messageId : UUID)
      (redriveProjection : Locking [[.outbox context.tenantId messageId]])
  /-- `reconcile_expired`, for an expired lease. -/
  | expire (batch : AppendBatch) (workId : UUID)
      (expireProjection : Locking [[.item (context.tenantId, workId)],
        [.lease (context.tenantId, workId)], [.item (context.tenantId, workId)],
        [.deadLetter (context.tenantId, workId)]])
  | requeueDeadLetter (batch : AppendBatch) (workId approvalId : UUID)
      (requeueProjection : Locking [[.approval context.tenantId approvalId],
        [.item (context.tenantId, workId)], [.approval context.tenantId approvalId],
        [.deadLetter (context.tenantId, workId)]])
  | approveDeadLetterRequeue (approvalId : UUID)
      (insertApproval : Locking [[.approval context.tenantId approvalId]])
  /-- `reserve`: the budget row twice, the advisory lock that is tried and let go, the quota
  and four sums, the reservation. -/
  | reserve (batch : FencedBatch) (reservationId : UUID)
      (mutation : Locking [[.budgetLock context.tenantId], [.budgetLock context.tenantId], [], [],
        [], [], [], [], [], [.reservation context.tenantId reservationId]])
  | recordAttempt (batch : FencedBatch)
  | succeedCall (batch : FencedBatch) (reservationId requestId : UUID)
      (mutation : Locking [[.reservation context.tenantId reservationId],
        [.usage context.tenantId requestId]])
  | recordUsageFailure (batch : FencedBatch) (reservationId requestId : UUID)
      (mutation : Locking [[.reservation context.tenantId reservationId],
        [.usage context.tenantId requestId]])
  | recordAttemptFailure (batch : FencedBatch)
  | failCall (batch : FencedBatch) (reservationId : UUID)
      (mutation : Locking [[.reservation context.tenantId reservationId]])

namespace RepositoryCall

variable {context : TenantContext}

/-- An `append_atomic` of the repositories. -/
def atomic (context : TenantContext) (batch : AppendBatch) (mutation : MutationCode) :
    Transaction AppendResult :=
  Transaction.appendAtomic context batch.events batch.expectedVersion mutation batch.outbox

/-- An `append_fenced` of the repositories. -/
def fenced (context : TenantContext) (batch : FencedBatch) (mutation : Option MutationCode) :
    Transaction AppendResult :=
  Transaction.appendFenced context batch.events batch.expectedVersion batch.workId batch.leaseToken
    batch.leaseGeneration batch.outbox mutation

/-- The transaction of a call. -/
def transaction : RepositoryCall context → Transaction AppendResult
  | register batch _ m | claim batch _ m | requestCancel batch _ m | redrive batch _ m
  | expire batch _ m | requeueDeadLetter batch _ _ m => atomic context batch m.code
  | markPublished batch source messageId _ m => Transaction.appendFromInbox context source messageId
      batch.events batch.expectedVersion batch.outbox (some m.code)
  | start batch m | heartbeat batch m | succeed batch m | cancel batch m | fail batch m
  | release batch m | reserve batch _ m | succeedCall batch _ _ m | recordUsageFailure batch _ _ m
  | failCall batch _ m => fenced context batch (some m.code)
  | recordAttempt batch | recordAttemptFailure batch => fenced context batch none
  | approveDeadLetterRequeue _ m => do
    m.code.run
    pure { aggregateVersion := 0 }

/-- The item whose lease row the call locks first, for its fence. -/
def fencedItem : RepositoryCall context → Option UUID
  | start batch _ | heartbeat batch _ | succeed batch _ | cancel batch _ | fail batch _
  | release batch _ | reserve batch .. | succeedCall batch .. | recordUsageFailure batch ..
  | failCall batch .. | recordAttempt batch | recordAttemptFailure batch => some batch.workId
  | _ => none

/-- The item whose lease row the call locks in its mutation, without a fence. -/
def leasedItem : RepositoryCall context → Option UUID
  | claim _ workId _ | expire _ workId _ => some workId
  | _ => none

/-- Does the call only insert an approval? -/
def isApproval : RepositoryCall context → Bool
  | approveDeadLetterRequeue .. => true
  | _ => false

end RepositoryCall

/-! ## The discipline -/

/-- Is the row one of those that are locked under the row of the tenant only? -/
def Row.isGuarded : Row → Bool
  | commitLock _ | lease _ | inbox .. => false
  | _ => true

section

variable {context : TenantContext} {g : RepositoryCall context} {held held' : List Row} {row : Row}

/-- The rows a call may lock, given those it holds. -/
inductive RepositoryCall.MayLock (g : RepositoryCall context) (held : List Row) : Row → Prop
  | commitLock : g.isApproval = false → g.MayLock held (.commitLock context.tenantId)
  | guarded {row : Row} : .commitLock context.tenantId ∈ held → row.isGuarded = true →
      g.MayLock held row
  | again {row : Row} : row ∈ held → g.MayLock held row
  | inbox {t source messageId : String} : held = [] → g.MayLock held (.inbox t source messageId)
  | fence {workId : UUID} : g.fencedItem = some workId → held = [] →
      g.MayLock held (.lease (context.tenantId, workId))
  | lease {workId : UUID} : g.leasedItem = some workId → .commitLock context.tenantId ∈ held →
      g.MayLock held (.lease (context.tenantId, workId))
  | approval {approvalId : UUID} : g.isApproval = true → held = [] →
      g.MayLock held (.approval context.tenantId approvalId)

/-- The rule of the row locks. -/
def lockRule (context : TenantContext) : Rule Statement Statement.Reply Failed Ledger Writes Row
    (RepositoryCall context) AppendResult where
  inv _ := True
  rely _ l l' := ∀ t ∈ l.commitLocks, t ∈ l'.commitLocks
  asks g held more := ∀ row ∈ more, g.MayLock held row
  done _ _ _ _ _ := True
  failed _ _ := True

theorem lockRule_sound (context : TenantContext) : (lockRule context).Sound ledgerEngine where
  refl _ _ _ h := h
  trans _ _ _ _ h h' t ht := h' t (h t ht)
  exec_inv _ _ _ _ := trivial
  exec_rely c l own _ _ t ht := by
    rw [show (ledgerEngine.exec c l own).1.commitLocks = l.commitLocks from
      (c.run_keeps l own).commitLocks]
    exact ht
  commit_inv _ _ _ _ _ _ _ := trivial
  commit_rely _ _ _ own l _ _ _ _ t ht := List.mem_append_left _ ht
  tick_inv _ _ _ _ := trivial
  tick_rely := by
    rintro l _ held - ⟨clock, p, -, rfl⟩ t ht
    exact ht
  aborted _ := trivial

/-! ## The transactions follow it -/

variable {α β : Type} {own : Writes} {l : Ledger}

/-- A transaction that keeps the rows `K` locked. -/
abbrev LockSafe (g : RepositoryCall context) (K : List Row) (p : Transaction α) (held : List Row)
    (own : Writes) (l : Ledger) : Prop :=
  Safe ledgerEngine (lockRule context) g (fun _ held _ _ => K ⊆ held) p held own l

theorem lock_pure {K : List Row} {a : α} (hK : K ⊆ held) :
    LockSafe g K (pure a : Transaction α) held own l :=
  fun _ _ _ => hK

/-- A statement whose rows may be locked, and what follows it. -/
theorem lock_execute {K : List Row} {c : Statement} {f : c.Reply → Transaction α}
    (h : ∀ l', (∀ t ∈ l.commitLocks, t ∈ l'.commitLocks) →
      (∀ row ∈ c.rows (own.apply l'), g.MayLock held row) ∧
      ∀ u own' r, c.run l' own = (u, own', .ok r) →
        LockSafe g K (f r) (held ++ c.rows (own.apply l')) own' u) :
    LockSafe g K (Transaction.execute c >>= f) held own l := by
  refine Safe.execute_bind fun l' _ hrely => ?_
  obtain ⟨hmay, hnext⟩ := h l' hrely
  exact ⟨hmay, hnext, fun _ _ _ _ => trivial⟩

theorem lock_check {K : List Row} {x : Except Raised Unit} {f : Unit → Transaction α}
    (h : x = .ok () → LockSafe g K (f ()) held own l) :
    LockSafe g K (Transaction.check x >>= f) held own l := by
  refine Safe.ofExcept_bind (fun _ _ => trivial) fun _ hx => ?_
  cases x with
  | ok _ => exact h rfl
  | error e => cases hx

/-- One part and then another; the second may count on what the first has locked. -/
theorem lock_bind {K K' : List Row} {p : Transaction β} {f : β → Transaction α}
    (hp : LockSafe g K p held own l)
    (hf : ∀ b held own l, K ⊆ held → LockSafe g K' (f b) held own l) :
    LockSafe g K' (p >>= f) held own l :=
  Safe.bind (lockRule_sound context)
    (Safe.mono (fun b held own l hK _ => hf b held own l hK) hp) trivial

/-- A statement that locks rows under the row of the tenant. -/
theorem lock_guarded {K : List Row} {c : Statement} {f : c.Reply → Transaction α}
    (hlock : .commitLock context.tenantId ∈ K) (hK : K ⊆ held)
    (hrows : ∀ l, ∀ row ∈ c.rows l, row.isGuarded = true)
    (hf : ∀ r held own l, K ⊆ held → LockSafe g K (f r) held own l) :
    LockSafe g K (Transaction.execute c >>= f) held own l := by
  refine lock_execute fun l' _ => ⟨fun row hrow => ?_, fun u own' r _ => ?_⟩
  · exact .guarded (hK hlock) (hrows _ row hrow)
  · exact hf r _ own' u fun row hrow => List.mem_append_left _ (hK hrow)

theorem lock_insertEvents {K : List Row} (hlock : .commitLock context.tenantId ∈ K)
    (es : List EventEnvelope) (v : ℕ) (hK : K ⊆ held) :
    LockSafe g K (Transaction.insertEvents es v) held own l := by
  induction es generalizing v held own l with
  | nil => exact lock_pure hK
  | cons e rest ih =>
    refine lock_guarded hlock hK (fun l row hrow => ?_) fun _ held own l hK => ih (v + 1) hK
    rcases List.mem_append.1 hrow with hrow | hrow
    · simp only [List.mem_cons, List.not_mem_nil, or_false] at hrow
      rcases hrow with rfl | rfl <;> rfl
    · obtain ⟨key, -, rfl⟩ := Option.map_eq_some_iff.1 (Option.mem_toList.1 hrow)
      rfl

theorem lock_insertOutbox {K : List Row} (hlock : .commitLock context.tenantId ∈ K) (t : String)
    (messages : List OutboxMessage) (hK : K ⊆ held) :
    LockSafe g K (Transaction.insertOutbox t messages) held own l := by
  induction messages generalizing held own l with
  | nil => exact lock_pure hK
  | cons message rest ih =>
    refine lock_guarded hlock hK (fun l row hrow => ?_) fun _ held own l hK => ih hK
    rw [List.mem_singleton.1 hrow]
    rfl

theorem lock_appendAtHead {K : List Row} (hlock : .commitLock context.tenantId ∈ K) (t a : String)
    (es : List EventEnvelope) (v : ℕ) (messages : List OutboxMessage) (row : Option ℕ)
    (hK : K ⊆ held) : LockSafe g K (Transaction.appendAtHead t a es v messages row) held own l := by
  cases row with
  | none => exact trivial
  | some actual =>
    refine lock_check fun _ => ?_
    refine lock_bind (lock_insertEvents hlock es v hK) fun version held own l hK => ?_
    refine lock_guarded hlock hK (fun l row hrow => ?_) fun _ held own l hK => ?_
    · rw [List.mem_singleton.1 hrow]
      rfl
    · exact lock_bind (lock_insertOutbox hlock t messages hK) fun _ held own l hK => lock_pure hK

theorem isGuarded_insertHead {t a : String} (l : Ledger) (row : Row)
    (hrow : row ∈ (Statement.insertHead t a).rows l) : row.isGuarded = true := by
  rw [Statement.rows] at hrow
  split at hrow
  · cases hrow
  · rw [List.mem_singleton.1 hrow]
    rfl

theorem isGuarded_lockHead {t a : String} (l : Ledger) (row : Row)
    (hrow : row ∈ (Statement.lockHead t a).rows l) : row.isGuarded = true := by
  rw [Statement.rows] at hrow
  split at hrow
  · rw [List.mem_singleton.1 hrow]
    rfl
  · cases hrow

/-- An append takes the row of the tenant before any other, and keeps what was locked. -/
theorem lock_appendInTransaction {K : List Row} (hg : g.isApproval = false)
    (es : List EventEnvelope) (v : ℕ) (messages : List OutboxMessage)
    (htenant : ∀ e ∈ es, e.tenantId = context.tenantId) (hK : K ⊆ held) :
    LockSafe g (.commitLock context.tenantId :: K) (Transaction.appendInTransaction es v messages)
      held own l := by
  cases es with
  | nil => exact trivial
  | cons first rest =>
    unfold Transaction.appendInTransaction
    dsimp only
    rw [htenant first (List.mem_cons_self ..)]
    refine lock_execute fun l₁ _ => ⟨fun row hrow => ?_, fun u own₁ _ hrun => ?_⟩
    · rw [Statement.rows] at hrow
      split at hrow
      · cases hrow
      · rw [List.mem_singleton.1 hrow]
        exact .commitLock hg
    obtain ⟨rfl, -, hseen⟩ := run_insertCommitLock hrun
    refine lock_execute fun l₂ hgrown => ?_
    have hrow : context.tenantId ∈ (own₁.apply l₂).commitLocks := by
      rw [Writes.apply_commitLocks] at hseen ⊢
      rcases List.mem_append.1 hseen with hseen | hseen
      · exact List.mem_append_left _ (hgrown _ hseen)
      · exact List.mem_append_right _ hseen
    rw [rows_lockCommitLock hrow]
    refine ⟨fun row hrow => ?_, fun u₂ own₂ _ _ => ?_⟩
    · rw [List.mem_singleton.1 hrow]
      exact .commitLock hg
    have hlocked : .commitLock context.tenantId :: K ⊆ held ++
        (Statement.insertCommitLock context.tenantId).rows (own.apply u) ++
        [.commitLock context.tenantId] := by
      intro row hrow
      rcases List.mem_cons.1 hrow with rfl | hrow
      · exact List.mem_append_right _ (List.mem_singleton.2 rfl)
      · exact List.mem_append_left _ (List.mem_append_left _ (hK hrow))
    refine lock_guarded (List.mem_cons_self ..) hlocked isGuarded_insertHead
      fun _ held own l hK => ?_
    refine lock_guarded (List.mem_cons_self ..) hK isGuarded_lockHead fun row held own l hK => ?_
    exact lock_appendAtHead (List.mem_cons_self ..) _ _ _ _ _ row hK

/-- A mutation whose rows may be locked by whoever holds `K`. -/
theorem lock_mutation {K : List Row} {rows : List (List Row)} {m : MutationCode}
    (hm : m.Locks rows)
    (hrows : ∀ row ∈ rows.flatten, ∀ held, K ⊆ held → g.MayLock held row) (hK : K ⊆ held) :
    LockSafe g K m.run held own l := by
  induction hm generalizing held own l with
  | ret => exact lock_pure hK
  | raise => exact trivial
  | @exec rest c next _ ih =>
    rw [List.flatten_cons] at hrows
    refine lock_execute fun l' _ => ⟨fun row hrow => ?_, fun u own' r _ => ?_⟩
    · exact hrows row (List.mem_append_left _ hrow) held hK
    · exact ih r (fun row hrow => hrows row (List.mem_append_right _ hrow))
        fun row hrow => List.mem_append_left _ (hK hrow)

theorem tenant_of_validate {es : List EventEnvelope} {v : ℤ}
    (h : Transaction.validate context es v = .ok ()) : ∀ e ∈ es, e.tenantId = context.tenantId :=
  fun e he => ((validate_ok h).2.2 e he).1

/-- `append_atomic`, with a mutation that locks rows under the row of the tenant. -/
theorem lock_atomic {batch : AppendBatch} {rows : List (List Row)} (m : Locking rows)
    (hg : g.isApproval = false) (hrows : ∀ row ∈ rows.flatten, ∀ held : List Row,
      [.commitLock context.tenantId] ⊆ held → g.MayLock held row) :
    LockSafe g [] (RepositoryCall.atomic context batch m.code) [] own l := by
  refine lock_check fun hvalid => ?_
  refine lock_bind (lock_appendInTransaction hg _ _ _ (tenant_of_validate hvalid)
    (List.nil_subset _)) fun version held own l hK => ?_
  exact lock_bind (lock_mutation m.locks hrows hK) fun _ held own l _ => lock_pure (List.nil_subset _)

/-- `append_fenced`, with a mutation that locks rows under the row of the tenant and the
lease row of the fence. -/
theorem lock_fenced {batch : FencedBatch} {R : List (List Row)} {mutation : Option MutationCode}
    (hm : ∀ m, mutation = some m → m.Locks R) (hg : g.isApproval = false)
    (hfence : g.fencedItem = some batch.workId) (hrows : ∀ row ∈ R.flatten, ∀ held : List Row,
      [.commitLock context.tenantId, .lease (context.tenantId, batch.workId)] ⊆ held →
        g.MayLock held row) :
    LockSafe g [] (RepositoryCall.fenced context batch mutation) [] own l := by
  refine lock_check fun hvalid => lock_check fun _ => ?_
  refine lock_execute fun l' _ => ⟨fun row hrow => ?_, fun u own' current hrun => ?_⟩
  · rw [Statement.rows] at hrow
    split at hrow
    · rw [List.mem_singleton.1 hrow]
      exact .fence hfence rfl
    · cases hrow
  · cases hrun
    split
    · rename_i hcurrent
      rw [Statement.rows, if_pos hcurrent]
      refine lock_bind (lock_appendInTransaction hg _ _ _ (tenant_of_validate hvalid)
        (List.Subset.refl _)) fun version held own l hK => ?_
      cases mutation with
      | none => exact lock_pure (List.nil_subset _)
      | some m =>
        exact lock_bind (lock_mutation (hm m rfl) hrows hK) fun _ held own l _ =>
          lock_pure (List.nil_subset _)
    · exact trivial

/-- `append_from_inbox`, with a mutation that locks rows under the row of the tenant. -/
theorem lock_fromInbox {batch : AppendBatch} {source messageId : String} {rows : List (List Row)}
    (m : Locking rows) (hg : g.isApproval = false)
    (hrows : ∀ row ∈ rows.flatten, ∀ held : List Row,
      [.commitLock context.tenantId] ⊆ held → g.MayLock held row) :
    LockSafe g [] (Transaction.appendFromInbox context source messageId batch.events
      batch.expectedVersion batch.outbox (some m.code)) [] { startedAt := l.clock } l := by
  refine lock_check fun _ => lock_check fun hvalid => ?_
  refine lock_execute fun l' _ => ⟨fun row hrow => ?_, fun u own' inserted hrun => ?_⟩
  · rw [Statement.rows] at hrow
    split at hrow
    · cases hrow
    · rw [List.mem_singleton.1 hrow]
      exact .inbox rfl
  have hcases := run_insertInbox (k := (context.tenantId, source, messageId)) rfl hrun
  obtain ⟨rfl, ⟨rfl, rfl, -⟩ | ⟨rfl, -, rfl, hinserted⟩⟩ := hcases
  · refine lock_execute fun l₂ _ => ⟨fun row hrow => (by cases hrow), fun u₂ own₂ r _ => ?_⟩
    split
    · exact lock_pure (List.nil_subset _)
    · exact trivial
  · rw [hinserted]
    refine lock_bind (lock_appendInTransaction hg _ _ _ (tenant_of_validate hvalid)
      (List.Subset.refl _)) fun version held own l hK => ?_
    refine lock_execute fun l₃ _ => ⟨fun row hrow => ?_, fun u₃ own₃ r _ => ?_⟩
    · rw [List.mem_singleton.1 hrow]
      exact .again (hK (List.mem_cons_of_mem _ (List.mem_singleton.2 rfl)))
    · refine lock_bind (lock_mutation m.locks hrows fun row hrow => ?_)
        fun _ held own l _ => lock_pure (List.nil_subset _)
      rw [List.mem_singleton.1 hrow]
      exact List.mem_append_left _ (hK (List.mem_cons_self ..))

/-- A new approval is one statement. -/
theorem lock_approval {approvalId : UUID} (hg : g.isApproval = true)
    (m : Locking [[.approval context.tenantId approvalId]]) :
    LockSafe g [] (do
      m.code.run
      pure ({ aggregateVersion := 0 } : AppendResult)) [] own l := by
  obtain ⟨code, hlocks⟩ := m
  refine lock_bind (K := []) ?_ fun _ held own l _ => lock_pure (List.nil_subset _)
  generalize hrows : [[Row.approval context.tenantId approvalId]] = rows at hlocks
  cases hlocks with
  | ret => exact lock_pure (List.nil_subset _)
  | raise => exact trivial
  | @exec rest c next hnext =>
    rw [List.cons.injEq] at hrows
    obtain ⟨hfirst, rfl⟩ := hrows
    refine lock_execute fun l' _ => ⟨fun row hrow => ?_, fun u own' r _ => ?_⟩
    · rw [show (Statement.project c.rows c.write).rows _ = c.rows from rfl, ← hfirst,
        List.mem_singleton] at hrow
      rw [hrow]
      exact .approval hg rfl
    · exact lock_mutation (hnext r) (fun row hrow => (by cases hrow)) (List.nil_subset _)

/-- Rows that are all locked under the row of the tenant. -/
theorem mayLock_of_isGuarded {rows : List (List Row)} {K : List Row}
    (hlock : .commitLock context.tenantId ∈ K)
    (h : ∀ row ∈ rows.flatten, row.isGuarded = true ∨ row ∈ K) :
    ∀ row ∈ rows.flatten, ∀ held : List Row, K ⊆ held → g.MayLock held row := by
  intro row hrow held hK
  rcases h row hrow with hguarded | hmem
  · exact .guarded (hK hlock) hguarded
  · exact .again (hK hmem)

/-- `append_fenced`, with a mutation that locks rows under the row of the tenant, and the
lease row of the fence again. -/
theorem lock_fencedMutation {batch : FencedBatch} {rows : List (List Row)} (m : Locking rows)
    (hg : g.isApproval = false) (hfence : g.fencedItem = some batch.workId)
    (h : ∀ row ∈ rows.flatten,
      row.isGuarded = true ∨ row = .lease (context.tenantId, batch.workId)) :
    LockSafe g [] (RepositoryCall.fenced context batch (some m.code)) [] own l := by
  refine lock_fenced (fun code hcode => ?_) hg hfence
    (mayLock_of_isGuarded (List.mem_cons_self ..) fun row hrow => (h row hrow).imp id ?_)
  · cases hcode
    exact m.locks
  · rintro rfl
    exact List.mem_cons_of_mem _ (List.mem_singleton.2 rfl)

/-- The rows of a mutation that locks its lease row without a fence. -/
theorem mayLock_of_leasedItem {rows : List (List Row)} {workId : UUID}
    (hg : g.leasedItem = some workId) (h : ∀ row ∈ rows.flatten, row.isGuarded = true ∨
      row = .commitLock context.tenantId ∨ row = .lease (context.tenantId, workId)) :
    ∀ row ∈ rows.flatten, ∀ held : List Row, [.commitLock context.tenantId] ⊆ held →
      g.MayLock held row := by
  intro row hrow held hK
  have hlock := hK (List.mem_singleton.2 rfl)
  rcases h row hrow with hguarded | rfl | rfl
  · exact .guarded hlock hguarded
  · exact .again hlock
  · exact .lease hg hlock

end

/-- **The transactions of the repositories follow the discipline.** -/
theorem repositoryCall_safe {context : TenantContext} (g : RepositoryCall context) (l : Ledger) :
    LockSafe g [] g.transaction [] { startedAt := l.clock } l := by
  cases g with
  | register batch workId m | requestCancel batch workId m | redrive batch workId m
  | requeueDeadLetter batch workId approvalId m =>
    exact lock_atomic m rfl (mayLock_of_isGuarded (List.mem_singleton.2 rfl) (by simp [Row.isGuarded]))
  | claim batch workId m | expire batch workId m =>
    exact lock_atomic m rfl (mayLock_of_leasedItem rfl (by simp [Row.isGuarded]))
  | markPublished batch source messageId workId m =>
    exact lock_fromInbox m rfl
      (mayLock_of_isGuarded (List.mem_singleton.2 rfl) (by simp [Row.isGuarded]))
  | start batch m | heartbeat batch m | succeed batch m | cancel batch m | fail batch m
  | release batch m | reserve batch reservationId m | succeedCall batch reservationId requestId m
  | recordUsageFailure batch reservationId requestId m | failCall batch reservationId m =>
    exact lock_fencedMutation m rfl rfl (by simp [Row.isGuarded])
  | recordAttempt batch | recordAttemptFailure batch =>
    exact lock_fenced (R := []) (fun code hcode => (by cases hcode)) rfl rfl
      fun row hrow => (by cases hrow)
  | approveDeadLetterRequeue approvalId m => exact lock_approval rfl m

/-- The sessions of the repositories. -/
abbrev RepositorySys (context : TenantContext) :=
  Sys Statement Statement.Reply Failed Ledger Writes Row (RepositoryCall context) AppendResult

/-- **Every run of the repositories is good**: nobody locks a row against the discipline. -/
theorem locks_good {context : TenantContext} {l₀ : Ledger} {s : RepositorySys context}
    (hrun : Run ledgerEngine RepositoryCall.transaction ⟨l₀, []⟩ s) :
    s.Good ledgerEngine (lockRule context) := by
  refine hrun.good (lockRule_sound context) (fun g l _ => ?_) trivial
  exact (repositoryCall_safe g l).mono fun _ _ _ _ _ => trivial

end AegisPlatform
