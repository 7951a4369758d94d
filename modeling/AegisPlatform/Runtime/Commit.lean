import AegisPlatform.EventStore.Ledger
import AegisPlatform.Runtime.History
import AegisPlatform.Runtime.Reconcile

/-!
# From transactions to steps

Each mutation of the work projection, run to its end, is one step of its item:
`WorkMutation.itemStep`, assembled from one lemma a mutation.  What is appended
with it is fixed by the mutation (`WorkMutation.types`, `WorkMutation.generation`),
and so is the item it is about (`WorkMutation.key`).

* `updateItem_eq_ok`, `endLease_eq_ok` — the two statements, read backwards.
* `WorkMutation.Sound` — what an operation has to have seen before it commits.
* `WorkMutation.itemStep` — the step; `WorkMutation.frame` — everything else is
  unchanged.
-/

namespace AegisPlatform

open Fallible

/-! ## The statements, read backwards -/

namespace Database

/-- What the database holds of an item, with a given stream. -/
def viewWith (db : Database) (key : WorkKey) (stream : List EventEnvelope) : ItemView :=
  ⟨db.workItems.lookup key, db.workLeases.lookup key, db.deadLetters.lookup key, stream⟩

/-- What the database holds of an item. -/
def view (db : Database) (key : WorkKey) : ItemView := db.viewWith key (db.stream key)

variable {db db' : Database}

theorem updateItem_eq_ok {key : WorkKey} {e : Raised} {p : WorkItemRow → Bool}
    {f : WorkItemRow → WorkItemRow} : db.updateItem key e p f = .ok db' ↔
      ∃ item, db.workItems.lookup key = some item ∧ p item = true ∧
        db' = { db with workItems := db.workItems.upsert key (f item) } := by
  simp only [updateItem, bind_eq_ok, orRaise_eq_ok, Table.updateWhere_eq_some, pure_eq_ok]
  constructor
  · rintro ⟨items, ⟨item, hitem, hp, rfl⟩, rfl⟩
    exact ⟨item, hitem, hp, rfl⟩
  · rintro ⟨item, hitem, hp, rfl⟩
    exact ⟨_, ⟨item, hitem, hp, rfl⟩, rfl⟩

theorem endLease_eq_ok {lease : WorkLease} {at' : Timestamp} {reason : String}
    {p : WorkLeaseRow → Bool} : db.endLease lease at' reason p = .ok db' ↔
      ∃ row, db.workLeases.lookup lease.key = some row ∧
        row.holds lease.token lease.generation = true ∧ p row = true ∧
        db' = { db with workLeases :=
          db.workLeases.upsert lease.key { row with released := some (at', reason) } } := by
  simp only [endLease, bind_eq_ok, orRaise_eq_ok, Table.updateWhere_eq_some, pure_eq_ok,
    Bool.and_eq_true]
  constructor
  · rintro ⟨leases, ⟨row, hrow, ⟨hholds, hp⟩, rfl⟩, rfl⟩
    exact ⟨row, hrow, hholds, hp, rfl⟩
  · rintro ⟨row, hrow, hholds, hp, rfl⟩
    exact ⟨_, ⟨row, hrow, ⟨hholds, hp⟩, rfl⟩, rfl⟩

end Database

theorem WorkLeaseRow.holds_iff {row : WorkLeaseRow} {token : UUID} {generation : ℤ} :
    row.holds token generation = true ↔
      row.token = token ∧ row.generation = generation ∧ row.released = none := by
  simp [holds, and_assoc]

/-! ## What a mutation is about -/

namespace WorkMutation

/-- The item a mutation is about. -/
def key : WorkMutation → WorkKey
  | insertWork request _ | markProjection request | claimProjection request .. |
    markStarted request _ | cancelProjection request .. => request.key
  | renewLease lease _ | succeed lease _ | cancel lease _ | deadLetter lease .. | retry lease .. |
    releaseProjection lease .. | expireProjection lease .. => lease.key
  | redriveProjection tenantId _ workId | requeueProjection tenantId workId .. => (tenantId, workId)

/-- The lease a mutation runs under: that of a fenced append. -/
def lease? : WorkMutation → Option WorkLease
  | markStarted _ lease | renewLease lease _ | succeed lease _ | cancel lease _ |
    deadLetter lease .. | retry lease .. | releaseProjection lease .. => some lease
  | _ => none

/-- The types of the events committed with a mutation. -/
def types : WorkMutation → List DomainEventType
  | insertWork .. => [.workRequested]
  | markProjection _ => [.workPublished]
  | claimProjection .. => [.workClaimed]
  | markStarted .. => [.workStarted]
  | renewLease .. => [.workHeartbeat]
  | cancelProjection _ status _ =>
    if status.isQueued then [.workCancelRequested, .workCancelled] else [.workCancelRequested]
  | succeed .. => [.workSucceeded]
  | cancel .. => [.workCancelled]
  | deadLetter .. => [.workFailed, .workDeadLettered]
  | retry .. => [.workFailed, .workRetryScheduled]
  | releaseProjection .. => [.workRetryScheduled]
  | redriveProjection .. => [.workReconciled]
  | expireProjection _ cancelRequestedAt exhausted _ =>
    [.workLeaseExpired, (expiryOutcome cancelRequestedAt.isSome exhausted).1]
  | requeueProjection .. => [.workRetryScheduled]

/-- The lease generation those events carry. -/
def generation : WorkMutation → Option ℤ
  | claimProjection _ lease .. | expireProjection lease .. => some lease.generation
  | m => m.lease?.map (·.generation)

/-- What a mutation does to its item. -/
def op : WorkMutation → ItemOp
  | insertWork .. => .register
  | markProjection _ => .publish
  | claimProjection .. => .claim
  | markStarted .. => .start
  | renewLease .. => .heartbeat
  | cancelProjection _ status _ => if status.isQueued then .cancelQueued else .cancelActive
  | succeed lease _ => .ending .succeed lease.attempt
  | cancel lease _ => .ending .cancel lease.attempt
  | deadLetter lease .. => .ending .deadLetter lease.attempt
  | retry lease .. => .ending .retry lease.attempt
  | releaseProjection lease .. => .ending .release lease.attempt
  | redriveProjection .. => .redrive
  | expireProjection lease cancelRequestedAt exhausted _ =>
    if cancelRequestedAt.isSome then .ending .expireCancelled lease.attempt
    else if exhausted then .ending .expireDead lease.attempt
    else .ending .expireRetry lease.attempt
  | requeueProjection .. => .requeue

/-- What an operation knows of the database when it commits a mutation: a claim
is of an attempt the item has, a cancellation of an item that was not over, an
expiry of the attempt the lease was. -/
def Sound (m : WorkMutation) (db : Database) : Prop :=
  match m with
  | claimProjection request lease .. => lease.key = request.key ∧
    ∃ item ∈ db.workItems.lookup request.key, lease.attempt ≤ item.maxAttempts
  | cancelProjection _ status _ => status.isTerminal = false
  | expireProjection lease _ exhausted _ =>
    (∀ stream, (db.viewWith lease.key stream).Known lease.generation lease.attempt) ∧
    ∃ item ∈ db.workItems.lookup lease.key, exhausted = decide (item.maxAttempts ≤ lease.attempt)
  | _ => True

end WorkMutation

/-- A mutation that ends the lease it presents ends its attempt. -/
theorem WorkMutation.attempt_of_lease {m : WorkMutation} {lease : WorkLease} {e : Ending}
    {attempt : ℤ} (hlease : m.lease? = some lease) (hop : m.op = .ending e attempt) :
    attempt = lease.attempt := by
  cases m <;> first | (cases hlease; done) | skip
  all_goals
    cases hlease
    cases hop
  all_goals rfl

/-- A mutation that ends a lease without presenting it ends one that ran out. -/
theorem WorkMutation.expired_of_unleased {m : WorkMutation} {e : Ending} {attempt : ℤ}
    (hlease : m.lease? = none) (hop : m.op = .ending e attempt) : e.ofExpired = true := by
  cases m with
  | expireProjection lease cancelRequestedAt exhausted at' =>
    rw [op] at hop
    split at hop
    · cases hop; rfl
    · split at hop <;> (cases hop; rfl)
  | cancelProjection request status at' =>
    rw [op] at hop
    split at hop <;> cases hop
  | insertWork | markProjection | claimProjection | redriveProjection | requeueProjection => cases hop
  | _ => cases hlease

/-! ## One lemma a mutation -/

namespace Database

variable {db db' : Database} {now at' : Timestamp} {request : WorkRequest} {lease : WorkLease}
  {stream es : List EventEnvelope}

theorem itemStep_insertWork {id : UUID} (h : db.insertWork request id = .ok db')
    (hb : Batch es [.workRequested] none) :
    ItemStep now .register (db.viewWith request.key []) (db'.viewWith request.key ([] ++ es)) := by
  simp only [insertWork, bind_eq_ok, orRaise_eq_ok, Table.insertNew_eq_some, pure_eq_ok] at h
  obtain ⟨-, -, items, ⟨hnone, rfl⟩, rfl⟩ := h
  simp only [viewWith, hnone, Table.lookup_upsert_self, List.nil_append]
  exact .register rfl rfl request.one_le_maxAttempts rfl rfl hb

theorem itemStep_markProjection (h : db.markProjection request = .ok db')
    (hb : Batch es [.workPublished] none) :
    ItemStep now .publish (db.viewWith request.key stream)
      (db'.viewWith request.key (stream ++ es)) := by
  obtain ⟨item, hitem, hp, rfl⟩ := updateItem_eq_ok.1 h
  simp only [viewWith, hitem, Table.lookup_upsert_self]
  exact .publish (by simpa using hp) hb

theorem acquireLease_eq_ok {key : WorkKey} {duration : ℤ}
    (h : db.acquireLease key lease duration now = .ok db') :
    (∀ old ∈ db.workLeases.lookup key, lease.generation = old.generation + 1) ∧
    db' = { db with workLeases := db.workLeases.upsert key {
      token := lease.token
      generation := lease.generation
      owner := lease.owner
      acquiredAt := now
      heartbeatAt := now
      expiresAt := now + duration } } := by
  simp only [acquireLease, bind_eq_ok, raiseIf_eq_ok, pure_eq_ok] at h
  obtain ⟨-, hgen, -, -, rfl⟩ := h
  refine ⟨fun old hold => ?_, rfl⟩
  rw [Option.mem_def] at hold
  simp only [hold, Option.any_some, decide_eq_true_eq, not_not] at hgen
  omega

theorem claimProjection_eq_ok {duration limit : ℤ}
    (h : db.claimProjection request lease duration limit now = .ok db') :
    ∃ item, db.workItems.lookup request.key = some item ∧ item.attemptCount = lease.attempt - 1 ∧
      (item.status = .published ∨ item.status = .retryWait) ∧ item.cancelRequestedAt = none ∧
      (∀ old ∈ db.workLeases.lookup request.key, lease.generation = old.generation + 1) ∧
      db' = { db with
        workItems := db.workItems.upsert request.key
          { item with status := .claimed, attemptCount := lease.attempt }
        workLeases := db.workLeases.upsert request.key {
          token := lease.token
          generation := lease.generation
          owner := lease.owner
          acquiredAt := now
          heartbeatAt := now
          expiresAt := now + duration } } := by
  simp only [claimProjection, bind_eq_ok, updateItem_eq_ok] at h
  obtain ⟨-, -, db₁, ⟨item, hitem, hp, rfl⟩, hlease⟩ := h
  obtain ⟨hgen, rfl⟩ := acquireLease_eq_ok hlease
  simp only [Bool.and_eq_true, Bool.or_eq_true, decide_eq_true_eq] at hp
  obtain ⟨⟨⟨hcount, hstatus⟩, -⟩, hcancel⟩ := hp
  exact ⟨item, hitem, hcount, hstatus, hcancel, hgen, rfl⟩

theorem itemStep_claimProjection {duration limit : ℤ}
    (h : db.claimProjection request lease duration limit now = .ok db')
    (hs : ∃ item ∈ db.workItems.lookup request.key, lease.attempt ≤ item.maxAttempts)
    (hb : Batch es [.workClaimed] (some lease.generation)) :
    ItemStep now .claim (db.viewWith request.key stream)
      (db'.viewWith request.key (stream ++ es)) := by
  obtain ⟨item, hitem, hcount, hstatus, hcancel, hgen, rfl⟩ := claimProjection_eq_ok h
  obtain ⟨item₀, hitem₀, hmax⟩ := hs
  rw [hitem] at hitem₀
  cases hitem₀
  have hattempt : lease.attempt = item.attemptCount + 1 := by omega
  simp only [viewWith, hitem, Table.lookup_upsert_self, hattempt]
  exact .claim hstatus hcancel (by omega) hgen rfl hb

theorem itemStep_markStarted {row : WorkLeaseRow} (h : db.markStarted request lease = .ok db')
    (hrow : db.workLeases.lookup request.key = some row)
    (hholds : row.holds lease.token lease.generation = true)
    (hb : Batch es [.workStarted] (some lease.generation)) :
    ItemStep now .start (db.viewWith request.key stream)
      (db'.viewWith request.key (stream ++ es)) := by
  obtain ⟨item, hitem, hp, rfl⟩ := updateItem_eq_ok.1 h
  obtain ⟨-, hgen, hrel⟩ := WorkLeaseRow.holds_iff.1 hholds
  simp only [viewWith, hitem, hrow, Table.lookup_upsert_self]
  exact .start hrel (by simpa using hp) (hgen ▸ hb)

theorem itemStep_renewLease {extension : ℤ} (h : db.renewLease lease extension now = .ok db')
    (hb : Batch es [.workHeartbeat] (some lease.generation)) :
    ItemStep now .heartbeat (db.viewWith lease.key stream)
      (db'.viewWith lease.key (stream ++ es)) := by
  simp only [renewLease, bind_eq_ok, orRaise_eq_ok, Table.updateWhere_eq_some, pure_eq_ok,
    Bool.and_eq_true] at h
  obtain ⟨leases, ⟨row, hrow, ⟨⟨hholds, -⟩, -⟩, rfl⟩, rfl⟩ := h
  obtain ⟨-, hgen, hrel⟩ := WorkLeaseRow.holds_iff.1 hholds
  simp only [viewWith, hrow, Table.lookup_upsert_self]
  exact .heartbeat hrel hrel rfl rfl (hgen ▸ hb)

theorem itemStep_cancelProjection {status : WorkStatus}
    (h : db.cancelProjection request status at' = .ok db') (hs : status.isTerminal = false)
    (hb : Batch es (if status.isQueued then [.workCancelRequested, .workCancelled]
      else [.workCancelRequested]) none) :
    ItemStep now (if status.isQueued then .cancelQueued else .cancelActive)
      (db.viewWith request.key stream) (db'.viewWith request.key (stream ++ es)) := by
  obtain ⟨item, hitem, hp, rfl⟩ := updateItem_eq_ok.1 h
  have hstatus : item.status = status := by simpa using hp
  have hsome : (item.cancelRequestedAt <|> some at') ≠ none := by
    cases item.cancelRequestedAt <;> simp
  simp only [viewWith, hitem, Table.lookup_upsert_self]
  by_cases hq : status.isQueued = true
  · simp only [hq, if_true] at hb ⊢
    exact .cancelQueued (by rw [hstatus]; exact hq) rfl hsome (by simp) rfl rfl hb
  · simp only [hq, if_false, Bool.false_eq_true] at hb ⊢
    refine .cancelActive ?_ rfl hsome rfl rfl rfl hb
    rw [hstatus]
    cases status <;> first | rfl | exact absurd hs (by decide) | exact absurd rfl hq

/-- The common part of the endings by a holder: the lease row is released and the
item updated. -/
theorem itemStep_ending {e : Ending} {reason : String} {p : WorkItemRow → Bool}
    {f : WorkItemRow → WorkItemRow} {q : WorkLeaseRow → Bool} {db₁ : Database}
    {dead : Option DeadLetterRow}
    (hlease : db.endLease lease at' reason q = .ok db₁)
    (hitem : db₁.updateItem lease.key (.fencingError lease.generation 0) p f = .ok db')
    (hallows : ∀ item, db.workItems.lookup lease.key = some item → p item = true →
      e.allows item.status = true ∧ (item.cancelRequestedAt ≠ none ↔ e.ofCancelled = true))
    (hexpired : ∀ row item, q row = true → db.workLeases.lookup lease.key = some row →
      row.holds lease.token lease.generation = true → db.workItems.lookup lease.key = some item →
      (e.ofExpired = true → row.expiresAt ≤ now ∧ lease.attempt = item.attemptCount) ∧
      (e = .expireRetry → lease.attempt < item.maxAttempts))
    (hf : ∀ item, (f item).status = e.target ∧
      (f item).cancelRequestedAt = item.cancelRequestedAt ∧
      (f item).attemptCount = item.attemptCount ∧ (f item).maxAttempts = item.maxAttempts ∧
      (e.target = .retryWait → (f item).completedAt = item.completedAt ∨
        (f item).completedAt = none) ∧ (e.target ≠ .retryWait → (f item).completedAt ≠ none))
    (hdead : e.target = .deadLetter → ∃ d, dead = some d ∧ d.attempts = lease.attempt)
    (hb : Batch es e.events (some lease.generation)) :
    ItemStep now (.ending e lease.attempt) (db.viewWith lease.key stream)
      { db'.viewWith lease.key (stream ++ es) with dead := dead } := by
  obtain ⟨row, hrow, hholds, hq, rfl⟩ := endLease_eq_ok.1 hlease
  obtain ⟨item, hlookup, hp, rfl⟩ := updateItem_eq_ok.1 hitem
  replace hlookup : db.workItems.lookup lease.key = some item := hlookup
  obtain ⟨-, hgen, hrel⟩ := WorkLeaseRow.holds_iff.1 hholds
  obtain ⟨hstatus, hcancel, hcount, hmax, hkeep, hdone⟩ := hf item
  obtain ⟨hallow, hof⟩ := hallows item hlookup hp
  obtain ⟨hexp, hretry⟩ := hexpired row item hq hrow hholds hlookup
  simp only [viewWith, hlookup, hrow, Table.lookup_upsert_self]
  exact .ending hrel hallow hof hexp hretry hstatus hcancel hcount hmax hkeep hdone hdead
    (hgen ▸ hb)

theorem itemStep_complete {reason : String}
    (h : db.completeInTransaction lease at' .succeeded reason = .ok db')
    (hb : Batch es [.workSucceeded] (some lease.generation)) :
    ItemStep now (.ending .succeed lease.attempt) (db.viewWith lease.key stream)
      (db'.viewWith lease.key (stream ++ es)) := by
  obtain ⟨db₁, hlease, hitem⟩ := bind_eq_ok.1 h
  exact itemStep_ending (e := .succeed) hlease hitem
    (by simp +contextual [Ending.allows, Ending.ofCancelled])
    (by simp [Ending.ofExpired]) (by simp [Ending.target]) (by simp [Ending.target]) hb

theorem itemStep_cancel (h : db.cancelInTransaction lease at' = .ok db')
    (hb : Batch es [.workCancelled] (some lease.generation)) :
    ItemStep now (.ending .cancel lease.attempt) (db.viewWith lease.key stream)
      (db'.viewWith lease.key (stream ++ es)) := by
  obtain ⟨db₁, hlease, hitem⟩ := bind_eq_ok.1 h
  exact itemStep_ending (e := .cancel) hlease hitem
    (by simp +contextual [Ending.allows, Ending.ofCancelled]) (by simp [Ending.ofExpired])
    (by simp [Ending.target]) (by simp [Ending.target]) hb

theorem itemStep_release {reason : String} {retryAt : Timestamp}
    (h : db.releaseInTransaction lease at' reason retryAt false = .ok db')
    (hb : Batch es [.workRetryScheduled] (some lease.generation)) :
    ItemStep now (.ending .release lease.attempt) (db.viewWith lease.key stream)
      (db'.viewWith lease.key (stream ++ es)) := by
  obtain ⟨db₁, hlease, hitem⟩ := bind_eq_ok.1 h
  exact itemStep_ending (e := .release) hlease hitem
    (by simp +contextual [Ending.allows, Ending.ofCancelled]) (by simp [Ending.ofExpired])
    (by simp [Ending.target]) (by simp [Ending.target]) hb

theorem itemStep_retry {reason : String} {retryAt : Timestamp}
    (h : db.releaseInTransaction lease at' reason retryAt true = .ok db')
    (hb : Batch es [.workFailed, .workRetryScheduled] (some lease.generation)) :
    ItemStep now (.ending .retry lease.attempt) (db.viewWith lease.key stream)
      (db'.viewWith lease.key (stream ++ es)) := by
  obtain ⟨db₁, hlease, hitem⟩ := bind_eq_ok.1 h
  exact itemStep_ending (e := .retry) hlease hitem
    (by simp +contextual [Ending.allows, Ending.ofCancelled]) (by simp [Ending.ofExpired])
    (by simp [Ending.target]) (by simp [Ending.target]) hb

theorem recordDeadLetter_attempts (db : Database) (lease : WorkLease) (at' : Timestamp)
    (reason : String) : ∃ d, (db.recordDeadLetter lease at' reason).deadLetters.lookup lease.key =
      some d ∧ d.attempts = lease.attempt := by
  unfold recordDeadLetter
  cases db.deadLetters.lookup lease.key <;> exact ⟨_, Table.lookup_upsert_self .., rfl⟩

theorem itemStep_deadLetter {reason : String}
    (h : db.deadLetterInTransaction lease at' reason = .ok db')
    (hb : Batch es [.workFailed, .workDeadLettered] (some lease.generation)) :
    ItemStep now (.ending .deadLetter lease.attempt) (db.viewWith lease.key stream)
      (db'.viewWith lease.key (stream ++ es)) := by
  simp only [deadLetterInTransaction, completeInTransaction, bind_eq_ok, pure_eq_ok] at h
  obtain ⟨db₂, ⟨db₁, hlease, hitem⟩, rfl⟩ := h
  -- the item row is written twice; put the two writes together
  obtain ⟨item, hlookup, hp, rfl⟩ := updateItem_eq_ok.1 hitem
  have htwice : db₁.updateItem lease.key (.fencingError lease.generation 0)
      (fun item => item.status.isActive && item.cancelRequestedAt = none)
      (fun item => { item with
        status := .deadLetter, completedAt := some at', lastErrorCode := some reason }) =
      .ok { db₁ with workItems := db₁.workItems.upsert lease.key { item with
        status := .deadLetter, completedAt := some at', lastErrorCode := some reason } } :=
    updateItem_eq_ok.2 ⟨item, hlookup, hp, rfl⟩
  obtain ⟨d, hd, hattempts⟩ := recordDeadLetter_attempts db₁ lease at' reason
  have hstep : ItemStep now (.ending .deadLetter lease.attempt) _
      { viewWith _ lease.key (stream ++ es) with dead := some d } := itemStep_ending hlease htwice
    (by simp +contextual [Ending.allows, Ending.ofCancelled]) (by simp [Ending.ofExpired])
    (by simp [Ending.target]) (fun _ => ⟨d, rfl, hattempts⟩) hb
  rw [← hd] at hstep
  convert hstep using 1
  simp [viewWith, recordDeadLetter, Table.lookup_modify]

theorem itemStep_expireDead {reason : String}
    (h : db.deadLetterExpiredInTransaction lease at' reason now = .ok db')
    (hcancel : ∀ item, db.workItems.lookup lease.key = some item → item.cancelRequestedAt = none)
    (hcount : ∀ row item, db.workLeases.lookup lease.key = some row →
      row.holds lease.token lease.generation = true → db.workItems.lookup lease.key = some item →
      lease.attempt = item.attemptCount)
    (hb : Batch es [.workLeaseExpired, .workDeadLettered] (some lease.generation)) :
    ItemStep now (.ending .expireDead lease.attempt) (db.viewWith lease.key stream)
      (db'.viewWith lease.key (stream ++ es)) := by
  simp only [deadLetterExpiredInTransaction, bind_eq_ok, pure_eq_ok] at h
  obtain ⟨db₁, hlease, db₂, hitem, rfl⟩ := h
  obtain ⟨d, hd, hattempts⟩ := recordDeadLetter_attempts db₂ lease at' reason
  have hstep : ItemStep now (.ending .expireDead lease.attempt) _
      { viewWith _ lease.key (stream ++ es) with dead := some d } := itemStep_ending hlease hitem
    (fun item hlookup hp => ⟨hp, by simp [hcancel item hlookup, Ending.ofCancelled]⟩)
    (fun row item hq hrow hholds hlookup =>
      ⟨fun _ => ⟨by simpa using hq, hcount row item hrow hholds hlookup⟩, by simp⟩)
    (by simp [Ending.target]) (fun _ => ⟨d, rfl, hattempts⟩) hb
  rw [← hd] at hstep
  exact hstep

/-- An expired lease: what comes of it was decided on what the item still is. -/
theorem itemStep_expireProjection {cancelRequestedAt : Option Timestamp} {exhausted : Bool}
    (h : db.expireProjection lease cancelRequestedAt exhausted at' now = .ok db')
    (hknown : ∀ stream, (db.viewWith lease.key stream).Known lease.generation lease.attempt)
    (hmax : ∃ item ∈ db.workItems.lookup lease.key,
      exhausted = decide (item.maxAttempts ≤ lease.attempt))
    (hb : Batch es [.workLeaseExpired, (expiryOutcome cancelRequestedAt.isSome exhausted).1]
      (some lease.generation)) :
    ItemStep now (WorkMutation.expireProjection lease cancelRequestedAt exhausted at').op
      (db.viewWith lease.key stream) (db'.viewWith lease.key (stream ++ es)) := by
  obtain ⟨item₀, hitem₀, hexhausted⟩ := hmax
  rw [Option.mem_def] at hitem₀
  have hcount : ∀ row item, db.workLeases.lookup lease.key = some row →
      row.holds lease.token lease.generation = true → db.workItems.lookup lease.key = some item →
      lease.attempt = item.attemptCount := by
    intro row item hrow hholds hitem
    obtain ⟨-, hgen, hrel⟩ := WorkLeaseRow.holds_iff.1 hholds
    obtain ⟨row', hrow', -, hcount⟩ := hknown []
    simp only [viewWith, hrow, Option.mem_some_iff] at hrow'
    subst hrow'
    obtain ⟨item', hitem', heq⟩ := hcount hgen hrel
    simp only [viewWith, hitem, Option.mem_some_iff] at hitem'
    rw [← heq, hitem']
  simp only [expireProjection, bind_eq_ok, raiseIf_eq_ok, hitem₀, Option.any_some,
    Bool.not_eq_true', decide_eq_false_iff_not, not_not] at h
  obtain ⟨-, hcancel, h⟩ := h
  cases hc : cancelRequestedAt with
  | some requestedAt =>
    simp only [hc, Option.isSome_some, Bool.not_true, Bool.and_false, Bool.false_eq_true,
      if_false, if_true, bind_eq_ok] at h
    obtain ⟨db₁, hlease, hitem⟩ := h
    refine itemStep_ending (e := .expireCancelled) hlease hitem ?_ ?_ (by simp [Ending.target])
      (by simp [Ending.target]) (by simpa [hc, expiryOutcome, Ending.events] using hb)
    · intro item hlookup hp
      rw [hitem₀] at hlookup
      cases hlookup
      exact ⟨hp, by simp [hcancel, hc, Ending.ofCancelled]⟩
    · intro row item hq hrow hholds hlookup
      exact ⟨fun _ => ⟨by simpa using hq, hcount row item hrow hholds hlookup⟩, by simp⟩
  | none =>
    have hnone : ∀ item, db.workItems.lookup lease.key = some item →
        item.cancelRequestedAt = none := by
      intro item hlookup
      rw [hitem₀] at hlookup
      cases hlookup
      rw [hcancel, hc]
    cases he : exhausted with
    | true =>
      simp only [hc, he, Option.isSome_none, Bool.not_false, Bool.and_true, if_true] at h
      exact itemStep_expireDead h hnone hcount (by simpa [hc, he, expiryOutcome] using hb)
    | false =>
      simp only [hc, he, Option.isSome_none, Bool.not_false, Bool.and_true, Bool.false_eq_true,
        if_false, bind_eq_ok] at h
      obtain ⟨db₁, hlease, hitem⟩ := h
      refine itemStep_ending (e := .expireRetry) hlease hitem ?_ ?_ (by simp [Ending.target])
        (by simp [Ending.target]) (by simpa [hc, he, expiryOutcome, Ending.events] using hb)
      · exact fun item hlookup hp => ⟨hp, by simp [hnone item hlookup, Ending.ofCancelled]⟩
      · intro row item hq hrow hholds hlookup
        refine ⟨fun _ => ⟨by simpa using hq, hcount row item hrow hholds hlookup⟩, fun _ => ?_⟩
        rw [hitem₀] at hlookup
        cases hlookup
        rw [he, eq_comm, decide_eq_false_iff_not] at hexhausted
        omega

theorem itemStep_redriveProjection {tenantId : String} {messageId workId : UUID}
    (h : db.redriveProjection tenantId messageId workId now = .ok db')
    (hb : Batch es [.workReconciled] none) :
    ItemStep now .redrive (db.viewWith (tenantId, workId) stream)
      (db'.viewWith (tenantId, workId) (stream ++ es)) := by
  simp only [redriveProjection, bind_eq_ok, orRaise_eq_ok, Table.updateWhere_eq_some, pure_eq_ok]
    at h
  obtain ⟨outbox, ⟨row, -, hp, -⟩, rfl⟩ := h
  simp only [redrivable, Bool.and_eq_true] at hp
  obtain ⟨⟨-, hqueued⟩, -⟩ := hp
  obtain ⟨item, hitem, hq⟩ := (Option.any_eq_true _ _).1 hqueued
  simp only [viewWith, hitem]
  exact .redrive hq hb

theorem itemStep_requeueProjection {tenantId actorId : String} {workId : UUID}
    {approval : RequeueApproval}
    (h : db.requeueProjection tenantId workId approval at' actorId now = .ok db')
    (hb : Batch es [.workRetryScheduled] none) :
    ItemStep now .requeue (db.viewWith (tenantId, workId) stream)
      (db'.viewWith (tenantId, workId) (stream ++ es)) := by
  simp only [requeueProjection, bind_eq_ok, updateItem_eq_ok, pure_eq_ok] at h
  obtain ⟨-, -, db₁, ⟨item, hitem, hp, rfl⟩, rfl⟩ := h
  simp only [viewWith, hitem, Table.lookup_upsert_self]
  exact .requeue (by simpa using hp) rfl rfl rfl rfl rfl hb

end Database

/-- **A mutation is a step of its item.**  Run together with its batch of events,
and under the lease it names if it names one, a mutation does to its item what
`WorkMutation.op` says. -/
theorem WorkMutation.itemStep {m : WorkMutation} {now : Timestamp} {db db' : Database}
    {stream es : List EventEnvelope} (h : m.run now db = .ok db') (hs : m.Sound db)
    (hlease : ∀ lease ∈ m.lease?, lease.key = m.key ∧
      ∃ row, db.workLeases.lookup m.key = some row ∧
        row.holds lease.token lease.generation = true)
    (hnew : m.op = .register → stream = []) (hb : Batch es m.types m.generation) :
    ItemStep now m.op (db.viewWith m.key stream) (db'.viewWith m.key (stream ++ es)) := by
  cases m with
  | insertWork => rw [hnew rfl]; exact Database.itemStep_insertWork h hb
  | markProjection => exact Database.itemStep_markProjection h hb
  | claimProjection => exact Database.itemStep_claimProjection h hs.2 hb
  | markStarted request lease =>
    obtain ⟨-, row, hrow, hholds⟩ := hlease lease rfl
    exact Database.itemStep_markStarted h hrow hholds hb
  | renewLease => exact Database.itemStep_renewLease h hb
  | cancelProjection => exact Database.itemStep_cancelProjection h hs hb
  | succeed => exact Database.itemStep_complete h hb
  | cancel => exact Database.itemStep_cancel h hb
  | deadLetter => exact Database.itemStep_deadLetter h hb
  | retry => exact Database.itemStep_retry h hb
  | releaseProjection => exact Database.itemStep_release h hb
  | redriveProjection => exact Database.itemStep_redriveProjection h hb
  | expireProjection => exact Database.itemStep_expireProjection h hs.1 hs.2 hb
  | requeueProjection => exact Database.itemStep_requeueProjection h hb

/-! ## What a mutation leaves alone -/

/-- The two databases differ in the work tables at one key at most, and in outbox
messages that are sent again. -/
structure Database.Frame (key : WorkKey) (db db' : Database) : Prop where
  tenants : db'.tenants = db.tenants
  events : db'.events = db.events
  nextPosition : db'.nextPosition = db.nextPosition
  heads : db'.heads = db.heads
  inbox : db'.inbox = db.inbox
  quotas : db'.quotas = db.quotas
  reservations : db'.reservations = db.reservations
  usage : db'.usage = db.usage
  outbox : ∀ k, db'.outbox.lookup k = db.outbox.lookup k ∨ ∃ row publishedAt availableAt,
    db.outbox.lookup k = some row ∧ row.state = .published publishedAt ∧
    db'.outbox.lookup k = some { row with
      state := .pending, availableAt := availableAt, attemptCount := 0, lastErrorCode := none }
  items : ∀ k, k ≠ key → db'.workItems.lookup k = db.workItems.lookup k
  leases : ∀ k, k ≠ key → db'.workLeases.lookup k = db.workLeases.lookup k
  dead : ∀ k, k ≠ key → db'.deadLetters.lookup k = db.deadLetters.lookup k

namespace Database

variable {db db₁ db' : Database} {key : WorkKey}

theorem Frame.refl (db : Database) : Frame key db db where
  tenants := rfl
  events := rfl
  nextPosition := rfl
  heads := rfl
  inbox := rfl
  quotas := rfl
  reservations := rfl
  usage := rfl
  outbox := fun _ => Or.inl rfl
  items := fun _ _ => rfl
  leases := fun _ _ => rfl
  dead := fun _ _ => rfl

theorem Frame.trans (h₁ : Frame key db db₁) (h₂ : Frame key db₁ db') : Frame key db db' where
  tenants := h₂.tenants.trans h₁.tenants
  events := h₂.events.trans h₁.events
  nextPosition := h₂.nextPosition.trans h₁.nextPosition
  heads := h₂.heads.trans h₁.heads
  inbox := h₂.inbox.trans h₁.inbox
  quotas := h₂.quotas.trans h₁.quotas
  reservations := h₂.reservations.trans h₁.reservations
  usage := h₂.usage.trans h₁.usage
  outbox := by
    intro k
    rcases h₂.outbox k with hsame | ⟨row, publishedAt, availableAt, hrow, hst, hrow'⟩
    · rw [hsame]
      exact h₁.outbox k
    · rcases h₁.outbox k with hsame₁ | ⟨row₁, _, _, -, -, hrow₁⟩
      · exact Or.inr ⟨row, publishedAt, availableAt, hsame₁ ▸ hrow, hst, hrow'⟩
      · -- a message that is sent again is not published
        rw [hrow₁, Option.some.injEq] at hrow
        subst hrow
        cases hst
  items := fun k hk => (h₂.items k hk).trans (h₁.items k hk)
  leases := fun k hk => (h₂.leases k hk).trans (h₁.leases k hk)
  dead := fun k hk => (h₂.dead k hk).trans (h₁.dead k hk)

theorem Frame.viewWith (h : Frame key db db') {k : WorkKey} (hk : k ≠ key)
    (stream : List EventEnvelope) : db'.viewWith k stream = db.viewWith k stream := by
  unfold Database.viewWith
  rw [h.items k hk, h.leases k hk, h.dead k hk]

theorem published_of_redrivable {messageId : UUID} {now : Timestamp} {row : OutboxRow}
    (h : db.redrivable key messageId now row = true) :
    ∃ publishedAt, row.state = .published publishedAt := by
  unfold redrivable at h
  cases hst : row.state with
  | published publishedAt => exact ⟨publishedAt, rfl⟩
  | _ => rw [hst] at h; cases h

theorem frame_items (item : WorkItemRow) :
    Frame key db { db with workItems := db.workItems.upsert key item } :=
  { Frame.refl db with items := fun _ hk => Table.lookup_upsert_ne _ _ hk }

theorem frame_leases (row : WorkLeaseRow) :
    Frame key db { db with workLeases := db.workLeases.upsert key row } :=
  { Frame.refl db with leases := fun _ hk => Table.lookup_upsert_ne _ _ hk }

theorem frame_dead (row : DeadLetterRow) :
    Frame key db { db with deadLetters := db.deadLetters.upsert key row } :=
  { Frame.refl db with dead := fun _ hk => Table.lookup_upsert_ne _ _ hk }

theorem frame_updateItem {e : Raised} {p : WorkItemRow → Bool} {f : WorkItemRow → WorkItemRow}
    (h : db.updateItem key e p f = .ok db') : Frame key db db' := by
  obtain ⟨item, -, -, rfl⟩ := updateItem_eq_ok.1 h
  exact frame_items (f item)

theorem frame_endLease {lease : WorkLease} {at' : Timestamp} {reason : String}
    {p : WorkLeaseRow → Bool} (h : db.endLease lease at' reason p = .ok db') :
    Frame lease.key db db' := by
  obtain ⟨row, -, -, -, rfl⟩ := endLease_eq_ok.1 h
  exact frame_leases _

theorem frame_recordDeadLetter (db : Database) (lease : WorkLease) (at' : Timestamp)
    (reason : String) : Frame lease.key db (db.recordDeadLetter lease at' reason) := frame_dead _

theorem frame_ending {lease : WorkLease} {at' : Timestamp} {reason : String} {e : Raised}
    {q : WorkLeaseRow → Bool} {p : WorkItemRow → Bool} {f : WorkItemRow → WorkItemRow}
    (h : (db.endLease lease at' reason q >>= fun db => db.updateItem lease.key e p f) = .ok db') :
    Frame lease.key db db' := by
  obtain ⟨db₁, h₁, h₂⟩ := bind_eq_ok.1 h
  exact (frame_endLease h₁).trans (frame_updateItem h₂)

end Database

/-- A mutation touches the work tables at its own item only. -/
theorem WorkMutation.frame {m : WorkMutation} {now : Timestamp} {db db' : Database}
    (h : m.run now db = .ok db') : Database.Frame m.key db db' := by
  cases m with
  | insertWork request id =>
    simp only [run, Database.insertWork, bind_eq_ok, orRaise_eq_ok, Table.insertNew_eq_some,
      pure_eq_ok] at h
    obtain ⟨-, -, items, ⟨-, rfl⟩, rfl⟩ := h
    exact Database.frame_items _
  | markProjection => exact Database.frame_updateItem h
  | claimProjection =>
    simp only [run, Database.claimProjection, bind_eq_ok] at h
    obtain ⟨-, -, db₁, h₁, h₂⟩ := h
    obtain ⟨-, rfl⟩ := Database.acquireLease_eq_ok h₂
    exact (Database.frame_updateItem h₁).trans (Database.frame_leases _)
  | markStarted => exact Database.frame_updateItem h
  | renewLease =>
    simp only [run, Database.renewLease, bind_eq_ok, orRaise_eq_ok, Table.updateWhere_eq_some,
      pure_eq_ok] at h
    obtain ⟨leases, ⟨row, -, -, rfl⟩, rfl⟩ := h
    exact Database.frame_leases _
  | cancelProjection => exact Database.frame_updateItem h
  | succeed => exact Database.frame_ending h
  | cancel => exact Database.frame_ending h
  | deadLetter lease at' errorCode =>
    simp only [run, Database.deadLetterInTransaction, Database.completeInTransaction, bind_eq_ok,
      pure_eq_ok] at h
    obtain ⟨db₂, hdone, rfl⟩ := h
    refine (Database.frame_ending (bind_eq_ok.2 hdone)).trans ?_
    refine Database.Frame.trans ?_ (Database.frame_recordDeadLetter ..)
    unfold Table.modify
    cases db₂.workItems.lookup lease.key with
    | none => exact Database.Frame.refl _
    | some item => exact Database.frame_items _
  | retry => exact Database.frame_ending h
  | releaseProjection => exact Database.frame_ending h
  | redriveProjection tenantId messageId workId =>
    simp only [run, Database.redriveProjection, bind_eq_ok, orRaise_eq_ok,
      Table.updateWhere_eq_some, pure_eq_ok] at h
    obtain ⟨outbox, ⟨row, hrow, hold, rfl⟩, rfl⟩ := h
    obtain ⟨publishedAt, hst⟩ := Database.published_of_redrivable hold
    refine { Database.Frame.refl db with outbox := fun k => ?_ }
    by_cases hk : k = (tenantId, messageId)
    · subst hk
      exact Or.inr ⟨row, publishedAt, _, hrow, hst, Table.lookup_upsert_self ..⟩
    · exact Or.inl (Table.lookup_upsert_ne _ _ hk)
  | expireProjection lease cancelRequestedAt exhausted at' =>
    simp only [run, Database.expireProjection, bind_eq_ok] at h
    obtain ⟨-, -, h⟩ := h
    split at h
    · simp only [Database.deadLetterExpiredInTransaction, bind_eq_ok, pure_eq_ok] at h
      obtain ⟨db₁, h₁, db₂, h₂, rfl⟩ := h
      exact (Database.frame_ending (bind_eq_ok.2 ⟨db₁, h₁, h₂⟩)).trans
        (Database.frame_recordDeadLetter ..)
    · exact Database.frame_ending h
  | requeueProjection tenantId workId =>
    simp only [run, Database.requeueProjection, bind_eq_ok, pure_eq_ok] at h
    obtain ⟨-, -, db₁, h₁, rfl⟩ := h
    refine (Database.frame_updateItem h₁).trans ?_
    refine { Database.Frame.refl db₁ with dead := fun k hk => ?_ }
    rw [Table.lookup_modify, if_neg hk]

end AegisPlatform
