import AegisPlatform.Runtime.Projection

/-!
# The life of one work item

What the repository does to a work item, said once and without the tables: an
`ItemView` is what the database holds of one item, and `ItemStep` is the
complete list of what a committed transaction may do to it.  Every invariant of
the work projection is proved here, of these steps.

* `ItemView.Wf` — the cross-table invariant: leases and statuses go together,
  as do cancellations and completions, and the stream carries no generation
  beyond the lease's.  `ItemStep.wf` is its preservation.
* `ItemView.Known` — what a lease tells of its item for as long as it is held,
  and `ItemStep.known`: nothing changes it.
* `ItemStep.dead_attempts` — a dead letter counts the attempts of its item.
* `ItemStep.attempts_lt` — a queued item has attempts left, except where an
  item on its last attempt is put back (`ItemOp.KeepsAttempts`).
* `ItemStep.ends_lease` — a held lease ends only by an operation that ends it.
-/

namespace AegisPlatform

/-! ## Views and steps -/

/-- What the database holds of one work item. -/
structure ItemView where
  item : Option WorkItemRow
  lease : Option WorkLeaseRow
  dead : Option DeadLetterRow
  stream : List EventEnvelope

/-- The ways in which a lease ends. -/
inductive Ending where
  | succeed
  | deadLetter
  | retry
  | release
  | cancel
  | expireRetry
  | expireCancelled
  | expireDead
  deriving DecidableEq, Repr

namespace Ending

/-- The status an ended lease leaves its item in. -/
def target : Ending → WorkStatus
  | succeed => .succeeded
  | deadLetter | expireDead => .deadLetter
  | retry | release | expireRetry => .retryWait
  | cancel | expireCancelled => .cancelled

/-- The events an ending is recorded as. -/
def events : Ending → List DomainEventType
  | succeed => [.workSucceeded]
  | deadLetter => [.workFailed, .workDeadLettered]
  | retry => [.workFailed, .workRetryScheduled]
  | release => [.workRetryScheduled]
  | cancel => [.workCancelled]
  | expireRetry => [.workLeaseExpired, .workReconciled]
  | expireCancelled => [.workLeaseExpired, .workCancelled]
  | expireDead => [.workLeaseExpired, .workDeadLettered]

/-- Is it the end of a lease whose item has a cancellation request? -/
def ofCancelled : Ending → Bool
  | cancel | expireCancelled => true
  | _ => false

/-- Is it the end of a lease that ran out? -/
def ofExpired : Ending → Bool
  | expireRetry | expireCancelled | expireDead => true
  | _ => false

/-- The statuses an ending's statement allows. -/
def allows : Ending → WorkStatus → Bool
  | retry, status => status = .running
  | _, status => status.isActive

end Ending

/-- What a transaction does to an item. -/
inductive ItemOp where
  | register
  | publish
  | redrive
  | claim
  | start
  | heartbeat
  | model
  | cancelQueued
  | cancelActive
  | requeue
  /-- The end of a lease that was the given attempt. -/
  | ending (e : Ending) (attempt : ℤ)
  deriving DecidableEq, Repr

/-- A batch of events of the given types, all under one lease generation or all
under none. -/
structure Batch (es : List EventEnvelope) (types : List DomainEventType) (g : Option ℤ) : Prop where
  types : es.map (·.eventType) = types
  generation : ∀ e ∈ es, e.leaseGeneration? = g

/-- Everything a committed transaction may do to an item at the database's time
`now`: `ItemStep now op v v'` is the operation `op` taking `v` to `v'`. -/
inductive ItemStep (now : Timestamp) : ItemOp → ItemView → ItemView → Prop
  | register {item : WorkItemRow} {lease : Option WorkLeaseRow} {dead : Option DeadLetterRow}
      {es : List EventEnvelope} :
      item.status = .requested → item.attemptCount = 0 → 1 ≤ item.maxAttempts →
      item.cancelRequestedAt = none → item.completedAt = none →
      Batch es [.workRequested] none →
      ItemStep now .register ⟨none, lease, dead, []⟩ ⟨some item, lease, dead, es⟩
  | publish {item : WorkItemRow} {lease : Option WorkLeaseRow} {dead : Option DeadLetterRow}
      {stream es : List EventEnvelope} :
      item.status = .requested ∨ item.status = .retryWait →
      Batch es [.workPublished] none →
      ItemStep now .publish ⟨some item, lease, dead, stream⟩
        ⟨some { item with status := .published }, lease, dead, stream ++ es⟩
  | redrive {item : WorkItemRow} {lease : Option WorkLeaseRow} {dead : Option DeadLetterRow}
      {stream es : List EventEnvelope} :
      item.status.isQueued = true → Batch es [.workReconciled] none →
      ItemStep now .redrive ⟨some item, lease, dead, stream⟩
        ⟨some item, lease, dead, stream ++ es⟩
  | claim {item : WorkItemRow} {lease : Option WorkLeaseRow} {row : WorkLeaseRow}
      {dead : Option DeadLetterRow} {stream es : List EventEnvelope} :
      item.status = .published ∨ item.status = .retryWait → item.cancelRequestedAt = none →
      item.attemptCount + 1 ≤ item.maxAttempts →
      (∀ old ∈ lease, row.generation = old.generation + 1) → row.released = none →
      Batch es [.workClaimed] (some row.generation) →
      ItemStep now .claim ⟨some item, lease, dead, stream⟩
        ⟨some { item with status := .claimed, attemptCount := item.attemptCount + 1 }, some row, dead,
          stream ++ es⟩
  | start {item : WorkItemRow} {row : WorkLeaseRow} {dead : Option DeadLetterRow}
      {stream es : List EventEnvelope} :
      row.released = none → item.status = .claimed →
      Batch es [.workStarted] (some row.generation) →
      ItemStep now .start ⟨some item, some row, dead, stream⟩
        ⟨some { item with status := .running }, some row, dead, stream ++ es⟩
  | heartbeat {item : Option WorkItemRow} {row row' : WorkLeaseRow} {dead : Option DeadLetterRow}
      {stream es : List EventEnvelope} :
      row.released = none → row'.released = none → row'.token = row.token →
      row'.generation = row.generation → Batch es [.workHeartbeat] (some row.generation) →
      ItemStep now .heartbeat ⟨item, some row, dead, stream⟩ ⟨item, some row', dead, stream ++ es⟩
  | model {item : Option WorkItemRow} {row : WorkLeaseRow} {dead : Option DeadLetterRow}
      {stream es : List EventEnvelope} :
      row.released = none → (∀ e ∈ es, e.isWork = false) →
      (∀ e ∈ es, e.leaseGeneration? = some row.generation) →
      ItemStep now .model ⟨item, some row, dead, stream⟩ ⟨item, some row, dead, stream ++ es⟩
  | cancelQueued {item item' : WorkItemRow} {lease : Option WorkLeaseRow}
      {dead : Option DeadLetterRow} {stream es : List EventEnvelope} :
      item.status.isQueued = true → item'.status = .cancelled → item'.cancelRequestedAt ≠ none →
      item'.completedAt ≠ none → item'.attemptCount = item.attemptCount →
      item'.maxAttempts = item.maxAttempts → Batch es [.workCancelRequested, .workCancelled] none →
      ItemStep now .cancelQueued ⟨some item, lease, dead, stream⟩
        ⟨some item', lease, dead, stream ++ es⟩
  | cancelActive {item item' : WorkItemRow} {lease : Option WorkLeaseRow}
      {dead : Option DeadLetterRow} {stream es : List EventEnvelope} :
      item.status.isActive = true → item'.status = item.status → item'.cancelRequestedAt ≠ none →
      item'.completedAt = item.completedAt → item'.attemptCount = item.attemptCount →
      item'.maxAttempts = item.maxAttempts → Batch es [.workCancelRequested] none →
      ItemStep now .cancelActive ⟨some item, lease, dead, stream⟩
        ⟨some item', lease, dead, stream ++ es⟩
  | requeue {item item' : WorkItemRow} {lease : Option WorkLeaseRow}
      {dead dead' : Option DeadLetterRow} {stream es : List EventEnvelope} :
      item.status = .deadLetter → item'.status = .retryWait → item'.attemptCount = 0 →
      item'.maxAttempts = item.maxAttempts → item'.cancelRequestedAt = none →
      item'.completedAt = none → Batch es [.workRetryScheduled] none →
      ItemStep now .requeue ⟨some item, lease, dead, stream⟩
        ⟨some item', lease, dead', stream ++ es⟩
  | ending {e : Ending} {attempt : ℤ} {item item' : WorkItemRow} {row : WorkLeaseRow}
      {released : Timestamp × String} {dead dead' : Option DeadLetterRow}
      {stream es : List EventEnvelope} :
      row.released = none → e.allows item.status = true →
      (item.cancelRequestedAt ≠ none ↔ e.ofCancelled = true) →
      (e.ofExpired = true → row.expiresAt ≤ now ∧ attempt = item.attemptCount) →
      (e = .expireRetry → attempt < item.maxAttempts) →
      item'.status = e.target → item'.cancelRequestedAt = item.cancelRequestedAt →
      item'.attemptCount = item.attemptCount → item'.maxAttempts = item.maxAttempts →
      (e.target = .retryWait → item'.completedAt = item.completedAt ∨ item'.completedAt = none) →
      (e.target ≠ .retryWait → item'.completedAt ≠ none) →
      (e.target = .deadLetter → ∃ d, dead' = some d ∧ d.attempts = attempt) →
      Batch es e.events (some row.generation) →
      ItemStep now (.ending e attempt) ⟨some item, some row, dead, stream⟩
        ⟨some item', some { row with released := some released }, dead', stream ++ es⟩

/-! ## The cross-table invariant -/

/-- The invariant of an item over the three work tables and its stream. -/
structure ItemView.Wf (v : ItemView) : Prop where
  unregistered : v.item = none → v.lease = none
  leased : ∀ item ∈ v.item, item.status.isActive = true ↔ ∃ row ∈ v.lease, row.released = none
  cancel_status : ∀ item ∈ v.item, item.cancelRequestedAt ≠ none →
    item.status = .claimed ∨ item.status = .running ∨ item.status = .cancelled
  cancelled_at : ∀ item ∈ v.item, item.status = .cancelled → item.cancelRequestedAt ≠ none
  completed_at : ∀ item ∈ v.item, item.completedAt ≠ none ↔
    item.status = .succeeded ∨ item.status = .cancelled ∨ item.status = .deadLetter
  not_failed : ∀ item ∈ v.item, item.status ≠ .failed
  attempts : ∀ item ∈ v.item, item.attemptCount ≤ item.maxAttempts ∧ 1 ≤ item.maxAttempts
  generation_le : ∀ e ∈ v.stream, ∀ g ∈ e.leaseGeneration?, ∃ row ∈ v.lease, g ≤ row.generation

theorem ItemView.wf_empty : ItemView.Wf ⟨none, none, none, []⟩ := by
  constructor <;> simp

variable {now : Timestamp} {op : ItemOp} {v v' : ItemView}

theorem WorkStatus.isActive_iff {s : WorkStatus} :
    s.isActive = true ↔ s = .claimed ∨ s = .running := by cases s <;> decide

theorem WorkStatus.isQueued_iff {s : WorkStatus} :
    s.isQueued = true ↔ s = .requested ∨ s = .published ∨ s = .retryWait := by
  cases s <;> decide

theorem Ending.active_of_allows {e : Ending} {s : WorkStatus} (h : e.allows s = true) :
    s = .claimed ∨ s = .running := by
  cases e <;> cases s <;> first | (exact absurd h (by decide)) | simp

theorem Ending.target_cases (e : Ending) :
    (e.target = .succeeded ∧ e.ofCancelled = false) ∨
    (e.target = .deadLetter ∧ e.ofCancelled = false) ∨
    (e.target = .retryWait ∧ e.ofCancelled = false) ∨
    (e.target = .cancelled ∧ e.ofCancelled = true) := by cases e <;> simp [target, ofCancelled]

namespace ItemStep

theorem unregistered (h : ItemStep now op v v') (hv : v.Wf) : v'.item = none → v'.lease = none := by
  have h0 := hv.unregistered
  cases h <;> simp_all

theorem leased (h : ItemStep now op v v') (hv : v.Wf) :
    ∀ item ∈ v'.item, item.status.isActive = true ↔ ∃ row ∈ v'.lease, row.released = none := by
  have h0 := hv.unregistered
  have h1 := hv.leased
  simp only [WorkStatus.isActive_iff] at h1 ⊢
  cases h with
  | publish hs => rcases hs with hs | hs <;> simp_all
  | cancelQueued hs =>
    rcases WorkStatus.isQueued_iff.1 hs with hs | hs | hs <;> simp_all
  | @ending e => rcases e.target_cases with h | h | h | h <;> simp_all
  | _ => simp_all

theorem cancel_status (h : ItemStep now op v v') (hv : v.Wf) :
    ∀ item ∈ v'.item, item.cancelRequestedAt ≠ none →
      item.status = .claimed ∨ item.status = .running ∨ item.status = .cancelled := by
  have h1 := hv.cancel_status
  cases h with
  | publish hs => rcases hs with hs | hs <;> simp_all
  | cancelActive hs => rcases WorkStatus.isActive_iff.1 hs with hs | hs <;> simp_all
  | @ending e => rcases e.target_cases with h | h | h | h <;> simp_all
  | _ => simp_all

theorem cancelled_at (h : ItemStep now op v v') (hv : v.Wf) :
    ∀ item ∈ v'.item, item.status = .cancelled → item.cancelRequestedAt ≠ none := by
  have h1 := hv.cancelled_at
  cases h with
  | @ending e => rcases e.target_cases with h | h | h | h <;> simp_all
  | _ => simp_all

theorem completed_at (h : ItemStep now op v v') (hv : v.Wf) :
    ∀ item ∈ v'.item, item.completedAt ≠ none ↔
      item.status = .succeeded ∨ item.status = .cancelled ∨ item.status = .deadLetter := by
  have h1 := hv.completed_at
  cases h with
  | publish hs => rcases hs with hs | hs <;> simp_all
  | claim hs => rcases hs with hs | hs <;> simp_all
  | @ending e _ _ _ _ _ _ _ _ _ _ hallows =>
    -- the item was held, so it had not been completed before
    rcases Ending.active_of_allows hallows with hs | hs <;>
      rcases e.target_cases with h | h | h | h <;> simp_all
  | _ => simp_all

theorem not_failed (h : ItemStep now op v v') (hv : v.Wf) :
    ∀ item ∈ v'.item, item.status ≠ .failed := by
  have h1 := hv.not_failed
  cases h with
  | @ending e => rcases e.target_cases with h | h | h | h <;> simp_all
  | _ => simp_all

theorem attempts (h : ItemStep now op v v') (hv : v.Wf) :
    ∀ item ∈ v'.item, item.attemptCount ≤ item.maxAttempts ∧ 1 ≤ item.maxAttempts := by
  have h1 := hv.attempts
  cases h with
  | register _ h0 hmax =>
    intro item hitem
    cases hitem
    omega
  | requeue _ _ h0 =>
    simp_all
    omega
  | _ => simp_all

/-- A step only appends to the stream, and what it appends carries no generation
or that of the lease it leaves. -/
theorem stream_eq (h : ItemStep now op v v') : ∃ es, v'.stream = v.stream ++ es ∧
    ∀ e ∈ es, ∀ g ∈ e.leaseGeneration?, ∃ row ∈ v'.lease, g = row.generation := by
  cases h with
  | register _ _ _ _ _ hb =>
    exact ⟨_, rfl, fun e he g hg => by simp [hb.generation e he] at hg⟩
  | publish _ hb => exact ⟨_, rfl, fun e he g hg => by simp [hb.generation e he] at hg⟩
  | redrive _ hb => exact ⟨_, rfl, fun e he g hg => by simp [hb.generation e he] at hg⟩
  | claim _ _ _ _ _ hb =>
    exact ⟨_, rfl, fun e he g hg => by simpa [hb.generation e he, eq_comm] using hg⟩
  | start _ _ hb => exact ⟨_, rfl, fun e he g hg => by simpa [hb.generation e he, eq_comm] using hg⟩
  | heartbeat _ _ _ hgen hb =>
    exact ⟨_, rfl, fun e he g hg => by simpa [hb.generation e he, eq_comm, hgen] using hg⟩
  | model _ _ hgen => exact ⟨_, rfl, fun e he g hg => by simpa [hgen e he, eq_comm] using hg⟩
  | cancelQueued _ _ _ _ _ _ hb =>
    exact ⟨_, rfl, fun e he g hg => by simp [hb.generation e he] at hg⟩
  | cancelActive _ _ _ _ _ _ hb =>
    exact ⟨_, rfl, fun e he g hg => by simp [hb.generation e he] at hg⟩
  | requeue _ _ _ _ _ _ hb =>
    exact ⟨_, rfl, fun e he g hg => by simp [hb.generation e he] at hg⟩
  | ending _ _ _ _ _ _ _ _ _ _ _ _ hb =>
    exact ⟨_, rfl, fun e he g hg => by simpa [hb.generation e he, eq_comm] using hg⟩

/-- A lease row stays, and its generation does not go back. -/
theorem generation_mono (h : ItemStep now op v v') :
    ∀ row ∈ v.lease, ∃ row' ∈ v'.lease, row.generation ≤ row'.generation := by
  cases h with
  | claim _ _ _ hgen =>
    intro row hrow
    exact ⟨_, rfl, by rw [hgen row hrow]; omega⟩
  | heartbeat => simp_all
  | _ => simp_all

theorem generation_le (h : ItemStep now op v v') (hv : v.Wf) :
    ∀ e ∈ v'.stream, ∀ g ∈ e.leaseGeneration?, ∃ row ∈ v'.lease, g ≤ row.generation := by
  obtain ⟨es, hes, hnew⟩ := h.stream_eq
  intro e he g hg
  rw [hes] at he
  rcases List.mem_append.1 he with he | he
  · obtain ⟨row, hrow, hle⟩ := hv.generation_le e he g hg
    obtain ⟨row', hrow', hmono⟩ := h.generation_mono row hrow
    exact ⟨row', hrow', hle.trans hmono⟩
  · obtain ⟨row, hrow, heq⟩ := hnew e he g hg
    exact ⟨row, hrow, heq.le⟩

/-- **The cross-table invariant is kept by every step.** -/
theorem wf (h : ItemStep now op v v') (hv : v.Wf) : v'.Wf :=
  ⟨h.unregistered hv, h.leased hv, h.cancel_status hv, h.cancelled_at hv, h.completed_at hv,
    h.not_failed hv, h.attempts hv, h.generation_le hv⟩

/-- An item is there after a step only if it was before, or the step is its
registration. -/
theorem registers (h : ItemStep now op v v') (hold : v.item = none) (hnew : v'.item ≠ none) :
    op = .register := by
  cases h <;> simp_all

/-- An item stays, and so does the number of its attempts. -/
theorem maxAttempts_eq (h : ItemStep now op v v') :
    ∀ item ∈ v.item, ∃ item' ∈ v'.item, item'.maxAttempts = item.maxAttempts := by
  cases h <;> simp_all

end ItemStep

/-! ## What a lease knows of its item -/

/-- The lease of generation `g` was the item's attempt `attempt`: so the item
still counts as long as that lease is held. -/
def ItemView.Known (v : ItemView) (g attempt : ℤ) : Prop :=
  ∃ row ∈ v.lease, g ≤ row.generation ∧
    (row.generation = g → row.released = none → ∃ item ∈ v.item, item.attemptCount = attempt)

namespace ItemStep

theorem known (h : ItemStep now op v v') (hv : v.Wf) {g attempt : ℤ} (hk : v.Known g attempt) :
    v'.Known g attempt := by
  obtain ⟨row, hrow, hle, hcount⟩ := hk
  have hleased := hv.leased
  unfold ItemView.Known
  cases h with
  | claim _ _ _ hgen =>
    -- a new lease has a new generation
    have := hgen row hrow
    exact ⟨_, rfl, by omega, fun heq => by omega⟩
  | requeue hs =>
    -- a dead letter has no lease that is held
    refine ⟨row, hrow, hle, fun _ hrel => ?_⟩
    have hactive := (hleased _ rfl).2 ⟨row, hrow, hrel⟩
    rw [hs] at hactive
    exact absurd hactive (by decide)
  | heartbeat => simp_all
  | ending => simp_all
  | _ => exact ⟨row, hrow, hle, by simp_all⟩

end ItemStep

/-! ## Attempts -/

/-- A dead letter counts the attempts of its item. -/
def ItemView.DeadAttempts (v : ItemView) : Prop :=
  ∀ item ∈ v.item, item.status = .deadLetter → ∃ d ∈ v.dead, d.attempts = item.attemptCount

/-- A queued item has attempts left. -/
def ItemView.AttemptsLeft (v : ItemView) : Prop :=
  ∀ item ∈ v.item, item.status.isQueued = true → item.attemptCount < item.maxAttempts

/-- Does the operation put an item back by its worker: a retry or a release? -/
def ItemOp.putsBack : ItemOp → Bool
  | .ending .retry _ | .ending .release _ => true
  | _ => false

/-- The operation does not put an item back that has used up its attempts. -/
def ItemOp.KeepsAttempts (op : ItemOp) (v : ItemView) : Prop :=
  op.putsBack = true → ∀ item ∈ v.item, item.attemptCount < item.maxAttempts

instance (op : ItemOp) (v : ItemView) : Decidable (op.KeepsAttempts v) :=
  inferInstanceAs (Decidable (op.putsBack = true →
    ∀ item ∈ v.item, item.attemptCount < item.maxAttempts))

/-- The lease an operation ends was the item's current attempt. -/
def ItemOp.IsCurrent (op : ItemOp) (v : ItemView) : Prop :=
  match op with
  | .ending _ attempt => ∀ item ∈ v.item, attempt = item.attemptCount
  | _ => True

namespace ItemStep

theorem dead_attempts (h : ItemStep now op v v') (hop : op.IsCurrent v) (hv : v.DeadAttempts) :
    v'.DeadAttempts := by
  unfold ItemView.DeadAttempts at *
  cases h with
  | @ending e attempt item =>
    have hattempt : attempt = item.attemptCount := hop item rfl
    rcases e.target_cases with h | h | h | h <;> simp_all
  | cancelActive hs => rcases WorkStatus.isActive_iff.1 hs with hs | hs <;> simp_all
  | _ => simp_all

theorem attempts_lt (h : ItemStep now op v v') (hv : v.Wf) (hop : op.KeepsAttempts v)
    (hleft : v.AttemptsLeft) : v'.AttemptsLeft := by
  unfold ItemView.AttemptsLeft at *
  simp only [WorkStatus.isQueued_iff] at hleft ⊢
  cases h with
  | register => simp_all; omega
  | requeue =>
    have := (hv.attempts _ rfl).2
    simp_all
    omega
  | @ending e attempt item =>
    cases e <;> simp_all [ItemOp.KeepsAttempts, ItemOp.putsBack, Ending.target, Ending.ofExpired]
  | cancelActive hs => rcases WorkStatus.isActive_iff.1 hs with hs | hs <;> simp_all
  | publish hs => rcases hs with hs | hs <;> simp_all
  | _ => simp_all

/-- **A held lease ends by an operation that ends it.**  If the row of an
unreleased lease is no longer that lease after a step, the step is the end of a
lease, and where it reports an expiry the lease had run out. -/
theorem ends_lease (h : ItemStep now op v v') (hv : v.Wf) {row : WorkLeaseRow}
    (hrow : row ∈ v.lease) (hheld : row.released = none)
    (hended : ∀ row' ∈ v'.lease, row'.holds row.token row.generation = false) :
    ∃ e attempt, op = .ending e attempt ∧ (e.ofExpired = true → row.expiresAt ≤ now) := by
  have hholds : row.holds row.token row.generation = true := by simp [WorkLeaseRow.holds, hheld]
  have hactive := hv.leased
  cases h with
  | claim hs =>
    -- the item of a held lease is not in the queue
    have hact := (hactive _ rfl).2 ⟨row, hrow, hheld⟩
    rcases hs with hs | hs <;> (rw [hs] at hact; exact absurd hact (by decide))
  | heartbeat hr hr' htok hgen =>
    cases hrow
    have := hended _ rfl
    simp [WorkLeaseRow.holds, hr', htok, hgen] at this
  | @ending e attempt item item' row₀ _ _ _ _ _ _ _ _ hexp =>
    cases hrow
    exact ⟨e, attempt, rfl, fun he => (hexp he).1⟩
  | _ =>
    have := hended row hrow
    rw [hholds] at this
    cases this

end ItemStep

end AegisPlatform
