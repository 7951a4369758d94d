import AegisPlatform.Lib.Table
import AegisPlatform.Runtime.Supervisor

/-!
# Fair scheduling of a batch

`FairTenantScheduler` orders the deliveries of a batch: first in, first out within a
tenant, and round-robin across the tenants that have any.  It is written over any
items that have a tenant.

* `add`, `pop` — the code.
* `pending` — what is queued, and `WellFormed`, which both keep.
* `add_perm`, `pop_perm` — nothing is lost or invented.
* `WorkerSupervisor.runBatch` — `run_batch`: the scheduler's deliveries become tasks, at most
  `max_concurrency` at a time, and the batch waits for all of them.
-/

namespace AegisPlatform

/-- The scheduler: the queue of each tenant, and the tenants in turn. -/
structure FairTenantScheduler (α : Type) where
  queues : Table String (List α)
  roundRobin : List String

namespace FairTenantScheduler

variable {α : Type}

/-- `FairTenantScheduler()`. -/
def empty : FairTenantScheduler α := ⟨∅, []⟩

/-- One round of `add`. -/
def addOne (tenantId : α → String) (s : FairTenantScheduler α) (x : α) :
    FairTenantScheduler α :=
  let queue := (s.queues.lookup (tenantId x)).getD []
  { queues := s.queues.upsert (tenantId x) (queue ++ [x])
    roundRobin := if queue = [] then s.roundRobin ++ [tenantId x] else s.roundRobin }

/-- `add`. -/
def add (tenantId : α → String) (s : FairTenantScheduler α) (xs : List α) :
    FairTenantScheduler α :=
  xs.foldl (addOne tenantId) s

/-- `pop`: the next item, and the scheduler without it. -/
def pop (s : FairTenantScheduler α) : Except Thrown (Option α × FairTenantScheduler α) :=
  match s.roundRobin with
  | [] => .ok (none, s)
  | tenantId :: rest =>
    match s.queues.lookup tenantId with
    | none => .error (.other "KeyError")
    | some [] => .error (.other "IndexError")
    | some (x :: queue) =>
      if queue = [] then .ok (some x, ⟨s.queues.delete tenantId, rest⟩)
      else .ok (some x, ⟨s.queues.upsert tenantId queue, rest ++ [tenantId]⟩)

/-- Everything that is queued, tenant by tenant. -/
def pending (s : FairTenantScheduler α) : List α :=
  s.roundRobin.flatMap fun tenantId => (s.queues.lookup tenantId).getD []

/-- The deque lists the tenants that have something queued, each once. -/
structure WellFormed (s : FairTenantScheduler α) : Prop where
  nodup : s.roundRobin.Nodup
  listed : ∀ tenantId, tenantId ∈ s.roundRobin ↔ (s.queues.lookup tenantId).isSome = true
  nonempty : ∀ tenantId queue, s.queues.lookup tenantId = some queue → queue ≠ []

variable {tenantId : α → String} {s s' : FairTenantScheduler α} {x : α}

theorem wellFormed_empty : (empty : FairTenantScheduler α).WellFormed where
  nodup := List.nodup_nil
  listed := by simp [empty]
  nonempty := by simp [empty]

/-- What is queued for the other tenants does not change with one tenant's queue. -/
theorem flatMap_upsert {queues : Table String (List α)} {t : String} {queue : List α}
    {tenants : List String} (ht : t ∉ tenants) :
    tenants.flatMap (fun u => ((queues.upsert t queue).lookup u).getD []) =
      tenants.flatMap fun u => (queues.lookup u).getD [] := by
  refine List.flatMap_congr fun u hu => ?_
  rw [Table.lookup_upsert_ne]
  rintro rfl
  exact ht hu

/-- A tenant whose queue is empty is not listed. -/
theorem WellFormed.not_listed (h : s.WellFormed) {t : String}
    (ht : (s.queues.lookup t).getD [] = []) : t ∉ s.roundRobin := by
  intro hmem
  obtain ⟨queue, hqueue⟩ := Option.isSome_iff_exists.1 ((h.listed t).1 hmem)
  rw [hqueue] at ht
  exact h.nonempty t queue hqueue ht

/-- A tenant whose queue is not empty is listed. -/
theorem WellFormed.mem_listed (h : s.WellFormed) {t : String}
    (ht : (s.queues.lookup t).getD [] ≠ []) : t ∈ s.roundRobin := by
  rw [h.listed]
  cases hlookup : s.queues.lookup t with
  | none => simp [hlookup] at ht
  | some queue => rfl

/-- Giving a listed tenant another queue that is not empty. -/
theorem WellFormed.upsert (h : s.WellFormed) {t : String} {queue : List α}
    {tenants : List String} (hperm : tenants.Nodup)
    (hmem : ∀ u, u ∈ tenants ↔ u = t ∨ u ∈ s.roundRobin) (hqueue : queue ≠ []) :
    (⟨s.queues.upsert t queue, tenants⟩ : FairTenantScheduler α).WellFormed where
  nodup := hperm
  listed u := by
    dsimp only
    rw [hmem, h.listed, Table.lookup_upsert]
    by_cases hu : u = t <;> simp [hu]
  nonempty u other hlookup := by
    dsimp only at hlookup
    rw [Table.lookup_upsert] at hlookup
    by_cases hu : u = t
    · rw [if_pos hu, Option.some.injEq] at hlookup
      rw [← hlookup]
      exact hqueue
    · rw [if_neg hu] at hlookup
      exact h.nonempty u other hlookup

theorem WellFormed.addOne (h : s.WellFormed) (x : α) : (s.addOne tenantId x).WellFormed := by
  unfold FairTenantScheduler.addOne
  dsimp only
  split
  case isTrue hnil =>
    refine h.upsert ?_ (fun u => ?_) (by simp)
    · exact List.nodup_append.2 ⟨h.nodup, List.nodup_singleton _, by
        rintro u hu _ hx rfl
        exact h.not_listed hnil (List.mem_singleton.1 hx ▸ hu)⟩
    · rw [List.mem_append, List.mem_singleton, or_comm]
  case isFalse hqueue =>
    refine h.upsert h.nodup (fun u => ?_) (by simp)
    have hlisted := h.mem_listed hqueue
    exact ⟨Or.inr, fun hu => hu.elim (fun hu => hu ▸ hlisted) id⟩

/-- What is queued, with one tenant's queue in front. -/
theorem pending_perm {queues : Table String (List α)} {tenants before after : List String}
    {t : String} (htenants : tenants = before ++ t :: after) :
    (pending ⟨queues, tenants⟩).Perm
      ((queues.lookup t).getD [] ++ pending ⟨queues, before ++ after⟩) := by
  subst htenants
  unfold pending
  simp only [List.flatMap_append, List.flatMap_cons]
  rw [← List.append_assoc, ← List.append_assoc]
  exact List.perm_append_comm.append_right _

theorem addOne_perm (h : s.WellFormed) (x : α) :
    (s.addOne tenantId x).pending.Perm (x :: s.pending) := by
  unfold FairTenantScheduler.addOne
  dsimp only
  split
  case isTrue hnil =>
    have hnot := h.not_listed hnil
    rw [hnil]
    refine (pending_perm rfl).trans ?_
    rw [Table.lookup_upsert_self, List.append_nil, pending, flatMap_upsert hnot]
    rfl
  case isFalse hqueue =>
    obtain ⟨before, after, htenants⟩ := List.append_of_mem (h.mem_listed hqueue)
    have hnot : tenantId x ∉ before ++ after := by
      have hnodup := h.nodup
      rw [htenants] at hnodup
      exact (List.nodup_middle.1 hnodup).notMem
    refine (pending_perm htenants).trans ?_
    rw [Table.lookup_upsert_self, pending, flatMap_upsert hnot]
    have hold : s.pending.Perm ((s.queues.lookup (tenantId x)).getD [] ++
        pending ⟨s.queues, before ++ after⟩) := pending_perm htenants
    refine List.Perm.trans ?_ (hold.symm.cons x)
    rw [Option.getD_some, List.append_assoc]
    exact List.perm_middle

theorem add_wellFormed (xs : List α) (h : s.WellFormed) : (s.add tenantId xs).WellFormed := by
  induction xs generalizing s with
  | nil => exact h
  | cons x rest ih => exact ih (h.addOne x)

/-- **Adding loses nothing and invents nothing.** -/
theorem add_perm (xs : List α) (h : s.WellFormed) :
    (s.add tenantId xs).pending.Perm (xs ++ s.pending) := by
  induction xs generalizing s with
  | nil => exact List.Perm.refl _
  | cons x rest ih =>
    refine (ih (h.addOne x)).trans (((addOne_perm h x).append_left rest).trans ?_)
    exact List.perm_middle

/-- What a successful `pop` does: it takes the first item of the tenant whose turn it
is. -/
theorem pop_eq_some (h : s.pop = .ok (some x, s')) :
    ∃ t rest queue, s.roundRobin = t :: rest ∧ s.queues.lookup t = some (x :: queue) ∧
      ((queue = [] ∧ s' = ⟨s.queues.delete t, rest⟩) ∨
        (queue ≠ [] ∧ s' = ⟨s.queues.upsert t queue, rest ++ [t]⟩)) := by
  unfold pop at h
  split at h
  · cases h
  · rename_i t rest hturn
    split at h
    · cases h
    · cases h
    · rename_i y queue hlookup
      split at h
      · cases h
        exact ⟨t, rest, queue, hturn, hlookup, Or.inl ⟨‹_›, rfl⟩⟩
      · cases h
        exact ⟨t, rest, queue, hturn, hlookup, Or.inr ⟨‹_›, rfl⟩⟩

/-- A scheduler that keeps its rules never fails to find the tenant it turns to. -/
theorem WellFormed.pop_ok (h : s.WellFormed) (hsome : s.roundRobin ≠ []) :
    ∃ x s', s.pop = .ok (some x, s') := by
  obtain ⟨t, rest, hturn⟩ := List.exists_cons_of_ne_nil hsome
  have hlisted : t ∈ s.roundRobin := by rw [hturn]; exact List.mem_cons_self ..
  obtain ⟨queue, hqueue⟩ := Option.isSome_iff_exists.1 ((h.listed t).1 hlisted)
  obtain ⟨x, queue, rfl⟩ := List.exists_cons_of_ne_nil (h.nonempty t queue hqueue)
  unfold pop
  rw [hturn]
  simp only [hqueue]
  split
  · exact ⟨_, _, rfl⟩
  · exact ⟨_, _, rfl⟩

/-- **Popping takes one item of what is queued.** -/
theorem WellFormed.pop_perm (h : s.WellFormed) (hpop : s.pop = .ok (some x, s')) :
    s'.WellFormed ∧ s.pending.Perm (x :: s'.pending) := by
  obtain ⟨t, rest, queue, hturn, hlookup, hcases⟩ := pop_eq_some hpop
  have hnodup := h.nodup
  rw [hturn, List.nodup_cons] at hnodup
  have hpending : s.pending = x :: queue ++ pending ⟨s.queues, rest⟩ := by
    unfold pending
    rw [hturn, List.flatMap_cons, hlookup]
    rfl
  rw [hpending]
  rcases hcases with ⟨rfl, rfl⟩ | ⟨hqueue, rfl⟩
  · refine ⟨⟨hnodup.2, fun u => ?_, fun u other hu => ?_⟩, ?_⟩
    · dsimp only
      rw [Table.lookup_delete]
      have hlisted := h.listed u
      rw [hturn, List.mem_cons] at hlisted
      by_cases hu : u = t
      · subst hu
        simp [hnodup.1]
      · simpa [hu] using hlisted
    · dsimp only at hu
      rw [Table.lookup_delete] at hu
      split at hu
      · cases hu
      · exact h.nonempty u other hu
    · refine List.Perm.cons x (List.Perm.of_eq ?_)
      unfold pending
      refine List.flatMap_congr fun u hu => ?_
      rw [Table.lookup_delete, if_neg]
      rintro rfl
      exact hnodup.1 hu
  · refine ⟨h.upsert ?_ (fun u => ?_) hqueue, ?_⟩
    · exact List.nodup_append.2 ⟨hnodup.2, List.nodup_singleton _, by
        rintro u hu _ hx rfl
        exact hnodup.1 (List.mem_singleton.1 hx ▸ hu)⟩
    · rw [hturn, List.mem_append, List.mem_singleton, List.mem_cons]
      tauto
    · refine List.Perm.cons x (List.Perm.symm ?_)
      refine (pending_perm rfl).trans ?_
      rw [Table.lookup_upsert_self, List.append_nil, pending, flatMap_upsert hnodup.1]
      rfl

theorem length_pending_le (queues queues' : Table String (List α)) (tenants : List String)
    (hle : ∀ t, ((queues'.lookup t).getD []).length ≤ ((queues.lookup t).getD []).length) :
    (pending ⟨queues', tenants⟩).length ≤ (pending ⟨queues, tenants⟩).length := by
  induction tenants with
  | nil => exact le_rfl
  | cons t rest ih =>
    unfold pending at ih ⊢
    rw [List.flatMap_cons, List.flatMap_cons, List.length_append, List.length_append]
    exact Nat.add_le_add (hle t) ih

/-- A pop leaves less queued, whatever the scheduler looks like. -/
theorem length_pop_lt (h : s.pop = .ok (some x, s')) :
    s'.pending.length < s.pending.length := by
  obtain ⟨t, rest, queue, hturn, hlookup, hcases⟩ := pop_eq_some h
  have hpending : s.pending.length =
      queue.length + 1 + (pending ⟨s.queues, rest⟩).length := by
    unfold pending
    rw [hturn, List.flatMap_cons, List.length_append, hlookup]
    rfl
  rw [hpending]
  rcases hcases with ⟨rfl, rfl⟩ | ⟨-, rfl⟩
  · have hle := length_pending_le s.queues (s.queues.delete t) rest fun u => by
      rw [Table.lookup_delete]
      split
      · exact Nat.zero_le _
      · exact le_rfl
    omega
  · have hle := length_pending_le s.queues (s.queues.upsert t queue) rest fun u => by
      rw [Table.lookup_upsert]
      split
      · rename_i hu
        rw [hu, hlookup]
        exact Nat.le_succ _
      · exact le_rfl
    have hsplit : (pending ⟨s.queues.upsert t queue, rest ++ [t]⟩).length = _ :=
      (pending_perm rfl).length_eq
    rw [Table.lookup_upsert_self, List.append_nil, List.length_append, Option.getD_some] at hsplit
    omega

end FairTenantScheduler

/-! ## Running a batch -/

/-- A task of a batch: a delivery, and what the calls of its `_process` are answered. -/
structure Task where
  delivery : QueueDelivery
  env : Effects.Env WorkerCall WorkerCall.Reply Thrown

namespace Task

/-- The tenant the scheduler files the delivery under. -/
def tenantId (t : Task) : String := t.delivery.envelope.tenantId

/-- The calls `_process` makes for the delivery. -/
def history (settings : WorkerSettings) (t : Task) : WorkerHistory :=
  ((process settings t.delivery).run t.env []).1

/-- `task.result()`: what `_process` ended with. -/
def result (settings : WorkerSettings) (t : Task) : Except Thrown Unit :=
  ((process settings t.delivery).run t.env []).2

end Task

/-- What the event loop does while a batch waits. -/
structure EventLoop where
  /-- The tasks that are done when the wait of that number returns, and those that are
  not. -/
  wait : ℕ → List Task → List Task × List Task
  /-- Whether `drain` was called before the task of that number was created. -/
  draining : ℕ → Bool
  wait_perm : ∀ n active, ((wait n active).1 ++ (wait n active).2).Perm active
  wait_done : ∀ n active, active ≠ [] → (wait n active).1 ≠ []

/-- What a supervisor keeps of its batch. -/
structure WorkerSupervisor where
  /-- `_active`. -/
  active : List Task
  /-- The tasks that were created, in order. -/
  started : List Task
  waits : ℕ

namespace WorkerSupervisor

variable (settings : WorkerSettings) (loop : EventLoop)

/-- Nothing has been started. -/
def initial : WorkerSupervisor := ⟨[], [], 0⟩

/-- `_wait_one`. -/
def waitOne (b : WorkerSupervisor) : WorkerSupervisor × Except Thrown Unit :=
  ({ b with active := (loop.wait b.waits b.active).2, waits := b.waits + 1 },
    (loop.wait b.waits b.active).1.forM (Task.result settings))

theorem length_waitOne_lt (b : WorkerSupervisor) (h : 0 < b.active.length) :
    (b.waitOne settings loop).1.active.length < b.active.length := by
  have hperm := (loop.wait_perm b.waits b.active).length_eq
  have hdone := List.length_pos_iff.2
    (loop.wait_done b.waits b.active (List.length_pos_iff.1 h))
  rw [List.length_append] at hperm
  unfold waitOne
  dsimp only
  omega

/-- `while len(self._active) >= limit: await self._wait_one()`. -/
def waitBelow (limit : ℕ) (hlimit : 0 < limit) (b : WorkerSupervisor) :
    WorkerSupervisor × Except Thrown Unit :=
  if _h : limit ≤ b.active.length then
    match (b.waitOne settings loop).2 with
    | .error e => ((b.waitOne settings loop).1, .error e)
    | .ok () => waitBelow limit hlimit (b.waitOne settings loop).1
  else (b, .ok ())
termination_by b.active.length
decreasing_by exact length_waitOne_lt settings loop b (lt_of_lt_of_le hlimit _h)

/-- `asyncio.create_task(self._process(delivery))`. -/
def create (b : WorkerSupervisor) (t : Task) : WorkerSupervisor :=
  { b with active := b.active ++ [t], started := b.started ++ [t] }

/-- The loop over the scheduler. -/
def dispatch (scheduler : FairTenantScheduler Task) (b : WorkerSupervisor) :
    WorkerSupervisor × Except Thrown Unit :=
  if scheduler.roundRobin = [] then (b, .ok ())
  else
    match b.waitBelow settings loop settings.maxConcurrency settings.bounded.1 with
    | (b, .error e) => (b, .error e)
    | (b, .ok ()) =>
      if loop.draining b.started.length then (b, .ok ())
      else
        match _ : scheduler.pop with
        | .error e => (b, .error e)
        | .ok (none, _) => (b, .ok ())
        | .ok (some t, rest) => dispatch rest (b.create t)
termination_by scheduler.pending.length
decreasing_by exact FairTenantScheduler.length_pop_lt ‹_›

/-- `run_batch`. -/
def runBatch (tasks : List Task) (b : WorkerSupervisor) : WorkerSupervisor × Except Thrown Unit :=
  match b.dispatch settings loop (FairTenantScheduler.empty.add Task.tenantId tasks) with
  | (b, .error e) => (b, .error e)
  | (b, .ok ()) => b.waitBelow settings loop 1 Nat.one_pos

end WorkerSupervisor

end AegisPlatform
