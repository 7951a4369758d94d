import AegisPlatform.Lib.Numbering
import AegisPlatform.System.Budgets

/-!
# The numbers of the in-memory ledger

`_append` numbers the events of a call from the number of events of its aggregate on, whichever
tenant these belong to.

* `Appends` — what an operation may do to the events; `exec_appends` says it of every call.
* `Session.Apart` — no other tenant has events of the aggregate of the call.
* `memory_numbered` — **in sessions of such calls every stream is numbered from one on.**
-/

namespace AegisPlatform

open Fallible Numbering

/-- The stream of an event. -/
def EventEnvelope.stream (e : EventEnvelope) : String × String := (e.tenantId, e.aggregateId)

/-- The repository a run ends with. -/
def Memory.after {α : Type} : EStateM.Result Raised MemoryRepository α → MemoryRepository
  | .ok _ r => r
  | .error _ r => r

namespace MemoryRepository

variable {request : ModelRequest} {lease : WorkLease} {r r' : MemoryRepository}

/-- Events are appended to the request's stream, numbered from the number of events of the
aggregate on. -/
def Appends (request : ModelRequest) (lease : WorkLease) (r r' : MemoryRepository) : Prop :=
  ∃ es, r'.events = r.events ++ es ∧
    (∀ e ∈ es, e.stream = (request.tenantId, lease.workId.str)) ∧
    es.map (·.aggregateSequence) = List.range'
      (r.events.countP (fun e => e.aggregateId = lease.workId.str) + 1) es.length

theorem Appends.refl (request : ModelRequest) (lease : WorkLease) (h : r'.events = r.events) :
    Appends request lease r r' :=
  ⟨[], by rw [h, List.append_nil], fun _ he => absurd he List.not_mem_nil, rfl⟩

/-- The loop of `_append`, wherever it stops. -/
theorem appendFrom_appends (at' : Timestamp) (ids : ℕ → UUID) (n sequence : ℕ)
    (causation : Option UUID) (events : List (DomainEventType × Dict)) (r : MemoryRepository) :
    ∃ es, (Memory.after (appendFrom request lease at' ids n sequence causation events r)).events =
        r.events ++ es ∧
      (∀ e ∈ es, e.stream = (request.tenantId, lease.workId.str)) ∧
      es.map (·.aggregateSequence) = List.range' (sequence + 1) es.length := by
  induction events generalizing n sequence causation r with
  | nil => exact ⟨[], (List.append_nil _).symm, fun _ he => absurd he List.not_mem_nil, rfl⟩
  | cons v rest ih =>
    obtain ⟨eventType, details⟩ := v
    rw [appendFrom]
    cases hmake : EventEnvelope.make
        (nextEvent request lease at' (ids n) (sequence + 1) causation eventType details) with
    | error e =>
      exact ⟨[], (List.append_nil _).symm, fun _ he => absurd he List.not_mem_nil, rfl⟩
    | ok event =>
      have hevent := EventEnvelope.make_eq hmake
      obtain ⟨es, hes, hstream, hnumbers⟩ := ih (n + 1) (sequence + 1) (some (ids n))
        { r with events := r.events ++ [event] }
      refine ⟨event :: es, ?_, ?_, ?_⟩
      · refine Eq.trans ?_ (hes.trans (List.append_assoc ..))
        rfl
      · intro e he
        rcases List.mem_cons.mp he with rfl | he
        · rw [hevent]
          rfl
        · exact hstream e he
      · rw [List.map_cons, hnumbers, hevent, List.length_cons, List.range'_succ]
        rfl

variable {α β : Type}

/-- An operation from here on appends to the request's stream. -/
def AppendsAt (request : ModelRequest) (lease : WorkLease) (x : Memory α) (r : MemoryRepository) :
    Prop :=
  Appends request lease r (Memory.after (x r))

theorem append_appends (at' : Timestamp) (ids : ℕ → UUID) (n : ℕ)
    (events : List (DomainEventType × Dict)) (r : MemoryRepository) :
    AppendsAt request lease (append request lease at' ids n events) r :=
  appendFrom_appends at' ids n _ none events r

theorem appends_check {y : Except Raised α} {f : α → Memory β}
    (h : ∀ a, y = .ok a → AppendsAt request lease (f a) r) :
    AppendsAt request lease (Memory.check y >>= f) r := by
  cases y with
  | error e => exact .refl request lease rfl
  | ok a => exact h a rfl

theorem appends_set {f : PUnit → Memory β} (hevents : r'.events = r.events)
    (h : AppendsAt request lease (f ⟨⟩) r') : AppendsAt request lease (set r' >>= f) r := by
  obtain ⟨es, hes, hstream, hnumbers⟩ := h
  rw [hevents] at hes hnumbers
  exact ⟨es, hes, hstream, hnumbers⟩

/-- What is returned in the end does not matter. -/
theorem appends_return {x : Memory α} (g : α → β) (h : AppendsAt request lease x r) :
    AppendsAt request lease (x >>= fun a => pure (g a)) r := by
  have hafter : Memory.after ((x >>= fun a => pure (g a)) r) = Memory.after (x r) := by
    cases hx : x r with
    | ok a s =>
      rw [bind_ok hx]
      rfl
    | error e s =>
      rw [bind_error hx]
      rfl
  unfold AppendsAt
  rw [hafter]
  exact h

theorem appends_get {f : MemoryRepository → Memory α} (h : AppendsAt request lease (f r) r) :
    AppendsAt request lease (get >>= f) r :=
  h

/-- An attempt is two checks and the events. -/
theorem record_appends (reservation : BudgetReservation) (at' : Timestamp) (ids : ℕ → UUID)
    (events : List (DomainEventType × Dict)) (r : MemoryRepository) :
    AppendsAt request lease (do
      let r ← get
      Memory.check (r.requireActive reservation)
      Memory.check (r.requireFence lease at')
      append request lease at' ids 0 events : Memory Unit) r :=
  appends_get <| appends_check fun _ _ => appends_check fun _ _ => append_appends at' ids 0 events r

theorem settle_appends (py : PyText) (reservation : BudgetReservation) (state : ReservationState)
    (response : Option ModelResponse) (at' : Timestamp) (ids : ℕ → UUID)
    (events : List (DomainEventType × Dict)) (r : MemoryRepository) :
    AppendsAt request lease
      (settle py request lease reservation state response at' ids events) r :=
  appends_get <| appends_check fun _ _ => appends_check fun _ _ =>
    appends_set rfl (append_appends at' ids 0 events _)

end MemoryRepository

namespace MemoryCall

/-- The request and the lease of a call that may append events. -/
def work? : MemoryCall → Option (ModelRequest × WorkLease)
  | reserve _ request lease .. | recordAttempt _ request lease .. |
    recordAttemptFailure _ request lease .. | succeed _ request lease .. |
    recordUsageFailure _ request lease .. | fail _ request lease .. => some (request, lease)
  | replaceLease _ => none

open MemoryRepository

/-- **What every call does to the events**, whether it goes through or raises. -/
theorem exec_appends (py : PyText) {c : MemoryCall} {request : ModelRequest} {lease : WorkLease}
    (hwork : c.work? = some (request, lease)) (r : MemoryRepository) :
    AppendsAt request lease (c.exec py) r := by
  cases c with
  | reserve context request' lease' route quotas tokenLimit costLimitUsd priceVersion at' ids =>
    cases hwork
    exact appends_return some <| appends_check fun _ _ => appends_check fun _ _ => appends_get <|
      appends_check fun _ _ => appends_set rfl <| appends_return (fun _ => _) <|
        append_appends at' ids 1 _ _
  | recordAttempt context request' lease' reservation provider model attempt fallbackIndex at' ids =>
    cases hwork
    exact appends_return (fun _ => none)
      (appends_check fun _ _ => appends_check fun _ _ => record_appends reservation at' ids _ r)
  | recordAttemptFailure context request' lease' reservation error provider model attempt
      fallbackIndex at' ids =>
    cases hwork
    exact appends_return (fun _ => none)
      (appends_check fun _ _ => record_appends reservation at' ids _ r)
  | succeed context request' lease' reservation response pricing at' ids =>
    cases hwork
    exact appends_return (fun _ => none) (appends_check fun _ _ => appends_check fun totals _ =>
      settle_appends py reservation _ _ at' ids _ r)
  | recordUsageFailure context request' lease' reservation response pricing error at' ids =>
    cases hwork
    exact appends_return (fun _ => none)
      (appends_check fun _ _ => settle_appends py reservation _ _ at' ids _ r)
  | fail context request' lease' reservation error at' ids =>
    cases hwork
    exact appends_return (fun _ => none)
      (appends_check fun _ _ => settle_appends py reservation _ _ at' ids _ r)
  | replaceLease lease' => cases hwork

end MemoryCall

namespace Session

/-- No other tenant has events of the aggregate of the call's lease. -/
def Apart (s : Session) (c : MemoryCall) : Prop :=
  ∀ request lease, c.work? = some (request, lease) → ∀ e ∈ s.repository.events,
    e.aggregateId = lease.workId.str → e.tenantId = request.tenantId

theorem repository_step (py : PyText) (s : Session) (c : MemoryCall) :
    (s.step py c).repository = Memory.after (c.exec py s.repository) := by
  rw [step]
  cases c.exec py s.repository <;> rfl

/-- One call keeps the numbers. -/
theorem numbered_step {py : PyText} {s : Session} {c : MemoryCall} (hapart : s.Apart c)
    (h : Numbered EventEnvelope.stream (·.aggregateSequence) s.repository.events) :
    Numbered EventEnvelope.stream (·.aggregateSequence) (s.step py c).repository.events := by
  rw [repository_step]
  cases hwork : c.work? with
  | none =>
    cases c with
    | replaceLease lease => exact h
    | _ => cases hwork
  | some work =>
    obtain ⟨request, lease⟩ := work
    obtain ⟨es, hes, hstream, hnumbers⟩ := MemoryCall.exec_appends py hwork s.repository
    -- the events of the aggregate are those of the stream
    have hcount : s.repository.events.countP (fun e => e.aggregateId = lease.workId.str) =
        (entries EventEnvelope.stream s.repository.events
          (request.tenantId, lease.workId.str)).length := by
      rw [entries, ← List.countP_eq_length_filter]
      refine List.countP_congr fun e he => ?_
      simp only [decide_eq_true_eq, EventEnvelope.stream, Prod.mk.injEq]
      exact ⟨fun ha => ⟨hapart request lease hwork e he ha, ha⟩, And.right⟩
    rw [hcount] at hnumbers
    rw [hes]
    exact h.append hstream hnumbers

end Session

/-- **The numbers of the in-memory ledger.**  In a session whose calls meet no events of another
tenant's work of the same identifier, the events of every stream carry the numbers from one on,
in the order they were appended. -/
theorem memory_numbered (py : PyText) (leases : List WorkLease) {s : Session}
    (h : Session.Reaches py Session.Apart (.initial leases) s) (tenantId aggregateId : String) :
    ((s.repository.events.filter fun e => e.tenantId = tenantId ∧ e.aggregateId = aggregateId).map
        (·.aggregateSequence)) =
      List.range' 1 (s.repository.events.filter fun e =>
        e.tenantId = tenantId ∧ e.aggregateId = aggregateId).length := by
  have hnumbered : Numbered EventEnvelope.stream (·.aggregateSequence) s.repository.events := by
    induction h with
    | refl => exact numbered_nil
    | tail _ hapart ih => exact Session.numbered_step hapart ih
  have hstream := hnumbered (tenantId, aggregateId)
  simpa only [entries, EventEnvelope.stream, Prod.mk.injEq] using hstream

/-- Another tenant's lease of a work item. -/
def otherLease (workId : UUID) : WorkLease := ⟨{
  workId := workId
  tenantId := "beta"
  token := UUID.ofNat 21
  generation := 1
  owner := "worker"
  attempt := 1
  acquiredAt := 0
  heartbeatAt := 0
  expiresAt := seconds 60 }, rfl⟩

/-- Its model call. -/
def otherRequest (workId : UUID) : ModelRequest where
  requestId := UUID.ofNat 52
  tenantId := "beta"
  runId := workId
  messages := sampleModelRequest.messages
  maxOutputTokens := 16
  promptTokenEstimate := 1
  idempotencyKey := "call-1"
  valid := by decide

/-- The reservation of the call. -/
def otherReserve (workId : UUID) : MemoryCall :=
  .reserve ⟨"beta", by decide⟩ (otherRequest workId) (otherLease workId) sampleRoute sampleQuotas 17
    1 "v1" 0 (sampleIds 70)

/-- The session in which both tenants have reserved. -/
def bothReserved (workId : UUID) : Session :=
  ((Session.initial [sampleLease, otherLease workId]).step sampleText memoryReserve).step sampleText
    (otherReserve workId)

/-- Two tenants with work items of different identifiers. -/
theorem memory_numbered_both :
    (((bothReserved (UUID.ofNat 2)).repository.events.filter fun e =>
        e.tenantId = "beta" ∧ e.aggregateId = (UUID.ofNat 2).str).map (·.aggregateSequence)) =
      List.range' 1 ((bothReserved (UUID.ofNat 2)).repository.events.filter fun e =>
        e.tenantId = "beta" ∧ e.aggregateId = (UUID.ofNat 2).str).length := by
  have hfirst : (Session.initial [sampleLease, otherLease (UUID.ofNat 2)]).Apart memoryReserve := by
    intro request lease _ e he
    cases he
  have hsecond : ((Session.initial [sampleLease, otherLease (UUID.ofNat 2)]).step sampleText
      memoryReserve).Apart (otherReserve (UUID.ofNat 2)) := by
    intro request lease hwork
    cases hwork
    decide +kernel
  exact memory_numbered sampleText _ (.tail (.tail (.refl _) hfirst) hsecond) "beta" _

/-- Two tenants with work items of one identifier: the second one's stream starts at four. -/
theorem memory_numbering_shared :
    (((bothReserved (UUID.ofNat 1)).repository.events.filter fun e =>
        e.tenantId = "beta" ∧ e.aggregateId = (UUID.ofNat 1).str).map (·.aggregateSequence)) =
      [4, 5, 6] := by
  decide +kernel

end AegisPlatform
