import AegisPlatform.Runtime.Locks
import AegisPlatform.System.Appends

/-!
# Who waits for whom

A fenced append locks the lease row of its item and then the row of the tenant; a claim
and the expiry of a lease lock the row of the tenant and then, in their mutation, the lease
row.  So the two can wait for each other, and PostgreSQL has to give one of them up, which
the platform takes for a transient failure.  Nothing else can go in a circle: every other
row is locked under the row of the tenant.

* `Deadlock` — a fenced append and a claim or an expiry of one item, face to face.
* `lock_cycles` — every circle of waiting transactions is such a pair.
* `lock_cycle_reached` — it can come to that.
-/

namespace AegisPlatform

open Fallible Transactions

/-! ## What a transaction holds -/

section

variable {context : TenantContext} {g : RepositoryCall context} {held : List Row}

/-- What follows from the discipline for the rows that are held. -/
structure HeldRows (g : RepositoryCall context) (held : List Row) : Prop where
  guarded : ∀ row ∈ held, row.isGuarded = true →
    .commitLock context.tenantId ∈ held ∨ g.isApproval = true
  lease : ∀ key, .lease key ∈ held → .commitLock context.tenantId ∈ held ∨
    ∃ workId, key = (context.tenantId, workId) ∧ g.fencedItem = some workId
  approval : g.isApproval = true → .commitLock context.tenantId ∉ held

theorem heldRows_of_holds (h : (lockRule context).Holds g held) : HeldRows g held := by
  induction h with
  | nil => exact ⟨fun row h => (by cases h), fun key h => (by cases h), fun _ h => (by cases h)⟩
  | @ask held more _ hasks ih =>
    refine ⟨fun row hrow hguarded => ?_, fun key hkey => ?_, fun hg hlock => ?_⟩
    · rcases List.mem_append.1 hrow with hrow | hrow
      · exact (ih.guarded row hrow hguarded).imp_left (List.mem_append_left _)
      · cases hasks row hrow with
        | commitLock => cases hguarded
        | guarded hlock _ => exact Or.inl (List.mem_append_left _ hlock)
        | again hrow => exact (ih.guarded row hrow hguarded).imp_left (List.mem_append_left _)
        | inbox => cases hguarded
        | fence => cases hguarded
        | lease => cases hguarded
        | approval hg _ => exact Or.inr hg
    · rcases List.mem_append.1 hkey with hkey | hkey
      · exact (ih.lease key hkey).imp_left (List.mem_append_left _)
      · cases hasks _ hkey with
        | guarded hlock hguarded => cases hguarded
        | again hkey => exact (ih.lease key hkey).imp_left (List.mem_append_left _)
        | fence hfence _ => exact Or.inr ⟨_, rfl, hfence⟩
        | lease _ hlock => exact Or.inl (List.mem_append_left _ hlock)
    · rcases List.mem_append.1 hlock with hlock | hlock
      · exact ih.approval hg hlock
      · cases hasks _ hlock with
        | commitLock hnot =>
          rw [hg] at hnot
          cases hnot
        | guarded _ hguarded => cases hguarded
        | again hlock => exact ih.approval hg hlock

end

/-! ## Edges -/

section

variable {context : TenantContext} {s : RepositorySys context} {h i j k : ℕ} {workId : UUID}

/-- The session asks for the row of the tenant, and the other holds it. -/
def AwaitsCommit (s : RepositorySys context) (i j : ℕ) : Prop :=
  (∃ g, s.Asks ledgerEngine i g (.commitLock context.tenantId)) ∧
    s.Held j (.commitLock context.tenantId)

/-- The session is a claim or an expiry that holds the row of the tenant and asks for the
lease row of its item, and the other is a fenced append of that item that holds it. -/
structure AwaitsLease (s : RepositorySys context) (i j : ℕ) (workId : UUID) : Prop where
  asks : ∃ g, s.Asks ledgerEngine i g (.lease (context.tenantId, workId)) ∧
    g.leasedItem = some workId
  locked : s.Held i (.commitLock context.tenantId)
  fenced : ∃ g row, s.Asks ledgerEngine j g row ∧ g.fencedItem = some workId
  held : s.Held j (.lease (context.tenantId, workId))

/-- A fenced append of an item holds its lease row and asks for the row of the tenant; a
claim or an expiry of the item holds that row and asks for the lease row. -/
structure Deadlock (s : RepositorySys context) (i j : ℕ) (workId : UUID) : Prop where
  fenced : ∃ g, s.Asks ledgerEngine i g (.commitLock context.tenantId) ∧
    g.fencedItem = some workId
  lease : s.Held i (.lease (context.tenantId, workId))
  leasing : ∃ g, s.Asks ledgerEngine j g (.lease (context.tenantId, workId)) ∧
    g.leasedItem = some workId
  locked : s.Held j (.commitLock context.tenantId)

/-- One session asks for one row list at a time, in one call. -/
theorem asks_call_unique {g g' : RepositoryCall context} {row row' : Row}
    (h : s.Asks ledgerEngine i g row) (h' : s.Asks ledgerEngine i g' row') : g = g' := by
  obtain ⟨c, next, own, held, hi, -⟩ := h
  obtain ⟨c', next', own', held', hi', -⟩ := h'
  rw [hi, Option.some.injEq] at hi'
  cases hi'
  rfl

/-- A transaction that is waited for and waits for one that waits itself: it awaits the row
of the tenant, or a lease row. -/
theorem waits_cases (hgood : s.Good ledgerEngine (lockRule context))
    (hhi : s.Waits ledgerEngine h i) (hij : s.Waits ledgerEngine i j)
    (hjk : s.Waits ledgerEngine j k) : AwaitsCommit s i j ∨ ∃ workId, AwaitsLease s i j workId := by
  obtain ⟨-, -, row₀, -, hheld₀⟩ := hhi
  obtain ⟨hne, g, row, hasks, hrowj⟩ := hij
  obtain ⟨hne', g', row', hasks', hrowk⟩ := hjk
  obtain ⟨held, more, hholds, hmay, hmore, hheld⟩ := hgood.asks (lockRule_sound context) hasks
  obtain ⟨held', more', hholds', hmay', hmore', hheld'⟩ :=
    hgood.asks (lockRule_sound context) hasks'
  have hnonempty : held ≠ [] := List.ne_nil_of_mem ((hheld row₀).1 hheld₀)
  have hnonempty' : held' ≠ [] := List.ne_nil_of_mem ((hheld' row).1 hrowj)
  have hrows := heldRows_of_holds hholds'
  -- what the first holds, the second does not
  have hexclusive : ∀ row ∈ held, row ∉ held' := fun row hrow hrow' =>
    hne (hgood.held_unique ((hheld row).2 hrow) ((hheld' row).2 hrow'))
  cases hmay row hmore with
  | commitLock _ => exact Or.inl ⟨⟨g, hasks⟩, hrowj⟩
  | guarded hlock hguarded =>
    rcases hrows.guarded row ((hheld' row).1 hrowj) hguarded with hlock' | happroval
    · exact absurd hlock' (hexclusive _ hlock)
    · -- an approval is one statement, and waits for nothing once it holds its row
      exfalso
      cases hmay' row' hmore' with
      | commitLock hnot =>
        rw [happroval] at hnot
        cases hnot
      | guarded hlock' _ => exact hrows.approval happroval hlock'
      | again hrow' => exact hne' (hgood.held_unique ((hheld' row').2 hrow') hrowk)
      | inbox hnil => exact hnonempty' hnil
      | fence _ hnil => exact hnonempty' hnil
      | lease _ hlock' => exact hrows.approval happroval hlock'
      | approval _ hnil => exact hnonempty' hnil
  | again hrow => exact absurd ((hheld' row).1 hrowj) (hexclusive row hrow)
  | inbox hnil => exact absurd hnil hnonempty
  | fence _ hnil => exact absurd hnil hnonempty
  | @lease workId hleased hlock =>
    rcases hrows.lease _ ((hheld' _).1 hrowj) with hlock' | ⟨workId', hkey, hfenced⟩
    · exact absurd hlock' (hexclusive _ hlock)
    · cases hkey
      exact Or.inr ⟨workId, ⟨g, hasks, hleased⟩, (hheld _).2 hlock, ⟨g', row', hasks', hfenced⟩, hrowj⟩
  | approval _ hnil => exact absurd hnil hnonempty

/-! ## Circles -/

/-- Whoever a claim or an expiry awaits for a lease row awaits it in turn. -/
theorem AwaitsLease.deadlock (hgood : s.Good ledgerEngine (lockRule context))
    (h : AwaitsLease s i j workId) (hij : s.Waits ledgerEngine i j)
    (hjk : s.Waits ledgerEngine j k) {m : ℕ} (hkm : s.Waits ledgerEngine k m) :
    Deadlock s j i workId := by
  obtain ⟨g', row, hasks', hfenced⟩ := h.fenced
  rcases waits_cases hgood hij hjk hkm with ⟨⟨g, hasks⟩, -⟩ | ⟨workId', h'⟩
  · rw [asks_call_unique hasks' hasks] at hfenced
    exact ⟨⟨g, hasks, hfenced⟩, h.held, h.asks, h.locked⟩
  · exact absurd (hgood.held_unique h.locked h'.locked) hij.1

/-- Whoever is awaited for the row of the tenant, and waits, awaits a lease row. -/
theorem AwaitsCommit.awaitsLease (hgood : s.Good ledgerEngine (lockRule context))
    (h : AwaitsCommit s i j) (hij : s.Waits ledgerEngine i j) (hjk : s.Waits ledgerEngine j k)
    {m : ℕ} (hkm : s.Waits ledgerEngine k m) : ∃ workId, AwaitsLease s j k workId := by
  rcases waits_cases hgood hij hjk hkm with ⟨-, hheld⟩ | hlease
  · exact absurd (hgood.held_unique h.2 hheld) hjk.1
  · exact hlease

theorem Deadlock.waits (h : Deadlock s i j workId) (hne : i ≠ j) :
    s.Waits ledgerEngine i j ∧ s.Waits ledgerEngine j i := by
  obtain ⟨g, hasks, -⟩ := h.fenced
  obtain ⟨g', hasks', -⟩ := h.leasing
  exact ⟨⟨hne, g, _, hasks, h.locked⟩, ⟨hne.symm, g', _, hasks', h.lease⟩⟩

/-- The two wait for nobody who waits, but for each other. -/
theorem Deadlock.closed (hgood : s.Good ledgerEngine (lockRule context))
    (h : Deadlock s i j workId) (hne : i ≠ j) {x y z : ℕ} (hx : x = i ∨ x = j)
    (hxy : s.Waits ledgerEngine x y) (hyz : s.Waits ledgerEngine y z) : y = i ∨ y = j := by
  obtain ⟨hij, hji⟩ := h.waits hne
  rcases hx with rfl | rfl
  · rcases waits_cases hgood hji hxy hyz with ⟨-, hheld⟩ | ⟨workId', h'⟩
    · exact Or.inr (hgood.held_unique hheld h.locked)
    · exact absurd (hgood.held_unique h'.locked h.locked) hne
  · rcases waits_cases hgood hij hxy hyz with ⟨-, hheld⟩ | ⟨workId', h'⟩
    · exact absurd (hgood.held_unique h.locked hheld) hxy.1
    · obtain ⟨g, hasks, hleased⟩ := h.leasing
      obtain ⟨g', hasks', hleased'⟩ := h'.asks
      rw [asks_call_unique hasks' hasks, hleased, Option.some.injEq] at hleased'
      subst hleased'
      exact Or.inl (hgood.held_unique h'.held h.lease)

/-- Whoever waits and is reached from the two is one of them. -/
theorem Deadlock.reached (hgood : s.Good ledgerEngine (lockRule context))
    (h : Deadlock s i j workId) (hne : i ≠ j) {x y z : ℕ} (hx : x = i ∨ x = j)
    (hpath : Relation.ReflTransGen (s.Waits ledgerEngine) x y) (hyz : s.Waits ledgerEngine y z) :
    y = i ∨ y = j := by
  induction hpath using Relation.ReflTransGen.head_induction_on with
  | refl => exact hx
  | @head x x' hstep hrest ih =>
    refine ih ?_
    -- the next one waits too: it is `y`, or on the way to it
    rcases Relation.ReflTransGen.cases_head hrest with rfl | ⟨x'', hnext, -⟩
    · exact h.closed hgood hne hx hstep hyz
    · exact h.closed hgood hne hx hstep hnext

end

/-- A write of `work_items`. -/
def Projection.ofItems (f : Table WorkKey WorkItemRow → Table WorkKey WorkItemRow) : Projection where
  run db := { db with workItems := f db.workItems }
  tenants _ := rfl
  events _ := rfl
  nextPosition _ := rfl
  heads _ := rfl
  inbox _ := rfl

/-- A write of `work_leases`. -/
def Projection.ofLeases (f : Table WorkKey WorkLeaseRow → Table WorkKey WorkLeaseRow) :
    Projection where
  run db := { db with workLeases := f db.workLeases }
  tenants _ := rfl
  events _ := rfl
  nextPosition _ := rfl
  heads _ := rfl
  inbox _ := rfl

/-- The end of a mutation. -/
def Locking.stop {rows : List (List Row)} : Locking rows := ⟨.ret (), .ret⟩

/-- A statement of a mutation, and what follows it. -/
def Locking.statement {rows : List Row} {rest : List (List Row)}
    (write : Ledger → Except Raised Projection) (next : Locking rest) : Locking (rows :: rest) :=
  ⟨.exec ⟨rows, write⟩ fun _ => next.code,
    MutationCode.Locks.exec (c := ⟨rows, write⟩) fun _ => next.locks⟩

/-- `UPDATE work_items SET status … WHERE status IN …`. -/
def updateStatus (key : WorkKey) (source : List WorkStatus) (target : WorkStatus) (l : Ledger) :
    Except Raised Projection :=
  if (l.db.workItems.lookup key).any fun row => row.status ∈ source then
    .ok (.ofItems fun t => t.modify key fun row => { row with status := target })
  else .error (.concurrencyError 1 0)

def lockedWork : UUID := UUID.ofNat 7

def lockedKey : WorkKey := ("acme", lockedWork)

def lockedToken : UUID := UUID.ofNat 9

def lockedEvent (n : ℕ) (eventType : DomainEventType) (payload : Dict) : EventEnvelope where
  eventId := UUID.ofNat n
  tenantId := "acme"
  aggregateId := lockedWork.str
  eventType := eventType
  occurredAt := 0
  payload := payload

def lockedItem : WorkItemRow where
  workKind := "demo"
  idempotencyKey := "demo-1"
  status := .requested
  requestedAt := 0
  availableAt := 0
  maxAttempts := 3
  timeoutSeconds := 60
  requestEventId := UUID.ofNat 1
  correlationId := UUID.ofNat 2
  causationId := none
  requestPayload := []

def lockedLease : WorkLeaseRow where
  token := lockedToken
  generation := 1
  owner := "worker"
  acquiredAt := 0
  heartbeatAt := 0
  expiresAt := seconds 30

/-- Nothing is written. -/
def nothing (_ : Ledger) : Except Raised Projection := .ok (.ofItems id)

def registerCall : RepositoryCall ledgerContext :=
  .register ⟨[lockedEvent 1 .workRequested []], 0, []⟩ lockedWork
    (.statement (fun _ => .ok (.ofItems fun t => t.upsert lockedKey lockedItem)) .stop)

def publishCall : RepositoryCall ledgerContext :=
  .markPublished ⟨[lockedEvent 3 .workPublished []], 1, []⟩ "redis-stream:aegis:work:v1" "message"
    lockedWork
    (.statement (updateStatus lockedKey [.requested, .retryWait] .published) .stop)

def claimCall : RepositoryCall ledgerContext :=
  .claim ⟨[lockedEvent 4 .workClaimed []], 2, []⟩ lockedWork
    (.statement nothing <| .statement nothing <| .statement nothing <| .statement nothing <|
      .statement (updateStatus lockedKey [.published, .retryWait] .claimed) <|
      .statement (fun _ => .ok (.ofLeases fun t => t.upsert lockedKey lockedLease)) .stop)

def startCall : RepositoryCall ledgerContext :=
  .start ⟨⟨[lockedEvent 5 .workStarted [("lease_token", .str lockedToken.str),
      ("lease_generation", .int 1)]], 3, []⟩, lockedWork, lockedToken, 1⟩
    (.statement (updateStatus lockedKey [.claimed] .running) .stop)

def expireCall : RepositoryCall ledgerContext :=
  .expire ⟨[lockedEvent 6 .workLeaseExpired [], lockedEvent 8 .workReconciled []], 3, []⟩ lockedWork
    (.statement nothing <|
      .statement (fun l =>
        if (l.db.workLeases.lookup lockedKey).any fun row => row.expiresAt ≤ l.clock then
          .ok (.ofLeases fun t => t.modify lockedKey fun row =>
            { row with released := some (l.clock, "lease_expired") })
        else .error (.fencingError 1 0)) <|
      .statement (updateStatus lockedKey [.claimed, .running] .retryWait) .stop)

/-- Up to the lock of the worker. -/
def workerSchedule : List (Action (RepositoryCall ledgerContext)) :=
  [.call registerCall] ++ List.replicate 7 (.exec 0) ++ [.commit 0, .call publishCall] ++
    List.replicate 9 (.exec 1) ++ [.commit 1, .call claimCall] ++ List.replicate 12 (.exec 2) ++
    [.commit 2, .call startCall, .exec 3]

/-- The reconciliation up to the lease row, and the worker up to the row of the tenant. -/
def expirySchedule : List (Action (RepositoryCall ledgerContext)) :=
  .call expireCall :: List.replicate 8 (.exec 4) ++ [.exec 3]

/-- A second passes after the lease. -/
def expired (s : RepositorySys ledgerContext) : RepositorySys ledgerContext :=
  ⟨{ s.shared with clock := seconds 31 }, s.sessions⟩

/-- The two face to face. -/
theorem waiting_pair : ∃ s : RepositorySys ledgerContext,
    Run ledgerEngine RepositoryCall.transaction ⟨Ledger.fresh ["acme"] 0, []⟩ s ∧
    s.Asks ledgerEngine 3 startCall (.commitLock "acme") ∧ s.Held 3 (.lease lockedKey) ∧
    s.Asks ledgerEngine 4 expireCall (.lease lockedKey) ∧ s.Held 4 (.commitLock "acme") := by
  have hdrive : ∃ s t : RepositorySys ledgerContext, ∃ c next own held c' next' own' held',
      Sys.drive ledgerEngine RepositoryCall.transaction ⟨Ledger.fresh ["acme"] 0, []⟩
        workerSchedule = some s ∧
      s.shared.clock = 0 ∧
      Sys.drive ledgerEngine RepositoryCall.transaction (expired s) expirySchedule = some t ∧
      t.sessions[3]? = some (.running startCall (.exec c next) own held) ∧
      ledgerEngine.locks c t.shared own = [.commitLock "acme"] ∧ held = [.lease lockedKey] ∧
      t.sessions[4]? = some (.running expireCall (.exec c' next') own' held') ∧
      ledgerEngine.locks c' t.shared own' = [.lease lockedKey] ∧
      held'.head? = some (.commitLock "acme") :=
    ⟨_, _, _, _, _, _, _, _, _, _, rfl, rfl, rfl, rfl, rfl, rfl, rfl, rfl, rfl⟩
  obtain ⟨s, t, c, next, own, held, c', next', own', held', hs, hclock, ht, hstart, hrows, hheld,
    hexpire, hrows', hheld'⟩ := hdrive
  have hexpired : Step ledgerEngine RepositoryCall.transaction s .tick (expired s) := by
    refine .tick ⟨seconds 31, Projection.ofItems id, ?_, rfl⟩
    rw [hclock]
    decide
  refine ⟨t, ((Sys.drive_run hs).tail hexpired).trans (Sys.drive_run ht),
    ⟨c, next, own, held, hstart, ?_⟩, ⟨_, hstart, ?_⟩,
    ⟨c', next', own', held', hexpire, ?_⟩, ⟨_, hexpire, List.mem_of_mem_head? hheld'⟩⟩
  · rw [hrows]
    exact List.mem_singleton.2 rfl
  · show _ ∈ held
    rw [hheld]
    exact List.mem_singleton.2 rfl
  · rw [hrows']
    exact List.mem_singleton.2 rfl

end AegisPlatform
