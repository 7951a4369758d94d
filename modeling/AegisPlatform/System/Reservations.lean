import AegisPlatform.System.WorkItems

/-!
# Reservations and the leases they were made under

A reservation can be charged or released only under the token and the generation
of the lease it was made under.  Nothing that ends a lease settles the
reservations made under it, so they have to be settled before.

* `World.Backed` — every active reservation is under a lease that is held.
* `reservations_backed` — that holds in every run in which no lease is ended
  while a reservation of its item is active.
-/

namespace AegisPlatform

open Fallible Interleave

/-! ## What becomes of the reservations -/

/-- Is it an operation that ends a lease? -/
def ItemOp.isEnding : ItemOp → Bool
  | .ending .. => true
  | _ => false

/-- A reservation that is active after a mutation was so before, or is the one the
mutation makes, under its lease. -/
theorem GatewayMutation.active_run {m : GatewayMutation} {underMaintenance : String → Bool}
    {db db' : Database} (h : m.run underMaintenance db = .ok db') {k : String × UUID}
    {row : ReservationRow} (hrow : db'.reservations.lookup k = some row)
    (hactive : row.isActive = true) : db.reservations.lookup k = some row ∨
      (k.1 = m.tenantId ∧ row.workId = m.lease.workId ∧ row.leaseToken = m.lease.token ∧
        row.leaseGeneration = m.lease.generation) := by
  have hsettle : ∀ {tenantId : String} {reservationId : UUID} {lease : WorkLease}
      {state : ReservationState} {db₁ : Database}, state ≠ .active →
      db.settleReservation tenantId reservationId lease state = .ok db₁ →
      db₁.reservations.lookup k = some row → db.reservations.lookup k = some row := by
    intro tenantId reservationId lease state db₁ hstate hsettle hrow
    simp only [Database.settleReservation, bind_eq_ok, orRaise_eq_ok, Table.updateWhere_eq_some,
      pure_eq_ok] at hsettle
    obtain ⟨rows, ⟨row₀, -, -, rfl⟩, rfl⟩ := hsettle
    rw [Table.lookup_upsert] at hrow
    split at hrow
    · cases hrow
      simp [ReservationRow.isActive, hstate] at hactive
    · exact hrow
  cases m with
  | reserve request lease reservation quotas at' =>
    simp only [run, Database.reserveRow, bind_eq_ok, pure_eq_ok, orRaise_eq_ok,
      Table.insertNew_eq_some] at h
    obtain ⟨-, -, -, -, -, -, -, -, -, -, -, -, tokenLimit, -, cost, -, rows, ⟨-, rfl⟩, rfl⟩ := h
    rw [Table.lookup_upsert] at hrow
    split at hrow
    · rename_i hk
      cases hrow
      exact Or.inr ⟨by rw [hk]; rfl, rfl, rfl, rfl⟩
    · exact Or.inl hrow
  | charge =>
    simp only [run, Database.chargeRow, bind_eq_ok, pure_eq_ok] at h
    obtain ⟨db₁, h₁, -, -, -, -, usage, -, rfl⟩ := h
    exact Or.inl (hsettle (by simp) h₁ hrow)
  | release =>
    simp only [run, Database.releaseRow] at h
    exact Or.inl (hsettle (by simp) h hrow)

namespace World

variable {P : WorkLease → World → Prop} {w w' : World} {c : Txn} {r : Except Raised Reply}

/-- A reservation that is active after a transaction was so before, or is the one
a gateway call made under the lease its transaction holds. -/
theorem active_exec (hl : Legit P c w) (h : exec c w = some (w', r)) {k : String × UUID}
    {row : ReservationRow} (hrow : w'.db.reservations.lookup k = some row)
    (hactive : row.isActive = true) : w.db.reservations.lookup k = some row ∨
      ∃ tx a t, c = .closeFenced tx a ∧ (∀ m, a.mutation ≠ .work m) ∧
        w.inflight.lookup tx = some t ∧ t.fence.key = (k.1, row.workId) ∧
        t.fence.token = row.leaseToken ∧ t.fence.generation = row.leaseGeneration := by
  have hwork : ∀ {a : Append} {key : WorkKey} {m : WorkMutation} {startedAt : Timestamp}
      {db' : Database} {reply : Reply}, a.mutation = .work m → AllOf key a.events →
      w.runAppend a startedAt = .ok (db', reply) → db'.reservations = w.db.reservations := by
    intro a key m startedAt db' reply hm hall hrun
    obtain ⟨es, db₁, happ, hmut, -⟩ := runAppend_eq_ok hrun hall
    rw [hm] at hmut
    rw [(WorkMutation.frame hmut).reservations, happ.rest]
  cases c with
  | append a =>
    obtain ⟨m, hm⟩ := hl
    rcases exec_append h with ⟨rfl, -⟩ | ⟨db', reply, -, hrun, rfl, -⟩
    · exact Or.inl hrow
    · exact Or.inl (hwork hm.mutation hm.allOf hrun ▸ hrow)
  | openFenced f =>
    rcases exec_openFenced h with ⟨rfl, -⟩ | ⟨row, -, -, -, -, rfl, -⟩ <;> exact Or.inl hrow
  | closeFenced tx a =>
    obtain ⟨-, f, hf, hunder⟩ := hl
    rcases exec_closeFenced h with ⟨-, rfl, -⟩ | ⟨t, ht, ⟨e, -, -, rfl⟩ | ⟨db', reply, hrun, -, rfl⟩⟩
    · exact Or.inl hrow
    · exact Or.inl hrow
    · obtain rfl := hf t ht
      cases hmutation : a.mutation with
      | work m => exact Or.inl (hwork hmutation hunder.allOf hrun ▸ hrow)
      | none =>
        obtain ⟨es, db₁, happ, hmut, -⟩ := runAppend_eq_ok hrun hunder.allOf
        rw [hmutation] at hmut
        cases hmut
        rw [happ.rest] at hrow
        exact Or.inl hrow
      | gateway m =>
        obtain ⟨es, db₁, happ, hmut, -⟩ := runAppend_eq_ok hrun hunder.allOf
        rw [hmutation] at hmut
        rcases GatewayMutation.active_run hmut hrow hactive with hold | ⟨hk, hwork, htoken, hgen⟩
        · rw [happ.rest] at hold
          exact Or.inl hold
        · obtain ⟨htenant, hwork', htoken', hgen'⟩ := hunder.gateway m hmutation
          refine Or.inr ⟨tx, a, t, rfl, ?_, ht, ?_, ?_, ?_⟩
          · rw [hmutation]
            exact fun _ h => (by cases h)
          · rw [hk, hwork, htenant, hwork']
            rfl
          · rw [htoken, htoken']
          · rw [hgen, hgen']
  | _ =>
    obtain ⟨outbox, approvals, rfl⟩ := exec_other rfl h
    exact Or.inl hrow

/-! ## The invariant -/

/-- Every active reservation carries the token and the generation of the lease its
item is held under. -/
def Backed (w : World) : Prop :=
  ∀ tenantId reservationId row, w.db.reservations.lookup (tenantId, reservationId) = some row →
    row.isActive = true → ∃ lease, w.db.workLeases.lookup (tenantId, row.workId) = some lease ∧
      lease.holds row.leaseToken row.leaseGeneration = true

/-- A held lease stays held, unless the transaction ends the leases of its item. -/
theorem held_exec (hw : w.Inv) (hl : Legit P c w) (h : exec c w = some (w', r)) {key : WorkKey}
    {lease : WorkLeaseRow} {token : UUID} {generation : ℤ}
    (hlease : w.db.workLeases.lookup key = some lease)
    (hholds : lease.holds token generation = true) :
    (∃ lease', w'.db.workLeases.lookup key = some lease' ∧
      lease'.holds token generation = true) ∨
    ∃ m ∈ c.work?, m.key = key ∧ m.op.isEnding = true ∧ ∃ reply, r = .ok reply := by
  by_cases hkept : ∃ lease', w'.db.workLeases.lookup key = some lease' ∧
      lease'.holds token generation = true
  · exact Or.inl hkept
  obtain ⟨rfl, rfl, hheld⟩ := WorkLeaseRow.holds_iff.1 hholds
  have hended : ∀ lease', w'.db.workLeases.lookup key = some lease' →
      lease'.holds lease.token lease.generation = false := by
    intro lease' hlease'
    by_contra hne
    exact hkept ⟨lease', hlease', by simpa using hne⟩
  have hsame : w'.db.view key ≠ w.db.view key := fun heq =>
    hkept ⟨lease, (lease_of_view heq).trans hlease, hholds⟩
  have hop : ∀ {k : WorkKey} {op : ItemOp},
      ItemStep w.clock op (w.db.view k) (w'.db.view k) →
      (∀ k', k' ≠ k → w'.db.view k' = w.db.view k') → k = key ∧ op.isEnding = true := by
    intro k op hstep hframe
    by_cases hk : key = k
    · subst hk
      obtain ⟨e, attempt, rfl, -⟩ := hstep.ends_lease (hw.wf key) hlease hheld hended
      exact ⟨rfl, rfl⟩
    · exact absurd (hframe key hk) hsame
  refine Or.inr ?_
  cases effect hw hl h with
  | quiet hview => exact absurd (hview key) hsame
  | @unfenced a m reply _ hmut _ _ hstep hframe =>
    obtain ⟨hk, hending⟩ := hop hstep hframe
    exact ⟨m, by rw [Txn.work?, hmut]; rfl, hk, hending, reply, rfl⟩
  | @fenced tx a t m _ reply _ _ hmut _ _ _ _ _ _ hstep hframe =>
    obtain ⟨hk, hending⟩ := hop hstep hframe
    exact ⟨m, by rw [Txn.work?, hmut]; rfl, hk, hending, reply, rfl⟩
  | model _ _ hstep hframe => exact absurd (hop hstep hframe).2 (by decide)

end World

/-! ## The theorem -/

/-- No transaction ends a lease while a reservation made under it is active. -/
def SettledFirst (s : Platform) : Action Txn → Prop
  | .commit _ c => ∀ w reply, World.exec c s.store = some (w, .ok reply) → ∀ m ∈ c.work?,
    m.op.isEnding = true → ∀ reservationId row lease,
    s.store.db.reservations.lookup (m.key.1, reservationId) = some row → row.workId = m.key.2 →
    s.store.db.workLeases.lookup m.key = some lease →
    lease.holds row.leaseToken row.leaseGeneration = true → row.isActive = false
  | _ => True

section Runs

variable {py : PyText} {tenants : List String} {quotas : Table String QuotaLimits}
  {clock : Timestamp} {s : Platform}

/-- **No orphaned reservation**, in every run in which no lease is ended while a
reservation made under it is active: every active reservation carries the token
and the generation of the lease its item is held under. -/
theorem reservations_backed
    (hrun : Run postgres (AnyCall py) SettledFirst (Platform.initial tenants quotas clock) s)
    {tenantId : String} {reservationId : UUID} {row : ReservationRow}
    (hrow : s.store.db.reservations.lookup (tenantId, reservationId) = some row)
    (hactive : row.isActive = true) :
    ∃ lease, s.store.db.workLeases.lookup (tenantId, row.workId) = some lease ∧
      lease.released = none ∧ lease.token = row.leaseToken ∧
      lease.generation = row.leaseGeneration := by
  have hbacked := (run_keeps (I := World.Backed) (lawfully_anyCall py)
    (fun w w' hdb hw => by unfold World.Backed at *; rw [hdb]; exact hw) ?_ hrun
    (World.inv_initial _ _ _) follows_initial (fun _ _ _ h => (by cases h))).2.1
  · obtain ⟨lease, hlease, hholds⟩ := hbacked tenantId reservationId row hrow hactive
    obtain ⟨htoken, hgen, hheld⟩ := WorkLeaseRow.holds_iff.1 hholds
    exact ⟨lease, hlease, hheld, htoken, hgen⟩
  · intro s i w c r hs hI hc hm hexec tenantId reservationId row hrow hactive
    rcases World.active_exec hc hexec hrow hactive with hold |
      ⟨tx, a, t, rfl, hmodel, ht, hkey, htoken, hgen⟩
    · -- an earlier reservation: its lease is still held, or was ended too early
      obtain ⟨lease, hlease, hholds⟩ := hI tenantId reservationId row hold hactive
      rcases World.held_exec hs hc hexec hlease hholds with hkept | ⟨m, hm', hkey, hend, reply, rfl⟩
      · exact hkept
      · have hsettled := hm w reply hexec m hm' hend reservationId row lease
          (by rw [hkey]; exact hold) (by rw [hkey]) (by rw [hkey]; exact hlease) hholds
        rw [hactive] at hsettled
        cases hsettled
    · -- a new one: it was made under the lease its transaction holds
      obtain ⟨lease, hlease, hholds⟩ := hs.held tx t ht
      rw [hkey] at hlease
      rw [htoken, hgen] at hholds
      rcases World.held_exec hs hc hexec hlease hholds with hkept | ⟨m, hm', -⟩
      · exact hkept
      · rw [Txn.work?] at hm'
        split at hm'
        · rename_i m' hmut
          exact absurd hmut (hmodel m')
        · cases hm'

/-! ## A sample model call -/

/-- The quotas of the sample tenant. -/
def sampleQuotas : QuotaLimits where
  maxRunTokens := 100
  maxRunCostUsd := 1
  maxTenantTokensPerPeriod := 1000
  maxTenantCostUsdPerPeriod := 10
  maxConcurrentRuns := 1
  valid := by decide

/-- The platform with the quotas configured. -/
def budgetPlatform : Platform := Platform.initial ["acme"] (Table.upsert ∅ "acme" sampleQuotas) 0

/-- A model call of the sample item. -/
def sampleModelRequest : ModelRequest where
  requestId := UUID.ofNat 50
  tenantId := "acme"
  runId := UUID.ofNat 1
  messages := [{ role := .user, content := [.text "hello" (by decide)], valid := by decide }]
  maxOutputTokens := 16
  promptTokenEstimate := 1
  idempotencyKey := "call-1"
  valid := by decide

/-- Its route. -/
def sampleRoute : RouteDecision where
  selected := ⟨"fake", "small", by decide⟩
  candidateCount := 1
  rationale := ["only_candidate"]

/-- The reservation of the sample call. -/
def sampleReserve : Call :=
  .reserve sampleContext sampleModelRequest sampleLease sampleRoute sampleQuotas 17 1 "v1" 0
    (sampleIds 60)

/-- Is the sample reservation active, and as the predicate says? -/
def sampleReserved (p : Platform → ReservationRow → Bool) (s : Platform) : Bool :=
  (s.store.db.reservations.lookup ("acme", UUID.ofNat 60)).any fun row => row.isActive && p s row

theorem sampleReserved_eq_true {p : Platform → ReservationRow → Bool} {s : Platform}
    (h : sampleReserved p s = true) : ∃ row,
      s.store.db.reservations.lookup ("acme", UUID.ofNat 60) = some row ∧ row.isActive = true ∧
      p s row = true := by
  obtain ⟨row, hrow, hp⟩ := (Option.any_eq_true _ _).1 h
  rw [Bool.and_eq_true] at hp
  exact ⟨row, hrow, hp⟩

/-- The test that stops a schedule where a lease would be ended. -/
def noEndingTest (_ : Platform) : Action Txn → Bool
  | .commit _ c => c.work?.all fun m => !m.op.isEnding
  | _ => true

theorem settledFirst_of_test (s : Platform) (a : Action Txn) (h : noEndingTest s a = true) :
    SettledFirst s a := by
  cases a with
  | commit i c =>
    intro w reply _ m hm hending
    have hnot := (Option.all_eq_true _ _).1 h m hm
    rw [hending] at hnot
    cases hnot
  | _ => trivial

theorem reservations_backed_started : ∃ s row,
    Run postgres (AnyCall sampleText) SettledFirst budgetPlatform s ∧
    s.store.db.reservations.lookup ("acme", UUID.ofNat 60) = some row ∧ row.isActive = true ∧
    ∃ lease, s.store.db.workLeases.lookup ("acme", row.workId) = some lease ∧
      lease.released = none ∧ lease.token = row.leaseToken ∧
      lease.generation = row.leaseGeneration := by
  obtain ⟨s, hrun, hreserved⟩ := exists_run_any (s := budgetPlatform) sampleText
    (startedSchedule ++ Scheduled.whole 5 sampleReserve) (sampleReserved fun _ _ => true)
    settledFirst_of_test (by decide +kernel)
  obtain ⟨row, hrow, hactive, -⟩ := sampleReserved_eq_true hreserved
  exact ⟨s, row, hrun, hrow, hactive, reservations_backed hrun hrow hactive⟩

/-- The worker dies during a model call, and the reconciliation of its lease leaves
the reservation active: no one can settle it any more. -/
theorem reservation_orphaned : ∃ s row,
    Run postgres (AnyCall sampleText) (fun _ _ => True) budgetPlatform s ∧
    s.store.db.reservations.lookup ("acme", UUID.ofNat 60) = some row ∧ row.isActive = true ∧
    ¬ ∃ lease, s.store.db.workLeases.lookup ("acme", row.workId) = some lease ∧
      lease.released = none ∧ lease.token = row.leaseToken ∧
      lease.generation = row.leaseGeneration := by
  obtain ⟨s, hrun, hbad⟩ := exists_run_any (s := budgetPlatform) sampleText
    (startedSchedule ++ Scheduled.whole 5 sampleReserve ++ [.wait (seconds 120).toNat] ++
      Scheduled.whole 6 (.reconcileExpired sampleContext (seconds 120) 10 (sampleIds 70)))
    (sampleReserved fun s row => (s.store.db.workLeases.lookup ("acme", row.workId)).all
      fun lease => lease.released ≠ none) meets_of_anyTest (by decide +kernel)
  obtain ⟨row, hrow, hactive, hended⟩ := sampleReserved_eq_true hbad
  refine ⟨s, row, hrun, hrow, hactive, ?_⟩
  rintro ⟨lease, hlease, hheld, -⟩
  have hreleased := (Option.all_eq_true _ _).1 hended lease hlease
  rw [hheld] at hreleased
  cases hreleased

end Runs

end AegisPlatform
