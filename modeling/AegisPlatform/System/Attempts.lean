import AegisPlatform.System.WorkItems

/-!
# Attempts and the tenant's quota of workers

* `attempts_counted` — the attempts of an item are the claims on record since it
  was registered or last requeued, they are as many as its lease says, and a claim
  that returns nothing has changed nothing.
* `tenant_concurrency` — after a claim the tenant's items in work are at most as
  many as the claim allowed, and only a claim makes them more.
-/

namespace AegisPlatform

open Fallible Interleave

/-! ## A claim that returns nothing -/

theorem WorkLeaseFields.make_raises (l : WorkLeaseFields) :
    RaisesOnly (fun e => ∃ message, e = .valueError message) l.make := by
  have hcheck : RaisesOnly (fun e => ∃ message, e = .valueError message) l.check :=
    raisesOnly_bind (raisesOnly_raiseIf fun _ => ⟨_, rfl⟩) fun _ _ =>
      raisesOnly_bind (raisesOnly_raiseIf fun _ => ⟨_, rfl⟩) fun _ _ =>
        raisesOnly_raiseIf fun _ => ⟨_, rfl⟩
  intro e he
  unfold make at he
  split at he
  · cases he
  · rename_i e' hcheck'
    cases he
    exact hcheck e hcheck'

theorem readOnly_verifyDelivery (py : PyText) (context : TenantContext)
    (delivery : QueueDelivery) : (verifyDelivery py context delivery).ReadOnly := by
  unfold verifyDelivery
  refine Proc.readOnly_bind (Proc.readOnly_ofExcept _) fun supplied => ?_
  refine Proc.readOnly_bind (Proc.readOnly_ofExcept _) fun _ => ?_
  refine Proc.readOnly_bind (Proc.readOnly_query _) fun rows => ?_
  refine Proc.readOnly_bind (Proc.readOnly_ofExcept _) fun row => ?_
  refine Proc.readOnly_bind (Proc.readOnly_ofExcept _) fun authoritative => ?_
  exact Proc.readOnly_bind (Proc.readOnly_ofExcept _) fun _ => trivial

/-- The database is the same. -/
def SameDb (w w' : World) : Prop := w'.db = w.db

/-- What is left of a claim whose transaction has committed returns its lease or
raises. -/
theorem ends_held (reply : Reply) (lease : WorkLease) :
    (tryCatch (do
        let (acquiredAt, databaseExpiry) ← Proc.ofExcept (orRaise .indexError reply.times)
        let held ← Proc.ofExcept (WorkLeaseFields.make { lease.toWorkLeaseFields with
          acquiredAt := acquiredAt, heartbeatAt := acquiredAt, expiresAt := databaseExpiry })
        pure (some held))
      fun e => if e = .claimUnavailable ∨ e.isConcurrencyError then pure none else throw e :
      Op (Option WorkLease)).Ends (· ≠ .ok none) := by
  cases reply.times with
  | none => exact fun h => (by cases h)
  | some times =>
    have hraises := WorkLeaseFields.make_raises { lease.toWorkLeaseFields with
      acquiredAt := times.1, heartbeatAt := times.1, expiresAt := times.2 }
    show Proc.Ends _ (Proc.handle (Proc.bind (Proc.ofExcept (WorkLeaseFields.make _)) _) _)
    cases hmake : WorkLeaseFields.make { lease.toWorkLeaseFields with
      acquiredAt := times.1, heartbeatAt := times.1, expiresAt := times.2 } with
    | ok held => exact fun h => (by cases h)
    | error e =>
      obtain ⟨message, rfl⟩ := hraises e hmake
      exact fun h => (by cases h)

/-- **A claim that returns nothing has changed nothing.** -/
theorem changesFor_claim (py : PyText) (context : TenantContext) (delivery : QueueDelivery)
    (owner : String) (now expiresAt : Timestamp) (limit : ℤ) (ids : ℕ → UUID) :
    (claim py context delivery owner now expiresAt limit ids).ChangesFor postgres SameDb
      (· ≠ .ok none) := by
  unfold claim
  refine Proc.changesFor_bind (Proc.readOnly_ofExcept _) fun _ => ?_
  refine Proc.changesFor_bind (Proc.readOnly_ofExcept _) fun _ => ?_
  refine Proc.changesFor_bind (readOnly_verifyDelivery py context delivery) fun request => ?_
  refine Proc.changesFor_bind (Proc.readOnly_ofExcept _) fun _ => ?_
  split
  · trivial
  refine Proc.changesFor_bind (Proc.readOnly_query _) fun item => ?_
  split
  · trivial
  split
  · trivial
  refine Proc.changesFor_bind (Proc.readOnly_query _) fun row => ?_
  refine Proc.changesFor_bind (Proc.readOnly_ofExcept _) fun lease => ?_
  refine Proc.changesFor_bind (Proc.readOnly_query _) fun version => ?_
  refine Proc.changesFor_bind (Proc.readOnly_ofExcept _) fun event => ?_
  have hhandler : ∀ e : Raised, Proc.ReadOnly (if e = .claimUnavailable ∨ e.isConcurrencyError
      then pure none else throw e : Op (Option WorkLease)) := by
    intro e
    split <;> trivial
  have hrest : ∀ reply : Reply, Proc.ReadOnly (do
      let (acquiredAt, databaseExpiry) ← Proc.ofExcept (orRaise .indexError reply.times)
      let held ← Proc.ofExcept (WorkLeaseFields.make { lease.toWorkLeaseFields with
        acquiredAt := acquiredAt, heartbeatAt := acquiredAt, expiresAt := databaseExpiry })
      pure (some held) : Op (Option WorkLease)) := by
    intro reply
    refine Proc.readOnly_bind (Proc.readOnly_ofExcept _) fun times => ?_
    exact Proc.readOnly_bind (Proc.readOnly_ofExcept _) fun _ => trivial
  unfold appendAtomic
  cases validateAppend context [event] with
  | error e => exact (hhandler e).changesFor
  | ok u =>
    refine ⟨fun w w' r hexec => ?_, fun w => ?_⟩
    · refine ⟨?_, (Proc.readOnly_handle (Proc.readOnly_bind (Proc.readOnly_ofExcept r) hrest)
        hhandler).changesFor⟩
      rw [show postgres.exec = World.exec from rfl] at hexec
      rcases World.exec_append hexec with ⟨rfl, -⟩ | ⟨db', reply, -, -, rfl, rfl⟩
      · exact Or.inl rfl
      · exact Or.inr (ends_held reply lease)
    · refine ⟨Or.inl (World.abort_cases _ w).1, ?_⟩
      exact (Proc.readOnly_handle (Proc.readOnly_bind (Proc.readOnly_ofExcept _) hrest)
        hhandler).changesFor

/-! ## Attempts -/

section Runs

variable {py : PyText} {tenants : List String} {quotas : Table String QuotaLimits}
  {clock : Timestamp} {s : Platform}

/-- **Attempts are claims.**  The attempts of an item are its claims on record since it
was registered or last requeued; there are no more than it is allowed, and as many as
the lease says that was claimed and is held.  A claim that returns nothing has changed
nothing. -/
theorem attempts_counted
    (hrun : Run postgres (AnyCall py) (fun _ _ => True) (Platform.initial tenants quotas clock) s) :
    (∀ key item, s.store.db.workItems.lookup key = some item →
      item.attemptCount = claimsSinceRequeue (s.store.db.stream key) ∧
      item.attemptCount ≤ item.maxAttempts ∧
      ∀ lease, .ret (.claimed (some lease)) ∈ s.procs → lease.key = key →
        ∀ row, s.store.db.workLeases.lookup key = some row →
          row.holds lease.token lease.generation = true → item.attemptCount = lease.attempt) ∧
    ∀ (i : ℕ) (context : TenantContext) (delivery : QueueDelivery) (owner : String)
      (now expiresAt : Timestamp) (limit : ℤ) (ids : ℕ → UUID),
      s.procs[i]? = some ((Call.claim context delivery owner now expiresAt limit ids).proc py) →
      ∀ (t u v : Platform) (a : Action Txn) (c : Txn),
      Run postgres (AnyCall py) (fun _ _ => True) s t → Step postgres (AnyCall py) t a u →
      a = .commit i c ∨ a = .abort i c → Run postgres (AnyCall py) (fun _ _ => True) u v →
      v.procs[i]? = some (.ret (.claimed none)) → u.store.db = t.store.db := by
  obtain ⟨hinv, hfollows⟩ := run_inv (lawfully_anyCall py) hrun (World.inv_initial _ _ _)
    follows_initial
  constructor
  · intro key item hitem
    have hcounted := run_view_at (F := ItemView.Counted) key (lawfully_anyCall py)
      (fun _ hc hstep => hstep.counted hc) hrun (World.inv_initial _ _ _) follows_initial
      (fun _ h => (by cases h))
    refine ⟨hcounted item hitem, ((hinv.wf key).attempts item hitem).1, ?_⟩
    intro lease hlease hkey row hrow hholds
    have hknown := hfollows _ hlease s.store (Moves.refl _) _ rfl lease (by simp [Outcome.leases])
      (Or.inr rfl)
    obtain ⟨-, hgen, hrel⟩ := WorkLeaseRow.holds_iff.1 hholds
    unfold LeaseKnown at hknown
    rw [hkey] at hknown
    obtain ⟨row', hrow', -, hcount⟩ := hknown
    cases Option.mem_unique hrow hrow'
    obtain ⟨item', hitem', hattempt⟩ := hcount hgen hrel
    cases Option.mem_unique hitem hitem'
    exact hattempt
  · intro i context delivery owner now expiresAt limit ids hi t u v a c hto hstep ha hfrom hnone
    have hclaim : ((Call.claim context delivery owner now expiresAt limit ids).proc py).ChangesFor
        postgres SameDb (· ≠ .ok (.claimed none)) := by
      refine Proc.changesFor_map ?_
      have hnone : (fun o : Except Raised (Option WorkLease) =>
          o.map Outcome.claimed ≠ .ok (.claimed none)) = (· ≠ .ok none) := by
        funext o
        cases o <;> simp [Except.map]
      rw [hnone]
      exact changesFor_claim py context delivery owner now expiresAt limit ids
    have hsame := hto.unchanged hi hclaim hstep ha hfrom (o := .ok (.claimed none)) hnone
    exact hsame (not_not.2 rfl)

theorem attempts_counted_claimed : ∃ s item,
    Run postgres (AnyCall sampleText) (fun _ _ => True) samplePlatform s ∧
    s.store.db.workItems.lookup sampleRequest.key = some item ∧ item.attemptCount = 1 ∧
    claimsSinceRequeue (s.store.db.stream sampleRequest.key) = 1 := by
  obtain ⟨s, hrun, hclaimed⟩ := exists_run_any (s := samplePlatform) sampleText claimedSchedule
    (sampleItem (·.attemptCount = 1)) meets_of_anyTest (by decide +kernel)
  obtain ⟨item, hitem, hone⟩ := sampleItem_eq_true hclaimed
  rw [decide_eq_true_eq] at hone
  obtain ⟨hcount, -⟩ := (attempts_counted hrun).1 _ item hitem
  refine ⟨s, item, hrun, hitem, hone, ?_⟩
  rw [hone] at hcount
  exact_mod_cast hcount.symm

end Runs

/-! ## Items in work -/

/-- Only a claim puts an item in work. -/
theorem ItemStep.active {now : Timestamp} {op : ItemOp} {v v' : ItemView} (h : ItemStep now op v v')
    (hop : op ≠ .claim) (hactive : v'.item.any (·.status.isActive) = true) :
    v.item.any (·.status.isActive) = true := by
  cases h with
  | register hs =>
    rw [Option.any_some, hs] at hactive
    cases hactive
  | publish => cases hactive
  | claim => exact absurd rfl hop
  | start _ hs =>
    rw [Option.any_some, hs]
    rfl
  | cancelQueued _ hs =>
    rw [Option.any_some, hs] at hactive
    cases hactive
  | cancelActive hs => exact hs
  | requeue _ hs =>
    rw [Option.any_some, hs] at hactive
    cases hactive
  | @ending e _ _ _ _ _ _ _ _ _ _ _ _ _ _ hs =>
    rw [Option.any_some, hs] at hactive
    cases e <;> cases hactive
  | _ => exact hactive

namespace Database

variable {db db' : Database} {key : WorkKey}

/-- The count of a tenant's items in work, taken apart at one item. -/
theorem activeCount_eq (db : Database) (tenantId : String) (key : WorkKey) :
    db.activeCount tenantId =
      (db.workItems.delete key).rows.countP (fun row => row.1.1 = tenantId && row.2.status.isActive) +
        if (db.workItems.lookup key).any fun item => key.1 = tenantId && item.status.isActive
          then 1 else 0 :=
  Table.countP_rows_delete _ _ _

theorem countP_delete_congr (hframe : ∀ k, k ≠ key → db'.view k = db.view k)
    (p : WorkKey × WorkItemRow → Bool) :
    (db'.workItems.delete key).rows.countP p = (db.workItems.delete key).rows.countP p := by
  refine Table.countP_rows_congr (fun k => ?_) p
  rw [Table.lookup_delete, Table.lookup_delete]
  by_cases hk : k = key
  · rw [if_pos hk, if_pos hk]
  · rw [if_neg hk, if_neg hk]
    exact congrArg ItemView.item (hframe k hk)

theorem activeCount_congr (hsame : ∀ k, db'.view k = db.view k) (tenantId : String) :
    db'.activeCount tenantId = db.activeCount tenantId :=
  Table.countP_rows_congr (fun k => congrArg ItemView.item (hsame k)) _

/-- One item changes: the count of its tenant grows by one at most. -/
theorem activeCount_le_succ (hframe : ∀ k, k ≠ key → db'.view k = db.view k) (tenantId : String) :
    db'.activeCount tenantId ≤ db.activeCount tenantId + 1 := by
  rw [activeCount_eq db' tenantId key, activeCount_eq db tenantId key, countP_delete_congr hframe]
  split <;> split <;> omega

/-- One item changes and is not put in work, or is not the tenant's: the count does not
grow. -/
theorem activeCount_le (hframe : ∀ k, k ≠ key → db'.view k = db.view k) {tenantId : String}
    (hitem : key.1 = tenantId → (db'.view key).item.any (·.status.isActive) = true →
      (db.view key).item.any (·.status.isActive) = true) :
    db'.activeCount tenantId ≤ db.activeCount tenantId := by
  rw [activeCount_eq db' tenantId key, activeCount_eq db tenantId key, countP_delete_congr hframe]
  by_cases hkey : key.1 = tenantId
  · have hold := hitem hkey
    unfold view viewWith at hold
    simp only [hkey, decide_true, Bool.true_and]
    by_cases hactive : (db'.workItems.lookup key).any (·.status.isActive) = true
    · rw [if_pos hactive, if_pos (hold hactive)]
    · rw [if_neg hactive]
      exact Nat.add_le_add_left (Nat.zero_le _) _
  · simp [hkey]

end Database

/-- A mutation that claims is that of a claim. -/
theorem WorkMutation.of_op_claim {m : WorkMutation} (h : m.op = .claim) :
    ∃ request lease duration limit, m = .claimProjection request lease duration limit := by
  cases m with
  | claimProjection request lease duration limit => exact ⟨request, lease, duration, limit, rfl⟩
  | cancelProjection request status =>
    rw [op] at h
    split at h <;> cases h
  | expireProjection lease cancelRequestedAt exhausted =>
    rw [op] at h
    split at h
    · cases h
    · split at h <;> cases h
  | _ => cases h

namespace World

variable {w w' : World} {c : Txn} {r : Except Raised Reply} {P : WorkLease → World → Prop}

/-- **After a claim the tenant's items in work are at most as many as it allowed.** -/
theorem activeCount_claim (hw : w.Inv) (hl : Legit P c w) {request : WorkRequest}
    {lease : WorkLease} {duration limit : ℤ}
    (hc : c.work? = some (.claimProjection request lease duration limit))
    (h : exec c w = some (w', r)) :
    w'.db = w.db ∨ (w'.db.activeCount request.tenantId : ℤ) ≤ limit := by
  cases c with
  | append a =>
    obtain ⟨m, hm⟩ := hl
    rw [Txn.work?, hm.mutation, Option.some.injEq] at hc
    subst hc
    rcases exec_append h with ⟨rfl, -⟩ | ⟨db', reply, -, hrun, rfl, rfl⟩
    · exact Or.inl rfl
    · obtain ⟨-, hframe⟩ := effect_unfenced hw hm hrun
      obtain ⟨es, db₁, happ, hmut, -⟩ := runAppend_eq_ok hrun hm.allOf
      rw [hm.mutation] at hmut
      -- the mutation counted what was committed, and found a place
      obtain ⟨_, hplace, -⟩ := bind_eq_ok.1 hmut
      rw [raiseIf_eq_ok, not_le] at hplace
      have hcount : db₁.activeCount request.tenantId = w.db.activeCount request.tenantId := by
        rw [happ.rest]
        rfl
      have hgrow := Database.activeCount_le_succ hframe request.tenantId
      right
      dsimp only
      omega
  | closeFenced tx a =>
    obtain ⟨-, f, -, hunder⟩ := hl
    cases hmut : a.mutation with
    | work m =>
      rw [Txn.work?, hmut, Option.some.injEq] at hc
      obtain ⟨held, hheld, -⟩ := hunder.work m hmut
      rw [hc] at hheld
      cases hheld
    | _ => rw [Txn.work?, hmut] at hc; cases hc
  | _ => cases hc

/-- **Only a claim puts an item of a tenant in work.** -/
theorem claim_of_activeCount_lt (hw : w.Inv) (hl : Legit P c w) (h : exec c w = some (w', r))
    {tenantId : String} (hgrows : w.db.activeCount tenantId < w'.db.activeCount tenantId) :
    ∃ request lease duration limit, c.work? = some (.claimProjection request lease duration limit) ∧
      request.tenantId = tenantId := by
  have hstep : ∀ {m : WorkMutation}, ItemStep w.clock m.op (w.db.view m.key) (w'.db.view m.key) →
      (∀ k, k ≠ m.key → w'.db.view k = w.db.view k) → m.op = .claim ∧ m.key.1 = tenantId := by
    intro m hstep hframe
    by_contra hnot
    refine absurd hgrows (not_lt.2 (Database.activeCount_le hframe fun hkey hactive => ?_))
    exact hstep.active (fun hop => hnot ⟨hop, hkey⟩) hactive
  cases effect hw hl h with
  | quiet hsame => exact absurd (Database.activeCount_congr hsame tenantId) hgrows.ne'
  | unfenced hmut _ _ hitem hframe =>
    obtain ⟨hop, hkey⟩ := hstep hitem hframe
    obtain ⟨request, lease, duration, limit, rfl⟩ := WorkMutation.of_op_claim hop
    exact ⟨request, lease, duration, limit, by rw [Txn.work?, hmut], hkey⟩
  | fenced _ _ hlease _ _ _ _ _ hitem hframe =>
    obtain ⟨hop, -⟩ := hstep hitem hframe
    obtain ⟨request, lease, duration, limit, rfl⟩ := WorkMutation.of_op_claim hop
    cases hlease
  | model _ _ hitem hframe =>
    refine absurd hgrows (not_lt.2 (Database.activeCount_le hframe fun _ => ?_))
    exact hitem.active fun h => (by cases h)

end World

section Runs

variable {py : PyText} {tenants : List String} {quotas : Table String QuotaLimits}
  {clock : Timestamp} {s u : Platform} {a : Action Txn}

/-- **The tenant's quota of workers holds.**  A claim that allows `limit` workers and
commits leaves at most so many items of its tenant claimed or running, and no step but
the commit of a claim makes them more. -/
theorem tenant_concurrency
    (hrun : Run postgres (AnyCall py) (fun _ _ => True) (Platform.initial tenants quotas clock) s)
    (hstep : Step postgres (AnyCall py) s a u) :
    (∀ i c request lease duration limit, a = .commit i c →
      c.work? = some (.claimProjection request lease duration limit) →
      u.store.db ≠ s.store.db → (u.store.db.activeCount request.tenantId : ℤ) ≤ limit) ∧
    ∀ tenantId, s.store.db.activeCount tenantId < u.store.db.activeCount tenantId →
      ∃ i c request lease duration limit, a = .commit i c ∧
        c.work? = some (.claimProjection request lease duration limit) ∧
        request.tenantId = tenantId := by
  obtain ⟨hinv, hfollows⟩ := run_inv (lawfully_anyCall py) hrun (World.inv_initial _ _ _)
    follows_initial
  constructor
  · rintro i c request lease duration limit rfl hc hchanged
    cases hstep with
    | commit hi hexec =>
      exact (World.activeCount_claim hinv (hfollows.legit hi) hc hexec).resolve_left hchanged
  · intro tenantId hgrows
    cases hstep with
    | call _ => exact absurd hgrows (lt_irrefl _)
    | read _ => exact absurd hgrows (lt_irrefl _)
    | @commit i c _ _ _ hi hexec =>
      obtain ⟨request, lease, duration, limit, hc, htenant⟩ :=
        World.claim_of_activeCount_lt hinv (hfollows.legit hi) hexec hgrows
      exact ⟨i, c, request, lease, duration, limit, rfl, hc, htenant⟩
    | @abort i c _ hi =>
      rw [show postgres.abort = World.abort from rfl, (World.abort_cases c s.store).1] at hgrows
      exact absurd hgrows (lt_irrefl _)
    | tick htick =>
      obtain ⟨clock, maintenance, locked, -, rfl⟩ := htick
      exact absurd hgrows (lt_irrefl _)

/-- Is it the transaction of a claim, of the sample tenant, that allows one worker, and
is the item claimed after it? -/
def claimsSample (c : Txn) (w : World) : Bool :=
  (match c.work? with
  | some (.claimProjection request _ _ limit) => request.tenantId = "acme" && limit = 1
  | _ => false) && w.db.activeCount "acme" = 1

theorem tenant_concurrency_claimed : ∃ s u i c,
    Run postgres (AnyCall sampleText) (fun _ _ => True) samplePlatform s ∧
    Step postgres (AnyCall sampleText) s (.commit i c) u ∧ s.store.db.activeCount "acme" = 0 ∧
    u.store.db.activeCount "acme" = 1 ∧ ((u.store.db.activeCount "acme" : ℕ) : ℤ) ≤ 1 := by
  obtain ⟨s, hrun, hready⟩ := exists_run_any (s := samplePlatform) sampleText
    (claimedSchedule.take 32) (fun s => s.committing postgres 3 claimsSample &&
      decide (s.store.db.activeCount "acme" = 0)) meets_of_anyTest (by decide +kernel)
  rw [Bool.and_eq_true, decide_eq_true_eq] at hready
  obtain ⟨c, u, hstep, hclaims⟩ : ∃ c u, Step postgres (AnyCall sampleText) s (.commit 3 c) u ∧
      claimsSample c u.store = true := Sys.exists_commit hready.1
  rw [claimsSample, Bool.and_eq_true, decide_eq_true_eq] at hclaims
  obtain ⟨hclaim, hone⟩ := hclaims
  have hchanged : u.store.db ≠ s.store.db := fun h => by
    rw [h, hready.2] at hone
    cases hone
  split at hclaim
  · rename_i request lease duration limit hc
    rw [Bool.and_eq_true, decide_eq_true_eq, decide_eq_true_eq] at hclaim
    obtain ⟨htenant, rfl⟩ := hclaim
    have hle := (tenant_concurrency hrun hstep).1 3 c request lease duration 1 rfl hc hchanged
    rw [htenant] at hle
    exact ⟨s, u, 3, c, hrun, hstep, hready.2, hone, hle⟩
  · cases hclaim

end Runs

end AegisPlatform
