import AegisPlatform.Gateway.Postgres
import AegisPlatform.System.Transactions

/-!
# The invariant of the platform

What the operations are known to commit (`Legit`), what holds of the database
and of the fenced transactions under way (`World.Inv`), and what a legitimate
transaction does to the work items (`Effect`): nothing, or one `ItemStep` of one
item.

* `World.effect` — every legitimate transaction has one of the effects.
* `World.Inv.exec`, `World.Inv.abort`, `World.Inv.tick` — the invariant is kept.
* `Stable` — facts no move of the platform changes, and the stable facts the
  operations rest on: `stable_known`, `stable_maxAttempts`, `stable_fence`.
-/

namespace AegisPlatform

open Fallible Interleave

/-! ## What the operations commit -/

namespace GatewayMutation

/-- The lease a mutation is made under. -/
def lease : GatewayMutation → WorkLease
  | reserve _ lease .. | charge _ lease .. | release _ lease .. => lease

/-- The tenant whose rows a mutation writes. -/
def tenantId : GatewayMutation → String
  | reserve request .. | charge request .. | release request .. => request.tenantId

end GatewayMutation

/-- An append outside a fence: a work mutation that presents no lease, with the
events that go with it. -/
structure Unfenced (a : Append) (m : WorkMutation) (w : World) : Prop where
  mutation : a.mutation = .work m
  lease : m.lease? = none
  allOf : AllOf m.key a.events
  batch : Batch a.events m.types m.generation
  sound : m.Sound w.db
  register : m.op = .register → a.expectedVersion = 0 ∧ ∃ message ∈ a.outbox,
    JsonValue.text? message.payload "work_id" = some m.key.2.str

/-- An append under the fence `f`: its events carry the fence, and its mutation
is made under the lease the fence presents, of which the caller knows `P`. -/
structure UnderFence (P : WorkLease → World → Prop) (f : Fence) (a : Append) (w : World) :
    Prop where
  payload : validateFence a.events f = .ok ()
  allOf : AllOf f.key a.events
  work : ∀ m, a.mutation = .work m → ∃ lease, m.lease? = some lease ∧ m.key = f.key ∧
    lease.key = f.key ∧ lease.token = f.token ∧ lease.generation = f.generation ∧
    Batch a.events m.types m.generation ∧ P lease w
  model : (∀ m, a.mutation ≠ .work m) →
    ∀ e ∈ a.events, e.isWork = false ∧ e.leaseGeneration? = some f.generation
  gateway : ∀ m, a.mutation = .gateway m → m.tenantId = f.tenantId ∧
    m.lease.workId = f.workId ∧ m.lease.token = f.token ∧ m.lease.generation = f.generation

/-- The transactions the operations commit, when callers know `P` of the leases
they present. -/
def Legit (P : WorkLease → World → Prop) (c : Txn) (w : World) : Prop :=
  match c with
  | .append a => ∃ m, Unfenced a m w
  | .closeFenced tx a => tx < w.nextTx ∧
    ∃ f, (∀ t, w.inflight.lookup tx = some t → t.fence = f) ∧ UnderFence P f a w
  | _ => True

/-! ## The invariant -/

/-- The invariant of the database and of the fenced transactions under way. -/
structure World.Inv (w : World) : Prop where
  heads : w.db.HeadsAgree
  wf : ∀ key, (w.db.view key).Wf
  tx_lt : ∀ tx t, w.inflight.lookup tx = some t → tx < w.nextTx
  /-- A fenced transaction holds the lease it presents. -/
  held : ∀ tx t, w.inflight.lookup tx = some t →
    ∃ row, w.db.workLeases.lookup t.fence.key = some row ∧
      row.holds t.fence.token t.fence.generation = true
  /-- Two fenced transactions are not on the same item. -/
  alone : ∀ tx tx' t t', w.inflight.lookup tx = some t → w.inflight.lookup tx' = some t' →
    t.fence.key = t'.fence.key → tx = tx'

/-- A platform no operation has run on: tenants and quotas are configured. -/
def World.initial (tenants : List String) (quotas : Table String QuotaLimits)
    (clock : Timestamp) : World :=
  { db := { tenants := tenants, quotas := quotas }, clock := clock }

theorem World.inv_initial (tenants : List String) (quotas : Table String QuotaLimits)
    (clock : Timestamp) : (World.initial tenants quotas clock).Inv where
  heads := fun _ _ => rfl
  wf := fun _ => ItemView.wf_empty
  tx_lt := fun _ _ h => (by cases h)
  held := fun _ _ h => (by cases h)
  alone := fun _ _ _ _ h => (by cases h)

/-! ## What a legitimate transaction does -/

/-- The effect of a transaction that was answered with `r`: no item changes, or
one item makes one step. -/
inductive Effect (P : WorkLease → World → Prop) (w : World) :
    Txn → Except Raised Reply → World → Prop
  | quiet {c : Txn} {r : Except Raised Reply} {w' : World} :
      (∀ key, w'.db.view key = w.db.view key) → Effect P w c r w'
  /-- An append outside a fence commits. -/
  | unfenced {a : Append} {m : WorkMutation} {reply : Reply} {w' : World} :
      a.mutation = .work m → m.lease? = none → (∀ key ∈ a.mutation.locks, w.locked key = false) →
      ItemStep w.clock m.op (w.db.view m.key) (w'.db.view m.key) →
      (∀ k, k ≠ m.key → w'.db.view k = w.db.view k) →
      Effect P w (.append a) (.ok reply) w'
  /-- A fenced append of a worker commits. -/
  | fenced {tx : ℕ} {a : Append} {t : Inflight} {m : WorkMutation} {lease : WorkLease}
      {reply : Reply} {w' : World} :
      w.inflight.lookup tx = some t → a.mutation = .work m → m.lease? = some lease →
      m.key = t.fence.key → lease.key = t.fence.key → lease.token = t.fence.token →
      lease.generation = t.fence.generation → P lease w →
      ItemStep w.clock m.op (w.db.view m.key) (w'.db.view m.key) →
      (∀ k, k ≠ m.key → w'.db.view k = w.db.view k) →
      Effect P w (.closeFenced tx a) (.ok reply) w'
  /-- A fenced append of the gateway commits. -/
  | model {tx : ℕ} {a : Append} {t : Inflight} {reply : Reply} {w' : World} :
      w.inflight.lookup tx = some t → (∀ m, a.mutation ≠ .work m) →
      ItemStep w.clock .model (w.db.view t.fence.key) (w'.db.view t.fence.key) →
      (∀ k, k ≠ t.fence.key → w'.db.view k = w.db.view k) →
      Effect P w (.closeFenced tx a) (.ok reply) w'

theorem Effect.cases {P : WorkLease → World → Prop} {w w' : World} {c : Txn}
    {r : Except Raised Reply} (h : Effect P w c r w') (key : WorkKey) :
    w'.db.view key = w.db.view key ∨
      ∃ op, ItemStep w.clock op (w.db.view key) (w'.db.view key) := by
  have hstep : ∀ {k : WorkKey} {op : ItemOp},
      ItemStep w.clock op (w.db.view k) (w'.db.view k) →
      (∀ k', k' ≠ k → w'.db.view k' = w.db.view k') →
      w'.db.view key = w.db.view key ∨
        ∃ op, ItemStep w.clock op (w.db.view key) (w'.db.view key) := by
    intro k op hstep hframe
    by_cases hk : key = k
    · subst hk; exact Or.inr ⟨op, hstep⟩
    · exact Or.inl (hframe key hk)
  cases h with
  | quiet hsame => exact Or.inl (hsame key)
  | unfenced _ _ _ h hframe => exact hstep h hframe
  | fenced _ _ _ _ _ _ _ _ h hframe => exact hstep h hframe
  | model _ _ h hframe => exact hstep h hframe

theorem WorkMutation.generation_of_lease {m : WorkMutation} {lease : WorkLease}
    (h : m.lease? = some lease) : m.generation = some lease.generation ∧ ∀ db, m.Sound db := by
  cases m <;> first | (cases h; done) | skip
  all_goals
    rw [lease?, Option.some.injEq] at h
    subst h
    exact ⟨rfl, fun _ => trivial⟩

/-- The view of an item after an append whose mutation leaves the events alone. -/
theorem Appended.view {key : WorkKey} {a : Append} {es : List EventEnvelope}
    {db db₁ db' : Database} (h : Appended key a es db db₁) (hes : AllOf key a.events)
    (hevents : db'.events = db₁.events) (k : WorkKey) :
    db'.view k = db'.viewWith k (db.stream k ++ if k = key then es else []) := by
  unfold Database.view
  rw [← h.stream hes k]
  unfold Database.stream
  rw [hevents]

namespace World

variable {P : WorkLease → World → Prop} {w w' : World} {c : Txn} {r : Except Raised Reply}

theorem effect_unfenced {a : Append} {m : WorkMutation} {db' : Database} {reply : Reply}
    (hw : w.Inv) (hl : Unfenced a m w) (hrun : w.runAppend a w.clock = .ok (db', reply)) :
    ItemStep w.clock m.op (w.db.view m.key) (db'.view m.key) ∧
      ∀ k, k ≠ m.key → db'.view k = w.db.view k := by
  obtain ⟨es, db₁, happ, hmut, -⟩ := runAppend_eq_ok hrun hl.allOf
  rw [hl.mutation] at hmut
  have hframe := WorkMutation.frame hmut
  have hsound : m.Sound db₁ := by
    rw [happ.rest]
    have hs := hl.sound
    cases m <;> exact hs
  have hnew : m.op = .register → w.db.stream m.key = [] := fun hop =>
    hw.heads.stream_eq_nil (happ.version.trans (hl.register hop).1)
  have hlease : ∀ lease ∈ m.lease?, lease.key = m.key ∧
      ∃ row, db₁.workLeases.lookup m.key = some row ∧
        row.holds lease.token lease.generation = true := by
    rw [hl.lease]
    exact fun _ h => (by cases h)
  have hstep := WorkMutation.itemStep hmut hsound hlease hnew (happ.batch hl.batch)
  constructor
  · rw [happ.view hl.allOf hframe.events, if_pos rfl]
    rw [happ.viewWith] at hstep
    exact hstep
  · intro k hk
    rw [happ.view hl.allOf hframe.events, if_neg hk, List.append_nil, hframe.viewWith hk,
      happ.viewWith]
    rfl

theorem effect_fenced {f : Fence} {a : Append} {m : WorkMutation} {db' : Database}
    {reply : Reply} {startedAt : Timestamp} {row : WorkLeaseRow} (hl : UnderFence P f a w)
    (hm : a.mutation = .work m) (hrow : w.db.workLeases.lookup f.key = some row)
    (hholds : row.holds f.token f.generation = true)
    (hrun : w.runAppend a startedAt = .ok (db', reply)) :
    ItemStep w.clock m.op (w.db.view m.key) (db'.view m.key) ∧
      ∀ k, k ≠ m.key → db'.view k = w.db.view k := by
  obtain ⟨lease, hlease, hkey, hleasekey, htoken, hgen, hbatch, -⟩ := hl.work m hm
  have hall : AllOf m.key a.events := hkey ▸ hl.allOf
  obtain ⟨es, db₁, happ, hmut, -⟩ := runAppend_eq_ok hrun hall
  rw [hm] at hmut
  have hframe := WorkMutation.frame hmut
  have hnew : m.op = .register → w.db.stream m.key = [] := by
    intro hop
    cases m <;> first | (cases hlease; done) | skip
    all_goals cases hop
  have hheld : ∀ lease' ∈ m.lease?, lease'.key = m.key ∧
      ∃ row, db₁.workLeases.lookup m.key = some row ∧
        row.holds lease'.token lease'.generation = true := by
    intro lease' hlease'
    rw [hlease] at hlease'
    cases hlease'
    refine ⟨hleasekey.trans hkey.symm, row, ?_, by rw [htoken, hgen]; exact hholds⟩
    rw [hkey, happ.rest]
    exact hrow
  have hstep := WorkMutation.itemStep hmut ((WorkMutation.generation_of_lease hlease).2 db₁) hheld
    hnew (happ.batch hbatch)
  constructor
  · rw [happ.view hall hframe.events, if_pos rfl]
    rw [happ.viewWith] at hstep
    exact hstep
  · intro k hk
    rw [happ.view hall hframe.events, if_neg hk, List.append_nil, hframe.viewWith hk,
      happ.viewWith]
    rfl

theorem effect_model {f : Fence} {a : Append} {db' : Database} {reply : Reply}
    {startedAt : Timestamp} {row : WorkLeaseRow} (hl : UnderFence P f a w)
    (hm : ∀ m, a.mutation ≠ .work m) (hrow : w.db.workLeases.lookup f.key = some row)
    (hholds : row.holds f.token f.generation = true)
    (hrun : w.runAppend a startedAt = .ok (db', reply)) :
    ItemStep w.clock .model (w.db.view f.key) (db'.view f.key) ∧
      ∀ k, k ≠ f.key → db'.view k = w.db.view k := by
  obtain ⟨es, db₁, happ, hmut, -⟩ := runAppend_eq_ok hrun hl.allOf
  obtain ⟨-, hgen, hrel⟩ := WorkLeaseRow.holds_iff.1 hholds
  have hrest : db' = { db₁ with reservations := db'.reservations, usage := db'.usage } := by
    cases hmutation : a.mutation with
    | none =>
      rw [hmutation] at hmut
      cases hmut
      rfl
    | work m => exact absurd hmutation (hm m)
    | gateway m =>
      rw [hmutation] at hmut
      exact GatewayMutation.run_rest hmut
  have hview : ∀ k stream, db'.viewWith k stream = w.db.viewWith k stream := by
    intro k stream
    rw [← happ.viewWith, hrest]
    rfl
  have hevents : db'.events = db₁.events := by rw [hrest]
  have hstored : ∀ e ∈ es, e.isWork = false ∧ e.leaseGeneration? = some row.generation := by
    intro e he
    obtain ⟨recordedAt, position, rfl⟩ := happ.stored
    obtain ⟨e₀, he₀, -, -, htype, hpay⟩ := EventEnvelope.mem_storeAll he
    obtain ⟨hwork, hcarries⟩ := hl.model hm e₀ he₀
    unfold EventEnvelope.isWork EventEnvelope.leaseGeneration? at *
    rw [htype, hpay, hgen]
    exact ⟨hwork, hcarries⟩
  constructor
  · rw [happ.view hl.allOf hevents, if_pos rfl, hview]
    unfold Database.view Database.viewWith
    rw [hrow]
    exact .model hrel (fun e he => (hstored e he).1) fun e he => (hstored e he).2
  · intro k hk
    rw [happ.view hl.allOf hevents, if_neg hk, List.append_nil, hview]
    rfl

/-- **What a legitimate transaction does.** -/
theorem effect (hw : w.Inv) (hl : Legit P c w) (h : exec c w = some (w', r)) :
    Effect P w c r w' := by
  cases c with
  | append a =>
    obtain ⟨m, hm⟩ := hl
    rcases exec_append h with ⟨rfl, -⟩ | ⟨db', reply, hlocks, hrun, rfl, rfl⟩
    · exact .quiet fun _ => rfl
    · obtain ⟨hstep, hframe⟩ := effect_unfenced hw hm hrun
      exact .unfenced hm.mutation hm.lease hlocks hstep hframe
  | openFenced f =>
    rcases exec_openFenced h with ⟨rfl, -⟩ | ⟨row, -, -, -, -, rfl, -⟩ <;>
      exact .quiet fun _ => rfl
  | closeFenced tx a =>
    obtain ⟨-, f, hf, hunder⟩ := hl
    rcases exec_closeFenced h with ⟨-, rfl, -⟩ | ⟨t, ht, ⟨e, -, -, rfl⟩ | ⟨db', reply, hrun, rfl, rfl⟩⟩
    · exact .quiet fun _ => rfl
    · exact .quiet fun _ => rfl
    · obtain rfl := hf t ht
      obtain ⟨row, hrow, hholds⟩ := hw.held tx t ht
      cases hmutation : a.mutation with
      | work m =>
        obtain ⟨lease, hlease, hkey, hleasekey, htoken, hgen, -, hP⟩ := hunder.work m hmutation
        obtain ⟨hstep, hframe⟩ := effect_fenced hunder hmutation hrow hholds hrun
        exact .fenced ht hmutation hlease hkey hleasekey htoken hgen hP hstep hframe
      | none =>
        have hm : ∀ m, a.mutation ≠ .work m := by rw [hmutation]; exact fun _ h => (by cases h)
        obtain ⟨hstep, hframe⟩ := effect_model hunder hm hrow hholds hrun
        exact .model ht hm hstep hframe
      | gateway m =>
        have hm : ∀ m, a.mutation ≠ .work m := by rw [hmutation]; exact fun _ h => (by cases h)
        obtain ⟨hstep, hframe⟩ := effect_model hunder hm hrow hholds hrun
        exact .model ht hm hstep hframe
  | _ =>
    obtain ⟨outbox, approvals, rfl⟩ := exec_other rfl h
    exact .quiet fun _ => rfl

/-! ## The invariant is kept -/

theorem not_locked {key : WorkKey} (h : w.locked key = false) {tx : ℕ} {t : Inflight}
    (ht : w.inflight.lookup tx = some t) : t.fence.key ≠ key := by
  intro heq
  have hany := List.any_eq_false.1 h (tx, t) (Table.mem_rows.2 ht)
  simp [heq] at hany

end World

/-- A mutation that presents no lease and locks none leaves the lease alone. -/
theorem WorkMutation.lease_eq {m : WorkMutation} {now : Timestamp} {v v' : ItemView}
    (hlease : m.lease? = none) (hlocks : (Mutation.work m).locks = none)
    (h : ItemStep now m.op v v') : v'.lease = v.lease := by
  cases m with
  | insertWork => cases h; rfl
  | markProjection => cases h; rfl
  | cancelProjection request status at' =>
    rw [op] at h
    split at h <;> (cases h; rfl)
  | redriveProjection => cases h; rfl
  | requeueProjection => cases h; rfl
  | claimProjection => cases hlocks
  | expireProjection => cases hlocks
  | _ => cases hlease

namespace World

variable {P : WorkLease → World → Prop} {w w' : World} {c : Txn} {r : Except Raised Reply}

theorem lease_of_view {db db' : Database} {key : WorkKey} (h : db'.view key = db.view key) :
    db'.workLeases.lookup key = db.workLeases.lookup key := congrArg ItemView.lease h

theorem headsAgree_runAppend {a : Append} {startedAt : Timestamp} {db' : Database} {reply : Reply}
    {key : WorkKey} (hw : w.Inv) (hrun : w.runAppend a startedAt = .ok (db', reply))
    (hall : AllOf key a.events) : db'.HeadsAgree := by
  obtain ⟨es, db₁, happ, hmut, -⟩ := runAppend_eq_ok hrun hall
  have h₁ := happ.headsAgree hall hw.heads
  cases hmutation : a.mutation with
  | none =>
    rw [hmutation] at hmut
    cases hmut
    exact h₁
  | work m =>
    rw [hmutation] at hmut
    have hframe := WorkMutation.frame hmut
    exact h₁.congr hframe.heads hframe.events
  | gateway m =>
    rw [hmutation] at hmut
    have hrest := GatewayMutation.run_rest hmut
    exact h₁.congr (by rw [hrest]) (by rw [hrest])

theorem headsAgree_exec (hw : w.Inv) (hl : Legit P c w) (h : exec c w = some (w', r)) :
    w'.db.HeadsAgree := by
  cases c with
  | append a =>
    obtain ⟨m, hm⟩ := hl
    rcases exec_append h with ⟨rfl, -⟩ | ⟨db', reply, -, hrun, rfl, -⟩
    · exact hw.heads
    · exact headsAgree_runAppend hw hrun hm.allOf
  | openFenced f =>
    rcases exec_openFenced h with ⟨rfl, -⟩ | ⟨row, -, -, -, -, rfl, -⟩ <;> exact hw.heads
  | closeFenced tx a =>
    obtain ⟨-, f, -, hunder⟩ := hl
    rcases exec_closeFenced h with ⟨-, rfl, -⟩ | ⟨t, -, ⟨e, -, -, rfl⟩ | ⟨db', reply, hrun, -, rfl⟩⟩
    · exact hw.heads
    · exact hw.heads
    · exact headsAgree_runAppend hw hrun hunder.allOf
  | _ =>
    obtain ⟨outbox, approvals, rfl⟩ := exec_other rfl h
    exact hw.heads.congr rfl rfl

/-- The fenced transactions under way after a transaction: those there were, or
the one that was opened, on an item no other is on. -/
theorem inflight_exec (h : exec c w = some (w', r)) :
    w.nextTx ≤ w'.nextTx ∧ ∀ tx t, w'.inflight.lookup tx = some t →
      (w.inflight.lookup tx = some t ∧ ∀ a, c ≠ .closeFenced tx a) ∨
      (c = .openFenced t.fence ∧ tx = w.nextTx ∧ tx < w'.nextTx ∧ w'.db = w.db ∧
        w.locked t.fence.key = false ∧ r = .ok { tx := tx } ∧
        ∃ row, w.db.workLeases.lookup t.fence.key = some row ∧
          row.holds t.fence.token t.fence.generation = true ∧ w.clock < row.expiresAt) := by
  cases c with
  | append a =>
    rcases exec_append h with ⟨rfl, -⟩ | ⟨db', reply, -, -, rfl, -⟩ <;>
      exact ⟨le_rfl, fun tx t ht => Or.inl ⟨ht, fun _ h => (by cases h)⟩⟩
  | openFenced f =>
    rcases exec_openFenced h with ⟨rfl, -⟩ | ⟨row, hrow, hholds, hlive, hlocked, rfl, rfl⟩
    · exact ⟨le_rfl, fun tx t ht => Or.inl ⟨ht, fun _ h => (by cases h)⟩⟩
    · refine ⟨Nat.le_succ _, fun tx t ht => ?_⟩
      dsimp only at ht
      rw [Table.lookup_upsert] at ht
      by_cases htx : tx = w.nextTx
      · rw [if_pos htx, Option.some.injEq] at ht
        subst ht htx
        exact Or.inr ⟨rfl, rfl, Nat.lt_succ_self _, rfl, hlocked, rfl, row, hrow, hholds, hlive⟩
      · rw [if_neg htx] at ht
        exact Or.inl ⟨ht, fun _ h => (by cases h)⟩
  | closeFenced tx₀ a =>
    have hdelete : ∀ tx t, (w.inflight.delete tx₀).lookup tx = some t →
        w.inflight.lookup tx = some t ∧ ∀ a', Txn.closeFenced tx₀ a ≠ .closeFenced tx a' := by
      intro tx t ht
      rw [Table.lookup_delete] at ht
      by_cases htx : tx = tx₀
      · rw [if_pos htx] at ht; cases ht
      · rw [if_neg htx] at ht
        exact ⟨ht, fun _ h => htx (by cases h; rfl)⟩
    rcases exec_closeFenced h with ⟨hnone, rfl, -⟩ | ⟨t₀, -, ⟨e, -, -, rfl⟩ | ⟨db', reply, -, -, rfl⟩⟩
    · refine ⟨le_rfl, fun tx t ht => Or.inl ⟨ht, fun _ h => ?_⟩⟩
      cases h
      rw [hnone] at ht
      cases ht
    · exact ⟨le_rfl, fun tx t ht => Or.inl (hdelete tx t ht)⟩
    · exact ⟨le_rfl, fun tx t ht => Or.inl (hdelete tx t ht)⟩
  | _ =>
    obtain ⟨outbox, approvals, rfl⟩ := exec_other rfl h
    exact ⟨le_rfl, fun tx t ht => Or.inl ⟨ht, fun _ h => (by cases h)⟩⟩

/-- A transaction leaves the leases of the other fenced transactions alone. -/
theorem lease_kept (hw : w.Inv) (heff : Effect P w c r w') {tx : ℕ} {t : Inflight}
    (ht : w.inflight.lookup tx = some t) (hc : ∀ a, c ≠ .closeFenced tx a) :
    w'.db.workLeases.lookup t.fence.key = w.db.workLeases.lookup t.fence.key := by
  cases heff with
  | quiet hsame => exact lease_of_view (hsame _)
  | @unfenced a m _ _ hm hlease hlocks hstep hframe =>
    by_cases hk : t.fence.key = m.key
    · rw [hk]
      refine WorkMutation.lease_eq hlease ?_ hstep
      -- a claim or an expiry of the item would have had to wait
      cases hnone : (Mutation.work m).locks with
      | none => rfl
      | some key =>
        have hkey : key = m.key := by
          cases m <;> first | (cases hnone; done) | (cases hnone; rfl)
        have hfree := hlocks key (by rw [hm, hnone]; rfl)
        exact absurd (hk.trans hkey.symm) (not_locked hfree ht)
    · exact lease_of_view (hframe _ hk)
  | @fenced tx' a t' m _ _ _ ht' _ _ hkey _ _ _ _ _ hframe =>
    refine lease_of_view (hframe _ fun hk => ?_)
    cases hw.alone tx tx' t t' ht ht' (hk.trans hkey)
    exact hc a rfl
  | @model tx' a t' _ _ ht' _ _ hframe =>
    refine lease_of_view (hframe _ fun hk => ?_)
    cases hw.alone tx tx' t t' ht ht' hk
    exact hc a rfl

/-- **The invariant is kept by every legitimate transaction.** -/
theorem Inv.exec (hw : w.Inv) (hl : Legit P c w) (h : exec c w = some (w', r)) : w'.Inv := by
  have heff := effect hw hl h
  obtain ⟨hnext, hinflight⟩ := inflight_exec h
  constructor
  · exact headsAgree_exec hw hl h
  · intro key
    rcases heff.cases key with hsame | ⟨op, hstep⟩
    · rw [hsame]; exact hw.wf key
    · exact hstep.wf (hw.wf key)
  · intro tx t ht
    rcases hinflight tx t ht with ⟨ht₀, -⟩ | ⟨-, -, hlt, -⟩
    · exact lt_of_lt_of_le (hw.tx_lt tx t ht₀) hnext
    · exact hlt
  · intro tx t ht
    rcases hinflight tx t ht with ⟨ht₀, hc⟩ | ⟨-, -, -, hdb, -, -, row, hrow, hholds, -⟩
    · rw [lease_kept hw heff ht₀ hc]
      exact hw.held tx t ht₀
    · rw [hdb]
      exact ⟨row, hrow, hholds⟩
  · intro tx tx' t t' ht ht' hkey
    rcases hinflight tx t ht with ⟨ht₀, -⟩ | ⟨hopen, htx, -, -, hlocked, -⟩ <;>
      rcases hinflight tx' t' ht' with ⟨ht₀', -⟩ | ⟨hopen', htx', -, -, hlocked', -⟩
    · exact hw.alone tx tx' t t' ht₀ ht₀' hkey
    · exact absurd hkey (not_locked hlocked' ht₀)
    · exact absurd hkey.symm (not_locked hlocked ht₀')
    · rw [htx, htx']

/-- Giving a transaction up only ends its own lock. -/
theorem abort_cases (c : Txn) (w : World) : (abort c w).1.db = w.db ∧
    (abort c w).1.clock = w.clock ∧ (abort c w).1.nextTx = w.nextTx ∧
    (abort c w).2 = .error .transientStorageError ∧
    ∀ tx t, (abort c w).1.inflight.lookup tx = some t → w.inflight.lookup tx = some t := by
  cases c with
  | closeFenced tx₀ a =>
    refine ⟨rfl, rfl, rfl, rfl, fun tx t ht => ?_⟩
    dsimp only [abort] at ht
    rw [Table.lookup_delete] at ht
    split at ht
    · cases ht
    · exact ht
  | _ => exact ⟨rfl, rfl, rfl, rfl, fun _ _ ht => ht⟩

theorem Inv.abort (hw : w.Inv) (c : Txn) : (World.abort c w).1.Inv := by
  obtain ⟨hdb, -, hnext, -, hinflight⟩ := abort_cases c w
  constructor
  · rw [hdb]; exact hw.heads
  · rw [hdb]; exact hw.wf
  · intro tx t ht
    rw [hnext]
    exact hw.tx_lt tx t (hinflight tx t ht)
  · intro tx t ht
    rw [hdb]
    exact hw.held tx t (hinflight tx t ht)
  · exact fun tx tx' t t' ht ht' => hw.alone tx tx' t t' (hinflight tx t ht) (hinflight tx' t' ht')

theorem Inv.tick (hw : w.Inv) (h : World.tick w w') : w'.Inv := by
  obtain ⟨clock, maintenance, locked, -, rfl⟩ := h
  exact ⟨hw.heads, hw.wf, hw.tx_lt, hw.held, hw.alone⟩

/-! ## Stable facts -/

theorem Inv.move (hw : w.Inv) (h : Move postgres (Legit P) w w') : w'.Inv := by
  rcases h with ⟨c, r, hc, hexec⟩ | ⟨c, rfl⟩ | htick
  · exact hw.exec hc hexec
  · exact hw.abort c
  · exact hw.tick htick

/-- No move of the platform makes the fact false. -/
def Stable (P : WorkLease → World → Prop) (F : World → Prop) : Prop :=
  ∀ w w', w.Inv → F w → Move postgres (Legit P) w w' → F w'

theorem Stable.moves {F : World → Prop} (hF : Stable P F) (hw : w.Inv) (hf : F w)
    (h : Moves postgres (Legit P) w w') : w'.Inv ∧ F w' :=
  h.keeps (I := fun w => w.Inv ∧ F w)
    (fun _ _ hI hmove => ⟨hI.1.move hmove, hF _ _ hI.1 hI.2 hmove⟩) ⟨hw, hf⟩

theorem Inv.moves (hw : w.Inv) (h : Moves postgres (Legit P) w w') : w'.Inv :=
  h.keeps (fun _ _ hI hmove => hI.move hmove) hw

/-- What every step of an item keeps, every move of the platform keeps. -/
theorem stable_view {F : ItemView → Prop} (key : WorkKey)
    (hF : ∀ {now op v v'}, v.Wf → F v → ItemStep now op v v' → F v') :
    Stable P fun w => F (w.db.view key) := by
  intro w w' hw hf hmove
  rcases hmove with ⟨c, r, hc, hexec⟩ | ⟨c, rfl⟩ | ⟨clock, maintenance, locked, -, rfl⟩
  · rcases (effect hw hc hexec).cases key with hsame | ⟨op, hstep⟩
    · rw [hsame]; exact hf
    · exact hF (hw.wf key) hf hstep
  · exact (abort_cases c w).1 ▸ hf
  · exact hf

theorem stable_known (key : WorkKey) (g attempt : ℤ) :
    Stable P fun w => (w.db.view key).Known g attempt :=
  stable_view key fun hv hk hstep => hstep.known hv hk

theorem stable_maxAttempts (key : WorkKey) (n : ℤ) :
    Stable P fun w => ∃ item ∈ w.db.workItems.lookup key, item.maxAttempts = n := by
  refine stable_view (F := fun v => ∃ item ∈ v.item, item.maxAttempts = n) key ?_
  rintro now op v v' - ⟨item, hitem, rfl⟩ hstep
  exact hstep.maxAttempts_eq item hitem

/-- A transaction number that has been given out belongs to one fence for good. -/
theorem stable_fence (tx : ℕ) (f : Fence) : Stable P fun w =>
    tx < w.nextTx ∧ ∀ t, w.inflight.lookup tx = some t → t.fence = f := by
  rintro w w' - ⟨hlt, hf⟩ (⟨c, r, -, hexec⟩ | ⟨c, rfl⟩ | ⟨clock, maintenance, locked, -, rfl⟩)
  · obtain ⟨hnext, hinflight⟩ := inflight_exec hexec
    refine ⟨lt_of_lt_of_le hlt hnext, fun t ht => ?_⟩
    rcases hinflight tx t ht with ⟨ht₀, -⟩ | ⟨-, rfl, -⟩
    · exact hf t ht₀
    · exact absurd hlt (lt_irrefl _)
  · obtain ⟨-, -, hnext, -, hinflight⟩ := abort_cases c w
    exact ⟨lt_of_lt_of_eq hlt hnext.symm, fun t ht => hf t (hinflight tx t ht)⟩
  · exact ⟨hlt, hf⟩

end World

end AegisPlatform
