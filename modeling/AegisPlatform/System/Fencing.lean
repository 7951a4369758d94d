import AegisPlatform.System.WorkItems

/-!
# Lease fencing

A fenced append checks its lease row and locks it in one transaction and commits
in another, and anything may run in between.  `lease_fencing` is what the lock,
the generations and the expiry checks come to, in every run.

* `opened_of_inflight` — a fenced transaction under way was opened by a check
  that passed.
* `inflight_between` — it was under way all the time in between.
-/

namespace AegisPlatform

open Interleave

/-! ## A fenced transaction from its check to its commit -/

section Inflight

variable {Calls : Platform → Op Outcome → Prop} {Meets : Platform → Action Txn → Prop}
  {s s' : Platform} {tx : ℕ} {t : Inflight}

/-- A transaction number that is not in use and was given out is not used again. -/
theorem run_closed (hrun : Run postgres Calls Meets s s')
    (h : tx < s.store.nextTx ∧ s.store.inflight.lookup tx = none) :
    tx < s'.store.nextTx ∧ s'.store.inflight.lookup tx = none := by
  refine hrun.keeps (I := fun w => tx < w.nextTx ∧ w.inflight.lookup tx = none)
    (fun c w w' r hw hexec => ?_) (fun c w hw => ?_) (fun w w' hw htick => ?_) h
  · obtain ⟨hnext, hinflight⟩ := World.inflight_exec hexec
    refine ⟨lt_of_lt_of_le hw.1 hnext, ?_⟩
    cases hlookup : w'.inflight.lookup tx with
    | none => rfl
    | some t =>
      rcases hinflight tx t hlookup with ⟨hold, -⟩ | ⟨-, htx, -⟩
      · rw [hw.2] at hold; cases hold
      · exact absurd hw.1 (by rw [htx]; exact lt_irrefl _)
  · obtain ⟨-, -, hnext, -, hinflight⟩ := World.abort_cases c w
    refine ⟨lt_of_lt_of_eq hw.1 hnext.symm, ?_⟩
    cases hlookup : (World.abort c w).1.inflight.lookup tx with
    | none => exact hlookup
    | some t =>
      have hold := hinflight tx t hlookup
      rw [hw.2] at hold
      cases hold
  · obtain ⟨clock, maintenance, locked, -, rfl⟩ := htick
    exact hw

/-- A transaction number that was given out keeps its transaction, if it has one. -/
theorem run_owned (hrun : Run postgres Calls Meets s s')
    (h : tx < s.store.nextTx ∧ ∀ t', s.store.inflight.lookup tx = some t' → t' = t) :
    tx < s'.store.nextTx ∧ ∀ t', s'.store.inflight.lookup tx = some t' → t' = t := by
  refine hrun.keeps (I := fun w => tx < w.nextTx ∧ ∀ t', w.inflight.lookup tx = some t' → t' = t)
    (fun c w w' r hw hexec => ?_) (fun c w hw => ?_) (fun w w' hw htick => ?_) h
  · obtain ⟨hnext, hinflight⟩ := World.inflight_exec hexec
    refine ⟨lt_of_lt_of_le hw.1 hnext, fun t' ht' => ?_⟩
    rcases hinflight tx t' ht' with ⟨hold, -⟩ | ⟨-, htx, -⟩
    · exact hw.2 t' hold
    · exact absurd hw.1 (by rw [htx]; exact lt_irrefl _)
  · obtain ⟨-, -, hnext, -, hinflight⟩ := World.abort_cases c w
    exact ⟨lt_of_lt_of_eq hw.1 hnext.symm, fun t' ht' => hw.2 t' (hinflight tx t' ht')⟩
  · obtain ⟨clock, maintenance, locked, -, rfl⟩ := htick
    exact hw

/-- A transaction that is under way at both ends of a run was under way at every
state in between. -/
theorem inflight_between {u : Platform} (hlt : tx < s.store.nextTx)
    (hs : s.store.inflight.lookup tx = some t) (hs' : s'.store.inflight.lookup tx = some t)
    (h₁ : Run postgres Calls Meets s u) (h₂ : Run postgres Calls Meets u s') :
    u.store.inflight.lookup tx = some t := by
  have howned := run_owned (t := t) h₁ ⟨hlt, fun t' ht' => by rw [hs] at ht'; cases ht'; rfl⟩
  cases hlookup : u.store.inflight.lookup tx with
  | none =>
    have hclosed := run_closed h₂ ⟨howned.1, hlookup⟩
    rw [hs'] at hclosed
    cases hclosed.2
  | some t' => rw [howned.2 t' hlookup]

/-- The check of a fenced transaction: the state before it, the state after it,
and the lease row it found. -/
structure Opened (Calls : Platform → Op Outcome → Prop) (f : Fence) (tx : ℕ)
    (before after : Platform) : Prop where
  step : ∃ i, Step postgres Calls before (.commit i (.openFenced f)) after
  held : ∃ row, before.store.db.workLeases.lookup f.key = some row ∧
    row.holds f.token f.generation = true ∧ before.store.clock < row.expiresAt
  underway : tx < after.store.nextTx ∧ ∃ t, after.store.inflight.lookup tx = some t ∧ t.fence = f

/-- A fenced transaction under way was opened by a check that passed. -/
theorem opened_of_inflight (h₀ : s.store.inflight = ∅) (hrun : Run postgres Calls Meets s s')
    (ht : s'.store.inflight.lookup tx = some t) : ∃ before after,
      Run postgres Calls Meets s before ∧ Opened Calls t.fence tx before after ∧
        Run postgres Calls Meets after s' ∧ after.store.inflight.lookup tx = some t := by
  induction hrun with
  | refl =>
    rw [h₀] at ht
    cases ht
  | @tail b u a hrun hstep hm ih =>
    -- whatever was under way before the step was opened earlier
    have hearlier : b.store.inflight.lookup tx = some t → ∃ before after,
        Run postgres Calls Meets s before ∧ Opened Calls t.fence tx before after ∧
          Run postgres Calls Meets after u ∧ after.store.inflight.lookup tx = some t := by
      intro hb
      obtain ⟨before, after, hbefore, hopen, hafter, hlookup⟩ := ih hb
      exact ⟨before, after, hbefore, hopen, hafter.tail hstep hm, hlookup⟩
    cases hstep with
    | call => exact hearlier ht
    | read => exact hearlier ht
    | @commit i c next w r hi hexec =>
      rcases (World.inflight_exec hexec).2 tx t ht with
        ⟨hold, -⟩ | ⟨rfl, htx, hlt, -, -, -, row, hrow, hholds, hlive⟩
      · exact hearlier hold
      · exact ⟨b, _, hrun, ⟨⟨i, .commit hi hexec⟩, ⟨row, hrow, hholds, hlive⟩,
          ⟨hlt, t, ht, rfl⟩⟩, .refl _, ht⟩
    | @abort i c next hi => exact hearlier ((World.abort_cases c b.store).2.2.2.2 tx t ht)
    | tick htick =>
      obtain ⟨clock, maintenance, locked, -, hw⟩ := htick
      rw [hw] at ht
      exact hearlier ht

end Inflight

/-! ## Endings -/

section Endings

variable {strict : Prop} {Calls : Platform → Op Outcome → Prop} {s u : Platform}

/-- A step that ends a lease which has not run out is the commit of a fenced
append that presents it. -/
theorem ended_by_holder (hs : s.store.Inv) (hf : s.Follows strict) {key : WorkKey}
    {row : WorkLeaseRow} {a : Action Txn} (hrow : s.store.db.workLeases.lookup key = some row)
    (hheld : row.released = none) (hlive : s.store.clock < row.expiresAt)
    (hstep : Step postgres Calls s a u)
    (hended : ∀ row', u.store.db.workLeases.lookup key = some row' →
      row'.holds row.token row.generation = false) :
    ∃ i tx app t, a = .commit i (.closeFenced tx app) ∧ s.store.inflight.lookup tx = some t ∧
      t.fence = ⟨key.1, key.2, row.token, row.generation⟩ := by
  have hholds : row.holds row.token row.generation = true :=
    WorkLeaseRow.holds_iff.2 ⟨rfl, rfl, hheld⟩
  -- where the database stays as it is the lease does too
  have hsame : u.store.db.workLeases.lookup key ≠ s.store.db.workLeases.lookup key := by
    intro heq
    have := hended row (heq.trans hrow)
    rw [hholds] at this
    cases this
  cases hstep with
  | call => exact absurd rfl hsame
  | read => exact absurd rfl hsame
  | @abort i c next hi =>
    have hdb : (World.abort c s.store).1.db = s.store.db := (World.abort_cases c s.store).1
    exact absurd (congrArg (fun db : Database => db.workLeases.lookup key) hdb) hsame
  | tick htick =>
    obtain ⟨clock, maintenance, locked, -, rfl⟩ := htick
    exact absurd rfl hsame
  | @commit i c next w r hi hexec =>
    have heff := World.effect hs (Sys.Follows.legit hf hi) hexec
    -- the step that ends the lease is of its item, and by its holder
    have hop : ∀ {k : WorkKey} {op : ItemOp},
        ItemStep s.store.clock op (s.store.db.view k) (w.db.view k) →
        (∀ k', k' ≠ k → w.db.view k' = s.store.db.view k') →
        key = k ∧ ∃ e attempt, op = .ending e attempt ∧ e.ofExpired = false := by
      intro k op hstep hframe
      by_cases hk : key = k
      · subst hk
        obtain ⟨e, attempt, rfl, hexp⟩ := hstep.ends_lease (hs.wf key) hrow hheld hended
        refine ⟨rfl, e, attempt, rfl, ?_⟩
        by_contra he
        exact absurd hlive (not_lt.2 (hexp (by simpa using he)))
      · exact absurd (World.lease_of_view (hframe key hk)) hsame
    cases heff with
    | quiet hview => exact absurd (World.lease_of_view (hview key)) hsame
    | unfenced _ hlease _ hstep hframe =>
      obtain ⟨-, e, attempt, hending, he⟩ := hop hstep hframe
      rw [WorkMutation.expired_of_unleased hlease hending] at he
      cases he
    | @fenced tx app t m lease reply _ ht _ _ hkey _ _ _ _ hstep hframe =>
      obtain ⟨hk, -⟩ := hop hstep hframe
      refine ⟨i, tx, app, t, rfl, ht, ?_⟩
      obtain ⟨row', hrow', hholds'⟩ := hs.held tx t ht
      rw [← hkey, ← hk, hrow] at hrow'
      cases hrow'
      obtain ⟨htoken, hgen, -⟩ := WorkLeaseRow.holds_iff.1 hholds'
      have hfkey : t.fence.key = key := hkey.symm.trans hk.symm
      rw [htoken, hgen, ← hfkey]
      rfl
    | model _ _ hstep hframe =>
      obtain ⟨-, e, attempt, hending, -⟩ := hop hstep hframe
      cases hending

end Endings

/-! ## The theorem -/

/-- **Lease fencing.**  In every run, with whatever leases callers present:
(a) a fenced append that commits passed its check on a held and unexpired lease,
and the lease it presented was held in every state from the check to the commit;
(b) what is appended after a generation has ended carries later generations only;
(c) generations never decrease along a stream; (d) a lease that has not run out
is ended only by a fenced append that presents it. -/
theorem lease_fencing {py : PyText} {tenants : List String} {quotas : Table String QuotaLimits}
    {clock : Timestamp} {s : Platform}
    (hrun : Run postgres (AnyCall py) (fun _ _ => True) (Platform.initial tenants quotas clock) s) :
    (∀ (i tx : ℕ) a next w reply, s.procs[i]? = some (.commit (.closeFenced tx a) next) →
      World.exec (.closeFenced tx a) s.store = some (w, .ok reply) →
      ∃ f before after, validateFence a.events f = .ok () ∧
        Run postgres (AnyCall py) (fun _ _ => True) (Platform.initial tenants quotas clock) before ∧
        Opened (AnyCall py) f tx before after ∧
        Run postgres (AnyCall py) (fun _ _ => True) after s ∧
        ∀ u, Run postgres (AnyCall py) (fun _ _ => True) after u →
          Run postgres (AnyCall py) (fun _ _ => True) u s →
          ∃ row, u.store.db.workLeases.lookup f.key = some row ∧
            row.holds f.token f.generation = true) ∧
    (∀ key g s', (s.store.db.view key).Ended g →
      Run postgres (AnyCall py) (fun _ _ => True) s s' →
      ∃ es, s'.store.db.stream key = s.store.db.stream key ++ es ∧
        ∀ e ∈ es, ∀ g' ∈ e.leaseGeneration?, g < g') ∧
    (∀ key, (s.store.db.stream key).Pairwise fun earlier later =>
      ∀ g ∈ earlier.leaseGeneration?, ∀ g' ∈ later.leaseGeneration?, g ≤ g') ∧
    ∀ key row a u, s.store.db.workLeases.lookup key = some row → row.released = none →
      s.store.clock < row.expiresAt → Step postgres (AnyCall py) s a u →
      (∀ row', u.store.db.workLeases.lookup key = some row' →
        row'.holds row.token row.generation = false) →
      ∃ i tx app t, a = .commit i (.closeFenced tx app) ∧ s.store.inflight.lookup tx = some t ∧
        t.fence = ⟨key.1, key.2, row.token, row.generation⟩ := by
  have hcalls := lawfully_anyCall py
  have hreach : ∀ {u : Platform}, Run postgres (AnyCall py) (fun _ _ => True)
      (Platform.initial tenants quotas clock) u → u.store.Inv ∧ u.Follows False := fun h =>
    run_inv hcalls h (World.inv_initial _ _ _) follows_initial
  obtain ⟨hinv, hf⟩ := hreach hrun
  refine ⟨fun i tx a next w reply hi hexec => ?_, fun key g s' hended hrun' => ?_, fun key => ?_,
    fun key row a u hrow hheld hlive hstep hended =>
      ended_by_holder hinv hf hrow hheld hlive hstep hended⟩
  · -- (a) the number it commits under was given out by a check of its own fence
    obtain ⟨-, f, hown, hunder⟩ := Sys.Follows.legit hf hi
    rcases World.exec_closeFenced hexec with ⟨-, -, herr⟩ | ⟨t, ht, -⟩
    · cases herr
    obtain rfl := hown t ht
    obtain ⟨before, after, hbefore, hopen, hafter, hlookup⟩ := opened_of_inflight rfl hrun ht
    refine ⟨t.fence, before, after, hunder.payload, hbefore, hopen, hafter, fun u hu hus => ?_⟩
    obtain ⟨j, hstep⟩ := hopen.step
    have hinflight := inflight_between hopen.underway.1 hlookup ht hu hus
    exact (hreach ((hbefore.tail hstep trivial).trans hu)).1.held tx t hinflight
  · -- (b) an ended generation stays ended, and what is appended is later
    refine (run_view_at (F := fun v => v.Ended g ∧ ∃ es,
      v.stream = s.store.db.stream key ++ es ∧ ∀ e ∈ es, ∀ g' ∈ e.leaseGeneration?, g < g')
      key hcalls ?_ hrun' hinv hf ⟨hended, [], (List.append_nil _).symm, fun _ h => (by cases h)⟩).2
    rintro now op v v' - ⟨hend, es, hes, hlater⟩ hstep
    obtain ⟨hend', es', hes', hlater'⟩ := hstep.ended hend
    refine ⟨hend', es ++ es', by rw [hes', hes, List.append_assoc], fun e he => ?_⟩
    rcases List.mem_append.1 he with he | he
    · exact hlater e he
    · exact hlater' e he
  · -- (c)
    exact run_view_at (F := ItemView.Sorted) key hcalls
      (fun hv hs hstep => hstep.sorted hv hs) hrun (World.inv_initial _ _ _) follows_initial
      List.Pairwise.nil

/-- Does the fifth operation commit a fenced append that is accepted? -/
def startCommits (s : Platform) : Bool :=
  match (s.procs[4]? : Option (Op Outcome)) with
  | some (.commit (.closeFenced tx a) _) =>
    match World.exec (.closeFenced tx a) s.store with
    | some (_, .ok _) => true
    | _ => false
  | _ => false

/-- A worker about to commit the start of the item it claimed: its check is
behind it, and the lease it presented has been held since. -/
theorem lease_fencing_start : ∃ (s : Platform) (tx : ℕ) (a : Append) (f : Fence)
    (before after : Platform),
    Run postgres (AnyCall sampleText) (fun _ _ => True) samplePlatform s ∧
    (∃ w reply, World.exec (.closeFenced tx a) s.store = some (w, .ok reply)) ∧
    validateFence a.events f = .ok () ∧ Opened (AnyCall sampleText) f tx before after ∧
    ∃ row, s.store.db.workLeases.lookup f.key = some row ∧
      row.holds f.token f.generation = true := by
  obtain ⟨s, hrun, hready⟩ := exists_run_any (s := samplePlatform) sampleText
    (claimedSchedule ++ [.call (.start sampleContext sampleDelivery sampleLease 0 (sampleIds 30)),
      .go 4, .go 4])
    startCommits meets_of_anyTest (by decide +kernel)
  unfold startCommits at hready
  split at hready
  · rename_i tx a next hi
    split at hready
    · rename_i w reply hexec
      obtain ⟨f, before, after, hfence, -, hopen, hafter, hheld⟩ :=
        (lease_fencing hrun).1 4 tx a next w reply hi hexec
      exact ⟨s, tx, a, f, before, after, hrun, ⟨w, reply, hexec⟩, hfence, hopen,
        hheld s hafter (.refl s)⟩
    · cases hready
  · cases hready

end AegisPlatform
