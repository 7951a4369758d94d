import AegisPlatform.System.WorkItems

/-!
# Queued items and their outbox messages

The work repository and the publisher never update each other's rows.  What
ties them together is that an item is registered with a message that names it,
and that nothing removes a message or renames it.

* `World.outboxKept` — no transaction removes a message, and a publisher's
  verdict alone makes it a dead letter.
* `queued_deliverable` — a registered item has a message in every run, and one
  that can be sent in every run in which none of its messages was made a dead
  letter.
-/

namespace AegisPlatform

open Interleave

namespace World

variable {P : WorkLease → World → Prop} {w w' : World} {c : Txn} {r : Except Raised Reply}

/-! ## Messages stay -/

/-- A message stays, names the same item, and is a dead letter only if the
transaction made it one. -/
def OutboxKept (c : Txn) (t t' : Table (String × UUID) OutboxRow) : Prop :=
  ∀ k row, t.lookup k = some row → ∃ row', t'.lookup k = some row' ∧
    row'.payload = row.payload ∧
    (row.state.isAlive = true → row'.state.isAlive = true ∨ c.DeadLetters k row)

/-- **No transaction removes a message or renames its item**, and only a
publisher's verdict makes it a dead letter. -/
theorem outboxKept (h : exec c w = some (w', r)) : OutboxKept c w.db.outbox w'.db.outbox := by
  intro k row hrow
  have hstep := outboxStep h k
  rw [hrow] at hstep
  generalize w'.db.outbox.lookup k = row' at hstep
  cases hstep with
  | same => exact ⟨row, rfl, rfl, Or.inl⟩
  | redriven => exact ⟨_, rfl, rfl, fun _ => Or.inl rfl⟩
  | claimed => exact ⟨_, rfl, rfl, fun _ => Or.inl rfl⟩
  | published => exact ⟨_, rfl, rfl, fun _ => Or.inl rfl⟩
  | failed =>
    refine ⟨_, rfl, rfl, fun _ => ?_⟩
    by_cases hmax : row.maxAttempts ≤ row.attemptCount
    · exact Or.inr ⟨rfl, hmax⟩
    · simp only [hmax, if_false]
      exact Or.inl rfl
  | deadLettered => exact ⟨_, rfl, rfl, fun _ => Or.inr rfl⟩

/-- The messages of an append are there afterwards and can be sent. -/
theorem outbox_runAppend {a : Append} {startedAt : Timestamp} {db' : Database} {reply : Reply}
    {key : WorkKey} (hall : AllOf key a.events)
    (hrun : w.runAppend a startedAt = .ok (db', reply)) :
    ∀ message ∈ a.outbox, ∃ row, db'.outbox.lookup (key.1, message.messageId) = some row ∧
      row.payload = message.payload ∧ row.state.isAlive = true := by
  intro message hmessage
  obtain ⟨es, db₁, happ, hmut, -⟩ := runAppend_eq_ok hrun hall
  obtain ⟨row, hrow, hpay, hpending⟩ := happ.outbox.inserted message hmessage
  rcases outbox_mutation hmut (key.1, message.messageId) with
    hsame | ⟨row₀, _, _, hrow₀, -, hnew⟩
  · exact ⟨row, hsame.trans hrow, hpay, by rw [hpending]; rfl⟩
  · rw [hrow, Option.some.injEq] at hrow₀
    subst hrow₀
    exact ⟨_, hnew, hpay, rfl⟩

/-! ## Every item has a message -/

/-- The item has a message in a state of the given kind. -/
def HasMessage (p : OutboxState → Bool) (key : WorkKey) (w : World) : Prop :=
  ∃ messageId row, w.db.outbox.lookup (key.1, messageId) = some row ∧ row.isFor key.2 = true ∧
    p row.state = true

/-- The item, if it is registered, has a message in a state of the given kind. -/
def Covered (p : OutboxState → Bool) (key : WorkKey) (w : World) : Prop :=
  w.db.workItems.lookup key ≠ none → HasMessage p key w

/-- An item that was not there before a transaction was registered by it, with
a message that can be sent. -/
theorem hasMessage_of_new (hw : w.Inv) (hl : Legit P c w) (h : exec c w = some (w', r))
    {key : WorkKey} (hold : w.db.workItems.lookup key = none)
    (hnew : w'.db.workItems.lookup key ≠ none) : HasMessage OutboxState.isAlive key w' := by
  have hchanged : w'.db.view key ≠ w.db.view key := fun heq =>
    hnew ((congrArg ItemView.item heq).trans hold)
  -- the step that brings an item is its registration
  have hregister : ∀ {k : WorkKey} {op : ItemOp},
      ItemStep w.clock op (w.db.view k) (w'.db.view k) →
      (∀ k', k' ≠ k → w'.db.view k' = w.db.view k') → key = k ∧ op = .register := by
    intro k op hstep hframe
    by_cases hk : key = k
    · subst hk
      exact ⟨rfl, hstep.registers hold hnew⟩
    · exact absurd (hframe key hk) hchanged
  have hheld : ∀ {tx : ℕ} {t : Inflight}, w.inflight.lookup tx = some t → t.fence.key ≠ key := by
    rintro tx t ht rfl
    obtain ⟨row, hrow, -⟩ := hw.held tx t ht
    have hnone : w.db.workLeases.lookup t.fence.key = none := (hw.wf _).unregistered hold
    rw [hrow] at hnone
    cases hnone
  cases effect hw hl h with
  | quiet hsame => exact absurd (hsame key) hchanged
  | @unfenced a m reply _ hmut _ _ hstep hframe =>
    obtain ⟨rfl, hop⟩ := hregister hstep hframe
    obtain ⟨m', hm⟩ := hl
    obtain rfl : m' = m := Mutation.work.inj (hm.mutation.symm.trans hmut)
    obtain ⟨-, message, hmessage, hfor⟩ := hm.register hop
    rcases exec_append h with ⟨rfl, -⟩ | ⟨db', reply, -, hrun, rfl, -⟩
    · exact absurd rfl hchanged
    · obtain ⟨row, hrow, hpay, halive⟩ :=
        outbox_runAppend hm.allOf hrun message hmessage
      exact ⟨message.messageId, row, hrow, by simp [OutboxRow.isFor, hpay, hfor], halive⟩
  | fenced ht _ _ hkey _ _ _ _ hstep hframe =>
    exact absurd ((hregister hstep hframe).1.trans hkey).symm (hheld ht)
  | model ht _ hstep hframe => exact absurd (hregister hstep hframe).1.symm (hheld ht)

/-- The cover of an item is kept, unless it is a dead letter that loses it. -/
theorem covered_exec {p : OutboxState → Bool} {key : WorkKey} (hw : w.Inv) (hl : Legit P c w)
    (h : exec c w = some (w', r)) (hp : ∀ st, st.isAlive = true → p st = true)
    (hkept : ∀ messageId row row', w.db.outbox.lookup (key.1, messageId) = some row →
      row.isFor key.2 = true → p row.state = true →
      w'.db.outbox.lookup (key.1, messageId) = some row' →
      (row.state.isAlive = true → row'.state.isAlive = true ∨ c.DeadLetters (key.1, messageId) row) →
      p row'.state = true) (hcov : Covered p key w) : Covered p key w' := by
  intro hnew
  by_cases hold : w.db.workItems.lookup key = none
  · obtain ⟨messageId, row, hrow, hfor, halive⟩ := hasMessage_of_new hw hl h hold hnew
    exact ⟨messageId, row, hrow, hfor, hp _ halive⟩
  · obtain ⟨messageId, row, hrow, hfor, hst⟩ := hcov hold
    obtain ⟨row', hrow', hpay, halive⟩ := outboxKept h (key.1, messageId) row hrow
    exact ⟨messageId, row', hrow', by rw [OutboxRow.isFor, hpay]; exact hfor,
      hkept messageId row row' hrow hfor hst hrow' halive⟩

end World

/-! ## The theorem -/

section Runs

variable {py : PyText} {tenants : List String} {quotas : Table String QuotaLimits}
  {clock : Timestamp} {s : Platform}

/-- No publisher makes a message of the item a dead letter. -/
def NeverDeadLettered (key : WorkKey) (s : Platform) : Action Txn → Prop
  | .commit _ c => ∀ w reply, World.exec c s.store = some (w, .ok reply) → ∀ messageId row,
    s.store.db.outbox.lookup (key.1, messageId) = some row → row.isFor key.2 = true →
    ¬ c.DeadLetters (key.1, messageId) row
  | _ => True

/-- **Queued items stay deliverable.**  In every run an item that is queued has a
message that names it; and in every run in which no publisher made one of its
messages a dead letter, it has one that is pending, leased or published. -/
theorem queued_deliverable (key : WorkKey) :
    (Run postgres (AnyCall py) (fun _ _ => True) (Platform.initial tenants quotas clock) s →
      ∀ item, s.store.db.workItems.lookup key = some item → item.status.isQueued = true →
      ∃ messageId row, s.store.db.outbox.lookup (key.1, messageId) = some row ∧
        row.isFor key.2 = true) ∧
    (Run postgres (AnyCall py) (NeverDeadLettered key) (Platform.initial tenants quotas clock) s →
      ∀ item, s.store.db.workItems.lookup key = some item → item.status.isQueued = true →
      ∃ messageId row, s.store.db.outbox.lookup (key.1, messageId) = some row ∧
        row.isFor key.2 = true ∧ row.state.isAlive = true) := by
  constructor
  · intro hrun item hitem _
    have hcov := (run_keeps (I := World.Covered (fun _ => true) key) (lawfully_anyCall py)
      (fun w w' hdb hw => by unfold World.Covered World.HasMessage at *; rw [hdb]; exact hw)
      (fun s i t c r hs hI hc _ hexec =>
        World.covered_exec hs hc hexec (fun _ _ => rfl) (fun _ _ _ _ _ _ _ _ => rfl) hI)
      hrun (World.inv_initial _ _ _) follows_initial (fun h => absurd rfl h)).2.1
    obtain ⟨messageId, row, hrow, hfor, -⟩ := hcov (by rw [hitem]; exact Option.some_ne_none _)
    exact ⟨messageId, row, hrow, hfor⟩
  · intro hrun item hitem _
    refine (run_keeps (I := World.Covered OutboxState.isAlive key) (lawfully_anyCall py)
      (fun w w' hdb hw => by unfold World.Covered World.HasMessage at *; rw [hdb]; exact hw)
      (fun s i t c r hs hI hc hm hexec => ?_) hrun (World.inv_initial _ _ _) follows_initial
      (fun h => absurd rfl h)).2.1 (by rw [hitem]; exact Option.some_ne_none _)
    cases r with
    | error e =>
      unfold World.Covered World.HasMessage at *
      rw [World.db_of_error hexec]
      exact hI
    | ok reply =>
      refine World.covered_exec hs hc hexec (fun _ h => h) ?_ hI
      intro messageId row row' hrow hfor halive _ hkept
      exact (hkept halive).resolve_right (hm t reply hexec messageId row hrow hfor)

/-- The test that stops a schedule at a publisher's bad news. -/
def noFailureTest (_ : Platform) : Action Txn → Bool
  | .commit _ (.markOutboxFailed ..) | .commit _ (.markOutboxDeadLettered ..) => false
  | _ => true

theorem neverDeadLettered_of_test (key : WorkKey) (s : Platform) (a : Action Txn)
    (h : noFailureTest s a = true) : NeverDeadLettered key s a := by
  cases a with
  | commit i c =>
    intro w reply _ messageId row _ _ hdead
    cases c with
    | markOutboxFailed => cases h
    | markOutboxDeadLettered => cases h
    | _ => exact hdead
  | _ => trivial

theorem queued_deliverable_published : ∃ s item,
    Run postgres (AnyCall sampleText) (NeverDeadLettered sampleRequest.key) samplePlatform s ∧
    s.store.db.workItems.lookup sampleRequest.key = some item ∧ item.status.isQueued = true ∧
    ∃ messageId row, s.store.db.outbox.lookup ("acme", messageId) = some row ∧
      row.isFor sampleRequest.workId = true ∧ row.state.isAlive = true := by
  obtain ⟨s, hrun, hqueued⟩ := exists_run_any (s := samplePlatform) sampleText
    (claimedSchedule.take 27) (sampleItem (·.status.isQueued))
    (neverDeadLettered_of_test sampleRequest.key) (by decide +kernel)
  obtain ⟨item, hitem, hstatus⟩ := sampleItem_eq_true hqueued
  exact ⟨s, item, hrun, hitem, hstatus,
    (queued_deliverable sampleRequest.key).2 hrun item hitem hstatus⟩

/-- The only message of an item is claimed and its publication fails for the last
time: the item stays queued and nothing will deliver it. -/
theorem queued_without_message : ∃ s item,
    Run postgres (AnyCall sampleText) (fun _ _ => True) samplePlatform s ∧
    s.store.db.workItems.lookup sampleRequest.key = some item ∧ item.status.isQueued = true ∧
    ¬ ∃ messageId row, s.store.db.outbox.lookup ("acme", messageId) = some row ∧
      row.isFor sampleRequest.workId = true ∧ row.state.isAlive = true := by
  obtain ⟨s, hrun, hbad⟩ := exists_run_any (s := samplePlatform) sampleText
    (claimedSchedule.take 18 ++ Scheduled.whole 2
      (.markOutboxFailed sampleContext (UUID.ofNat 4) "publisher" (seconds 60) 0 "unreachable"))
    (fun s => sampleItem (·.status.isQueued) s &&
      s.store.db.outbox.rows.all fun row =>
        !(row.2.isFor sampleRequest.workId && row.2.state.isAlive))
    meets_of_anyTest (by decide +kernel)
  rw [Bool.and_eq_true] at hbad
  obtain ⟨item, hitem, hstatus⟩ := sampleItem_eq_true hbad.1
  refine ⟨s, item, hrun, hitem, hstatus, ?_⟩
  rintro ⟨messageId, row, hrow, hfor, halive⟩
  have hnone := List.all_eq_true.1 hbad.2 _ (Table.mem_rows.2 hrow)
  rw [hfor, halive] at hnone
  cases hnone

end Runs

end AegisPlatform
