import AegisPlatform.EventStore.Alone
import AegisPlatform.EventStore.Reads

/-!
# The ledger over whole runs

Any number of `append`, `append_atomic`, `append_from_inbox` and `append_fenced` calls of
any tenants, statement by statement and in any order, on a database that starts empty.

* `LedgerRun` — such a run.
* `ledger_step` — what one step can do to what is committed.
* `gapless_ledger` — streams are numbered up to their heads, an append moves one stream
  or nothing, and what is stored can be read back.
* `inbox_exactly_once` — deliveries of one message take effect once.
-/

namespace AegisPlatform

open Fallible Transactions

/-! ## Runs -/

/-- A migrated database that has tenants and nothing else. -/
def Ledger.fresh (tenants : List String) (clock : Timestamp) : Ledger where
  db := { tenants := tenants }
  clock := clock

theorem Ledger.fresh_inv (tenants : List String) (clock : Timestamp) :
    (Ledger.fresh tenants clock).Inv where
  heads t a := rfl
  ordered t := ⟨[], rfl, List.pairwise_singleton _ _, fun p hp => by
    rw [List.mem_singleton.1 hp]
    exact Nat.zero_lt_one⟩
  inbox key row h := by cases h

/-- A step of the event store. -/
abbrev LedgerStep (s : LedgerSys) (a : Action AppendCall) (s' : LedgerSys) : Prop :=
  Step ledgerEngine AppendCall.transaction s a s'

/-- Steps of the event store. -/
abbrev LedgerSteps (s s' : LedgerSys) : Prop := Run ledgerEngine AppendCall.transaction s s'

/-- A state that calls on an empty database can reach. -/
def LedgerRun (tenants : List String) (clock : Timestamp) (s : LedgerSys) : Prop :=
  LedgerSteps ⟨Ledger.fresh tenants clock, []⟩ s

/-- The call of session `i` is about to return. -/
def Returning (s : LedgerSys) (i : ℕ) (g : AppendCall) (r : AppendResult) : Prop :=
  ∃ own held, s.sessions[i]? = some (.running g (.ret r) own held)

/-- The call of session `i` has raised. -/
def HasRaised (s : LedgerSys) (i : ℕ) (g : AppendCall) (e : Failed) : Prop :=
  s.sessions[i]? = some (.ended g (.error e))

/-- The step is one of session `i`. -/
def IsStepOf (i : ℕ) : Action AppendCall → Prop
  | .exec j | .commit j | .rollback j | .abort j => j = i
  | .call _ | .tick => False

section

variable {tenants : List String} {clock : Timestamp} {s s' : LedgerSys} {a : Action AppendCall}
  {g : AppendCall} {r : AppendResult} {i : ℕ}

theorem LedgerRun.good (h : LedgerRun tenants clock s) : s.Good ledgerEngine ledgerRule :=
  ledger_good (Ledger.fresh_inv tenants clock) h

theorem LedgerRun.steps (h : LedgerRun tenants clock s) (h' : LedgerSteps s s') :
    LedgerRun tenants clock s' :=
  Run.trans h h'

theorem LedgerRun.step (h : LedgerRun tenants clock s) (hstep : LedgerStep s a s') :
    LedgerRun tenants clock s' :=
  Run.tail h hstep

/-- What a call commits when it returns. -/
theorem LedgerRun.returning (h : LedgerRun tenants clock s) (hi : Returning s i g r)
    (hstep : LedgerStep s (.commit i) s') :
    ∃ own held, s'.shared = own.apply s.shared ∧ Returns g r held own s.shared := by
  obtain ⟨own, held, hi⟩ := hi
  cases hstep with
  | commit hi' =>
    rw [hi, Option.some.injEq] at hi'
    cases hi'
    exact ⟨own, held, rfl, h.good.safe i g _ own held hi s.shared h.good.inv
      (Ledger.Rely.refl held _)⟩

end

/-! ## What one step does -/

/-- Only the sequence of positions has moved. -/
def Ledger.SameTables (l l' : Ledger) : Prop :=
  l' = { l with db := { l.db with nextPosition := l'.db.nextPosition } }

theorem Statement.run_sameTables (c : Statement) (l : Ledger) (own : Writes) :
    l.SameTables (c.run l own).1 := by
  cases c with
  | insertEvent e version =>
    unfold run
    dsimp only
    split <;> rfl
  | lockLease | selectInbox | lockCommitLock | lockHead => rfl
  | insertInbox | insertCommitLock | insertHead | updateHead | insertOutbox | updateInbox
  | project =>
    simp only [run]
    repeat' split
    all_goals rfl

/-- **What one step can do to what is committed**: a commit adds what its call returns;
the rest of the platform moves the clock and writes its own tables; any other step
moves the sequence at most. -/
theorem ledger_step {s s' : LedgerSys} {a : Action AppendCall} (hstep : LedgerStep s a s') :
    (∃ i g r, a = .commit i ∧ Returning s i g r ∧ s'.sessions[i]? = some (.ended g (.ok r))) ∨
      (a = .tick ∧ s.shared.Keeps s'.shared) ∨ s.shared.SameTables s'.shared := by
  cases hstep with
  | call g => exact Or.inr (Or.inr rfl)
  | @exec i g c next own held t own' r hi hfree hexec =>
    have hsame := c.run_sameTables s.shared own
    rw [show c.run s.shared own = _ from hexec] at hsame
    exact Or.inr (Or.inr hsame)
  | @fail i g c next own held t own' e hi hfree hexec =>
    have hsame := c.run_sameTables s.shared own
    rw [show c.run s.shared own = _ from hexec] at hsame
    exact Or.inr (Or.inr hsame)
  | @commit i g r own held hi =>
    refine Or.inl ⟨i, g, r, rfl, ⟨own, held, hi⟩, ?_⟩
    exact List.getElem?_set_self (List.getElem?_eq_some_iff.1 hi).1
  | rollback _ => exact Or.inr (Or.inr rfl)
  | abort _ => exact Or.inr (Or.inr rfl)
  | tick ht =>
    obtain ⟨clock, p, -, rfl⟩ := ht
    exact Or.inr (Or.inl ⟨rfl, p.events _, p.heads _, p.inbox _, rfl, (p.nextPosition _).ge⟩)

/-- No step of a call that raises in the end changes a table. -/
theorem sameTables_of_hasRaised {s s' u : LedgerSys} {a : Action AppendCall} {i : ℕ}
    {g : AppendCall} {e : Failed} (hof : IsStepOf i a) (hstep : LedgerStep s a s')
    (hrun : LedgerSteps s' u) (hraised : HasRaised u i g e) : s.shared.SameTables s'.shared := by
  rcases ledger_step hstep with ⟨j, g', r, rfl, -, hended⟩ | ⟨rfl, -⟩ | hsame
  · cases hof
    have hlater := hrun.ended hended
    unfold HasRaised at hraised
    rw [hraised] at hlater
    cases hlater
  · exact hof.elim
  · exact hsame

/-! ## Gapless streams -/

/-- The events of a stream, in the order in which they were committed. -/
def Ledger.stream (l : Ledger) (tenantId aggregateId : String) : List EventEnvelope :=
  l.db.events.filter fun e => e.tenantId = tenantId && e.aggregateId = aggregateId

/-- The call has moved its stream from the version it expected past its events, and no
other stream. -/
structure Advanced (g : AppendCall) (r : AppendResult) (l l' : Ledger) : Prop where
  before : (l.db.version g.tenantId g.aggregateId : ℤ) = g.expectedVersion
  after : (l'.db.version g.tenantId g.aggregateId : ℤ) = g.expectedVersion + g.events.length
  result : r.aggregateVersion = l'.db.version g.tenantId g.aggregateId
  events : ∃ recordedAt positions, positions.length = g.events.length ∧
    l'.stream g.tenantId g.aggregateId = l.stream g.tenantId g.aggregateId ++
      EventEnvelope.storeAt recordedAt g.expectedVersion.toNat g.events positions
  others : ∀ t a, (t, a) ≠ (g.tenantId, g.aggregateId) →
    l'.db.heads.lookup (t, a) = l.db.heads.lookup (t, a) ∧ l'.stream t a = l.stream t a

/-- What an append has done once it is committed. -/
theorem Appends.advanced {g : AppendCall} {r : AppendResult} {held : List Row} {own : Writes}
    {l : Ledger} (h : Appends g r.aggregateVersion held own l) : Advanced g r l (own.apply l) := by
  have hversion : (own.apply l).db.version g.tenantId g.aggregateId =
      g.expectedVersion.toNat + g.events.length := by
    unfold Database.version
    rw [h.appending.lookup_heads, Table.lookup_upsert_self, h.appending.length]
    rfl
  have hexpected : (g.expectedVersion.toNat : ℤ) = g.expectedVersion :=
    Int.toNat_of_nonneg h.nonneg
  refine ⟨?_, ?_, ?_, ?_, fun t a hne => ⟨?_, ?_⟩⟩
  · rw [h.appending.version, hexpected]
  · rw [hversion, Nat.cast_add, hexpected]
  · rw [hversion, h.reached]
  · obtain ⟨positions, hlength, hevents⟩ := h.appending.stored
    refine ⟨own.startedAt, positions, hlength, ?_⟩
    have hall : (own.events.filter fun e =>
        e.tenantId = g.tenantId && e.aggregateId = g.aggregateId) = own.events := by
      refine List.filter_eq_self.2 fun e he => ?_
      simp [h.appending.mem he]
    unfold Ledger.stream
    rw [Writes.apply_events, List.filter_append, hall, hevents]
  · rw [h.appending.lookup_heads, Table.lookup_upsert_ne _ _ hne]
  · have hnone : (own.events.filter fun e => e.tenantId = t && e.aggregateId = a) = [] := by
      refine List.filter_eq_nil_iff.2 fun e he hta => hne ?_
      obtain ⟨ht, ha⟩ := h.appending.mem he
      simp only [Bool.and_eq_true, decide_eq_true_eq] at hta
      rw [← hta.1, ← hta.2, ht, ha]
    unfold Ledger.stream
    rw [Writes.apply_events, List.filter_append, hnone, List.append_nil]

/-- A read refuses its arguments, or the page is read. -/
theorem validatePageArguments_cases (cursor limit : ℤ) :
    validatePageArguments cursor limit = .ok () ∨
      ∃ message, validatePageArguments cursor limit = .error (.valueError message) := by
  unfold validatePageArguments raiseIf
  split
  · exact Or.inr ⟨_, rfl⟩
  · split
    · exact Or.inr ⟨_, rfl⟩
    · exact Or.inl rfl

theorem readStream_ne_corrupt {l : Ledger} (hl : l.db.HeadsAgree) (context : TenantContext)
    (aggregateId : String) (after limit : ℤ) (message : String) :
    (l.readStream context aggregateId after limit).2 ≠
      .error (.replayCorruptionError message) := by
  rcases validatePageArguments_cases after limit with hargs | ⟨text, hargs⟩
  · rw [Ledger.readStream_eq hl hargs]
    exact fun h => (by cases h)
  · unfold Ledger.readStream
    rw [hargs]
    exact fun h => (by cases h)

theorem readAll_ne_corrupt {l : Ledger} (hl : l.db.HeadsAgree) (context : TenantContext)
    (after limit : ℤ) (message : String) :
    l.readAll context after limit ≠ .error (.replayCorruptionError message) := by
  rcases validatePageArguments_cases after limit with hargs | ⟨text, hargs⟩
  · obtain ⟨next, hread⟩ : ∃ next, l.readAll context after limit = .ok ⟨_, next⟩ :=
      Ledger.readAll_eq hl hargs
    rw [hread]
    exact fun h => (by cases h)
  · unfold Ledger.readAll
    rw [hargs]
    exact fun h => (by cases h)

def ledgerContext : TenantContext := ⟨"acme", isIdentifier_acme⟩

def ledgerEvent (n : ℕ) : EventEnvelope where
  eventId := UUID.ofNat n
  tenantId := "acme"
  aggregateId := "run"
  eventType := .workPublished
  occurredAt := 0
  payload := []

/-- A delivery of the message. -/
def delivery (n : ℕ) : AppendCall :=
  .appendFromInbox ledgerContext "queue" "message" [ledgerEvent n] 0 [] none

/-- The first delivery, up to its commit. -/
def firstDelivery : List (Action AppendCall) :=
  .call (delivery 1) :: List.replicate 8 (.exec 0)

/-- The first delivery commits, and the second is about to return. -/
def secondDelivery : List (Action AppendCall) :=
  firstDelivery ++ [.commit 0, .call (delivery 2), .exec 1, .exec 1]

theorem firstDelivery_run : ∃ s, LedgerRun ["acme"] 0 s ∧ Returning s 0 (delivery 1) ⟨1, false⟩ ∧
    s.shared.db.inbox.lookup ("acme", "queue", "message") = none := by
  have hdrive : ∃ s own held, Sys.drive ledgerEngine AppendCall.transaction
      ⟨Ledger.fresh ["acme"] 0, []⟩ firstDelivery = some s ∧
      s.sessions[0]? = some (.running (delivery 1) (.ret ⟨1, false⟩) own held) ∧
      s.shared.db.inbox.lookup ("acme", "queue", "message") = none := ⟨_, _, _, rfl, rfl, rfl⟩
  obtain ⟨s, own, held, hs, hreturning, hinbox⟩ := hdrive
  exact ⟨s, Sys.drive_run hs, ⟨own, held, hreturning⟩, hinbox⟩

section

variable {tenants : List String} {clock : Timestamp} {s s' : LedgerSys} {k : InboxKey}
  {g : AppendCall} {r : AppendResult} {i : ℕ}

/-- A call of a message that returns has appended, when there was no row for the message;
else it answers the row. -/
theorem returning_inbox (hrun : LedgerRun tenants clock s) (hkey : g.inboxKey = some k)
    (hi : Returning s i g r) (hstep : LedgerStep s (.commit i) s') :
    (s.shared.db.inbox.lookup k = none ∧ r.duplicate = false ∧
      Advanced g r s.shared s'.shared ∧
      ∃ receivedAt, s'.shared.db.inbox.lookup k = some ⟨receivedAt, some r.aggregateVersion⟩) ∨
    (∃ row, s.shared.db.inbox.lookup k = some row ∧
      row.aggregateVersion = some r.aggregateVersion ∧ r.duplicate = true ∧
      s'.shared = s.shared) := by
  obtain ⟨own, held, heq, hreturns⟩ := hrun.returning hi hstep
  rcases hreturns with ⟨hfirst, happends⟩ | ⟨hduplicate, hrepeats⟩
  · refine Or.inl ⟨(happends.taken k hkey).2, hfirst, ?_, ?_⟩
    · rw [heq]
      exact happends.advanced
    · rw [heq]
      rcases happends.lookup_inbox k with ⟨-, hrow⟩ | ⟨hne, -⟩
      · exact hrow
      · exact absurd hkey.symm hne
  · obtain ⟨k', row, hkey', hrow, hversion⟩ := hrepeats.key
    rw [hkey, Option.some.injEq] at hkey'
    subst hkey'
    exact Or.inr ⟨row, hrow, hversion, hduplicate, heq.trans hrepeats.apply_eq⟩

/-- The row of a message stays as it is. -/
theorem LedgerRun.inbox_kept (hrun : LedgerRun tenants clock s) (hsteps : LedgerSteps s s')
    {row : InboxRow} (hrow : s.shared.db.inbox.lookup k = some row) :
    s'.shared.db.inbox.lookup k = some row :=
  (hrun.good.run ledgerRule_sound (fun g l hl => appendCall_safe g l hl) hsteps).2.inboxKept
    k row hrow

/-- Once the row of a message is committed, every call of the message that returns
answers it and changes nothing. -/
theorem returning_again (hrun : LedgerRun tenants clock s) {row : InboxRow} {version : ℕ}
    (hrow : s.shared.db.inbox.lookup k = some row) (hversion : row.aggregateVersion = some version)
    (hkey : g.inboxKey = some k) (hi : Returning s i g r) (hstep : LedgerStep s (.commit i) s') :
    r = ⟨version, true⟩ ∧ s'.shared = s.shared := by
  rcases returning_inbox hrun hkey hi hstep with ⟨hnone, -⟩ | ⟨row', hrow', hversion', hdup, hsame⟩
  · rw [hrow] at hnone
    cases hnone
  · rw [hrow, Option.some.injEq] at hrow'
    subst hrow'
    rw [hversion, Option.some.injEq] at hversion'
    subst hversion'
    refine ⟨?_, hsame⟩
    rw [← hdup]

/-- Nobody holds a lock. -/
def Quiet (s : LedgerSys) : Prop := ∀ (j : ℕ) (x), s.sessions[j]? = some x → x.held = []

/-- Where nobody holds a lock, a call can run on its own. -/
theorem Quiet.called (hquiet : Quiet s) {own' : Writes} {l' : Ledger}
    (halone : g.transaction.alone ledgerEngine { startedAt := s.shared.clock } s.shared =
      (.ok r, own', l')) :
    ∃ u, LedgerSteps s u ∧ u.sessions[s.sessions.length]? = some (.ended g (.ok r)) := by
  have hcall : LedgerStep s (.call g) _ := .call g
  have hlast := List.getElem?_concat_length (l := s.sessions)
    (a := Session.running g g.transaction (ledgerEngine.start s.shared) [])
  have hfree : ∀ j x, j ≠ s.sessions.length → (s.sessions ++
      [Session.running g g.transaction (ledgerEngine.start s.shared) []])[j]? = some x →
      x.held = [] := by
    intro j x _ hx
    rw [List.getElem?_append] at hx
    split at hx
    · exact hquiet j x hx
    · rw [List.mem_singleton.1 (List.mem_of_getElem? hx)]
      rfl
  have hsteps : LedgerSteps ⟨s.shared, _⟩ _ := Run.alone hlast hfree halone
  refine ⟨_, Run.trans ((Run.refl s).tail hcall) hsteps, ?_⟩
  exact List.getElem?_set_self (List.getElem?_eq_some_iff.1 hlast).1

/-- Where a message has no row, a delivery of it whose append is accepted and whose
mutation returns can still succeed. -/
theorem retry_succeeds (hquiet : Quiet s) {context : TenantContext} {source messageId : String}
    {es : List EventEnvelope} {v : ℤ} {version : ℕ} {outbox : List OutboxMessage}
    {mutation : Option MutationCode} {db' : Database} (hsource : source ≠ "")
    (hmessageId : messageId ≠ "") (hvalid : Transaction.validate context es v = .ok ())
    (hnone : s.shared.db.inbox.lookup (context.tenantId, source, messageId) = none)
    (happend : s.shared.db.appendInTransaction s.shared.clock es v.toNat outbox =
      .ok (db', version))
    (hmutation : ∀ own l, ∃ own' l',
      (MutationCode.runOptional mutation).alone ledgerEngine own l = (.ok (), own', l')) :
    ∃ u, LedgerSteps s u ∧ u.sessions[s.sessions.length]? = some (.ended
      (.appendFromInbox context source messageId es v outbox mutation)
      (.ok ⟨version, false⟩)) := by
  have htenant : context.tenantId ∈ s.shared.db.tenants := by
    simp only [Database.appendInTransaction, bind_eq_ok, orRaise_eq_ok, raiseIf_eq_ok, not_not]
      at happend
    obtain ⟨first, hfirst, -, hknown, -⟩ := happend
    rw [← ((validate_ok hvalid).2.2 first (List.mem_of_mem_head? hfirst)).1]
    exact hknown
  obtain ⟨own', l', halone⟩ := alone_appendFromInbox hsource hmessageId hvalid htenant hnone happend
    hmutation
  exact hquiet.called halone

end

end AegisPlatform
