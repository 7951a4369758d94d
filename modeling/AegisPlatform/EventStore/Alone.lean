import AegisPlatform.EventStore.Interleaved

/-!
# An append on its w

With nobody else about, the statements of an append together do what the rest of the
development takes for one transaction, `Database.appendInTransaction`: it returns when
that does, with the same version, and commits the same tables.

* `alone_appendInTransaction` — the inner append.
* `alone_appendFromInbox` — a delivery whose message has no row yet.
-/

namespace AegisPlatform

open Fallible Transactions

section

variable {l l' : Ledger} {w w' : Writes} {db db' : Database} {α : Type}

/-- A statement that succeeds, and what follows it. -/
theorem alone_execute {c : Statement} {f : c.Reply → Transaction α} {r : c.Reply}
    (h : c.run l w = (l', w', .ok r)) :
    (Transaction.execute c >>= f).alone ledgerEngine w l =
      (f r).alone ledgerEngine w' l' := by
  refine Trans.alone_bind ?_
  show (Trans.exec c Trans.ret).alone ledgerEngine w l = _
  rw [Trans.alone, show ledgerEngine.exec c l w = _ from h]
  rfl

theorem alone_check {x : Except Raised Unit} {f : Unit → Transaction α} (h : x = .ok ()) :
    (Transaction.check x >>= f).alone ledgerEngine w l = (f ()).alone ledgerEngine w l := by
  subst h
  rfl

/-! ## The inner append -/

theorem alone_insertEvents {es : List EventEnvelope} {v : ℕ}
    (h : db.insertEvents w.startedAt v es = .ok db') (hevents : db.events = l.db.events ++ w.events)
    (hposition : db.nextPosition = l.db.nextPosition) :
    (Transaction.insertEvents es v).alone ledgerEngine w l = (.ok (v + es.length),
      { w with
        events := w.events ++ EventEnvelope.storeAll w.startedAt v l.db.nextPosition es },
      { l with db := { l.db with nextPosition := l.db.nextPosition + es.length } }) := by
  induction es generalizing v w l db with
  | nil =>
    rw [EventEnvelope.storeAll, List.append_nil]
    rfl
  | cons e rest ih =>
    simp only [Database.insertEvents, bind_eq_ok, raiseIf_eq_ok] at h
    obtain ⟨-, haccepted, hrest⟩ := h
    have hrun : (Statement.insertEvent e (v + 1)).run l w =
        ({ l with db := { l.db with nextPosition := l.db.nextPosition + 1 } },
          { w with events := w.events ++ [e.stored (v + 1) l.db.nextPosition w.startedAt] },
          .ok ()) := by
      have hrefuses : (w.apply l).db.refuses e (v + 1) = db.refuses e (v + 1) := by
        unfold Database.refuses
        rw [Writes.apply_events, hevents]
      rw [Statement.run, hrefuses, if_neg haccepted]
    rw [Transaction.insertEvents, alone_execute hrun]
    rw [hposition] at hrest
    have hevents' : db.events ++ [e.stored (v + 1) l.db.nextPosition w.startedAt] =
        l.db.events ++ (w.events ++ [e.stored (v + 1) l.db.nextPosition w.startedAt]) := by
      rw [hevents, List.append_assoc]
    have hnext := ih (l := { l with db := { l.db with nextPosition := l.db.nextPosition + 1 } })
      (w := { w with
        events := w.events ++ [e.stored (v + 1) l.db.nextPosition w.startedAt] }) hrest hevents' rfl
    rw [hnext, EventEnvelope.storeAll, List.length_cons, List.append_assoc, List.singleton_append]
    simp only [Nat.add_assoc, Nat.add_comm 1]

theorem alone_insertOutbox {t : String} {messages : List OutboxMessage}
    (h : db.insertOutbox t messages = .ok db') (hprojections : w.projections = [])
    (hevents : db.events = l.db.events ++ w.events)
    (houtbox : db.outbox = writeRows l.db.outbox w.outbox) :
    ∃ rows, (Transaction.insertOutbox t messages).alone ledgerEngine w l =
        (.ok (), { w with outbox := w.outbox ++ rows }, l) ∧
      db'.outbox = writeRows l.db.outbox (w.outbox ++ rows) := by
  induction messages generalizing w db with
  | nil =>
    cases h
    refine ⟨[], ?_, ?_⟩
    · rw [List.append_nil]
      rfl
    · rw [List.append_nil]
      exact houtbox
  | cons message rest ih =>
    simp only [Database.insertOutbox, bind_eq_ok, raiseIf_eq_ok, orRaise_eq_ok,
      Table.insertNew_eq_some] at h
    obtain ⟨-, hknown, outbox, ⟨hnew, rfl⟩, hrest⟩ := h
    have hview : (w.apply l).db.outbox = db.outbox := by
      unfold Writes.apply
      rw [hprojections, houtbox]
      rfl
    have hrun : (Statement.insertOutbox t message).run l w =
        (l, { w with outbox := w.outbox ++
          [((t, message.messageId), Statement.outboxRow message)] }, .ok ()) := by
      rw [Statement.run, Writes.apply_events, ← hevents, hview, hnew, if_neg]
      simpa using hknown
    have houtbox' : db.outbox.upsert (t, message.messageId) (Statement.outboxRow message) =
        writeRows l.db.outbox (w.outbox ++
          [((t, message.messageId), Statement.outboxRow message)]) := by
      rw [writeRows_append, ← houtbox]
      rfl
    obtain ⟨rows, halone, hrows⟩ := ih (w := { w with outbox := w.outbox ++
      [((t, message.messageId), Statement.outboxRow message)] }) hrest hprojections hevents houtbox'
    refine ⟨((t, message.messageId), Statement.outboxRow message) :: rows, ?_, ?_⟩
    · rw [Transaction.insertOutbox, alone_execute hrun, halone, List.append_assoc]
      rfl
    · rw [hrows, List.append_assoc]
      rfl

/-- The row that serializes the commits of the tenant is there, or it is inserted. -/
theorem run_insertCommitLock_ok {t : String} (htenant : t ∈ l.db.tenants) :
    ∃ locks, (Statement.insertCommitLock t).run l w =
      (l, { w with commitLocks := locks }, .ok ()) := by
  rw [Statement.run]
  by_cases hmem : t ∈ (w.apply l).commitLocks
  · rw [if_pos hmem]
    exact ⟨w.commitLocks, rfl⟩
  · rw [if_neg hmem, if_neg (not_not.2 htenant)]
    exact ⟨w.commitLocks ++ [t], rfl⟩

/-- The head is there, or it is inserted at `0`; either way the transaction sees it, and an
update replaces it. -/
theorem run_insertHead_ok {t a : String} (hheads : w.heads = []) (htenant : t ∈ l.db.tenants) :
    ∃ rows, (Statement.insertHead t a).run l w = (l, { w with heads := rows }, .ok ()) ∧
      (writeRows l.db.heads rows).lookup (t, a) = some (l.db.version t a) ∧
      ∀ version, writeRows l.db.heads (rows ++ [((t, a), version)]) =
        l.db.heads.upsert (t, a) version := by
  rw [Statement.run, Writes.apply_heads, hheads]
  unfold Database.version
  cases hhead : l.db.heads.lookup (t, a) with
  | some version =>
    rw [if_pos (by rw [show writeRows l.db.heads [] = l.db.heads from rfl, hhead]; rfl)]
    refine ⟨[], ?_, hhead, fun _ => rfl⟩
    rw [← hheads]
  | none =>
    rw [if_neg (by rw [show writeRows l.db.heads [] = l.db.heads from rfl, hhead]; simp),
      if_neg (not_not.2 htenant)]
    refine ⟨[((t, a), 0)], rfl, Table.lookup_upsert_self .., fun version => ?_⟩
    exact AList.insert_insert ..

theorem run_updateHead_ok {t a : String} {n v : ℕ}
    (hlookup : (writeRows l.db.heads w.heads).lookup (t, a) = some v) :
    (Statement.updateHead t a n).run l w =
      (l, { w with heads := w.heads ++ [((t, a), n)] }, .ok ()) := by
  rw [Statement.run, Writes.apply_heads, hlookup]
  rfl

/-- The version check and the inserts. -/
theorem alone_appendAtHead {t a : String} {es : List EventEnvelope} {v : ℕ}
    {outbox : List OutboxMessage} {heads : Table (String × String) ℕ} {db₁ db₂ : Database}
    (hinsert : l.db.insertEvents w.startedAt v es = .ok db₁)
    (hoffer : Database.insertOutbox t outbox { db₁ with heads := heads } = .ok db₂)
    (hlookup : (writeRows l.db.heads w.heads).lookup (t, a) = some v) (hevents : w.events = [])
    (houtbox : w.outbox = []) (hprojections : w.projections = []) :
    ∃ rows, (Transaction.appendAtHead t a es v outbox (some v)).alone ledgerEngine w l =
        (.ok (v + es.length), { w with
          heads := w.heads ++ [((t, a), v + es.length)]
          events := EventEnvelope.storeAll w.startedAt v l.db.nextPosition es
          outbox := rows },
        { l with db := { l.db with nextPosition := l.db.nextPosition + es.length } }) ∧
      db₂.outbox = writeRows l.db.outbox rows := by
  have hinserted := alone_insertEvents (l := l) (w := w) hinsert
    (by rw [hevents, List.append_nil]) rfl
  rw [hevents, List.nil_append] at hinserted
  rw [Database.insertEvents_eq_ok hinsert] at hoffer
  obtain ⟨rows, hoffered, hrows⟩ := alone_insertOutbox
    (l := { l with db := { l.db with nextPosition := l.db.nextPosition + es.length } })
    (w := { w with
      heads := w.heads ++ [((t, a), v + es.length)]
      events := EventEnvelope.storeAll w.startedAt v l.db.nextPosition es })
    hoffer hprojections rfl (by rw [houtbox]; rfl)
  refine ⟨w.outbox ++ rows, ?_, hrows⟩
  have hcheck : raiseIf (v ≠ v) (Raised.concurrencyError v v) = .ok () :=
    raiseIf_eq_ok.2 fun hne => hne rfl
  have hupdate := run_updateHead_ok (n := v + es.length)
    (l := { l with db := { l.db with nextPosition := l.db.nextPosition + es.length } })
    (w := { w with events := EventEnvelope.storeAll w.startedAt v l.db.nextPosition es })
    hlookup
  exact (alone_check hcheck).trans ((Trans.alone_bind hinserted).trans
    ((alone_execute hupdate).trans (Trans.alone_bind hoffered)))

/-- **The statements of an append do what the append does.** -/
theorem alone_appendInTransaction {es : List EventEnvelope} {v version : ℕ}
    {outbox : List OutboxMessage} (hevents : w.events = []) (hheads : w.heads = [])
    (houtbox : w.outbox = []) (hprojections : w.projections = [])
    (h : l.db.appendInTransaction w.startedAt es v outbox = .ok (db', version)) :
    ∃ w' l', (Transaction.appendInTransaction es v outbox).alone ledgerEngine w l =
        (.ok version, w', l') ∧ w'.inbox = w.inbox ∧ l'.db.inbox = l.db.inbox ∧
      (w'.apply l').db = { db' with inbox := writeRows l.db.inbox w.inbox } := by
  obtain ⟨first', hfirst', -, -, hdb', -⟩ := Database.appendInTransaction_spec h
  simp only [Database.appendInTransaction, bind_eq_ok, orRaise_eq_ok, raiseIf_eq_ok, pure_eq_ok,
    not_not, Prod.mk.injEq] at h
  obtain ⟨first, hfirst, -, htenant, -, hversion, db₁, hinsert, db₂, hoffer, rfl, rfl⟩ := h
  obtain ⟨rest, rfl⟩ : ∃ rest, es = first :: rest := ⟨es.tail, List.eq_cons_of_mem_head? hfirst⟩
  obtain ⟨locks, hlocks⟩ := run_insertCommitLock_ok (w := w) htenant
  obtain ⟨rows, hinsertHead, hlookup, hupsert⟩ :=
    run_insertHead_ok (w := { w with commitLocks := locks }) (a := first.aggregateId) hheads htenant
  obtain rfl : first = first' := by
    rw [Option.mem_def, hfirst, Option.some.injEq] at hfirst'
    exact hfirst'
  rw [hversion] at hlookup
  have hlockHead : (Statement.lockHead first.tenantId first.aggregateId).run l
      { w with commitLocks := locks, heads := rows } =
      (l, { w with commitLocks := locks, heads := rows }, .ok (some v)) := by
    rw [Statement.run, Writes.apply_heads, hlookup]
  obtain ⟨messages, hrest, hmessages⟩ := alone_appendAtHead
    (w := { w with commitLocks := locks, heads := rows }) hinsert hoffer hlookup hevents houtbox
    hprojections
  have hlock : (Statement.lockCommitLock first.tenantId).run l { w with commitLocks := locks } =
      (l, { w with commitLocks := locks }, .ok ()) := rfl
  have halone : (Transaction.appendInTransaction (first :: rest) v outbox).alone ledgerEngine w l =
      _ := (alone_execute hlocks).trans ((alone_execute hlock).trans
    ((alone_execute hinsertHead).trans ((alone_execute hlockHead).trans hrest)))
  refine ⟨_, _, halone, rfl, rfl, ?_⟩
  rw [hmessages] at hdb'
  rw [hdb']
  unfold Writes.apply
  simp only [hprojections, List.foldl_nil, hupsert]

/-! ## A delivery -/

/-- **A delivery whose message has no row yet**: it returns what its append returns, as long
as its mutation returns, and is no duplicate. -/
theorem alone_appendFromInbox {context : TenantContext} {source messageId : String}
    {es : List EventEnvelope} {v : ℤ} {version : ℕ} {outbox : List OutboxMessage}
    {mutation : Option MutationCode} (hsource : source ≠ "") (hmessageId : messageId ≠ "")
    (hvalid : Transaction.validate context es v = .ok ())
    (htenant : context.tenantId ∈ l.db.tenants)
    (hnone : l.db.inbox.lookup (context.tenantId, source, messageId) = none)
    (happend : l.db.appendInTransaction l.clock es v.toNat outbox = .ok (db', version))
    (hmutation : ∀ w l, ∃ w' l',
      (MutationCode.runOptional mutation).alone ledgerEngine w l = (.ok (), w', l')) :
    ∃ w' l', (Transaction.appendFromInbox context source messageId es v outbox mutation).alone
      ledgerEngine { startedAt := l.clock } l = (.ok ⟨version, false⟩, w', l') := by
  have hnamed : raiseIf (source = "" ∨ messageId = "")
      (Raised.valueError "inbox source and message_id are required") = .ok () :=
    raiseIf_eq_ok.2 (not_or.2 ⟨hsource, hmessageId⟩)
  have hinsert : (Statement.insertInbox context.tenantId source messageId).run l
      { startedAt := l.clock } = (l, { startedAt := l.clock, inbox :=
        [((context.tenantId, source, messageId), ⟨l.clock, none⟩)] }, .ok true) := by
    rw [Statement.run, Writes.apply_inbox]
    simp [writeRows, hnone, htenant]
  obtain ⟨w₁, l₁, happended, hinbox, hl₁, -⟩ := alone_appendInTransaction
    (w := { startedAt := l.clock, inbox :=
      [((context.tenantId, source, messageId), ⟨l.clock, none⟩)] }) rfl rfl rfl rfl happend
  have hupdate : (Statement.updateInbox context.tenantId source messageId version).run l₁ w₁ =
      (l₁, { w₁ with inbox := w₁.inbox ++
        [((context.tenantId, source, messageId), ⟨l.clock, some version⟩)] }, .ok ()) := by
    have hrow : (w₁.apply l₁).db.inbox.lookup (context.tenantId, source, messageId) =
        some ⟨l.clock, none⟩ := by
      rw [Writes.apply_inbox, hinbox]
      exact Table.lookup_upsert_self ..
    rw [Statement.run, hrow]
  obtain ⟨w₂, l₂, hmutated⟩ := hmutation { w₁ with inbox := w₁.inbox ++
    [((context.tenantId, source, messageId), ⟨l.clock, some version⟩)] } l₁
  exact ⟨w₂, l₂, (alone_check hnamed).trans ((alone_check hvalid).trans
    ((alone_execute hinsert).trans ((Trans.alone_bind happended).trans
      ((alone_execute hupdate).trans (Trans.alone_bind hmutated)))))⟩

end

end AegisPlatform
