import AegisPlatform.EventStore.Ledger

/-!
# What an append has done

`appendInTransaction_spec` says it once: the head was where the caller expected
it, the batch follows the events there were, the head moves past it, and the
outbox messages are pending.  `HeadsAgree`, the events of a stream are numbered
up to its head, is what makes the expected version mean anything; an append to
one stream keeps it.
-/

namespace AegisPlatform

open Fallible

/-! ## Stored events -/

/-- The events of a batch as they are stored, from a version and a position on. -/
def EventEnvelope.storeAll (recordedAt : Timestamp) :
    ℕ → ℕ → List EventEnvelope → List EventEnvelope
  | _, _, [] => []
  | version, position, e :: rest =>
    e.stored (version + 1) position recordedAt :: storeAll recordedAt (version + 1) (position + 1) rest

namespace EventEnvelope

variable {recordedAt : Timestamp} {version position : ℕ} {es : List EventEnvelope}

@[simp] theorem length_storeAll :
    (storeAll recordedAt version position es).length = es.length := by
  induction es generalizing version position with
  | nil => rfl
  | cons e rest ih => simp [storeAll, ih]

/-- Storing an event changes neither its stream nor its type nor its payload. -/
theorem mem_storeAll {e : EventEnvelope} (h : e ∈ storeAll recordedAt version position es) :
    ∃ e₀ ∈ es, e.tenantId = e₀.tenantId ∧ e.aggregateId = e₀.aggregateId ∧
      e.eventType = e₀.eventType ∧ e.payload = e₀.payload := by
  induction es generalizing version position with
  | nil => cases h
  | cons e₁ rest ih =>
    rcases List.mem_cons.1 h with rfl | h
    · exact ⟨e₁, List.mem_cons_self .., rfl, rfl, rfl, rfl⟩
    · obtain ⟨e₀, he₀, hfields⟩ := ih h
      exact ⟨e₀, List.mem_cons_of_mem _ he₀, hfields⟩

@[simp] theorem map_eventType_storeAll :
    (storeAll recordedAt version position es).map (·.eventType) = es.map (·.eventType) := by
  induction es generalizing version position with
  | nil => rfl
  | cons e rest ih => simp [storeAll, ih, stored]

theorem map_aggregateSequence_storeAll :
    (storeAll recordedAt version position es).map (·.aggregateSequence) =
      List.range' (version + 1) es.length := by
  induction es generalizing version position with
  | nil => rfl
  | cons e rest ih => rw [storeAll, List.map_cons, ih, List.length_cons, List.range'_succ]; rfl

end EventEnvelope

/-- The row a message is inserted as. -/
def OutboxMessage.row (message : OutboxMessage) : OutboxRow where
  eventId := message.eventId
  destination := message.destination
  payload := message.payload
  headers := message.headers
  state := .pending
  availableAt := message.availableAt
  attemptCount := 0
  maxAttempts := message.maxAttempts
  lastErrorCode := none

namespace Database

variable {db db' : Database} {recordedAt : Timestamp}

theorem insertEvents_eq_ok {version : ℕ} {es : List EventEnvelope}
    (h : db.insertEvents recordedAt version es = .ok db') :
    db' = { db with
      events := db.events ++ EventEnvelope.storeAll recordedAt version db.nextPosition es
      nextPosition := db.nextPosition + es.length } := by
  induction es generalizing version db with
  | nil =>
    simp only [insertEvents, Except.ok.injEq] at h
    simp [← h, EventEnvelope.storeAll]
  | cons e rest ih =>
    simp only [insertEvents, bind_eq_ok] at h
    obtain ⟨-, -, h⟩ := h
    rw [ih h]
    simp [EventEnvelope.storeAll, Nat.add_assoc, Nat.add_comm 1]

/-! ## The outbox -/

/-- Inserting messages leaves the others as they are, and each is pending. -/
structure OutboxInserted (tenantId : String) (messages : List OutboxMessage)
    (t t' : Table (String × UUID) OutboxRow) : Prop where
  kept : ∀ k row, t.lookup k = some row → t'.lookup k = some row
  inserted : ∀ m ∈ messages, ∃ row, t'.lookup (tenantId, m.messageId) = some row ∧
    row.payload = m.payload ∧ row.state = .pending
  /-- A row that was not there is that of a message. -/
  new : ∀ k row, t.lookup k = none → t'.lookup k = some row → ∃ m ∈ messages,
    k = (tenantId, m.messageId) ∧ row = m.row

theorem insertOutbox_eq_ok {tenantId : String} {messages : List OutboxMessage}
    (h : db.insertOutbox tenantId messages = .ok db') :
    db' = { db with outbox := db'.outbox } ∧
      OutboxInserted tenantId messages db.outbox db'.outbox := by
  induction messages generalizing db with
  | nil =>
    simp only [insertOutbox, Except.ok.injEq] at h
    subst h
    refine ⟨rfl, fun _ _ hrow => hrow, fun m hm => (by cases hm), fun k row hnone hrow => ?_⟩
    rw [hnone] at hrow
    cases hrow
  | cons message rest ih =>
    simp only [insertOutbox, bind_eq_ok, orRaise_eq_ok, Table.insertNew_eq_some] at h
    obtain ⟨-, -, outbox, ⟨hnew, rfl⟩, h⟩ := h
    obtain ⟨heq, hkept, hins, hold⟩ := ih h
    refine ⟨heq, fun k row hrow => hkept k row ?_, fun m hm => ?_, fun k row hnone hrow => ?_⟩
    · rw [Table.lookup_upsert_ne _ _ fun hk => ?_]
      · exact hrow
      · rw [hk, hnew] at hrow; cases hrow
    · rcases List.mem_cons.1 hm with rfl | hm
      · exact ⟨_, hkept _ _ (Table.lookup_upsert_self ..), rfl, rfl⟩
      · exact hins m hm
    · by_cases hk : k = (tenantId, message.messageId)
      · subst hk
        rw [hkept _ _ (Table.lookup_upsert_self ..), Option.some.injEq] at hrow
        subst hrow
        exact ⟨message, List.mem_cons_self .., rfl, rfl⟩
      · obtain ⟨m, hm, hfields⟩ := hold k row (by rw [Table.lookup_upsert_ne _ _ hk]; exact hnone) hrow
        exact ⟨m, List.mem_cons_of_mem _ hm, hfields⟩

/-! ## Appends -/

/-- **What an append that succeeds has done.** -/
theorem appendInTransaction_spec {es : List EventEnvelope} {expectedVersion version : ℕ}
    {messages : List OutboxMessage}
    (h : db.appendInTransaction recordedAt es expectedVersion messages = .ok (db', version)) :
    ∃ first ∈ es.head?, db.version first.tenantId first.aggregateId = expectedVersion ∧
      version = expectedVersion + es.length ∧
      db' = { db with
        events :=
          db.events ++ EventEnvelope.storeAll recordedAt expectedVersion db.nextPosition es
        nextPosition := db.nextPosition + es.length
        heads := db.heads.upsert (first.tenantId, first.aggregateId) version
        outbox := db'.outbox } ∧
      OutboxInserted first.tenantId messages db.outbox db'.outbox := by
  simp only [appendInTransaction, bind_eq_ok, orRaise_eq_ok, raiseIf_eq_ok, pure_eq_ok, not_not,
    Prod.mk.injEq] at h
  obtain ⟨first, hfirst, -, -, -, hversion, db₁, h₁, db₂, h₂, rfl, rfl⟩ := h
  obtain ⟨heq, hins⟩ := insertOutbox_eq_ok h₂
  rw [insertEvents_eq_ok h₁] at heq hins
  exact ⟨first, hfirst, hversion, rfl, heq, hins⟩

/-! ## What an append raises -/

section

variable {P : Raised → Prop}

theorem raisesOnly_insertEvents (hstorage : P permanentStorageFailure) (version : ℕ)
    (es : List EventEnvelope) : RaisesOnly P (db.insertEvents recordedAt version es) := by
  induction es generalizing db version with
  | nil => exact raisesOnly_ok _
  | cons e rest ih =>
    exact raisesOnly_bind (raisesOnly_raiseIf fun _ => hstorage) fun _ _ => ih _

theorem raisesOnly_insertOutbox (hstorage : P permanentStorageFailure) (tenantId : String)
    (messages : List OutboxMessage) : RaisesOnly P (db.insertOutbox tenantId messages) := by
  induction messages generalizing db with
  | nil => exact raisesOnly_ok _
  | cons message rest ih =>
    exact raisesOnly_bind (raisesOnly_raiseIf fun _ => hstorage) fun _ _ =>
      raisesOnly_bind (raisesOnly_orRaise fun _ => hstorage) fun _ _ => ih

/-- An append raises for an empty batch, a stream that is elsewhere, or a constraint. -/
theorem raisesOnly_appendInTransaction {es : List EventEnvelope} {expectedVersion : ℕ}
    {messages : List OutboxMessage} (hstorage : P permanentStorageFailure)
    (hempty : es.head? = none → P (.valueError "at least one event is required"))
    (hversion : ∀ first ∈ es.head?,
      db.version first.tenantId first.aggregateId ≠ expectedVersion →
      P (.concurrencyError expectedVersion (db.version first.tenantId first.aggregateId))) :
    RaisesOnly P (db.appendInTransaction recordedAt es expectedVersion messages) := by
  refine raisesOnly_bind (raisesOnly_orRaise hempty) fun first hfirst => ?_
  rw [orRaise_eq_ok] at hfirst
  refine raisesOnly_bind (raisesOnly_raiseIf fun _ => hstorage) fun _ _ => ?_
  refine raisesOnly_bind (raisesOnly_raiseIf (hversion first hfirst)) fun _ _ => ?_
  exact raisesOnly_bind (raisesOnly_insertEvents hstorage _ _) fun _ _ =>
    raisesOnly_bind (raisesOnly_insertOutbox hstorage _ _) fun _ _ => raisesOnly_ok _

end

/-! ## Heads -/

/-- The events of every stream are numbered from `1` up to its head, in the order
in which they were committed. -/
def HeadsAgree (db : Database) : Prop :=
  ∀ tenantId aggregateId, (db.events.filter fun e =>
      e.tenantId = tenantId && e.aggregateId = aggregateId).map (·.aggregateSequence) =
    List.range' 1 (db.version tenantId aggregateId)

theorem HeadsAgree.congr (h : db.HeadsAgree) (hheads : db'.heads = db.heads)
    (hevents : db'.events = db.events) : db'.HeadsAgree := by
  unfold HeadsAgree version at *
  rw [hheads, hevents]
  exact h

/-- A stream is in aggregate order, without gaps. -/
theorem HeadsAgree.stream (h : db.HeadsAgree) (key : WorkKey) :
    (db.stream key).map (·.aggregateSequence) = List.range' 1 (db.version key.1 key.2.str) :=
  h key.1 key.2.str

theorem HeadsAgree.stream_eq_nil (h : db.HeadsAgree) {key : WorkKey}
    (hzero : db.version key.1 key.2.str = 0) : db.stream key = [] := by
  have hnumbers := h.stream key
  rw [hzero] at hnumbers
  exact List.map_eq_nil_iff.1 hnumbers

/-- A batch appended to one stream at its head keeps every head right. -/
theorem HeadsAgree.append (h : db.HeadsAgree) {tenantId aggregateId : String} {expected : ℕ}
    {es : List EventEnvelope} (hexpected : db.version tenantId aggregateId = expected)
    (hes : ∀ e ∈ es, e.tenantId = tenantId ∧ e.aggregateId = aggregateId)
    (hnumbers : es.map (·.aggregateSequence) = List.range' (expected + 1) es.length)
    (hevents : db'.events = db.events ++ es)
    (hheads : ∀ k, db'.heads.lookup k =
      (db.heads.upsert (tenantId, aggregateId) (expected + es.length)).lookup k) :
    db'.HeadsAgree := by
  intro t a
  rw [hevents, List.filter_append, List.map_append, h t a]
  unfold version
  rw [hheads, Table.lookup_upsert]
  by_cases hk : (t, a) = (tenantId, aggregateId)
  · cases hk
    have hall : (es.filter fun e => e.tenantId = tenantId && e.aggregateId = aggregateId) = es :=
      List.filter_eq_self.2 fun e he => by simp [hes e he]
    unfold version at hexpected
    rw [if_pos rfl, hall, hnumbers, hexpected, Nat.add_comm expected 1, List.range'_append_1]
    rfl
  · have hnone : (es.filter fun e => e.tenantId = t && e.aggregateId = a) = [] := by
      refine List.filter_eq_nil_iff.2 fun e he hta => hk ?_
      obtain ⟨htenant, haggregate⟩ := hes e he
      simp only [Bool.and_eq_true, decide_eq_true_eq] at hta
      rw [← hta.1, ← hta.2, htenant, haggregate]
    rw [if_neg hk, hnone, List.map_nil, List.append_nil]

end Database

end AegisPlatform
