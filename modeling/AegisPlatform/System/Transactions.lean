import AegisPlatform.EventStore.Append
import AegisPlatform.EventStore.Stored
import AegisPlatform.Runtime.Commit

/-!
# What a transaction does to the world

`World.exec` read backwards, once for each kind of transaction: an append, the
two halves of a fenced append, and the statements on the outbox and the
approvals.  `Appended` is what the append of a batch for one item has done
before its mutation runs.

* `exec_append`, `exec_openFenced`, `exec_closeFenced`, `exec_other` — the
  transactions.
* `runAppend_eq_ok` — an append and its mutation, one after the other.
* `Appended.stream`, `Appended.headsAgree` — the streams and heads afterwards.
* `db_of_error` — a transaction that raises changes no table.
-/

namespace AegisPlatform

open Fallible

/-! ## A batch for one item -/

/-- Every event is of the item's stream. -/
def AllOf (key : WorkKey) (es : List EventEnvelope) : Prop :=
  ∀ e ∈ es, e.tenantId = key.1 ∧ e.aggregateId = key.2.str

theorem EventEnvelope.isOf_iff {e : EventEnvelope} {key : WorkKey} :
    e.isOf key = true ↔ e.tenantId = key.1 ∧ e.aggregateId = key.2.str := by
  simp [EventEnvelope.isOf]

theorem AllOf.filter {key : WorkKey} {es : List EventEnvelope} (h : AllOf key es) (k : WorkKey) :
    es.filter (·.isOf k) = if k = key then es else [] := by
  by_cases hk : k = key
  · subst hk
    rw [if_pos rfl, List.filter_eq_self]
    exact fun e he => EventEnvelope.isOf_iff.2 (h e he)
  · rw [if_neg hk, List.filter_eq_nil_iff]
    intro e he hof
    obtain ⟨ht, ha⟩ := EventEnvelope.isOf_iff.1 hof
    obtain ⟨ht', ha'⟩ := h e he
    exact hk (Prod.ext (ht.symm.trans ht') (UUID.str_inj.1 (ha.symm.trans ha')))

theorem AllOf.storeAll {key : WorkKey} {es : List EventEnvelope} (h : AllOf key es)
    (recordedAt : Timestamp) (version position : ℕ) :
    AllOf key (EventEnvelope.storeAll recordedAt version position es) := by
  intro e he
  obtain ⟨e₀, he₀, ht, ha, -⟩ := EventEnvelope.mem_storeAll he
  rw [ht, ha]
  exact h e₀ he₀

/-- Storing a batch keeps its types and its generation. -/
theorem Batch.storeAll {es : List EventEnvelope} {types : List DomainEventType} {g : Option ℤ}
    (h : Batch es types g) (recordedAt : Timestamp) (version position : ℕ) :
    Batch (EventEnvelope.storeAll recordedAt version position es) types g where
  types := by rw [EventEnvelope.map_eventType_storeAll, h.types]
  generation := by
    intro e he
    obtain ⟨e₀, he₀, -, -, -, hpay⟩ := EventEnvelope.mem_storeAll he
    rw [← h.generation e₀ he₀]
    unfold EventEnvelope.leaseGeneration?
    rw [hpay]

/-- The append of a batch for an item, before its mutation runs: `es` are the
events as they are stored. -/
structure Appended (key : WorkKey) (a : Append) (es : List EventEnvelope) (db db' : Database) :
    Prop where
  version : db.version key.1 key.2.str = a.expectedVersion
  stored : ∃ recordedAt position,
    es = EventEnvelope.storeAll recordedAt a.expectedVersion position a.events
  events : db'.events = db.events ++ es
  heads : db'.heads = db.heads.upsert (key.1, key.2.str) (a.expectedVersion + a.events.length)
  outbox : Database.OutboxInserted key.1 a.outbox db.outbox db'.outbox
  rest : db' = { db with
    events := db'.events
    nextPosition := db'.nextPosition
    heads := db'.heads
    outbox := db'.outbox
    inbox := db'.inbox }

namespace Appended

variable {key : WorkKey} {a : Append} {es : List EventEnvelope} {db db' : Database}

theorem allOf (h : Appended key a es db db') (hes : AllOf key a.events) : AllOf key es := by
  obtain ⟨recordedAt, position, rfl⟩ := h.stored
  exact hes.storeAll _ _ _

theorem batch (h : Appended key a es db db') {types : List DomainEventType} {g : Option ℤ}
    (hb : Batch a.events types g) : Batch es types g := by
  obtain ⟨recordedAt, position, rfl⟩ := h.stored
  exact hb.storeAll _ _ _

theorem viewWith (h : Appended key a es db db') (k : WorkKey) (stream : List EventEnvelope) :
    db'.viewWith k stream = db.viewWith k stream := by
  rw [h.rest]
  rfl

theorem stream (h : Appended key a es db db') (hes : AllOf key a.events) (k : WorkKey) :
    db'.stream k = db.stream k ++ if k = key then es else [] := by
  unfold Database.stream
  rw [h.events, List.filter_append, (h.allOf hes).filter k]

theorem headsAgree (h : Appended key a es db db') (hes : AllOf key a.events)
    (hheads : db.HeadsAgree) : db'.HeadsAgree := by
  obtain ⟨recordedAt, position, hstored⟩ := h.stored
  have hlength : es.length = a.events.length := by
    rw [hstored, EventEnvelope.length_storeAll]
  refine hheads.append h.version (h.allOf hes) ?_ h.events fun k => ?_
  · rw [hlength, hstored, EventEnvelope.map_aggregateSequence_storeAll]
  · rw [h.heads, hlength]

end Appended

namespace World

variable {w w' : World} {r : Except Raised Reply}

/-- An append and its mutation, one after the other. -/
theorem runAppend_eq_ok {a : Append} {startedAt : Timestamp} {db' : Database} {reply : Reply}
    {key : WorkKey} (h : w.runAppend a startedAt = .ok (db', reply)) (hes : AllOf key a.events) :
    ∃ es db₁, Appended key a es w.db db₁ ∧
      a.mutation.run w.clock (fun tenantId => tenantId ∈ w.maintenance) db₁ = .ok db' ∧
      reply = { version := a.expectedVersion + a.events.length,
                times := a.mutation.times w.clock } := by
  simp only [runAppend, bind_eq_ok, pure_eq_ok, Prod.mk.injEq, Prod.exists] at h
  obtain ⟨db₀, version, happend, db₂, hrun, rfl, rfl⟩ := h
  obtain ⟨first, hfirst, hversion, rfl, hdb₀, hins⟩ := Database.appendInTransaction_spec happend
  obtain ⟨htenant, haggregate⟩ := hes first (List.mem_of_mem_head? hfirst)
  rw [htenant, haggregate] at hversion hdb₀
  rw [htenant] at hins
  refine ⟨EventEnvelope.storeAll startedAt a.expectedVersion w.db.nextPosition a.events, _, ?_,
    hrun, rfl⟩
  cases a.inbox with
  | none =>
    exact ⟨hversion, ⟨startedAt, w.db.nextPosition, rfl⟩, by rw [hdb₀], by rw [hdb₀], hins,
      by rw [hdb₀]⟩
  | some message =>
    exact ⟨hversion, ⟨startedAt, w.db.nextPosition, rfl⟩, by rw [hdb₀], by rw [hdb₀], hins,
      by rw [hdb₀]⟩

/-! ## Transactions, read backwards -/

/-- An append changes nothing or commits, and then no lease row it has to write
is locked. -/
theorem exec_append {a : Append} (h : exec (.append a) w = some (w', r)) :
    (w' = w ∧ (a.inbox = none → ∃ e, r = .error e)) ∨
    ∃ db' reply, (∀ key ∈ a.mutation.locks, w.locked key = false) ∧
      w.runAppend a w.clock = .ok (db', reply) ∧ w' = { w with db := db' } ∧ r = .ok reply := by
  simp only [exec] at h
  split at h
  · rename_i answer hdup
    cases h
    refine Or.inl ⟨rfl, fun hinbox => ?_⟩
    rw [duplicate, hinbox] at hdup
    cases hdup
  · split at h
    · cases h
    · rename_i hlocked
      simp only [Option.some.injEq] at h
      cases hrun : w.runAppend a w.clock with
      | error e =>
        rw [hrun] at h
        cases h
        exact Or.inl ⟨rfl, fun _ => ⟨e, rfl⟩⟩
      | ok result =>
        obtain ⟨db', reply⟩ := result
        rw [hrun] at h
        cases h
        refine Or.inr ⟨db', reply, fun key hkey => ?_, rfl, rfl, rfl⟩
        rw [Option.mem_def] at hkey
        simpa [hkey] using hlocked

/-- The first half of a fenced append fails, or finds its lease held and locks
it. -/
theorem exec_openFenced {f : Fence} (h : exec (.openFenced f) w = some (w', r)) :
    (w' = w ∧ r = .error (.fencingError f.generation 0)) ∨
    ∃ row, w.db.workLeases.lookup f.key = some row ∧ row.holds f.token f.generation = true ∧
      w.clock < row.expiresAt ∧ w.locked f.key = false ∧
      w' = { w with
        inflight := w.inflight.upsert w.nextTx ⟨f, w.clock⟩
        nextTx := w.nextTx + 1 } ∧ r = .ok { tx := w.nextTx } := by
  simp only [exec, openFenced] at h
  split at h
  · rename_i hany
    split at h
    · cases h
    · rename_i hlocked
      cases h
      obtain ⟨row, hrow, hp⟩ := (Option.any_eq_true _ _).1 hany
      simp only [Bool.and_eq_true, decide_eq_true_eq] at hp
      exact Or.inr ⟨row, hrow, hp.1, hp.2, by simpa using hlocked, rfl, rfl⟩
  · cases h; exact Or.inl ⟨rfl, rfl⟩

/-- The second half ends its transaction, and commits or not. -/
theorem exec_closeFenced {tx : ℕ} {a : Append} (h : exec (.closeFenced tx a) w = some (w', r)) :
    (w.inflight.lookup tx = none ∧ w' = w ∧ r = .error .transientStorageError) ∨
    ∃ t, w.inflight.lookup tx = some t ∧
      ((∃ e, w.runAppend a t.startedAt = .error e ∧ r = .error e ∧
        w' = { w with inflight := w.inflight.delete tx }) ∨
      ∃ db' reply, w.runAppend a t.startedAt = .ok (db', reply) ∧ r = .ok reply ∧
        w' = { w with db := db', inflight := w.inflight.delete tx }) := by
  simp only [exec, closeFenced] at h
  cases ht : w.inflight.lookup tx with
  | none =>
    rw [ht] at h
    cases h
    exact Or.inl ⟨rfl, rfl, rfl⟩
  | some t =>
    simp only [ht] at h
    refine Or.inr ⟨t, rfl, ?_⟩
    cases hrun : w.runAppend a t.startedAt with
    | error e =>
      rw [hrun] at h
      cases h
      exact Or.inl ⟨e, rfl, rfl, rfl⟩
    | ok result =>
      obtain ⟨db', reply⟩ := result
      rw [hrun] at h
      cases h
      exact Or.inr ⟨db', reply, rfl, rfl, rfl⟩

/-! ## The outbox -/

end World

/-- Can the message still be sent, or has it been: everything but a dead letter. -/
def OutboxState.isAlive : OutboxState → Bool
  | deadLetter => false
  | _ => true

/-- The transaction turns the message into a dead letter: a publisher says so, or
reports the last failure the message is allowed. -/
def Txn.DeadLetters (c : Txn) (k : String × UUID) (row : OutboxRow) : Prop :=
  match c with
  | .markOutboxDeadLettered tenantId messageId .. => k = (tenantId, messageId)
  | .markOutboxFailed tenantId messageId .. =>
    k = (tenantId, messageId) ∧ row.maxAttempts ≤ row.attemptCount
  | _ => False

/-- The transactions that do not append. -/
def Txn.isOutbox : Txn → Bool
  | append _ | openFenced _ | closeFenced .. => false
  | _ => true

/-- The messages a transaction adds to the outbox. -/
def Txn.outbox : Txn → List OutboxMessage
  | append a | closeFenced _ a => a.outbox
  | _ => []

/-- What a transaction that runs at `now` does to one row of the outbox. -/
inductive OutboxStep (now : Timestamp) (k : String × UUID) :
    Txn → Option OutboxRow → Option OutboxRow → Prop
  | same {c : Txn} {row : Option OutboxRow} : OutboxStep now k c row row
  | inserted {c : Txn} {message : OutboxMessage} {row : OutboxRow} : message ∈ c.outbox →
      row.state = .pending → row.attemptCount = 0 → row.maxAttempts = message.maxAttempts →
      OutboxStep now k c none (some row)
  /-- The projection of an append sends the message again. -/
  | redriven {c : Txn} {row : OutboxRow} {publishedAt availableAt : Timestamp} :
      row.state = .published publishedAt →
      OutboxStep now k c (some row) (some { row with
        state := .pending, availableAt := availableAt, attemptCount := 0, lastErrorCode := none })
  | claimed {owner : String} {duration : ℤ} {limit : ℕ} {destination : Option String}
      {row : OutboxRow} : World.claimable now destination row = true →
      OutboxStep now k (.claimOutbox k.1 owner duration limit destination) (some row)
        (some { row with
          state := .leased owner (now + duration)
          attemptCount := row.attemptCount + 1
          lastErrorCode := none })
  | published {owner : String} {expiresAt publishedAt : Timestamp} {row : OutboxRow} :
      row.state = .leased owner expiresAt →
      OutboxStep now k (.markOutboxPublished k.1 k.2 owner expiresAt publishedAt) (some row)
        (some { row with state := .published publishedAt })
  | failed {owner errorCode : String} {expiresAt retryAt : Timestamp} {row : OutboxRow} :
      row.state = .leased owner expiresAt →
      OutboxStep now k (.markOutboxFailed k.1 k.2 owner expiresAt retryAt errorCode) (some row)
        (some { row with
          state := if row.maxAttempts ≤ row.attemptCount then .deadLetter else .pending
          availableAt := retryAt
          lastErrorCode := some errorCode })
  | deadLettered {owner errorCode : String} {expiresAt : Timestamp} {row : OutboxRow} :
      row.state = .leased owner expiresAt →
      OutboxStep now k (.markOutboxDeadLettered k.1 k.2 owner expiresAt errorCode) (some row)
        (some { row with state := .deadLetter, lastErrorCode := some errorCode })

namespace World

variable {w w' : World} {r : Except Raised Reply}

theorem mem_claimCandidates {tenantId : String} {limit : ℕ} {destination : Option String}
    {k : String × UUID} {row : OutboxRow} (h : (k, row) ∈ w.claimCandidates tenantId limit destination) :
    k.1 = tenantId ∧ w.db.outbox.lookup k = some row ∧ claimable w.clock destination row = true := by
  have hmem := List.mem_mergeSort.1 (List.mem_of_mem_take h)
  rw [List.mem_filter, Table.mem_rows] at hmem
  simp only [Bool.and_eq_true, decide_eq_true_eq] at hmem
  exact ⟨hmem.2.1.1, hmem.1, hmem.2.1.2⟩

theorem nodup_claimCandidates (w : World) (tenantId : String) (limit : ℕ)
    (destination : Option String) :
    ((w.claimCandidates tenantId limit destination).map Prod.fst).Nodup := by
  refine List.Nodup.sublist (List.Sublist.map _ (List.take_sublist ..)) ?_
  refine ((List.mergeSort_perm _ _).map _).nodup_iff.2 ?_
  exact (Table.nodup_keys _).sublist (List.filter_sublist.map _)

/-- What a claim returns is a message that could be claimed, with its new lease. -/
theorem mem_claimOutbox {tenantId leaseOwner : String} {duration : ℤ} {limit : ℕ}
    {destination : Option String} {m : ClaimedOutboxMessage}
    (h : m ∈ (w.claimOutbox tenantId leaseOwner duration limit destination).2) :
    ∃ row, w.db.outbox.lookup (tenantId, m.messageId) = some row ∧
      claimable w.clock destination row = true ∧ m.leaseOwner = leaseOwner ∧
      m.leaseExpiresAt = w.clock + duration := by
  obtain ⟨⟨k, row⟩, hmem, rfl⟩ := List.mem_map.1 h
  obtain ⟨rfl, hrow, hclaimable⟩ := mem_claimCandidates hmem
  exact ⟨row, hrow, hclaimable, rfl, rfl⟩

/-- A claim leases exactly the rows it returns. -/
theorem lookup_claimOutbox (w : World) (tenantId leaseOwner : String) (duration : ℤ) (limit : ℕ)
    (destination : Option String) (k : String × UUID) :
    (∃ m ∈ (w.claimOutbox tenantId leaseOwner duration limit destination).2,
      (tenantId, m.messageId) = k ∧
      (w.claimOutbox tenantId leaseOwner duration limit destination).1.outbox.lookup k =
        (w.db.outbox.lookup k).map fun row => { row with
          state := .leased leaseOwner (w.clock + duration)
          attemptCount := row.attemptCount + 1
          lastErrorCode := none }) ∨
    (∀ m ∈ (w.claimOutbox tenantId leaseOwner duration limit destination).2,
      (tenantId, m.messageId) ≠ k) ∧
      (w.claimOutbox tenantId leaseOwner duration limit destination).1.outbox.lookup k =
        w.db.outbox.lookup k := by
  have hlookup := Table.lookup_foldl_modify (fun row : OutboxRow => { row with
      state := .leased leaseOwner (w.clock + duration)
      attemptCount := row.attemptCount + 1
      lastErrorCode := none }) (w.claimCandidates tenantId limit destination) w.db.outbox
    (w.nodup_claimCandidates tenantId limit destination) k
  by_cases hk : k ∈ (w.claimCandidates tenantId limit destination).map Prod.fst
  · rw [if_pos hk] at hlookup
    obtain ⟨⟨k, row⟩, hmem, rfl⟩ := List.mem_map.1 hk
    obtain ⟨rfl, -⟩ := mem_claimCandidates hmem
    exact Or.inl ⟨_, List.mem_map.2 ⟨_, hmem, rfl⟩, rfl, hlookup⟩
  · rw [if_neg hk] at hlookup
    refine Or.inr ⟨?_, hlookup⟩
    rintro m hm rfl
    obtain ⟨⟨k, row⟩, hmem, rfl⟩ := List.mem_map.1 hm
    obtain ⟨rfl, -⟩ := mem_claimCandidates hmem
    exact hk (List.mem_map.2 ⟨_, hmem, rfl⟩)

theorem exec_approveRequeue {tenantId : String} {workId : UUID} {approval : RequeueApproval}
    {expiresAt : Timestamp}
    (h : exec (.approveRequeue tenantId workId approval expiresAt) w = some (w', r)) :
    ∃ approvals, w' = { w with db := { w.db with approvals := approvals } } := by
  simp only [exec, Option.some.injEq] at h
  cases happrove : w.approveRequeue tenantId workId approval expiresAt with
  | error e =>
    rw [happrove] at h
    cases h
    exact ⟨w.db.approvals, rfl⟩
  | ok result =>
    rw [happrove] at h
    simp only [approveRequeue, bind_eq_ok, pure_eq_ok] at happrove
    obtain ⟨-, -, approvals, -, rfl⟩ := happrove
    cases h
    exact ⟨approvals, rfl⟩

/-- A publisher's verdict changes the row whose exact lease it presents, or nothing. -/
theorem updateOutbox_cases {tenantId owner : String} {messageId : UUID} {expiresAt : Timestamp}
    {f : OutboxRow → OutboxRow}
    (h : w.settle (w.updateOutbox tenantId messageId owner expiresAt f) = (w', r)) :
    w' = w ∨ ∃ row, w.db.outbox.lookup (tenantId, messageId) = some row ∧
      row.state = .leased owner expiresAt ∧
      w' = { w with db :=
        { w.db with outbox := w.db.outbox.upsert (tenantId, messageId) (f row) } } := by
  cases hupdate : w.updateOutbox tenantId messageId owner expiresAt f with
  | error e =>
    rw [hupdate] at h
    cases h
    exact Or.inl rfl
  | ok result =>
    rw [hupdate] at h
    simp only [updateOutbox, bind_eq_ok, orRaise_eq_ok, Table.updateWhere_eq_some, pure_eq_ok]
      at hupdate
    obtain ⟨outbox, ⟨row, hrow, hst, rfl⟩, rfl⟩ := hupdate
    cases h
    exact Or.inr ⟨row, hrow, of_decide_eq_true hst, rfl⟩

end World

/-- A mutation only ever puts a message back to be sent again. -/
theorem outbox_mutation {m : Mutation} {now : Timestamp} {underMaintenance : String → Bool}
    {db db' : Database} (h : m.run now underMaintenance db = .ok db') (k : String × UUID) :
    db'.outbox.lookup k = db.outbox.lookup k ∨ ∃ row publishedAt availableAt,
      db.outbox.lookup k = some row ∧ row.state = .published publishedAt ∧
      db'.outbox.lookup k = some { row with
        state := .pending, availableAt := availableAt, attemptCount := 0, lastErrorCode := none } := by
  cases m with
  | none =>
    cases h
    exact Or.inl rfl
  | work m => exact (WorkMutation.frame h).outbox k
  | gateway m =>
    rw [GatewayMutation.run_rest h]
    exact Or.inl rfl

namespace World

variable {w w' : World} {r : Except Raised Reply}

theorem outboxStep_append {c : Txn} {a : Append} {startedAt : Timestamp} {db' : Database}
    {reply : Reply} (hc : c.outbox = a.outbox)
    (hrun : w.runAppend a startedAt = .ok (db', reply)) (k : String × UUID) :
    OutboxStep w.clock k c (w.db.outbox.lookup k) (db'.outbox.lookup k) := by
  simp only [runAppend, bind_eq_ok, pure_eq_ok, Prod.mk.injEq, Prod.exists] at hrun
  obtain ⟨db₀, version, happend, db₂, hmut, rfl, -⟩ := hrun
  obtain ⟨first, -, -, -, -, hins⟩ := Database.appendInTransaction_spec happend
  have hrest : db₂.outbox.lookup k = db₀.outbox.lookup k ∨ ∃ row publishedAt availableAt,
      db₀.outbox.lookup k = some row ∧ row.state = .published publishedAt ∧
      db₂.outbox.lookup k = some { row with
        state := .pending, availableAt := availableAt, attemptCount := 0, lastErrorCode := none } := by
    cases hinbox : a.inbox <;>
      (rw [hinbox] at hmut; exact outbox_mutation hmut k)
  cases hold : w.db.outbox.lookup k with
  | some row =>
    have hkept := hins.kept k row hold
    rcases hrest with hsame | ⟨row₀, publishedAt, availableAt, hrow₀, hst, hnew⟩
    · rw [hsame, hkept]
      exact .same
    · rw [hkept, Option.some.injEq] at hrow₀
      subst hrow₀
      rw [hnew]
      exact .redriven hst
  | none =>
    cases hnew : db₀.outbox.lookup k with
    | none =>
      rcases hrest with hsame | ⟨row₀, _, _, hrow₀, -⟩
      · rw [hsame, hnew]
        exact .same
      · rw [hnew] at hrow₀
        cases hrow₀
    | some row =>
      obtain ⟨message, hmessage, -, rfl⟩ := hins.new k row hold hnew
      rcases hrest with hsame | ⟨row₀, _, _, hrow₀, hst₀, -⟩
      · rw [hsame, hnew]
        exact .inserted (hc ▸ hmessage) rfl rfl rfl
      · -- what was just inserted is not published
        rw [hnew, Option.some.injEq] at hrow₀
        subst hrow₀
        cases hst₀

/-- **What a transaction does to a row of the outbox.** -/
theorem outboxStep {c : Txn} (h : exec c w = some (w', r)) (k : String × UUID) :
    OutboxStep w.clock k c (w.db.outbox.lookup k) (w'.db.outbox.lookup k) := by
  have hupdate : ∀ {tenantId owner : String} {messageId : UUID} {expiresAt : Timestamp}
      {f : OutboxRow → OutboxRow},
      w.settle (w.updateOutbox tenantId messageId owner expiresAt f) = (w', r) →
      (∀ row, k = (tenantId, messageId) → row.state = .leased owner expiresAt →
        OutboxStep w.clock k c (some row) (some (f row))) →
      OutboxStep w.clock k c (w.db.outbox.lookup k) (w'.db.outbox.lookup k) := by
    intro tenantId owner messageId expiresAt f hsettle hf
    rcases updateOutbox_cases hsettle with rfl | ⟨row, hrow, hst, rfl⟩
    · exact .same
    · by_cases hk : k = (tenantId, messageId)
      · have hf' := hf row hk hst
        rw [hk] at hf' ⊢
        dsimp only
        rw [hrow, Table.lookup_upsert_self]
        exact hf'
      · dsimp only
        rw [Table.lookup_upsert_ne _ _ hk]
        exact .same
  cases c with
  | append a =>
    rcases exec_append h with ⟨rfl, -⟩ | ⟨db', reply, -, hrun, rfl, -⟩
    · exact .same
    · exact outboxStep_append rfl hrun k
  | openFenced f =>
    rcases exec_openFenced h with ⟨rfl, -⟩ | ⟨row, -, -, -, -, rfl, -⟩ <;> exact .same
  | closeFenced tx a =>
    rcases exec_closeFenced h with ⟨-, rfl, -⟩ | ⟨t, -, ⟨e, -, -, rfl⟩ | ⟨db', reply, hrun, -, rfl⟩⟩
    · exact .same
    · exact .same
    · exact outboxStep_append rfl hrun k
  | claimOutbox tenantId leaseOwner duration limit destination =>
    simp only [exec, Option.some.injEq, Prod.mk.injEq] at h
    obtain ⟨rfl, -⟩ := h
    dsimp only
    rcases lookup_claimOutbox w tenantId leaseOwner duration limit destination k with
      ⟨m, hm, rfl, hleased⟩ | ⟨-, hsame⟩
    · obtain ⟨row, hrow, hclaimable, -⟩ := mem_claimOutbox hm
      rw [hleased, hrow]
      exact .claimed hclaimable
    · rw [hsame]
      exact .same
  | markOutboxPublished tenantId messageId owner expiresAt publishedAt =>
    simp only [exec, Option.some.injEq] at h
    refine hupdate h fun row hk hst => ?_
    subst hk
    exact .published hst
  | markOutboxFailed tenantId messageId owner expiresAt retryAt errorCode =>
    simp only [exec, Option.some.injEq] at h
    refine hupdate h fun row hk hst => ?_
    subst hk
    exact .failed hst
  | markOutboxDeadLettered tenantId messageId owner expiresAt errorCode =>
    simp only [exec, Option.some.injEq] at h
    refine hupdate h fun row hk hst => ?_
    subst hk
    exact .deadLettered hst
  | approveRequeue tenantId workId approval expiresAt =>
    obtain ⟨approvals, rfl⟩ := exec_approveRequeue h
    exact .same

/-- The transactions that do not append change the outbox and the approvals
only. -/
theorem exec_other {c : Txn} (hc : c.isOutbox = true) (h : exec c w = some (w', r)) :
    ∃ outbox approvals,
      w' = { w with db := { w.db with outbox := outbox, approvals := approvals } } := by
  have hupdate : ∀ {tenantId owner : String} {messageId : UUID} {expiresAt : Timestamp}
      {f : OutboxRow → OutboxRow},
      w.settle (w.updateOutbox tenantId messageId owner expiresAt f) = (w', r) →
      ∃ outbox approvals,
        w' = { w with db := { w.db with outbox := outbox, approvals := approvals } } := by
    intro tenantId owner messageId expiresAt f hsettle
    rcases updateOutbox_cases hsettle with rfl | ⟨row, -, -, rfl⟩
    · exact ⟨w'.db.outbox, w'.db.approvals, rfl⟩
    · exact ⟨_, w.db.approvals, rfl⟩
  cases c with
  | append => cases hc
  | openFenced => cases hc
  | closeFenced => cases hc
  | claimOutbox tenantId leaseOwner duration limit destination =>
    simp only [exec, Option.some.injEq, Prod.mk.injEq] at h
    obtain ⟨rfl, -⟩ := h
    exact ⟨_, w.db.approvals, rfl⟩
  | approveRequeue tenantId workId approval expiresAt =>
    obtain ⟨approvals, rfl⟩ := exec_approveRequeue h
    exact ⟨w.db.outbox, approvals, rfl⟩
  | markOutboxPublished => exact hupdate (Option.some.inj h)
  | markOutboxFailed => exact hupdate (Option.some.inj h)
  | markOutboxDeadLettered => exact hupdate (Option.some.inj h)

theorem settle_error {result : Except Raised (Database × Reply)} {e : Raised}
    (h : w.settle result = (w', .error e)) : w' = w := by
  cases result with
  | ok => cases h
  | error => cases h; rfl

/-- **A transaction that raises changes no table.** -/
theorem db_of_error {c : Txn} {e : Raised} (h : exec c w = some (w', .error e)) :
    w'.db = w.db := by
  cases c with
  | append a =>
    rcases exec_append h with ⟨rfl, -⟩ | ⟨db', reply, -, -, -, hr⟩
    · rfl
    · cases hr
  | openFenced f =>
    rcases exec_openFenced h with ⟨rfl, -⟩ | ⟨row, -, -, -, -, rfl, -⟩ <;> rfl
  | closeFenced tx a =>
    rcases exec_closeFenced h with ⟨-, rfl, -⟩ | ⟨t, -, ⟨e', -, -, rfl⟩ | ⟨db', reply, -, hr, -⟩⟩
    · rfl
    · rfl
    · cases hr
  | claimOutbox => cases h
  | _ => rw [settle_error (Option.some.inj h)]

end World

end AegisPlatform
