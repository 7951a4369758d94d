import AegisPlatform.EventStore.Statements
import AegisPlatform.EventStore.Stored

/-!
# Appends, interleaved

What an append does when the others run in between.  The row of its tenant in
`tenant_event_commit_locks` is locked before a version is read or a position drawn, so
what it has read of the tenant's streams still holds when it commits.

* `Ledger.Inv` — streams are numbered without gaps up to their heads, the positions of a
  tenant grow in commit order, and every inbox row has its result.
* `Ledger.Rely` — what the others may do to the ledger, given the rows one has locked.
* `Appended` — what an append is about to commit.
* `ledger_good` — every run of appends keeps all of it.
-/

namespace AegisPlatform

open Fallible Transactions

/-! ## The invariant -/

/-- The events of a tenant, in the order in which they were committed. -/
def Ledger.history (l : Ledger) (tenantId : String) : List EventEnvelope :=
  l.db.events.filter (·.tenantId = tenantId)

/-- The events have positions above `0` and below `next`, in growing order. -/
def Ordered (next : ℕ) (es : List EventEnvelope) : Prop :=
  ∃ positions : List ℕ, es.map (·.globalPosition) = positions.map some ∧
    (0 :: positions).Pairwise (· < ·) ∧ ∀ p ∈ 0 :: positions, p < next

theorem Ordered.mono {next next' : ℕ} {es : List EventEnvelope} (h : Ordered next es)
    (hle : next ≤ next') : Ordered next' es := by
  obtain ⟨positions, hes, hsorted, hbelow⟩ := h
  exact ⟨positions, hes, hsorted, fun p hp => lt_of_lt_of_le (hbelow p hp) hle⟩

/-- An event at the next position comes last. -/
theorem Ordered.append {next : ℕ} {es : List EventEnvelope} (h : Ordered next es)
    {e : EventEnvelope} (he : e.globalPosition = some next) : Ordered (next + 1) (es ++ [e]) := by
  obtain ⟨positions, hes, hsorted, hbelow⟩ := h
  refine ⟨positions ++ [next], ?_, ?_, fun p hp => ?_⟩
  · rw [List.map_append, List.map_append, hes, List.map_singleton, List.map_singleton, he]
  · rw [← List.cons_append]
    refine List.pairwise_append.2 ⟨hsorted, List.pairwise_singleton _ _, fun p hp q hq => ?_⟩
    rw [List.mem_singleton.1 hq]
    exact hbelow p hp
  · rw [← List.cons_append] at hp
    rcases List.mem_append.1 hp with hp | hp
    · exact Nat.lt_succ_of_lt (hbelow p hp)
    · rw [List.mem_singleton.1 hp]
      exact Nat.lt_succ_self next

namespace Ledger

/-- What every committed state satisfies. -/
structure Inv (l : Ledger) : Prop where
  heads : l.db.HeadsAgree
  ordered : ∀ tenantId, Ordered l.db.nextPosition (l.history tenantId)
  inbox : ∀ key row, l.db.inbox.lookup key = some row → row.aggregateVersion ≠ none

/-- What the others may do while one has locked the rows. -/
structure Rely (held : List Row) (l l' : Ledger) : Prop where
  history : ∀ t, Row.commitLock t ∈ held → l'.history t = l.history t
  heads : ∀ t a, Row.commitLock t ∈ held → l'.db.heads.lookup (t, a) = l.db.heads.lookup (t, a)
  inbox : ∀ t source messageId, Row.inbox t source messageId ∈ held →
    l'.db.inbox.lookup (t, source, messageId) = l.db.inbox.lookup (t, source, messageId)
  /-- An inbox row that is there stays. -/
  inboxKept : ∀ key row, l.db.inbox.lookup key = some row → l'.db.inbox.lookup key = some row
  commitLocks : ∀ t ∈ l.commitLocks, t ∈ l'.commitLocks
  position : l.db.nextPosition ≤ l'.db.nextPosition

variable {held : List Row} {l l' : Ledger}

theorem Rely.refl (held : List Row) (l : Ledger) : Rely held l l :=
  ⟨fun _ _ => rfl, fun _ _ _ => rfl, fun _ _ _ _ => rfl, fun _ _ h => h, fun _ h => h, le_rfl⟩

theorem Rely.trans {l'' : Ledger} (h : Rely held l l') (h' : Rely held l' l'') :
    Rely held l l'' where
  history t ht := (h'.history t ht).trans (h.history t ht)
  heads t a ht := (h'.heads t a ht).trans (h.heads t a ht)
  inbox t source messageId hk := (h'.inbox t source messageId hk).trans
    (h.inbox t source messageId hk)
  inboxKept key row hrow := h'.inboxKept key row (h.inboxKept key row hrow)
  commitLocks t ht := h'.commitLocks t (h.commitLocks t ht)
  position := h.position.trans h'.position

/-- A change of the sequence, the clock or the other tables. -/
structure Keeps (l l' : Ledger) : Prop where
  events : l'.db.events = l.db.events
  heads : l'.db.heads = l.db.heads
  inbox : l'.db.inbox = l.db.inbox
  commitLocks : l'.commitLocks = l.commitLocks
  position : l.db.nextPosition ≤ l'.db.nextPosition

theorem Keeps.inv (h : Keeps l l') (hl : l.Inv) : l'.Inv where
  heads := hl.heads.congr h.heads h.events
  ordered t := by
    have hordered := hl.ordered t
    unfold history at hordered ⊢
    rw [h.events]
    exact hordered.mono h.position
  inbox key row hrow := hl.inbox key row (by rwa [h.inbox] at hrow)

theorem Keeps.rely (h : Keeps l l') : Rely held l l' where
  history t _ := by unfold history; rw [h.events]
  heads t a _ := by rw [h.heads]
  inbox t source messageId _ := by rw [h.inbox]
  inboxKept key row hrow := by rw [h.inbox]; exact hrow
  commitLocks t ht := by rw [h.commitLocks]; exact ht
  position := h.position

end Ledger

/-- A statement changes nothing that is committed but the sequence. -/
theorem Statement.run_keeps (c : Statement) (l : Ledger) (own : Writes) :
    l.Keeps (c.run l own).1 := by
  have hrefl : l.Keeps l := ⟨rfl, rfl, rfl, rfl, le_rfl⟩
  have hdrawn : l.Keeps { l with db := { l.db with nextPosition := l.db.nextPosition + 1 } } :=
    ⟨rfl, rfl, rfl, rfl, Nat.le_succ _⟩
  cases c with
  | insertEvent e version =>
    unfold run
    dsimp only
    split
    · exact hdrawn
    · exact hdrawn
  | lockLease | selectInbox | lockCommitLock | lockHead => exact hrefl
  | insertInbox | insertCommitLock | insertHead | updateHead | insertOutbox | updateInbox
  | project =>
    simp only [run]
    repeat' split
    all_goals exact hrefl

/-! ## What an append is about to commit -/

/-- The events as they are stored from a version on, at the positions that were drawn for
them. -/
def EventEnvelope.storeAt (recordedAt : Timestamp) :
    ℕ → List EventEnvelope → List ℕ → List EventEnvelope
  | version, e :: rest, p :: positions =>
    e.stored (version + 1) p recordedAt :: storeAt recordedAt (version + 1) rest positions
  | _, _, _ => []

/-- The transaction holds the tenant's lock, has found the stream at the version it
expected, and has inserted `es`. -/
structure Inserting (t a : String) (expected : ℕ) (es : List EventEnvelope) (held : List Row)
    (own : Writes) (l : Ledger) : Prop where
  lock : Row.commitLock t ∈ held
  version : l.db.version t a = expected
  stored : ∃ positions : List ℕ, positions.length = es.length ∧
    own.events = EventEnvelope.storeAt own.startedAt expected es positions
  stream : ∀ e ∈ es, e.tenantId = t ∧ e.aggregateId = a
  ordered : Ordered l.db.nextPosition (l.history t ++ own.events)
  heads : ∀ row ∈ own.heads, row.1 = (t, a)
  /-- There is a head to update. -/
  headed : (writeRows l.db.heads own.heads).lookup (t, a) ≠ none

/-- The head is updated too. -/
structure Appending (t a : String) (expected : ℕ) (es : List EventEnvelope) (held : List Row)
    (own : Writes) (l : Ledger) : Prop extends Inserting t a expected es held own l where
  head : own.heads.getLast? = some ((t, a), expected + es.length)

section

variable {t a : String} {expected : ℕ} {es : List EventEnvelope} {held : List Row} {own : Writes}
  {l l' : Ledger}

theorem lookup_writeRows_ne {κ ρ : Type} [DecidableEq κ] {k : κ} (rows : List (κ × ρ))
    (table : Table κ ρ) (h : ∀ row ∈ rows, row.1 ≠ k) :
    (writeRows table rows).lookup k = table.lookup k := by
  induction rows generalizing table with
  | nil => rfl
  | cons row rest ih =>
    unfold writeRows at ih ⊢
    rw [List.foldl_cons, ih _ fun r hr => h r (List.mem_cons_of_mem _ hr)]
    exact Table.lookup_upsert_ne _ _ (h row (List.mem_cons_self ..)).symm

theorem writeRows_append {κ ρ : Type} [DecidableEq κ] (table : Table κ ρ)
    (rows rows' : List (κ × ρ)) :
    writeRows table (rows ++ rows') = writeRows (writeRows table rows) rows' :=
  List.foldl_append ..

/-- Rows under one key: the table matters only where there are none. -/
theorem lookup_writeRows_congr {κ ρ : Type} [DecidableEq κ] {k : κ} (rows : List (κ × ρ))
    {table table' : Table κ ρ} (h : table.lookup k = table'.lookup k) :
    (writeRows table rows).lookup k = (writeRows table' rows).lookup k := by
  induction rows generalizing table table' with
  | nil => exact h
  | cons row rest ih =>
    refine ih ?_
    rw [Table.lookup_upsert, Table.lookup_upsert, h]

/-- What the others do leaves it in place. -/
theorem Inserting.later (h : Inserting t a expected es held own l) (hrely : Ledger.Rely held l l') :
    Inserting t a expected es held own l' where
  lock := h.lock
  version := by
    have hversion := h.version
    unfold Database.version at hversion ⊢
    rw [hrely.heads t a h.lock]
    exact hversion
  stored := h.stored
  stream := h.stream
  ordered := by
    rw [hrely.history t h.lock]
    exact h.ordered.mono hrely.position
  heads := h.heads
  headed := by
    rw [lookup_writeRows_congr own.heads (hrely.heads t a h.lock)]
    exact h.headed

theorem length_storeAt {recordedAt : Timestamp} {version : ℕ} {es : List EventEnvelope}
    {positions : List ℕ} (h : positions.length = es.length) :
    (EventEnvelope.storeAt recordedAt version es positions).length = es.length := by
  induction es generalizing version positions with
  | nil => rfl
  | cons e rest ih =>
    cases positions with
    | nil => cases h
    | cons p positions =>
      rw [EventEnvelope.storeAt, List.length_cons, ih (Nat.succ.inj h), List.length_cons]

theorem mem_storeAt {recordedAt : Timestamp} {version : ℕ} {es : List EventEnvelope}
    {positions : List ℕ} {e : EventEnvelope}
    (h : e ∈ EventEnvelope.storeAt recordedAt version es positions) :
    ∃ e₀ ∈ es, e.tenantId = e₀.tenantId ∧ e.aggregateId = e₀.aggregateId := by
  induction es generalizing version positions with
  | nil => cases h
  | cons e₁ rest ih =>
    cases positions with
    | nil => cases h
    | cons p positions =>
      rcases List.mem_cons.1 h with rfl | h
      · exact ⟨e₁, List.mem_cons_self .., rfl, rfl⟩
      · obtain ⟨e₀, he₀, hfields⟩ := ih h
        exact ⟨e₀, List.mem_cons_of_mem _ he₀, hfields⟩

theorem map_aggregateSequence_storeAt {recordedAt : Timestamp} {version : ℕ}
    {es : List EventEnvelope} {positions : List ℕ} (h : positions.length = es.length) :
    (EventEnvelope.storeAt recordedAt version es positions).map (·.aggregateSequence) =
      List.range' (version + 1) es.length := by
  induction es generalizing version positions with
  | nil => rfl
  | cons e rest ih =>
    cases positions with
    | nil => cases h
    | cons p positions =>
      rw [EventEnvelope.storeAt, List.map_cons, ih (Nat.succ.inj h), List.length_cons,
        List.range'_succ]
      rfl

theorem Inserting.mem (h : Inserting t a expected es held own l) {e : EventEnvelope}
    (he : e ∈ own.events) : e.tenantId = t ∧ e.aggregateId = a := by
  obtain ⟨positions, -, hevents⟩ := h.stored
  rw [hevents] at he
  obtain ⟨e₀, he₀, htenant, haggregate⟩ := mem_storeAt he
  obtain ⟨ht, ha⟩ := h.stream e₀ he₀
  exact ⟨htenant.trans ht, haggregate.trans ha⟩

theorem Inserting.length (h : Inserting t a expected es held own l) :
    own.events.length = es.length := by
  obtain ⟨positions, hlength, hevents⟩ := h.stored
  rw [hevents, length_storeAt hlength]

theorem Appending.later (h : Appending t a expected es held own l)
    (hrely : Ledger.Rely held l l') : Appending t a expected es held own l' :=
  ⟨h.toInserting.later hrely, h.head⟩

/-- The heads after the commit. -/
theorem Appending.lookup_heads (h : Appending t a expected es held own l)
    (k : String × String) : (own.apply l).db.heads.lookup k =
      (l.db.heads.upsert (t, a) (expected + own.events.length)).lookup k := by
  rw [Writes.apply_heads, h.length, Table.lookup_upsert]
  by_cases hk : k = (t, a)
  · subst hk
    obtain ⟨rows, hrows⟩ := List.getLast?_eq_some_iff.1 h.head
    rw [hrows, writeRows_append, if_pos rfl]
    exact Table.lookup_upsert_self ..
  · rw [if_neg hk, lookup_writeRows_ne _ _ fun row hrow => ?_]
    rw [h.heads row hrow]
    exact fun heq => hk heq.symm

theorem Appending.headsAgree (h : Appending t a expected es held own l)
    (hl : l.db.HeadsAgree) : (own.apply l).db.HeadsAgree := by
  refine hl.append h.version (fun e he => h.mem he) ?_ (Writes.apply_events own l) h.lookup_heads
  obtain ⟨positions, hlength, hevents⟩ := h.stored
  rw [hevents, map_aggregateSequence_storeAt hlength, length_storeAt hlength]

/-- The histories after the commit. -/
theorem Appending.history (h : Appending t a expected es held own l) (t' : String) :
    (own.apply l).history t' = if t' = t then l.history t ++ own.events else l.history t' := by
  unfold Ledger.history
  rw [Writes.apply_events, List.filter_append]
  by_cases ht : t' = t
  · subst ht
    rw [if_pos rfl, List.filter_eq_self.2 fun e he => decide_eq_true (h.mem he).1]
  · have hnone : own.events.filter (·.tenantId = t') = [] := by
      refine List.filter_eq_nil_iff.2 fun e he htenant => ?_
      exact ht ((of_decide_eq_true htenant).symm.trans (h.mem he).1)
    rw [if_neg ht, hnone, List.append_nil]

theorem Appending.ordered_apply (h : Appending t a expected es held own l)
    (hl : ∀ t, Ordered l.db.nextPosition (l.history t)) (t' : String) :
    Ordered (own.apply l).db.nextPosition ((own.apply l).history t') := by
  rw [Writes.apply_nextPosition, h.history]
  split
  · exact h.ordered
  · exact hl t'

end

/-! ## What a call is about to commit -/

/-- The key of an inbox message. -/
abbrev InboxKey := String × String × String

/-- The row of an inbox message. -/
def InboxKey.row (k : InboxKey) : Row := .inbox k.1 k.2.1 k.2.2

/-- The transaction has taken the inbox message: its row is locked, and there is none
committed. -/
def Taken (key : Option InboxKey) (held : List Row) (l : Ledger) : Prop :=
  ∀ k, key = some k → k.row ∈ held ∧ l.db.inbox.lookup k = none

/-- The stream a call appends to. -/
def AppendCall.aggregateId (g : AppendCall) : String :=
  (g.events.head?.map (·.aggregateId)).getD ""

/-- What an append commits. -/
structure Appends (g : AppendCall) (version : ℕ) (held : List Row) (own : Writes) (l : Ledger) :
    Prop where
  appending : Appending g.tenantId g.aggregateId g.expectedVersion.toNat g.events held own l
  nonneg : 0 ≤ g.expectedVersion
  reached : version = g.expectedVersion.toNat + g.events.length
  taken : Taken g.inboxKey held l
  /-- It writes no inbox row but that of its message. -/
  inbox : ∀ row ∈ own.inbox, some row.1 = g.inboxKey
  result : ∀ k, g.inboxKey = some k →
    ∃ receivedAt, own.inbox.getLast? = some (k, ⟨receivedAt, some version⟩)

/-- What a duplicate delivery commits: nothing.  It answers what is recorded. -/
structure Repeats (g : AppendCall) (version : ℕ) (own : Writes) (l : Ledger) : Prop where
  key : ∃ k row, g.inboxKey = some k ∧ l.db.inbox.lookup k = some row ∧
    row.aggregateVersion = some version
  nothing : own = { startedAt := own.startedAt }

/-- What a call is about to commit when it returns. -/
def Returns (g : AppendCall) (r : AppendResult) (held : List Row) (own : Writes) (l : Ledger) :
    Prop :=
  (r.duplicate = false ∧ Appends g r.aggregateVersion held own l) ∨
    (r.duplicate = true ∧ Repeats g r.aggregateVersion own l)

/-- The error of a duplicate without a result. -/
def noResult : Raised := .permanentStorageError "duplicate inbox record has no committed result"

/-- The rule of the appends. -/
def ledgerRule :
    Rule Statement Statement.Reply Failed Ledger Writes Row AppendCall AppendResult where
  inv := Ledger.Inv
  rely := Ledger.Rely
  asks _ _ _ := True
  done := Returns
  failed _ e := e ≠ .store noResult

theorem Repeats.apply_eq {g : AppendCall} {version : ℕ} {own : Writes} {l : Ledger}
    (h : Repeats g version own l) : own.apply l = l := by
  rw [h.nothing]
  unfold Writes.apply
  simp [writeRows]

section

variable {g : AppendCall} {version : ℕ} {held : List Row} {own : Writes} {l l' : Ledger}

theorem Taken.later {key : Option InboxKey} (h : Taken key held l)
    (hrely : Ledger.Rely held l l') : Taken key held l' := by
  intro k hk
  obtain ⟨hrow, hnone⟩ := h k hk
  exact ⟨hrow, (hrely.inbox k.1 k.2.1 k.2.2 hrow).trans hnone⟩

theorem Taken.mono {key : Option InboxKey} (h : Taken key held l) (more : List Row) :
    Taken key (held ++ more) l := by
  intro k hk
  obtain ⟨hrow, hnone⟩ := h k hk
  exact ⟨List.mem_append_left _ hrow, hnone⟩

/-- The inbox after the commit. -/
theorem Appends.lookup_inbox (h : Appends g version held own l) (k : InboxKey) :
    (some k = g.inboxKey ∧
      ∃ receivedAt, (own.apply l).db.inbox.lookup k = some ⟨receivedAt, some version⟩) ∨
    (some k ≠ g.inboxKey ∧ (own.apply l).db.inbox.lookup k = l.db.inbox.lookup k) := by
  rw [Writes.apply_inbox]
  by_cases hk : some k = g.inboxKey
  · obtain ⟨receivedAt, hlast⟩ := h.result k hk.symm
    obtain ⟨rows, hrows⟩ := List.getLast?_eq_some_iff.1 hlast
    refine Or.inl ⟨hk, receivedAt, ?_⟩
    rw [hrows, writeRows_append]
    exact Table.lookup_upsert_self (writeRows l.db.inbox rows) k _
  · refine Or.inr ⟨hk, lookup_writeRows_ne _ _ fun row hrow heq => hk ?_⟩
    rw [← heq]
    exact h.inbox row hrow

theorem Appends.inv (h : Appends g version held own l) (hl : l.Inv) : (own.apply l).Inv where
  heads := h.appending.headsAgree hl.heads
  ordered := h.appending.ordered_apply hl.ordered
  inbox k row hrow := by
    rcases h.lookup_inbox k with ⟨-, receivedAt, hk⟩ | ⟨-, hk⟩
    · rw [hk, Option.some.injEq] at hrow
      subst hrow
      exact Option.some_ne_none _
    · rw [hk] at hrow
      exact hl.inbox k row hrow

/-- Another transaction, with other rows locked, can bear the commit. -/
theorem Appends.rely (h : Appends g version held own l) {other : List Row}
    (hother : ∀ row ∈ other, row ∉ held) : Ledger.Rely other l (own.apply l) where
  history t ht := by
    rw [h.appending.history, if_neg]
    rintro rfl
    exact hother _ ht h.appending.lock
  heads t a ht := by
    rw [h.appending.lookup_heads, Table.lookup_upsert_ne]
    intro heq
    cases heq
    exact hother _ ht h.appending.lock
  inbox t source messageId ht := by
    rcases h.lookup_inbox (t, source, messageId) with ⟨hk, -⟩ | ⟨-, hk⟩
    · exact absurd (h.taken _ hk.symm).1 (hother _ ht)
    · exact hk
  inboxKept k row hrow := by
    rcases h.lookup_inbox k with ⟨hk, -⟩ | ⟨-, hk⟩
    · rw [(h.taken _ hk.symm).2] at hrow
      cases hrow
    · exact hk.trans hrow
  commitLocks t ht := List.mem_append_left _ ht
  position := (Writes.apply_nextPosition own l).ge

end

/-- **The rule is sound**: a commit of one append leaves to the others what they rely
on. -/
theorem ledgerRule_sound : ledgerRule.Sound ledgerEngine where
  refl := Ledger.Rely.refl
  trans _ _ _ _ h h' := h.trans h'
  exec_inv c l own hl := (c.run_keeps l own).inv hl
  exec_rely c l own held _ := (c.run_keeps l own).rely
  commit_inv g r held own l hl h := by
    rcases h with ⟨-, h⟩ | ⟨-, h⟩
    · exact h.inv hl
    · rw [show ledgerEngine.commit own l = l from h.apply_eq]
      exact hl
  commit_rely g r held own l other hl h hother := by
    rcases h with ⟨-, h⟩ | ⟨-, h⟩
    · exact h.rely hother
    · rw [show ledgerEngine.commit own l = l from h.apply_eq]
      exact Ledger.Rely.refl other l
  tick_inv := by
    rintro l _ hl ⟨clock, p, -, rfl⟩
    exact Ledger.Keeps.inv ⟨p.events _, p.heads _, p.inbox _, rfl, (p.nextPosition _).ge⟩ hl
  tick_rely := by
    rintro l _ held - ⟨clock, p, -, rfl⟩
    exact Ledger.Keeps.rely ⟨p.events _, p.heads _, p.inbox _, rfl, (p.nextPosition _).ge⟩
  aborted _ h := by cases h

/-! ## What the statements do -/

theorem Statement.run_error {c : Statement} {l u : Ledger} {own own' : Writes} {e : Failed}
    (h : c.run l own = (u, own', .error e)) :
    e = .store permanentStorageFailure ∨ ∃ e', e = .mutation e' := by
  cases c <;> simp only [run] at h <;> (repeat' split at h) <;> cases h <;>
    first | exact Or.inl rfl | exact Or.inr ⟨_, rfl⟩

/-- No statement fails with the error of a duplicate without a result. -/
theorem Statement.run_failed {c : Statement} {l u : Ledger} {own own' : Writes} {e : Failed}
    (h : c.run l own = (u, own', .error e)) : e ≠ .store noResult := by
  rintro rfl
  rcases run_error h with heq | ⟨e', heq⟩
  · rw [Failed.store.injEq] at heq
    unfold permanentStorageFailure noResult at heq
    simp at heq
  · cases heq

/-- The writes are the same as far as the ledger and the inbox go. -/
structure Writes.Same (own own' : Writes) : Prop where
  startedAt : own'.startedAt = own.startedAt
  events : own'.events = own.events
  heads : own'.heads = own.heads
  inbox : own'.inbox = own.inbox

section

variable {l u : Ledger} {own own' : Writes} {t a : String}

theorem run_insertCommitLock {r : Unit}
    (h : (Statement.insertCommitLock t).run l own = (u, own', .ok r)) :
    u = l ∧ own.Same own' ∧ t ∈ (own'.apply l).commitLocks := by
  simp only [Statement.run] at h
  split at h
  · rename_i hmem
    cases h
    exact ⟨rfl, ⟨rfl, rfl, rfl, rfl⟩, hmem⟩
  · split at h
    · cases h
    · cases h
      refine ⟨rfl, ⟨rfl, rfl, rfl, rfl⟩, ?_⟩
      exact List.mem_append_right _ (List.mem_append_right _ (List.mem_singleton.2 rfl))

/-- The head is there from now on, at the version that is committed. -/
theorem run_insertHead {r : Unit} (hheads : ∀ row ∈ own.heads, row.1 = (t, a))
    (hfirst : own.heads = [])
    (h : (Statement.insertHead t a).run l own = (u, own', .ok r)) :
    u = l ∧ own'.startedAt = own.startedAt ∧ own'.events = own.events ∧ own'.inbox = own.inbox ∧
      own'.commitLocks = own.commitLocks ∧ (∀ row ∈ own'.heads, row.1 = (t, a)) ∧
      (writeRows l.db.heads own'.heads).lookup (t, a) = some (l.db.version t a) := by
  simp only [Statement.run, Writes.apply_heads, hfirst] at h
  unfold Database.version
  split at h
  · rename_i hsome
    cases h
    refine ⟨rfl, rfl, rfl, rfl, rfl, hheads, ?_⟩
    obtain ⟨version, hversion⟩ := Option.isSome_iff_exists.1 hsome
    rw [hfirst, hversion]
    rw [show writeRows l.db.heads [] = l.db.heads from rfl] at hversion
    rw [hversion]
    rfl
  · rename_i hnone
    split at h
    · cases h
    · cases h
      refine ⟨rfl, rfl, rfl, rfl, rfl, fun row hrow => ?_, ?_⟩
      · rw [List.mem_singleton.1 hrow]
      · have hlookup : l.db.heads.lookup (t, a) = none := by simpa [writeRows] using hnone
        rw [hlookup]
        exact Table.lookup_upsert_self ..

theorem run_insertEvent {e : EventEnvelope} {version : ℕ} {r : Unit}
    (h : (Statement.insertEvent e version).run l own = (u, own', .ok r)) :
    u = { l with db := { l.db with nextPosition := l.db.nextPosition + 1 } } ∧
      own' = { own with
        events := own.events ++ [e.stored version l.db.nextPosition own.startedAt] } := by
  simp only [Statement.run] at h
  split at h
  · cases h
  · cases h
    exact ⟨rfl, rfl⟩

theorem run_updateHead {version : ℕ} {r : Unit}
    (hheaded : (writeRows l.db.heads own.heads).lookup (t, a) ≠ none)
    (h : (Statement.updateHead t a version).run l own = (u, own', .ok r)) :
    u = l ∧ own' = { own with heads := own.heads ++ [((t, a), version)] } := by
  simp only [Statement.run, Writes.apply_heads] at h
  split at h
  · cases h
    exact ⟨rfl, rfl⟩
  · rename_i hnone
    exact absurd (Option.not_isSome_iff_eq_none.1 hnone) hheaded

theorem run_insertOutbox {message : OutboxMessage} {r : Unit}
    (h : (Statement.insertOutbox t message).run l own = (u, own', .ok r)) :
    u = l ∧ own.Same own' := by
  simp only [Statement.run] at h
  split at h
  · cases h
  · cases h
    exact ⟨rfl, rfl, rfl, rfl, rfl⟩

theorem run_project {rows : List Row} {write : Ledger → Except Raised Projection} {r : Ledger}
    (h : (Statement.project rows write).run l own = (u, own', .ok r)) :
    u = l ∧ own.Same own' := by
  simp only [Statement.run] at h
  split at h
  · cases h
    exact ⟨rfl, rfl, rfl, rfl, rfl⟩
  · cases h

end

/-! ## The appends follow the rule -/

/-- A transaction of the call follows the rule of the appends. -/
abbrev LedgerSafe (g : AppendCall) {α : Type} (Q : α → List Row → Writes → Ledger → Prop)
    (p : Transaction α) (held : List Row) (own : Writes) (l : Ledger) : Prop :=
  Safe ledgerEngine ledgerRule g Q p held own l

section

variable {g : AppendCall} {held : List Row} {own : Writes} {l : Ledger} {t a : String}
  {expected : ℕ} {es : List EventEnvelope} {α β : Type} {Q : β → List Row → Writes → Ledger → Prop}

/-- A statement that the engine answers, and what follows it. -/
theorem safe_execute {c : Statement} {f : c.Reply → Transaction β}
    (h : ∀ l', l'.Inv → Ledger.Rely held l l' → ∀ u own' r, c.run l' own = (u, own', .ok r) →
      LedgerSafe g Q (f r) (held ++ c.rows (own.apply l')) own' u) :
    LedgerSafe g Q (Transaction.execute c >>= f) held own l :=
  Safe.execute_bind fun l' hl' hrely =>
    ⟨trivial, h l' hl' hrely, fun _ _ _ he => Statement.run_failed he⟩

/-- A check of the event store's own code, none of which is about duplicates. -/
theorem safe_check {x : Except Raised Unit} {f : Unit → Transaction β}
    (herror : RaisesOnly (· ≠ noResult) x)
    (hok : x = .ok () → LedgerSafe g Q (f ()) held own l) :
    LedgerSafe g Q (Transaction.check x >>= f) held own l := by
  refine Safe.ofExcept_bind (fun e he => ?_) fun _ hx => ?_
  · cases x with
    | ok _ => cases he
    | error e' =>
      cases he
      intro heq
      cases heq
      exact herror noResult rfl rfl
  · cases x with
    | ok _ => exact hok rfl
    | error e' => cases hx

/-- The state of an append whose inbox message is taken, in terms of `Inserting`. -/
theorem Inserting.same {own' : Writes} (h : Inserting t a expected es held own l)
    (hsame : own.Same own') (more : List Row) : Inserting t a expected es (held ++ more) own' l where
  lock := List.mem_append_left _ h.lock
  version := h.version
  stored := by rw [hsame.startedAt, hsame.events]; exact h.stored
  stream := h.stream
  ordered := by rw [hsame.events]; exact h.ordered
  heads := by rw [hsame.heads]; exact h.heads
  headed := by rw [hsame.heads]; exact h.headed

theorem Appending.same {own' : Writes} (h : Appending t a expected es held own l)
    (hsame : own.Same own') (more : List Row) : Appending t a expected es (held ++ more) own' l :=
  ⟨h.toInserting.same hsame more, by rw [hsame.heads]; exact h.head⟩

/-- The inbox rows do not matter to it. -/
theorem Appending.congr_inbox (h : Appending t a expected es held own l)
    (rows : List (InboxKey × InboxRow)) (more : List Row) :
    Appending t a expected es (held ++ more) { own with inbox := rows } l :=
  ⟨⟨List.mem_append_left _ h.lock, h.version, h.stored, h.stream, h.ordered, h.heads, h.headed⟩,
    h.head⟩

/-- What is kept by statements that touch neither the ledger nor the inbox. -/
structure Settled (P : List Row → Writes → Ledger → Prop) : Prop where
  later : ∀ {held own l l'}, P held own l → Ledger.Rely held l l' → P held own l'
  same : ∀ {held own own' l} (more : List Row), P held own l → own.Same own' →
    P (held ++ more) own' l

theorem safe_mutation {P : List Row → Writes → Ledger → Prop} (hP : Settled P)
    (m : MutationCode) (h : P held own l) :
    LedgerSafe g (fun _ held own l => P held own l) m.run held own l := by
  induction m generalizing held own l with
  | ret _ => exact fun l' _ hrely => hP.later h hrely
  | raise e => exact fun heq => (by cases heq)
  | exec c next ih =>
    refine safe_execute fun l' _ hrely u own' r hrun => ?_
    obtain ⟨rfl, hsame⟩ := run_project hrun
    exact ih r (hP.same _ (hP.later h hrely) hsame)

theorem safe_runOptional {P : List Row → Writes → Ledger → Prop} (hP : Settled P)
    (m : Option MutationCode) (h : P held own l) :
    LedgerSafe g (fun _ held own l => P held own l) (MutationCode.runOptional m) held own l := by
  cases m with
  | none => exact fun l' _ hrely => hP.later h hrely
  | some m => exact safe_mutation hP m h

theorem safe_insertOutbox {P : List Row → Writes → Ledger → Prop} (hP : Settled P)
    (messages : List OutboxMessage) (h : P held own l) :
    LedgerSafe g (fun _ held own l => P held own l) (Transaction.insertOutbox t messages)
      held own l := by
  induction messages generalizing held own l with
  | nil => exact fun l' _ hrely => hP.later h hrely
  | cons message rest ih =>
    refine safe_execute fun l' _ hrely u own' r hrun => ?_
    obtain ⟨rfl, hsame⟩ := run_insertOutbox hrun
    exact ih (hP.same _ (hP.later h hrely) hsame)

/-- What the transaction has of its inbox message. -/
structure Message (key : Option InboxKey) (inbox : List (InboxKey × InboxRow)) (held : List Row)
    (own : Writes) (l : Ledger) : Prop where
  inbox : own.inbox = inbox
  taken : Taken key held l

variable {key : Option InboxKey} {inbox : List (InboxKey × InboxRow)} {l' : Ledger} {own' : Writes}

theorem Message.later (h : Message key inbox held own l) (hrely : Ledger.Rely held l l') :
    Message key inbox held own l' :=
  ⟨h.inbox, h.taken.later hrely⟩

theorem Message.congr (h : Message key inbox held own l) (hown : own'.inbox = own.inbox)
    (hl : l'.db.inbox = l.db.inbox) (more : List Row) :
    Message key inbox (held ++ more) own' l' := by
  refine ⟨hown.trans h.inbox, fun k hk => ?_⟩
  rw [hl]
  exact h.taken.mono more k hk

theorem storeAt_append {recordedAt : Timestamp} {version p : ℕ} {es : List EventEnvelope}
    {positions : List ℕ} {e : EventEnvelope} (h : positions.length = es.length) :
    EventEnvelope.storeAt recordedAt version (es ++ [e]) (positions ++ [p]) =
      EventEnvelope.storeAt recordedAt version es positions ++
        [e.stored (version + es.length + 1) p recordedAt] := by
  induction es generalizing version positions with
  | nil =>
    rw [List.length_eq_zero_iff.1 h]
    rfl
  | cons e₁ rest ih =>
    cases positions with
    | nil => cases h
    | cons q positions =>
      rw [List.cons_append, List.cons_append, EventEnvelope.storeAt, EventEnvelope.storeAt,
        ih (Nat.succ.inj h), List.length_cons, Nat.add_assoc version 1, Nat.add_comm 1]
      rfl

/-- One more event. -/
theorem Inserting.insert (h : Inserting t a expected es held own l) {e : EventEnvelope}
    (he : e.tenantId = t ∧ e.aggregateId = a) (more : List Row) :
    Inserting t a expected (es ++ [e]) (held ++ more)
      { own with events := own.events ++
        [e.stored (expected + es.length + 1) l.db.nextPosition own.startedAt] }
      { l with db := { l.db with nextPosition := l.db.nextPosition + 1 } } where
  lock := List.mem_append_left _ h.lock
  version := h.version
  stored := by
    obtain ⟨positions, hlength, hevents⟩ := h.stored
    refine ⟨positions ++ [l.db.nextPosition], ?_, ?_⟩
    · rw [List.length_append, List.length_append, hlength]
      rfl
    · rw [storeAt_append hlength, ← hevents]
  stream e' he' := by
    rcases List.mem_append.1 he' with he' | he'
    · exact h.stream e' he'
    · rw [List.mem_singleton.1 he']
      exact he
  ordered := by
    have hordered := h.ordered.append (e := e.stored (expected + es.length + 1) l.db.nextPosition
      own.startedAt) rfl
    rw [List.append_assoc] at hordered
    exact hordered
  heads := h.heads
  headed := h.headed

/-- Nothing is inserted yet. -/
theorem inserting_nil (hl : l.Inv) (hlock : Row.commitLock t ∈ held) (hevents : own.events = [])
    (hkeys : ∀ row ∈ own.heads, row.1 = (t, a))
    (hhead : (writeRows l.db.heads own.heads).lookup (t, a) = some (l.db.version t a)) :
    Inserting t a (l.db.version t a) [] held own l where
  lock := hlock
  version := rfl
  stored := ⟨[], rfl, hevents⟩
  stream := fun e he => (by cases he)
  ordered := by
    rw [hevents, List.append_nil]
    exact hl.ordered t
  heads := hkeys
  headed := by
    rw [hhead]
    exact Option.some_ne_none _

/-- Everything is inserted, and the head is updated. -/
theorem Inserting.update (h : Inserting t a expected es held own l) (more : List Row) :
    Appending t a expected es (held ++ more)
      { own with heads := own.heads ++ [((t, a), expected + es.length)] } l where
  lock := List.mem_append_left _ h.lock
  version := h.version
  stored := h.stored
  stream := h.stream
  ordered := h.ordered
  heads row hrow := by
    rcases List.mem_append.1 hrow with hrow | hrow
    · exact h.heads row hrow
    · rw [List.mem_singleton.1 hrow]
  headed := by
    rw [writeRows_append]
    exact (Table.lookup_upsert_self ..).trans_ne (Option.some_ne_none _)
  head := List.getLast?_concat

/-- Inserting the rest of the batch. -/
theorem safe_insertEvents (rest done : List EventEnvelope)
    (hstream : ∀ e ∈ rest, e.tenantId = t ∧ e.aggregateId = a)
    (h : Inserting t a expected done held own l) (hmessage : Message key inbox held own l) :
    LedgerSafe g (fun version held own l => version = expected + (done ++ rest).length ∧
      Inserting t a expected (done ++ rest) held own l ∧ Message key inbox held own l)
      (Transaction.insertEvents rest (expected + done.length)) held own l := by
  induction rest generalizing done held own l with
  | nil =>
    rw [List.append_nil]
    exact fun l' _ hrely => ⟨rfl, h.later hrely, hmessage.later hrely⟩
  | cons e rest ih =>
    refine safe_execute fun l' _ hrely u own' r hrun => ?_
    obtain ⟨rfl, rfl⟩ := run_insertEvent hrun
    have hnext := (h.later hrely).insert (hstream e (List.mem_cons_self ..))
      ((Statement.insertEvent e (expected + done.length + 1)).rows (own.apply l'))
    have hrest := ih (done ++ [e]) (fun e' he' => hstream e' (List.mem_cons_of_mem _ he')) hnext
      ((hmessage.later hrely).congr (by rfl) (by rfl) _)
    have hversion : expected + (done ++ [e]).length = expected + done.length + 1 := by
      rw [List.length_append]
      rfl
    rw [hversion, List.append_assoc] at hrest
    exact hrest

/-- The transaction sees the row that serializes the commits of the tenant, so it can
lock it. -/
theorem rows_lockCommitLock (h : t ∈ (own.apply l).commitLocks) :
    (Statement.lockCommitLock t).rows (own.apply l) = [.commitLock t] := by
  rw [Statement.rows, if_pos h]

theorem commitLocks_later (h : t ∈ (own.apply l).commitLocks) (hrely : Ledger.Rely held l l') :
    t ∈ (own.apply l').commitLocks := by
  rw [Writes.apply_commitLocks] at h ⊢
  rcases List.mem_append.1 h with h | h
  · exact List.mem_append_left _ (hrely.commitLocks t h)
  · exact List.mem_append_right _ h

/-- The version check and the inserts, under the lock. -/
theorem safe_appendAtHead {messages : List OutboxMessage} {actual : ℕ}
    (hstream : ∀ e ∈ es, e.tenantId = t ∧ e.aggregateId = a)
    (h : Inserting t a actual [] held own l) (hmessage : Message key inbox held own l)
    (hl : l.Inv) :
    LedgerSafe g (fun version held own l => version = expected + es.length ∧
      Appending t a expected es held own l ∧ Message key inbox held own l)
      (Transaction.appendAtHead t a es expected messages (some actual)) held own l := by
  refine safe_check (raisesOnly_raiseIf fun _ h => (by cases h)) fun hcheck => ?_
  rw [raiseIf_eq_ok, not_not] at hcheck
  subst hcheck
  refine Safe.bind ledgerRule_sound (Safe.mono (fun version held own l hpost hinv => ?_)
    (safe_insertEvents es [] hstream h hmessage)) hl
  obtain ⟨rfl, hinserting, hmessage⟩ := hpost
  rw [List.nil_append] at hinserting ⊢
  refine safe_execute fun l' hl' hrely u own' _ hrun => ?_
  have hlater := hinserting.later hrely
  obtain ⟨rfl, rfl⟩ := run_updateHead hlater.headed hrun
  have hP : Settled fun held own l => Appending t a actual es held own l ∧
      Message key inbox held own l :=
    ⟨fun h hrely => ⟨h.1.later hrely, h.2.later hrely⟩,
      fun more h hsame => ⟨h.1.same hsame more, h.2.congr hsame.inbox rfl more⟩⟩
  refine Safe.bind ledgerRule_sound (Safe.mono (fun _ held own l hpost _ => ?_)
    (safe_insertOutbox hP messages
      ⟨hlater.update _, (hmessage.later hrely).congr (by rfl) rfl _⟩)) hl'
  exact fun l' _ hrely => ⟨rfl, hpost.1.later hrely, hpost.2.later hrely⟩

/-- **An append**, whatever the others do: once the tenant's row is locked, the version
it reads and the positions it draws stay ahead of everything that is committed. -/
theorem safe_appendInTransaction {messages : List OutboxMessage} (hne : es ≠ [])
    (hstream : ∀ e ∈ es, e.tenantId = t ∧ e.aggregateId = a) (hevents : own.events = [])
    (hheads : own.heads = []) (hmessage : Message key inbox held own l) :
    LedgerSafe g (fun version held own l => version = expected + es.length ∧
      Appending t a expected es held own l ∧ Message key inbox held own l)
      (Transaction.appendInTransaction es expected messages) held own l := by
  obtain ⟨first, rest, rfl⟩ := List.exists_cons_of_ne_nil hne
  obtain ⟨ht, ha⟩ := hstream first (List.mem_cons_self ..)
  unfold Transaction.appendInTransaction
  dsimp only
  rw [ht, ha]
  refine safe_execute fun l₁ _ hrely₁ u own₁ _ hrun₁ => ?_
  obtain ⟨rfl, hsame₁, hrow⟩ := run_insertCommitLock hrun₁
  have hmessage₁ := (hmessage.later hrely₁).congr hsame₁.inbox rfl
    ((Statement.insertCommitLock t).rows (own.apply u))
  refine safe_execute fun l₂ _ hrely₂ u₂ own₂ _ hrun₂ => ?_
  cases hrun₂
  -- from here on the row of the tenant is locked
  rw [rows_lockCommitLock (commitLocks_later hrow hrely₂)]
  have hmessage₂ := (hmessage₁.later hrely₂).congr rfl rfl [Row.commitLock t]
  have hlock : ∀ held : List Row, Row.commitLock t ∈ held ++ [Row.commitLock t] :=
    fun held => List.mem_append_right _ (List.mem_singleton.2 rfl)
  refine safe_execute fun l₃ hl₃ hrely₃ u₃ own₃ _ hrun₃ => ?_
  have hheads₁ := hsame₁.heads.trans hheads
  obtain ⟨rfl, hstarted, hevents₃, hinbox₃, -, hkeys, hhead⟩ := run_insertHead
    (fun row hrow => (by rw [hheads₁] at hrow; cases hrow)) hheads₁ hrun₃
  have hmessage₃ := (hmessage₂.later hrely₃).congr hinbox₃ rfl
    ((Statement.insertHead t a).rows (own₁.apply u₃))
  have hinserting : Inserting t a (u₃.db.version t a) []
      (held ++ (Statement.insertCommitLock t).rows (own.apply u) ++ [Row.commitLock t] ++
        (Statement.insertHead t a).rows (own₁.apply u₃)) own₃ u₃ :=
    inserting_nil hl₃ (List.mem_append_left _ (hlock _))
      (hevents₃.trans (hsame₁.events.trans hevents)) hkeys hhead
  refine safe_execute fun l₄ hl₄ hrely₄ u₄ own₄ row hrun₄ => ?_
  cases hrun₄
  have hactual : (own₃.apply l₄).db.heads.lookup (t, a) = some (u₃.db.version t a) := by
    rw [Writes.apply_heads, ← hhead]
    exact lookup_writeRows_congr _ (hrely₄.heads t a hinserting.lock)
  rw [hactual]
  refine safe_appendAtHead hstream ?_ ((hmessage₃.later hrely₄).congr rfl rfl _) hl₄
  exact (hinserting.later hrely₄).same ⟨rfl, rfl, rfl, rfl⟩ _

end

/-! ## The four entry points -/

/-- What `_validate_append` lets through. -/
theorem validate_ok {context : TenantContext} {events : List EventEnvelope} {v : ℤ}
    (h : Transaction.validate context events v = .ok ()) :
    0 ≤ v ∧ events ≠ [] ∧ ∀ e ∈ events, e.tenantId = context.tenantId ∧
      e.aggregateId = (events.head?.map (·.aggregateId)).getD "" := by
  simp only [Transaction.validate, validateAppend, bind_eq_ok, orRaise_eq_ok, raiseIf_eq_ok] at h
  obtain ⟨-, hnonneg, first, hfirst, -, htenant, -, haggregate, -⟩ := h
  refine ⟨not_lt.1 hnonneg, fun hnil => ?_, fun e he => ?_⟩
  · rw [hnil] at hfirst
    cases hfirst
  · simp only [List.any_eq_true, decide_eq_true_eq, not_exists, not_and, not_not] at htenant haggregate
    rw [hfirst]
    exact ⟨htenant e he, haggregate e he⟩

theorem raisesOnly_validate (context : TenantContext) (events : List EventEnvelope) (v : ℤ) :
    RaisesOnly (· ≠ noResult) (Transaction.validate context events v) :=
  raisesOnly_bind (raisesOnly_raiseIf fun _ h => (by cases h)) fun _ _ =>
  raisesOnly_bind (raisesOnly_orRaise fun _ h => (by cases h)) fun _ _ =>
  raisesOnly_bind (raisesOnly_raiseIf fun _ h => (by cases h)) fun _ _ =>
  raisesOnly_bind (raisesOnly_raiseIf fun _ h => (by cases h)) fun _ _ =>
  raisesOnly_bind (raisesOnly_raiseIf fun _ h => (by cases h)) fun _ _ =>
  raisesOnly_raiseIf fun _ h => (by cases h)

theorem raisesOnly_validateFence (events : List EventEnvelope) (f : Fence) :
    RaisesOnly (· ≠ noResult) (validateFence events f) :=
  raisesOnly_bind (raisesOnly_raiseIf fun _ h => (by cases h)) fun _ _ =>
  raisesOnly_bind (raisesOnly_raiseIf fun _ h => (by cases h)) fun _ _ =>
  raisesOnly_raiseIf fun _ h => (by cases h)

section

variable {g : AppendCall} {held : List Row} {own : Writes} {l l' : Ledger} {version : ℕ}

/-- What an append without an inbox message is about to commit. -/
theorem appends_unboxed (hkey : g.inboxKey = none) (hnonneg : 0 ≤ g.expectedVersion)
    (h : Appending g.tenantId g.aggregateId g.expectedVersion.toNat g.events held own l)
    (hmessage : Message none [] held own l) :
    Appends g (g.expectedVersion.toNat + g.events.length) held own l where
  appending := h
  nonneg := hnonneg
  reached := rfl
  taken k hk := by rw [hkey] at hk; cases hk
  inbox row hrow := by rw [hmessage.inbox] at hrow; cases hrow
  result k hk := by rw [hkey] at hk; cases hk

theorem Appends.later (h : Appends g version held own l) (hrely : Ledger.Rely held l l') :
    Appends g version held own l' :=
  ⟨h.appending.later hrely, h.nonneg, h.reached, h.taken.later hrely, h.inbox, h.result⟩

theorem settled_appends (g : AppendCall) (version : ℕ) : Settled (Appends g version) where
  later h hrely := h.later hrely
  same more h hsame := ⟨h.appending.same hsame more, h.nonneg, h.reached, h.taken.mono more,
    by rw [hsame.inbox]; exact h.inbox, by rw [hsame.inbox]; exact h.result⟩

/-- The end of an append: it returns what it has appended. -/
theorem safe_return (h : Appends g version held own l) :
    LedgerSafe g (Returns g) (pure { aggregateVersion := version }) held own l :=
  fun _ _ hrely => Or.inl ⟨rfl, h.later hrely⟩

/-- An append without an inbox message, and what comes after it. -/
theorem safe_unboxed {messages : List OutboxMessage} {f : ℕ → Transaction AppendResult}
    (hl : l.Inv) (hkey : g.inboxKey = none)
    (hvalid : ∃ context, context.tenantId = g.tenantId ∧
      Transaction.validate context g.events g.expectedVersion = .ok ())
    (hown : own.events = [] ∧ own.heads = [] ∧ own.inbox = [])
    (hf : ∀ held own l, l.Inv → Appends g (g.expectedVersion.toNat + g.events.length) held own l →
      LedgerSafe g (Returns g) (f (g.expectedVersion.toNat + g.events.length)) held own l) :
    LedgerSafe g (Returns g)
      (Transaction.appendInTransaction g.events g.expectedVersion.toNat messages >>= f)
      held own l := by
  obtain ⟨context, hcontext, hvalid⟩ := hvalid
  obtain ⟨hnonneg, hne, hstream⟩ := validate_ok hvalid
  rw [hcontext] at hstream
  have hmessage : Message none [] held own l := ⟨hown.2.2, fun k hk => (by cases hk)⟩
  refine Safe.bind ledgerRule_sound (Safe.mono (fun version held own l hpost hinv => ?_)
    (safe_appendInTransaction hne hstream hown.1 hown.2.1 hmessage)) hl
  obtain ⟨rfl, happending, hmessage⟩ := hpost
  exact hf held own l hinv (appends_unboxed hkey hnonneg happending hmessage)

/-- A mutation that may be missing, and the end of the append. -/
theorem safe_mutate_return {mutation : Option MutationCode} (hl : l.Inv)
    (h : Appends g version held own l) :
    LedgerSafe g (Returns g) (do
      MutationCode.runOptional mutation
      pure { aggregateVersion := version }) held own l := by
  refine Safe.bind ledgerRule_sound (Safe.mono (fun _ held own l hpost _ => ?_)
    (safe_runOptional (settled_appends g version) mutation h)) hl
  exact safe_return hpost

/-- What a call that has taken its inbox message has written. -/
theorem run_insertInbox {k : InboxKey} {u : Ledger} {own' : Writes} {inserted : Bool}
    (hown : own.inbox = [])
    (h : (Statement.insertInbox k.1 k.2.1 k.2.2).run l own = (u, own', .ok inserted)) :
    u = l ∧ ((inserted = false ∧ own' = own ∧ ∃ row, l.db.inbox.lookup k = some row) ∨
      (inserted = true ∧ l.db.inbox.lookup k = none ∧
        own' = { own with inbox := [(k, ⟨l.clock, none⟩)] } ∧
        (Statement.insertInbox k.1 k.2.1 k.2.2).rows (own.apply l) = [k.row])) := by
  simp only [Statement.run, Writes.apply_inbox, hown] at h
  split at h
  · rename_i hsome
    cases h
    exact ⟨rfl, Or.inl ⟨rfl, rfl, Option.isSome_iff_exists.1 hsome⟩⟩
  · rename_i hnone
    split at h
    · cases h
    · cases h
      refine ⟨rfl, Or.inr ⟨rfl, Option.not_isSome_iff_eq_none.1 hnone, rfl, ?_⟩⟩
      rw [Statement.rows, Writes.apply_inbox, hown, if_neg hnone]
      rfl

theorem run_updateInbox {k : InboxKey} {u : Ledger} {own' : Writes} {r : Unit} {receivedAt : Timestamp}
    (hown : own.inbox = [(k, ⟨receivedAt, none⟩)])
    (h : (Statement.updateInbox k.1 k.2.1 k.2.2 version).run l own = (u, own', .ok r)) :
    u = l ∧ own' = { own with
      inbox := [(k, ⟨receivedAt, none⟩), (k, ⟨receivedAt, some version⟩)] } := by
  have hrow : (own.apply l).db.inbox.lookup (k.1, k.2.1, k.2.2) = some ⟨receivedAt, none⟩ := by
    rw [Writes.apply_inbox, hown]
    exact Table.lookup_upsert_self ..
  simp only [Statement.run, hrow, hown] at h
  cases h
  exact ⟨rfl, rfl⟩

/-- What a call whose inbox message is taken commits once the version is recorded. -/
theorem appends_boxed {k : InboxKey} {receivedAt : Timestamp} (hkey : g.inboxKey = some k)
    (hnonneg : 0 ≤ g.expectedVersion)
    (h : Appending g.tenantId g.aggregateId g.expectedVersion.toNat g.events held own l)
    (htaken : Taken (some k) held l)
    (hinbox : own.inbox = [(k, ⟨receivedAt, none⟩),
      (k, ⟨receivedAt, some (g.expectedVersion.toNat + g.events.length)⟩)]) :
    Appends g (g.expectedVersion.toNat + g.events.length) held own l where
  appending := h
  nonneg := hnonneg
  reached := rfl
  taken := by rw [hkey]; exact htaken
  inbox row hrow := by
    rw [hinbox] at hrow
    rw [hkey]
    rcases List.mem_cons.1 hrow with rfl | hrow
    · rfl
    · rw [List.mem_singleton.1 hrow]
  result k' hk' := by
    rw [hkey, Option.some.injEq] at hk'
    subst hk'
    exact ⟨receivedAt, by rw [hinbox]; rfl⟩

/-- The append of a call that has taken its inbox message. -/
theorem safe_boxed {k : InboxKey} {receivedAt : Timestamp} {messages : List OutboxMessage}
    {mutation : Option MutationCode} (hl : l.Inv) (hkey : g.inboxKey = some k)
    (hvalid : ∃ context, context.tenantId = g.tenantId ∧
      Transaction.validate context g.events g.expectedVersion = .ok ())
    (hevents : own.events = []) (hheads : own.heads = [])
    (hmessage : Message (some k) [(k, ⟨receivedAt, none⟩)] held own l) :
    LedgerSafe g (Returns g) (do
      let version ← Transaction.appendInTransaction g.events g.expectedVersion.toNat messages
      let _ ← Transaction.execute (.updateInbox k.1 k.2.1 k.2.2 version)
      MutationCode.runOptional mutation
      pure { aggregateVersion := version }) held own l := by
  obtain ⟨context, hcontext, hvalid⟩ := hvalid
  obtain ⟨hnonneg, hne, hstream⟩ := validate_ok hvalid
  rw [hcontext] at hstream
  refine Safe.bind ledgerRule_sound (Safe.mono (fun version held own l hpost hinv => ?_)
    (safe_appendInTransaction hne hstream hevents hheads hmessage)) hl
  obtain ⟨rfl, happending, hmessage⟩ := hpost
  refine safe_execute fun l' hl' hrely u own' _ hrun => ?_
  obtain ⟨rfl, rfl⟩ := run_updateInbox hmessage.inbox hrun
  refine safe_mutate_return hl' (appends_boxed hkey hnonneg ?_ ?_ rfl)
  · exact (happending.later hrely).congr_inbox _ _
  · exact (hmessage.taken.later hrely).mono _

/-- A duplicate delivery: the row is committed, and so is its result. -/
theorem safe_repeated {k : InboxKey} {row : InboxRow} (hkey : g.inboxKey = some k)
    (hrow : l.db.inbox.lookup k = some row) (hown : own = { startedAt := own.startedAt }) :
    LedgerSafe g (Returns g) (do
      let row : Option (Option ℕ) ← Transaction.execute (.selectInbox k.1 k.2.1 k.2.2)
      match row with
      | some (some version) => pure { aggregateVersion := version, duplicate := true }
      | _ => Transaction.raise noResult) held own l := by
  refine safe_execute fun l' hl' hrely u own' r hrun => ?_
  have hrow' := hrely.inboxKept k row hrow
  obtain ⟨version, hversion⟩ := Option.ne_none_iff_exists'.1 (hl'.inbox k row hrow')
  have hlookup : (own.apply l').db.inbox.lookup (k.1, k.2.1, k.2.2) = some row := by
    rw [Writes.apply_inbox, hown]
    exact hrow'
  simp only [Statement.run, hlookup, Option.map_some, hversion] at hrun
  cases hrun
  intro l'' _ hrely'
  exact Or.inr ⟨rfl, ⟨k, row, hkey, hrely'.inboxKept k row hrow', hversion⟩, hown⟩

end

/-- **Every append follows the rule.** -/
theorem appendCall_safe (g : AppendCall) (l : Ledger) (hl : l.Inv) :
    LedgerSafe g (Returns g) g.transaction [] { startedAt := l.clock } l := by
  cases g with
  | append context events expectedVersion outbox =>
    refine safe_check (raisesOnly_validate _ _ _) fun hvalid => ?_
    exact safe_unboxed (g := .append context events expectedVersion outbox) hl rfl
      ⟨context, rfl, hvalid⟩ ⟨rfl, rfl, rfl⟩ fun held own l _ h => safe_return h
  | appendAtomic context events expectedVersion mutation outbox =>
    refine safe_check (raisesOnly_validate _ _ _) fun hvalid => ?_
    refine safe_unboxed (g := .appendAtomic context events expectedVersion mutation outbox) hl rfl
      ⟨context, rfl, hvalid⟩ ⟨rfl, rfl, rfl⟩ fun held own l hl h => ?_
    have hmutate : LedgerSafe (.appendAtomic context events expectedVersion mutation outbox) _
      (MutationCode.runOptional (some mutation) >>= _) held own l := safe_mutate_return hl h
    exact hmutate
  | appendFromInbox context source messageId events expectedVersion outbox mutation =>
    refine safe_check (raisesOnly_raiseIf fun _ h => (by cases h)) fun _ => ?_
    refine safe_check (raisesOnly_validate _ _ _) fun hvalid => ?_
    refine safe_execute fun l' hl' _ u own' inserted hrun => ?_
    have hcases := run_insertInbox (k := (context.tenantId, source, messageId)) rfl hrun
    obtain ⟨rfl, ⟨rfl, rfl, row, hrow⟩ | ⟨rfl, hnone, rfl, hrows⟩⟩ := hcases
    · exact safe_repeated rfl hrow rfl
    · rw [hrows]
      refine safe_boxed (g := .appendFromInbox context source messageId events expectedVersion outbox
        mutation) hl' rfl ⟨context, rfl, hvalid⟩ rfl rfl ⟨rfl, fun k hk => ?_⟩
      cases hk
      exact ⟨List.mem_append_right _ (List.mem_singleton.2 rfl), hnone⟩
  | appendFenced context events expectedVersion workId token generation outbox mutation =>
    refine safe_check (raisesOnly_validate _ _ _) fun hvalid => ?_
    refine safe_check (raisesOnly_validateFence _ _) fun _ => ?_
    refine safe_execute fun l' hl' _ u own' current hrun => ?_
    cases hrun
    split
    · exact safe_unboxed (g := .appendFenced context events expectedVersion workId token generation
        outbox mutation) hl' rfl ⟨context, rfl, hvalid⟩ ⟨rfl, rfl, rfl⟩
        fun held own l hl h => safe_mutate_return hl h
    · exact fun heq => (by cases heq)

/-- The sessions of the event store. -/
abbrev LedgerSys :=
  Sys Statement Statement.Reply Failed Ledger Writes Row AppendCall AppendResult

/-- **Every run of appends is good**, from any state that keeps the invariant. -/
theorem ledger_good {l₀ : Ledger} (hl₀ : l₀.Inv) {s : LedgerSys}
    (hrun : Run ledgerEngine AppendCall.transaction ⟨l₀, []⟩ s) :
    s.Good ledgerEngine ledgerRule :=
  hrun.good ledgerRule_sound (fun g l hl => appendCall_safe g l hl) hl₀

end AegisPlatform
