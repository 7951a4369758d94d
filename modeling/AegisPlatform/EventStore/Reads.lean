import AegisPlatform.EventStore.Interleaved

/-!
# Reading the ledger

`read_stream` reads one aggregate and `read_all` a tenant's whole history, a page at a
time; both check the numbering of what they read.

* `Ledger.readStream`, `Ledger.readAll` — the reads, with their queries and checks.
* `readStream_eq`, `readAll_eq` — on a ledger that keeps its invariant the checks never
  fail, and a page is the next part of the stream or of the history.
-/

namespace AegisPlatform

open Fallible

/-! ## The reads -/

/-- `_validate_page_arguments`. -/
def validatePageArguments (cursor limit : ℤ) : Except Raised Unit := do
  raiseIf (cursor < 0) (.valueError "cursor cannot be negative")
  raiseIf (¬ (1 ≤ limit ∧ limit ≤ 1000)) (.valueError "page limit must be between 1 and 1000")

/-- `ReplayCorruptionError` for a gap in the numbering. -/
def sequenceGap (expected found : ℕ) : Raised :=
  .replayCorruptionError ("aggregate sequence gap: expected " ++ toString expected ++ ", found " ++
    toString found)

/-- An event as it is read back, with the number of the event before it in its
stream. -/
structure ReplayedEvent where
  event : EventEnvelope
  previousAggregateSequence : Option ℕ

/-- A page in global commit order. -/
structure EventPage where
  events : List ReplayedEvent
  nextCursor : Option ℕ

/-- The loop of `read_stream`: the events it yields, and how it ends. -/
def yieldStream : ℕ → List EventEnvelope → List EventEnvelope × Except Raised Unit
  | _, [] => ([], .ok ())
  | expected, event :: rest =>
    if event.aggregateSequence ≠ expected + 1 then
      ([], .error (sequenceGap (expected + 1) event.aggregateSequence))
    else
      let (yielded, ended) := yieldStream (expected + 1) rest
      (event :: yielded, ended)

/-- The check of `read_all`. -/
def checkPage : List ReplayedEvent → Except Raised Unit
  | [] => .ok ()
  | row :: rest => do
    let expected := match row.previousAggregateSequence with
      | none => 1
      | some previous => previous + 1
    raiseIf (row.event.aggregateSequence ≠ expected)
      (sequenceGap expected row.event.aggregateSequence)
    checkPage rest

namespace Ledger

/-- The events of a stream, `ORDER BY aggregate_sequence`. -/
def orderedStream (l : Ledger) (tenantId aggregateId : String) : List EventEnvelope :=
  (l.db.events.filter fun e => e.tenantId = tenantId && e.aggregateId = aggregateId).mergeSort
    fun e e' => e.aggregateSequence ≤ e'.aggregateSequence

/-- `_READ_STREAM`. -/
def selectStream (l : Ledger) (tenantId aggregateId : String) (after limit : ℤ) :
    List EventEnvelope :=
  ((l.orderedStream tenantId aggregateId).filter fun e => after < e.aggregateSequence).take
    limit.toNat

/-- `read_stream`. -/
def readStream (l : Ledger) (context : TenantContext) (aggregateId : String)
    (afterVersion limit : ℤ) : List EventEnvelope × Except Raised Unit :=
  match validatePageArguments afterVersion limit with
  | .error e => ([], .error e)
  | .ok _ =>
    yieldStream afterVersion.toNat (l.selectStream context.tenantId aggregateId afterVersion limit)

/-- `lag(aggregate_sequence) OVER (PARTITION BY tenant_id, aggregate_id ORDER BY
aggregate_sequence)`; the numbers of a stream are unique. -/
def lag (l : Ledger) (e : EventEnvelope) : Option ℕ :=
  (((l.orderedStream e.tenantId e.aggregateId).filter
    fun e' => e'.aggregateSequence < e.aggregateSequence).getLast?).map (·.aggregateSequence)

/-- A row of `ordered_events`. -/
def replayed (l : Ledger) (e : EventEnvelope) : ReplayedEvent := ⟨e, l.lag e⟩

/-- `_READ_ALL`. -/
def selectAll (l : Ledger) (tenantId : String) (after limit : ℤ) : List ReplayedEvent :=
  ((((l.history tenantId).map l.replayed).filter
      fun row => row.event.globalPosition.any fun p => after < p).mergeSort
    fun row row' => row.event.globalPosition.getD 0 ≤ row'.event.globalPosition.getD 0).take
      limit.toNat

/-- `read_all`. -/
def readAll (l : Ledger) (context : TenantContext) (afterPosition limit : ℤ) :
    Except Raised EventPage := do
  validatePageArguments afterPosition limit
  let rows := l.selectAll context.tenantId afterPosition limit
  checkPage rows
  return {
    events := rows
    nextCursor :=
      if rows.length = limit then rows.getLast?.bind (·.event.globalPosition) else none }

end Ledger

/-! ## Streams -/

theorem take_range' (first n k : ℕ) :
    (List.range' first n).take k = List.range' first (min k n) := by
  rcases le_total n k with h | h
  · rw [List.take_range'_of_length_le h, min_eq_right h]
  · rw [List.take_range'_of_length_ge h, min_eq_left h]

/-- What comes after a number, in a list that is numbered without gaps. -/
theorem filter_lt_eq_drop {α : Type} {f : α → ℕ} {es : List α} {first n : ℕ} (v : ℕ)
    (h : es.map f = List.range' first n) :
    (es.filter fun e => v < f e) = es.drop (v + 1 - first) := by
  induction es generalizing first n with
  | nil => rw [List.filter_nil, List.drop_nil]
  | cons e rest ih =>
    cases n with
    | zero => cases h
    | succ n =>
      rw [List.map_cons, List.range'_succ, List.cons.injEq] at h
      obtain ⟨he, hrest⟩ := h
      have hdrop := ih hrest
      by_cases hv : v < first
      · have hzero : v + 1 - (first + 1) = 0 := by omega
        rw [hzero, List.drop_zero] at hdrop
        have hkept : decide (v < f e) = true := by rw [decide_eq_true_iff, he]; exact hv
        rw [List.filter_cons, if_pos hkept, hdrop, show v + 1 - first = 0 by omega, List.drop_zero]
      · have hsucc : v + 1 - first = (v + 1 - (first + 1)) + 1 := by omega
        have hgone : ¬ decide (v < f e) = true := by rw [decide_eq_true_iff, he]; exact hv
        rw [List.filter_cons, if_neg hgone, hdrop, hsucc, List.drop_succ_cons]

/-- What comes before a number. -/
theorem filter_gt_eq_take {α : Type} {f : α → ℕ} {es : List α} {first n : ℕ} (v : ℕ)
    (h : es.map f = List.range' first n) :
    (es.filter fun e => f e < v) = es.take (v - first) := by
  induction es generalizing first n with
  | nil => rw [List.filter_nil, List.take_nil]
  | cons e rest ih =>
    cases n with
    | zero => cases h
    | succ n =>
      rw [List.map_cons, List.range'_succ, List.cons.injEq] at h
      obtain ⟨he, hrest⟩ := h
      have htake := ih hrest
      by_cases hv : first < v
      · have hsucc : v - first = (v - (first + 1)) + 1 := by omega
        have hkept : decide (f e < v) = true := by rw [decide_eq_true_iff, he]; exact hv
        rw [List.filter_cons, if_pos hkept, htake, hsucc, List.take_succ_cons]
      · have hzero : v - (first + 1) = 0 := by omega
        rw [hzero, List.take_zero] at htake
        have hgone : ¬ decide (f e < v) = true := by rw [decide_eq_true_iff, he]; exact hv
        rw [List.filter_cons, if_neg hgone, htake, show v - first = 0 by omega, List.take_zero]

/-- The check of `read_stream` passes what is numbered without gaps. -/
theorem yieldStream_eq {v n : ℕ} {es : List EventEnvelope}
    (h : es.map (·.aggregateSequence) = List.range' (v + 1) n) :
    yieldStream v es = (es, .ok ()) := by
  induction es generalizing v n with
  | nil => rfl
  | cons e rest ih =>
    cases n with
    | zero => cases h
    | succ n =>
      rw [List.map_cons, List.range'_succ, List.cons.injEq] at h
      obtain ⟨he, hrest⟩ := h
      simp only [yieldStream, he, ne_eq, not_true_eq_false, if_false, ih hrest]

namespace Ledger

variable {l : Ledger} {t a : String}

/-- The events of a stream are stored in the order of their numbers. -/
theorem orderedStream_eq (hl : l.db.HeadsAgree) (t a : String) :
    l.orderedStream t a =
      l.db.events.filter fun e => e.tenantId = t && e.aggregateId = a := by
  refine List.mergeSort_of_pairwise ?_
  have hsorted : ((l.db.events.filter fun e => e.tenantId = t && e.aggregateId = a).map
      (·.aggregateSequence)).Pairwise (· ≤ ·) := by
    rw [hl t a]
    exact List.pairwise_le_range'
  exact (List.pairwise_map.1 hsorted).imp fun h => decide_eq_true h

theorem map_orderedStream (hl : l.db.HeadsAgree) (t a : String) :
    (l.orderedStream t a).map (·.aggregateSequence) = List.range' 1 (l.db.version t a) := by
  rw [orderedStream_eq hl, hl t a]

/-- A page of a stream is numbered without gaps from the version it was asked for. -/
theorem map_selectStream (hl : l.db.HeadsAgree) (after : ℕ) (limit : ℤ) :
    ∃ n, (l.selectStream t a after limit).map (·.aggregateSequence) =
      List.range' (after + 1) n := by
  have hdrop : ((l.orderedStream t a).filter fun e => (after : ℤ) < e.aggregateSequence) =
      (l.orderedStream t a).drop after := by
    simp only [Nat.cast_lt]
    exact filter_lt_eq_drop after (map_orderedStream hl t a)
  unfold selectStream
  rw [hdrop, List.map_take, List.map_drop, map_orderedStream hl, List.drop_range',
    take_range', Nat.mul_one, Nat.add_comm 1 after]
  exact ⟨_, rfl⟩

/-- **A stream is read back without complaint**, from any version and with any limit. -/
theorem readStream_eq (hl : l.db.HeadsAgree) {context : TenantContext} {after limit : ℤ}
    (hargs : validatePageArguments after limit = .ok ()) :
    l.readStream context a after limit =
      (l.selectStream context.tenantId a after limit, .ok ()) := by
  unfold readStream
  rw [hargs]
  dsimp only
  have hnonneg : 0 ≤ after := by
    simp only [validatePageArguments, bind_eq_ok, raiseIf_eq_ok] at hargs
    obtain ⟨-, hafter, -⟩ := hargs
    exact not_lt.1 hafter
  obtain ⟨v, rfl⟩ := Int.eq_ofNat_of_zero_le hnonneg
  obtain ⟨n, hn⟩ := map_selectStream hl v limit
  exact yieldStream_eq hn

/-! ## The history -/

/-- The event before an event of the ledger. -/
theorem lag_eq (hl : l.db.HeadsAgree) {e : EventEnvelope} (he : e ∈ l.db.events) :
    1 ≤ e.aggregateSequence ∧
      l.lag e = if e.aggregateSequence = 1 then none else some (e.aggregateSequence - 1) := by
  have hnumber : e.aggregateSequence ∈
      (l.orderedStream e.tenantId e.aggregateId).map (·.aggregateSequence) := by
    rw [orderedStream_eq hl]
    refine List.mem_map_of_mem (List.mem_filter.2 ⟨he, ?_⟩)
    rw [decide_eq_true rfl, decide_eq_true rfl]
    rfl
  rw [map_orderedStream hl, List.mem_range'_1] at hnumber
  refine ⟨hnumber.1, ?_⟩
  unfold lag
  rw [filter_gt_eq_take _ (map_orderedStream hl _ _), ← List.getLast?_map, List.map_take,
    map_orderedStream hl, take_range', List.getLast?_range']
  by_cases hone : e.aggregateSequence = 1
  · rw [if_pos hone, if_pos (by omega)]
  · rw [if_neg hone, if_neg (by omega), Option.some.injEq]
    omega

/-- Every row passes the check of `read_all`. -/
theorem checkPage_eq {rows : List ReplayedEvent}
    (h : ∀ row ∈ rows, row.event.aggregateSequence =
      match row.previousAggregateSequence with
      | none => 1
      | some previous => previous + 1) : checkPage rows = .ok () := by
  induction rows with
  | nil => rfl
  | cons row rest ih =>
    have hrow := h row (List.mem_cons_self ..)
    rw [checkPage]
    simp only [← hrow, ne_eq, not_true_eq_false, bind_eq_ok]
    exact ⟨(), raiseIf_eq_ok.2 id, ih fun row' hrow' => h row' (List.mem_cons_of_mem _ hrow')⟩

theorem mem_selectAll {after limit : ℤ} {row : ReplayedEvent}
    (h : row ∈ l.selectAll t after limit) : ∃ e ∈ l.history t, row = l.replayed e := by
  have hmem := (List.mem_filter.1 (List.mem_mergeSort.1 (List.mem_of_mem_take h))).1
  obtain ⟨e, he, rfl⟩ := List.mem_map.1 hmem
  exact ⟨e, he, rfl⟩

/-- The check of `read_all` passes every page. -/
theorem checkPage_selectAll (hl : l.db.HeadsAgree) (t : String) (after limit : ℤ) :
    checkPage (l.selectAll t after limit) = .ok () := by
  refine checkPage_eq fun row hrow => ?_
  obtain ⟨e, he, rfl⟩ := mem_selectAll hrow
  obtain ⟨hpos, hlag⟩ := lag_eq hl (List.mem_filter.1 he).1
  simp only [replayed, hlag]
  split
  · rename_i heq
    split at heq
    · assumption
    · cases heq
  · rename_i previous heq
    split at heq
    · cases heq
    · cases heq
      omega

/-- **A page of the history is read back without complaint.** -/
theorem readAll_eq (hl : l.db.HeadsAgree) {context : TenantContext} {after limit : ℤ}
    (hargs : validatePageArguments after limit = .ok ()) :
    ∃ nextCursor, l.readAll context after limit =
      .ok ⟨l.selectAll context.tenantId after limit, nextCursor⟩ := by
  unfold readAll
  rw [hargs]
  simp only [checkPage_selectAll hl]
  exact ⟨_, rfl⟩

end Ledger

end AegisPlatform
