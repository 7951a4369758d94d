import AegisPlatform.EventStore.Database
import AegisPlatform.Lib.Keyset
import AegisPlatform.Queueing.Publisher
import Mathlib.Data.Prod.Lex

/-!
# Status pages

The two listings of `PostgresWorkRepository`, each one `SELECT` of a tenant's items with a keyset
cursor, and a client that reads them page by page.

* `status`, `pendingStatus` — a page of either listing.
* `cursorAfter` — the cursor a client makes of the last entry it was given.
* `keyset_lossless` — page after page the client sees every item once, in order.
-/

namespace AegisPlatform

open Fallible Keyset

namespace PostgresWorkRepository

/-! ## Cursors -/

/-- What a listing is ordered by; PostgreSQL compares identifiers as numbers. -/
abbrev RowKey := Timestamp ×ₗ Fin (2 ^ 128)

def rowKey (moment : Timestamp) (workId : UUID) : RowKey := toLex (moment, workId.int)

theorem rowKey_inj {moment moment' : Timestamp} {workId workId' : UUID} :
    rowKey moment workId = rowKey moment' workId' ↔ moment = moment' ∧ workId = workId' := by
  cases workId
  cases workId'
  simp [rowKey]

/-- A cursor, beside `None`: a `_KeysetCursor` or a timestamp. -/
inductive StatusCursor where
  | keyset (before : Timestamp) (workId : UUID)
  | datetime (before : Timestamp)

/-- `datetime.max`, in UTC. -/
def datetimeMax : Timestamp := 253402300799999999

/-- `_MAX_UUID`. -/
def maxUuid : UUID := ⟨Fin.last (2 ^ 128 - 1)⟩

/-- `_descending_cursor`. -/
def descendingCursor : Option StatusCursor → RowKey
  | none => rowKey datetimeMax maxUuid
  | some (.keyset before workId) => rowKey before workId
  | some (.datetime before) => rowKey before maxUuid

/-! ## The listings -/

/-- The items of a tenant. -/
def tenantItems (db : Database) (tenantId : String) : List (UUID × WorkItemRow) :=
  db.workItems.rows.filterMap fun r => if r.1.1 = tenantId then some (r.1.2, r.2) else none

section

variable (py : PyText)

/-- An entry of `status`. -/
def statusEntry (r : UUID × WorkItemRow) : Dict :=
  [("work_id", .str r.1.str),
    ("work_kind", .str r.2.workKind),
    ("status", .str r.2.status.value),
    ("requested_at", .str (py.isoformat r.2.requestedAt)),
    ("available_at", .str (py.isoformat r.2.availableAt)),
    ("attempt_count", .int r.2.attemptCount),
    ("max_attempts", .int r.2.maxAttempts),
    ("cancel_requested", .bool r.2.cancelRequestedAt.isSome),
    ("last_error_code", match r.2.lastErrorCode with
      | some code => if code = "" then .null else .str code
      | none => .null)]

/-- The items that a filter lets through. -/
def statusRows (db : Database) (tenantId : String) (status : Option WorkStatus) :
    List (UUID × WorkItemRow) :=
  (tenantItems db tenantId).filter fun r => status.all fun s => r.2.status = s

/-- `status`. -/
def status (db : Database) (context : TenantContext) (status : Option WorkStatus) (limit : ℤ)
    (cursor : Option StatusCursor) : Except Raised (List Dict) := do
  raiseIf (¬ (1 ≤ limit ∧ limit ≤ 200)) (.valueError "status limit must be between 1 and 200")
  let rows := page (fun r => rowKey r.2.requestedAt r.1) (statusRows db context.tenantId status)
    limit.toNat (descendingCursor cursor)
  return rows.map (statusEntry py)

/-- The statuses of the second listing. -/
def pendingStatuses : List WorkStatus := [.requested, .published, .claimed, .running, .retryWait]

/-- An item with its lease, if one is held. -/
abbrev PendingRow := (UUID × WorkItemRow) × Option WorkLeaseRow

/-- An entry of `pending_status`. -/
def pendingEntry (r : PendingRow) : Dict :=
  [("work_id", .str r.1.1.str),
    ("work_kind", .str r.1.2.workKind),
    ("status", .str r.1.2.status.value),
    ("available_at", .str (py.isoformat r.1.2.availableAt)),
    ("attempt_count", .int r.1.2.attemptCount),
    ("max_attempts", .int r.1.2.maxAttempts),
    ("lease_owner", match r.2 with
      | some lease => .str lease.owner
      | none => .null),
    ("heartbeat_at", match r.2 with
      | some lease => .str (py.isoformat lease.heartbeatAt)
      | none => .null),
    ("expires_at", match r.2 with
      | some lease => .str (py.isoformat lease.expiresAt)
      | none => .null)]

/-- The pending items, joined with the leases that are not released. -/
def pendingRows (db : Database) (tenantId : String) : List PendingRow :=
  let joined := Table.leftJoin
    (fun (r : UUID × WorkItemRow) (lease : WorkKey × WorkLeaseRow) =>
      decide (lease.1 = (tenantId, r.1)) && lease.2.released.isNone)
    (tenantItems db tenantId) db.workLeases.rows
  (joined.map fun r => (r.1, r.2.map Prod.snd)).filter fun r => r.1.2.status ∈ pendingStatuses

/-- `pending_status`. -/
def pendingStatus (db : Database) (context : TenantContext) (limit : ℤ)
    (cursor : Option StatusCursor) : Except Raised (List Dict) := do
  raiseIf (¬ (1 ≤ limit ∧ limit ≤ 200)) (.valueError "pending limit must be between 1 and 200")
  let rows := page (fun r => rowKey r.1.2.availableAt r.1.1) (pendingRows db context.tenantId)
    limit.toNat (descendingCursor cursor)
  return rows.map (pendingEntry py)

end

/-- The tuple cursor of an entry, its timestamp under the given name. -/
def cursorAfter (conv : Conversions) (name : String) (entry : Dict) : Option StatusCursor :=
  match entry.get? name, entry.get? "work_id" with
  | some (.str moment), some (.str workId) => do
    let before ← conv.fromisoformat moment
    let workId ← conv.uuid workId
    return .keyset before workId
  | _, _ => none

/-! ## The rows of a listing -/

section

variable {db : Database} {tenantId : String}

theorem mem_tenantItems {workId : UUID} {row : WorkItemRow} :
    (workId, row) ∈ tenantItems db tenantId ↔ db.workItems.lookup (tenantId, workId) = some row := by
  rw [tenantItems, List.mem_filterMap, ← Table.mem_rows]
  constructor
  · rintro ⟨⟨⟨tenantId', workId'⟩, row'⟩, hmem, heq⟩
    by_cases htenant : tenantId' = tenantId
    · simp only [htenant, if_true, Option.some.injEq, Prod.mk.injEq] at heq
      obtain ⟨rfl, rfl⟩ := heq
      rwa [htenant] at hmem
    · simp [htenant] at heq
  · intro hmem
    exact ⟨((tenantId, workId), row), hmem, by simp⟩

/-- A tenant has one item under an identifier. -/
theorem nodup_tenantItems : ((tenantItems db tenantId).map Prod.fst).Nodup := by
  have hmap : (tenantItems db tenantId).map Prod.fst =
      (db.workItems.rows.map Prod.fst).filterMap
        fun key => if key.1 = tenantId then some key.2 else none := by
    rw [tenantItems, List.map_filterMap, List.filterMap_map]
    refine List.filterMap_congr fun r _ => ?_
    by_cases h : r.1.1 = tenantId <;> simp [h]
  rw [hmap]
  refine (Table.nodup_keys db.workItems).filterMap fun key key' workId hkey hkey' => ?_
  have hsplit : ∀ key : WorkKey,
      workId ∈ (if key.1 = tenantId then some key.2 else none) → key = (tenantId, workId) := by
    intro key h
    by_cases htenant : key.1 = tenantId
    · rw [if_pos htenant, Option.mem_def, Option.some.injEq] at h
      exact Prod.ext htenant h
    · rw [if_neg htenant] at h
      cases h
  rw [hsplit key hkey, hsplit key' hkey']

/-- Rows with an identifier each have different keys. -/
theorem nodup_rowKey {α : Type} {rows : List α} {workId : α → UUID} (moment : α → Timestamp)
    (h : (rows.map workId).Nodup) : (rows.map fun r => rowKey (moment r) (workId r)).Nodup := by
  rw [List.Nodup, List.pairwise_map] at h ⊢
  exact h.imp fun hne heq => hne (rowKey_inj.1 heq).2

theorem mem_statusRows {status : Option WorkStatus} {workId : UUID} {row : WorkItemRow} :
    (workId, row) ∈ statusRows db tenantId status ↔
      db.workItems.lookup (tenantId, workId) = some row ∧ ∀ s ∈ status, row.status = s := by
  rw [statusRows, List.mem_filter, mem_tenantItems]
  cases status <;> simp

theorem nodup_statusRows (db : Database) (tenantId : String) (status : Option WorkStatus) :
    ((statusRows db tenantId status).map Prod.fst).Nodup :=
  nodup_tenantItems.sublist (List.filter_sublist.map _)

/-- The lease that is held of an item. -/
def heldLease (db : Database) (tenantId : String) (workId : UUID) : Option WorkLeaseRow :=
  (db.workLeases.lookup (tenantId, workId)).filter fun lease => lease.released.isNone

theorem mem_pendingStatuses {s : WorkStatus} :
    s ∈ pendingStatuses ↔ s.isQueued = true ∨ s.isActive = true := by
  cases s <;> decide

/-- **The join adds no row and drops none**: leases are kept under the keys of the items. -/
theorem pendingRows_eq :
    pendingRows db tenantId = ((tenantItems db tenantId).filter
      fun r => r.2.status ∈ pendingStatuses).map fun r => (r, heldLease db tenantId r.1) := by
  rw [pendingRows, Table.leftJoin_eq_map fun r _ => Table.filter_rows db.workLeases (tenantId, r.1)
    fun lease => lease.released.isNone, List.map_map, List.filter_map]
  refine List.map_congr_left fun r _ => ?_
  rw [Function.comp_apply, Option.map_map, heldLease]
  exact congrArg _ Option.map_id'

theorem mem_pendingRows {workId : UUID} {row : WorkItemRow} {lease : Option WorkLeaseRow} :
    ((workId, row), lease) ∈ pendingRows db tenantId ↔
      db.workItems.lookup (tenantId, workId) = some row ∧
        (row.status.isQueued = true ∨ row.status.isActive = true) ∧
        lease = heldLease db tenantId workId := by
  rw [pendingRows_eq, List.mem_map]
  constructor
  · rintro ⟨r, hmem, heq⟩
    obtain ⟨hmem, hstatus⟩ := List.mem_filter.1 hmem
    cases heq
    exact ⟨mem_tenantItems.1 hmem, mem_pendingStatuses.1 (of_decide_eq_true hstatus), rfl⟩
  · rintro ⟨hlookup, hstatus, rfl⟩
    exact ⟨(workId, row), List.mem_filter.2 ⟨mem_tenantItems.2 hlookup,
      decide_eq_true (mem_pendingStatuses.2 hstatus)⟩, rfl⟩

theorem nodup_pendingRows (db : Database) (tenantId : String) :
    ((pendingRows db tenantId).map fun r => r.1.1).Nodup := by
  rw [pendingRows_eq, List.map_map]
  exact nodup_tenantItems.sublist (List.filter_sublist.map _)

end

/-! ## Page after page -/

section

variable {conv : Conversions}

theorem cursorAfter_statusEntry (hconv : conv.Faithful) (r : UUID × WorkItemRow) :
    cursorAfter conv "requested_at" (statusEntry conv.toPyText r) =
      some (.keyset r.2.requestedAt r.1) := by
  have hmoment : (statusEntry conv.toPyText r).get? "requested_at" =
      some (.str (conv.isoformat r.2.requestedAt)) := rfl
  have hid : (statusEntry conv.toPyText r).get? "work_id" = some (.str r.1.str) := rfl
  simp [cursorAfter, hmoment, hid, hconv.text.fromisoformat_isoformat, hconv.uuid_str]

theorem cursorAfter_pendingEntry (hconv : conv.Faithful) (r : PendingRow) :
    cursorAfter conv "available_at" (pendingEntry conv.toPyText r) =
      some (.keyset r.1.2.availableAt r.1.1) := by
  have hmoment : (pendingEntry conv.toPyText r).get? "available_at" =
      some (.str (conv.isoformat r.1.2.availableAt)) := rfl
  have hid : (pendingEntry conv.toPyText r).get? "work_id" = some (.str r.1.1.str) := rfl
  simp [cursorAfter, hmoment, hid, hconv.text.fromisoformat_isoformat, hconv.uuid_str]

/-- A client of `status` sees these entries. -/
def StatusWalk (conv : Conversions) (db : Database) (context : TenantContext)
    (filter : Option WorkStatus) (limit : ℤ) (visited : List Dict) : Prop :=
  Walk (status conv.toPyText db context filter limit)
    (fun entry => (cursorAfter conv "requested_at" entry).map some) none visited

/-- A client of `pending_status` sees these entries. -/
def PendingWalk (conv : Conversions) (db : Database) (context : TenantContext) (limit : ℤ)
    (visited : List Dict) : Prop :=
  Walk (pendingStatus conv.toPyText db context limit)
    (fun entry => (cursorAfter conv "available_at" entry).map some) none visited

variable {db : Database} {context : TenantContext} {limit : ℤ}

/-- A walk over a listing gives all its rows. -/
theorem walk_listing {α : Type} {key : α → RowKey} {rows : List α} {view : α → Dict}
    {fetch : Option StatusCursor → Except Raised (List Dict)} {name : String}
    (hlimit : 1 ≤ limit ∧ limit ≤ 200) (hnodup : (rows.map key).Nodup)
    (hbelow : ∀ a ∈ rows, key a < descendingCursor none)
    (hfetch : ∀ c, fetch c = (do
      raiseIf (¬ (1 ≤ limit ∧ limit ≤ 200)) (.valueError name)
      return (page key rows limit.toNat (descendingCursor c)).map view))
    {next : Dict → Option StatusCursor}
    (hnext : ∀ a ∈ rows, ∃ c, next (view a) = some c ∧ descendingCursor (some c) = key a)
    (visited : List Dict) :
    Walk fetch (fun entry => (next entry).map some) none visited ↔
      visited = (descending key rows).map view := by
  have hpage : ∀ c, fetch c =
      .ok ((page key rows limit.toNat (descendingCursor c)).map view) := by
    intro c
    rw [hfetch c, raiseIf, if_neg (not_not.2 hlimit)]
    rfl
  have hcursor : ∀ a ∈ rows, ∃ c, (next (view a)).map some = some c ∧
      descendingCursor c = key a := by
    intro a ha
    obtain ⟨c, hc, hkey⟩ := hnext a ha
    exact ⟨some c, by rw [hc]; rfl, hkey⟩
  have hwalk : Walk fetch (fun entry => (next entry).map some) none _ :=
    walk_descending (by omega) hnodup hpage hcursor none
  rw [below_eq_self hbelow] at hwalk
  exact ⟨fun h => h.unique hwalk, fun h => h ▸ hwalk⟩

/-- **Pages lose nothing and repeat nothing.**  A client that asks for the page after the last
entry it was given, until a page is empty, is given every matching item once, the latest first;
and so for the pending items. -/
theorem keyset_lossless (hconv : conv.Faithful) (hlimit : 1 ≤ limit ∧ limit ≤ 200)
    (hbelow : ∀ workId row, db.workItems.lookup (context.tenantId, workId) = some row →
      rowKey row.requestedAt workId < rowKey datetimeMax maxUuid ∧
        rowKey row.availableAt workId < rowKey datetimeMax maxUuid)
    (filter : Option WorkStatus) :
    (∃ items : List (UUID × WorkItemRow),
      (∀ visited, StatusWalk conv db context filter limit visited ↔
        visited = items.map (statusEntry conv.toPyText)) ∧
      (∀ workId row, (workId, row) ∈ items ↔
        db.workItems.lookup (context.tenantId, workId) = some row ∧
          ∀ s ∈ filter, row.status = s) ∧
      items.Pairwise fun r r' => rowKey r'.2.requestedAt r'.1 < rowKey r.2.requestedAt r.1) ∧
    ∃ items : List PendingRow,
      (∀ visited, PendingWalk conv db context limit visited ↔
        visited = items.map (pendingEntry conv.toPyText)) ∧
      (∀ workId row lease, ((workId, row), lease) ∈ items ↔
        db.workItems.lookup (context.tenantId, workId) = some row ∧
          (row.status.isQueued = true ∨ row.status.isActive = true) ∧
          lease = heldLease db context.tenantId workId) ∧
      items.Pairwise fun r r' =>
        rowKey r'.1.2.availableAt r'.1.1 < rowKey r.1.2.availableAt r.1.1 := by
  have hstatus := nodup_rowKey (fun r : UUID × WorkItemRow => r.2.requestedAt)
    (nodup_statusRows db context.tenantId filter)
  have hpending := nodup_rowKey (fun r : PendingRow => r.1.2.availableAt)
    (nodup_pendingRows db context.tenantId)
  refine ⟨⟨_, fun visited => ?_, fun workId row => ?_, descending_strict hstatus⟩,
    ⟨_, fun visited => ?_, fun workId row lease => ?_, descending_strict hpending⟩⟩
  · refine walk_listing hlimit hstatus ?_ (fun c => rfl)
      (fun r _ => ⟨_, cursorAfter_statusEntry hconv r, rfl⟩) visited
    exact fun r hr => (hbelow r.1 r.2 (mem_statusRows.1 hr).1).1
  · rw [mem_descending, mem_statusRows]
  · refine walk_listing hlimit hpending ?_ (fun c => rfl)
      (fun r _ => ⟨_, cursorAfter_pendingEntry hconv r, rfl⟩) visited
    exact fun r hr => (hbelow r.1.1 r.1.2 (mem_pendingRows.1 hr).1).2
  · rw [mem_descending, mem_pendingRows]

/-- An item that was requested at a time. -/
def listedItem (status : WorkStatus) (requestedAt : Timestamp) : WorkItemRow where
  workKind := "summary"
  idempotencyKey := "key"
  status := status
  requestedAt := requestedAt
  availableAt := requestedAt
  maxAttempts := 3
  timeoutSeconds := 60
  requestEventId := .ofNat 1
  correlationId := .ofNat 2
  causationId := none
  requestPayload := []

/-- Two items of one moment, the one at work on. -/
def listedDatabase : Database where
  tenants := ["acme"]
  workItems := ((∅ : Table WorkKey WorkItemRow).upsert ("acme", .ofNat 5)
    (listedItem .requested 7)).upsert ("acme", .ofNat 6) (listedItem .running 7)

def listedContext : TenantContext := ⟨"acme", isIdentifier_acme⟩

theorem keyset_lossless_two :
    (∃ items : List (UUID × WorkItemRow),
      (∀ visited, StatusWalk plainConversions listedDatabase listedContext none 1 visited ↔
        visited = items.map (statusEntry plainConversions.toPyText)) ∧
      items.Pairwise fun r r' => rowKey r'.2.requestedAt r'.1 < rowKey r.2.requestedAt r.1) ∧
    ∃ items : List PendingRow,
      (∀ visited, PendingWalk plainConversions listedDatabase listedContext 1 visited ↔
        visited = items.map (pendingEntry plainConversions.toPyText)) ∧
      items.Pairwise fun r r' =>
        rowKey r'.1.2.availableAt r'.1.1 < rowKey r.1.2.availableAt r.1.1 := by
  have hearlier : ∀ workId, rowKey 7 workId < rowKey datetimeMax maxUuid := by
    intro workId
    rw [rowKey, rowKey, Prod.Lex.toLex_lt_toLex]
    exact .inl (show (7 : Timestamp) < datetimeMax by decide)
  have hbelow : ∀ workId row,
      listedDatabase.workItems.lookup (listedContext.tenantId, workId) = some row →
      rowKey row.requestedAt workId < rowKey datetimeMax maxUuid ∧
        rowKey row.availableAt workId < rowKey datetimeMax maxUuid := by
    intro workId row hrow
    rw [listedDatabase, Table.lookup_upsert, Table.lookup_upsert] at hrow
    split at hrow
    · cases hrow
      exact ⟨hearlier workId, hearlier workId⟩
    · split at hrow
      · cases hrow
        exact ⟨hearlier workId, hearlier workId⟩
      · cases hrow
  obtain ⟨⟨items, hwalk, -, hordered⟩, pending, hpending, -, horder⟩ :=
    keyset_lossless plainConversions_faithful (show 1 ≤ (1 : ℤ) ∧ (1 : ℤ) ≤ 200 by decide) hbelow
      none
  exact ⟨⟨items, hwalk, hordered⟩, pending, hpending, horder⟩

end

end PostgresWorkRepository

end AegisPlatform
