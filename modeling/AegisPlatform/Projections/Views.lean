import AegisPlatform.EventStore.Reads
import AegisPlatform.Runtime.Delivery

/-!
# Read models

The disposable projections of a tenant's history: run status, artifacts, pending
approvals, usage and the tenant listing.  Each has a table and, for every tenant, a
checkpoint; `model-usage`, the sixth, is also written by the gateway and belongs to it.

* `RowChange` — what one statement of a handler does to one row.
* `change` — the handlers, by projection.
* `Views.checkpoint`, `Views.apply`, `Views.reset` — the repository; each is one
  transaction.
* `project` — what a projection is for: the fold of a history.
-/

namespace AegisPlatform

open Fallible

/-! ## Payloads -/

/-- What Python makes of the texts in a payload. -/
structure PayloadText where
  /-- `UUID(text)`. -/
  uuid : String → Option UUID
  /-- `Decimal(text)`; a number that is not finite is `some none`. -/
  decimal : String → Option (Option Decimal)

/-- What Python writes, it reads back: identifiers, and decimal numbers. -/
structure PayloadText.ReadsBack (text : PayloadText) (py : PyText) : Prop where
  uuid_str : ∀ id : UUID, text.uuid id.str = some id
  decimal_str : ∀ k x, Decimal.OnGrid k x → text.decimal (py.strDecimal x) = some (some x)
  str_ne : ∀ k x, Decimal.OnGrid k x → py.strDecimal x ≠ ""

/-- `_required_string`. -/
def requiredString (payload : Dict) (field : String) : Except Raised String :=
  match payload.get? field with
  | some (.str value) => do
    raiseIf (value = "") (.permanentStorageError ("projection event requires string " ++ field))
    return value
  | _ => .error (.permanentStorageError ("projection event requires string " ++ field))

/-- `_required_int`. -/
def requiredInt (payload : Dict) (field : String) : Except Raised ℤ :=
  match payload.get? field with
  | some (.int value) => do
    raiseIf (value < 0)
      (.permanentStorageError ("projection event requires non-negative " ++ field))
    return value
  | _ => .error (.permanentStorageError ("projection event requires non-negative " ++ field))

/-- `_required_uuid`. -/
def requiredUuid (text : PayloadText) (payload : Dict) (field : String) : Except Raised UUID := do
  let value ← requiredString payload field
  orRaise (.permanentStorageError ("projection event requires uuid " ++ field)) (text.uuid value)

/-- `_required_decimal`. -/
def requiredDecimal (text : PayloadText) (payload : Dict) (field : String) :
    Except Raised Decimal := do
  let raised : Raised :=
    .permanentStorageError ("projection event requires finite non-negative " ++ field)
  let value ← requiredString payload field
  let decimal ← orRaise raised (text.decimal value)
  let decimal ← orRaise raised decimal
  raiseIf (decimal < 0) raised
  return decimal

/-! ## Rows -/

/-- A row of `run_status_projection`. -/
structure RunStatusRow where
  status : String
  aggregateSequence : ℕ
  lastGlobalPosition : ℕ
  updatedAt : Timestamp
  deriving DecidableEq, Repr

/-- A row of `artifact_index_projection`. -/
structure ArtifactRow where
  runId : String
  artifactKind : String
  sourceReference : String
  summary : String
  eventId : UUID
  globalPosition : ℕ
  deriving DecidableEq, Repr

/-- A row of `pending_approvals_projection`. -/
structure PendingApprovalRow where
  runId : String
  proposalReference : String
  requestedAt : Timestamp
  eventId : UUID
  globalPosition : ℕ
  deriving DecidableEq, Repr

/-- A row of `usage_quota_projection`. -/
structure UsageQuotaRow where
  tokensUsed : ℤ
  costUsd : Decimal
  lastGlobalPosition : ℕ
  deriving DecidableEq, Repr

/-- A row of `tenant_listing_projection`. -/
structure TenantListingRow where
  displayName : String
  enabled : Bool
  lastGlobalPosition : ℕ
  deriving DecidableEq, Repr

/-- The projections that only the projection engine writes. -/
inductive ProjectionName where
  | runStatus
  | artifactIndex
  | pendingApprovals
  | usageQuota
  | tenantListing
  deriving DecidableEq, Repr

namespace ProjectionName

/-- What tells a tenant's rows apart: the primary key without `tenant_id`. -/
abbrev Key : ProjectionName → Type
  | runStatus => String
  | artifactIndex => UUID
  | pendingApprovals => UUID
  | usageQuota => String
  | tenantListing => Unit

/-- The rest of a row. -/
abbrev Row : ProjectionName → Type
  | runStatus => RunStatusRow
  | artifactIndex => ArtifactRow
  | pendingApprovals => PendingApprovalRow
  | usageQuota => UsageQuotaRow
  | tenantListing => TenantListingRow

instance (p : ProjectionName) : DecidableEq p.Key :=
  match p with
  | runStatus => inferInstanceAs (DecidableEq String)
  | artifactIndex => inferInstanceAs (DecidableEq UUID)
  | pendingApprovals => inferInstanceAs (DecidableEq UUID)
  | usageQuota => inferInstanceAs (DecidableEq String)
  | tenantListing => inferInstanceAs (DecidableEq Unit)

/-- The table of a projection. -/
abbrev RowTable (p : ProjectionName) := Table (String × p.Key) p.Row

end ProjectionName

/-! ## Statements -/

/-- What a statement does to one of the tenant's rows. -/
structure RowChange (κ ρ : Type) where
  key : κ
  write : Option ρ → Except Raised (Option ρ)

namespace RowChange

variable {κ ρ : Type}

/-- `INSERT … ON CONFLICT DO NOTHING`. -/
def insertOnce (key : κ) (row : ρ) : RowChange κ ρ where
  key := key
  write
    | none => .ok (some row)
    | some old => .ok (some old)

/-- `INSERT … ON CONFLICT DO UPDATE SET … WHERE p`. -/
def insertOrUpdate (key : κ) (row : ρ) (p : ρ → Bool) (set : ρ → Except Raised ρ) :
    RowChange κ ρ where
  key := key
  write
    | none => .ok (some row)
    | some old => if p old then some <$> set old else .ok (some old)

/-- `DELETE`. -/
def delete (key : κ) : RowChange κ ρ where
  key := key
  write _ := .ok none

end RowChange

/-- A value stored in a `numeric(20, 6)` column: rounded to six decimals, half away from
zero, refused from `10 ^ 14` on. -/
def numeric20_6 (x : Decimal) : Option Decimal :=
  let n : ℤ := ⌊|x| * 10 ^ 6 + 1 / 2⌋
  if n < 10 ^ 20 then some (if x < 0 then -(n : ℚ) / 10 ^ 6 else (n : ℚ) / 10 ^ 6) else none

/-- The position of an event, which no projection takes null or below `1`. -/
def storedPosition (e : EventEnvelope) : Except Raised ℕ := do
  let position ← orRaise permanentStorageFailure e.globalPosition
  raiseIf (position = 0) permanentStorageFailure
  return position

/-! ## Handlers -/

/-- `_apply_run_status`. -/
def applyRunStatus (e : EventEnvelope) : Except Raised (Option (RowChange String RunStatusRow)) := do
  let status ← match e.eventType with
    | .runStatusChanged => some <$> requiredString e.payload "status"
    | .runStarted => pure (some "running")
    | .runCompleted => pure (some "completed")
    | .runFailed => pure (some "failed")
    | _ => pure none
  match status with
  | none => return none
  | some status =>
    let position ← storedPosition e
    raiseIf (e.aggregateSequence = 0) permanentStorageFailure
    let updatedAt ← orRaise permanentStorageFailure e.recordedAt
    let row : RunStatusRow := ⟨status, e.aggregateSequence, position, updatedAt⟩
    return some (.insertOrUpdate e.aggregateId row
      (fun old => old.aggregateSequence < e.aggregateSequence) fun _ => .ok row)

/-- `_apply_artifact`. -/
def applyArtifact (text : PayloadText) (e : EventEnvelope) :
    Except Raised (Option (RowChange UUID ArtifactRow)) := do
  if e.eventType ≠ .artifactRecorded then
    return none
  let artifactId ← requiredUuid text e.payload "artifact_id"
  let artifactKind ← requiredString e.payload "artifact_kind"
  let sourceReference ← requiredString e.payload "source_reference"
  let summary ← requiredString e.payload "summary"
  let position ← storedPosition e
  return some (.insertOnce artifactId
    ⟨e.aggregateId, artifactKind, sourceReference, summary, e.eventId, position⟩)

/-- `_apply_approval`. -/
def applyApproval (text : PayloadText) (e : EventEnvelope) :
    Except Raised (Option (RowChange UUID PendingApprovalRow)) := do
  if e.eventType = .approvalRequested then
    let approvalId ← requiredUuid text e.payload "approval_id"
    let proposalReference ← requiredString e.payload "proposal_reference"
    let position ← storedPosition e
    return some (.insertOnce approvalId
      ⟨e.aggregateId, proposalReference, e.occurredAt, e.eventId, position⟩)
  else if e.eventType = .approvalDecided then
    return some (.delete (← requiredUuid text e.payload "approval_id"))
  else
    return none

/-- `_apply_usage`. -/
def applyUsage (text : PayloadText) (e : EventEnvelope) :
    Except Raised (Option (RowChange String UsageQuotaRow)) := do
  if e.eventType ≠ .usageRecorded then
    return none
  let period ← requiredString e.payload "period"
  let tokens ← requiredInt e.payload "tokens"
  let cost ← requiredDecimal text e.payload "cost_usd"
  let tokens ← orRaise permanentStorageFailure (bigint tokens)
  let cost ← orRaise permanentStorageFailure (numeric20_6 cost)
  let position ← storedPosition e
  return some (.insertOrUpdate period ⟨tokens, cost, position⟩
    (fun old => old.lastGlobalPosition < position) fun old => do
      let tokensUsed ← orRaise permanentStorageFailure (bigint (old.tokensUsed + tokens))
      let costUsd ← orRaise permanentStorageFailure (numeric20_6 (old.costUsd + cost))
      return ⟨tokensUsed, costUsd, position⟩)

/-- `_apply_tenant`. -/
def applyTenant (e : EventEnvelope) : Except Raised (Option (RowChange Unit TenantListingRow)) := do
  if e.eventType ≠ .tenantRegistered then
    return none
  let displayName ← requiredString e.payload "display_name"
  let enabled ← match e.payload.get? "enabled" with
    | none => pure true
    | some (.bool enabled) => pure enabled
    | some _ => throw (.permanentStorageError "tenant projection event requires boolean enabled")
  let position ← storedPosition e
  let row : TenantListingRow := ⟨displayName, enabled, position⟩
  return some (.insertOrUpdate () row (fun old => old.lastGlobalPosition < position)
    fun _ => .ok row)

/-- `_apply_event`: the statement of a projection's handler, if it has one for the
event. -/
def change (text : PayloadText) : (p : ProjectionName) → EventEnvelope →
    Except Raised (Option (RowChange p.Key p.Row))
  | .runStatus, e => applyRunStatus e
  | .artifactIndex, e => applyArtifact text e
  | .pendingApprovals, e => applyApproval text e
  | .usageQuota, e => applyUsage text e
  | .tenantListing, e => applyTenant e

/-- One event, applied. -/
def applyEvent (text : PayloadText) (p : ProjectionName) (table : p.RowTable) (e : EventEnvelope) :
    Except Raised p.RowTable := do
  match ← change text p e with
  | none => return table
  | some c =>
    let row ← c.write (table.lookup (e.tenantId, c.key))
    return table.put (e.tenantId, c.key) row

/-- What a projection is for: the events of a history, applied in their order, each
once. -/
def project (text : PayloadText) (p : ProjectionName) (events : List EventEnvelope) :
    Except Raised p.RowTable := events.foldlM (applyEvent text p) ∅

/-! ## The repository -/

/-- The tables of the projections, and their checkpoints. -/
structure Views where
  tables : (p : ProjectionName) → p.RowTable := fun _ => ∅
  checkpoints : Table (String × ProjectionName) ℕ := ∅

namespace Views

/-- `checkpoint`. -/
def checkpoint (v : Views) (tenantId : String) (p : ProjectionName) : ℕ :=
  (v.checkpoints.lookup (tenantId, p)).getD 0

/-- `INSERT INTO projection_checkpoints … ON CONFLICT DO NOTHING`. -/
def startCheckpoint (v : Views) (tenantId : String) (p : ProjectionName) : Views :=
  { v with checkpoints := (v.checkpoints.insertNew (tenantId, p) 0).getD v.checkpoints }

/-- The loop of `apply`. -/
def applyAll (text : PayloadText) (context : TenantContext) (p : ProjectionName)
    (table : p.RowTable) (events : List EventEnvelope) : Except Raised p.RowTable :=
  events.foldlM (fun table e => do
    raiseIf (e.tenantId ≠ context.tenantId)
      (.permanentStorageError "projection event tenant does not match context")
    applyEvent text p table e) table

/-- `apply`: the new checkpoint. -/
def apply (text : PayloadText) (v : Views) (context : TenantContext) (p : ProjectionName)
    (events : List EventEnvelope) (expectedCheckpoint : ℕ) : Except Raised (ℕ × Views) := do
  if events.isEmpty then
    return (expectedCheckpoint, v)
  raiseIf (events.any (·.globalPosition.isNone))
    (.replayCorruptionError "projection events require global positions")
  let finalPosition := (events.getLast?.bind (·.globalPosition)).getD 0
  let v := v.startCheckpoint context.tenantId p
  let actual := v.checkpoint context.tenantId p
  if finalPosition ≤ actual then
    return (actual, v)
  raiseIf (actual ≠ expectedCheckpoint) (.concurrencyError expectedCheckpoint actual)
  let table ← applyAll text context p (v.tables p) events
  return (finalPosition, {
    tables := Function.update v.tables p table
    checkpoints := v.checkpoints.upsert (context.tenantId, p) finalPosition })

/-- `reset`. -/
def reset (v : Views) (tenantId : String) (p : ProjectionName) : Views where
  tables := Function.update v.tables p ((v.tables p).deleteWhere fun k => k.1 = tenantId)
  checkpoints := v.checkpoints.delete (tenantId, p)

end Views

/-! ## What the operations do -/

section

variable {text : PayloadText} {p : ProjectionName} {t : String} {e : EventEnvelope}
  {events : List EventEnvelope} {table table' other : p.RowTable}

/-- Two tables have the same rows of a tenant. -/
def SameRows (t : String) (table other : p.RowTable) : Prop :=
  ∀ key, table.lookup (t, key) = other.lookup (t, key)

theorem SameRows.refl (t : String) (table : p.RowTable) : SameRows t table table := fun _ => rfl

theorem SameRows.trans {table'' : p.RowTable} (h : SameRows t table table')
    (h' : SameRows t table' table'') : SameRows t table table'' :=
  fun key => (h key).trans (h' key)

theorem SameRows.put {key : p.Key} (h : SameRows t table other) (row : Option p.Row) :
    SameRows t (table.put (t, key) row) (other.put (t, key) row) := by
  intro key'
  rw [Table.lookup_put, Table.lookup_put, h key']

theorem sameRows_put {t' : String} {key : p.Key} (h : t' ≠ t) (row : Option p.Row) :
    SameRows t table (table.put (t', key) row) := by
  intro key'
  rw [Table.lookup_put, if_neg]
  rintro heq
  exact h (congrArg Prod.fst heq).symm

/-- **What an event that is applied has done**: nothing, or one statement on a row of its
tenant. -/
theorem applyEvent_eq_ok : applyEvent text p table e = .ok table' ↔
    (change text p e = .ok none ∧ table = table') ∨
      ∃ c row, change text p e = .ok (some c) ∧
        c.write (table.lookup (e.tenantId, c.key)) = .ok row ∧
        table.put (e.tenantId, c.key) row = table' := by
  unfold applyEvent
  rw [bind_eq_ok]
  constructor
  · rintro ⟨none | c, hchange, h⟩
    · exact Or.inl ⟨hchange, pure_eq_ok.1 h⟩
    · obtain ⟨row, hwrite, h⟩ := bind_eq_ok.1 h
      exact Or.inr ⟨c, row, hchange, hwrite, pure_eq_ok.1 h⟩
  · rintro (⟨hchange, rfl⟩ | ⟨c, row, hchange, hwrite, rfl⟩)
    · exact ⟨none, hchange, rfl⟩
    · exact ⟨some c, hchange, bind_eq_ok.2 ⟨row, hwrite, rfl⟩⟩

/-- An event does the same to tables with the same rows of its tenant. -/
theorem SameRows.applyEvent (h : SameRows e.tenantId table other)
    (happly : applyEvent text p table e = .ok table') :
    ∃ other', AegisPlatform.applyEvent text p other e = .ok other' ∧
      SameRows e.tenantId table' other' := by
  rcases applyEvent_eq_ok.1 happly with ⟨hchange, rfl⟩ | ⟨c, row, hchange, hwrite, rfl⟩
  · exact ⟨other, applyEvent_eq_ok.2 (Or.inl ⟨hchange, rfl⟩), h⟩
  · rw [h c.key] at hwrite
    exact ⟨_, applyEvent_eq_ok.2 (Or.inr ⟨c, row, hchange, hwrite, rfl⟩), h.put row⟩

/-- An event leaves the rows of the other tenants alone. -/
theorem sameRows_applyEvent (hne : e.tenantId ≠ t) (happly : applyEvent text p table e = .ok table') :
    SameRows t table table' := by
  rcases applyEvent_eq_ok.1 happly with ⟨-, rfl⟩ | ⟨c, row, -, -, rfl⟩
  · exact .refl t _
  · exact sameRows_put hne row

/-- Events do the same to tables with the same rows of their tenant. -/
theorem SameRows.foldlM (hevents : ∀ e ∈ events, e.tenantId = t) (h : SameRows t table other)
    (hfold : events.foldlM (AegisPlatform.applyEvent text p) table = .ok table') :
    ∃ other', events.foldlM (AegisPlatform.applyEvent text p) other = .ok other' ∧
      SameRows t table' other' := by
  induction events generalizing table other with
  | nil =>
    rw [List.foldlM_nil, pure_eq_ok] at hfold
    subst hfold
    exact ⟨other, rfl, h⟩
  | cons e rest ih =>
    have he := hevents e (List.mem_cons_self ..)
    subst he
    rw [List.foldlM_cons, bind_eq_ok] at hfold
    obtain ⟨table₁, hfirst, hrest⟩ := hfold
    obtain ⟨other₁, hother, h₁⟩ := h.applyEvent hfirst
    obtain ⟨other', hother', h'⟩ := ih (fun e' he' => hevents e' (List.mem_cons_of_mem _ he')) h₁ hrest
    exact ⟨other', by rw [List.foldlM_cons, bind_eq_ok]; exact ⟨other₁, hother, hother'⟩, h'⟩

/-- Events leave the rows of the other tenants alone. -/
theorem sameRows_foldlM (hevents : ∀ e ∈ events, e.tenantId ≠ t)
    (hfold : events.foldlM (applyEvent text p) table = .ok table') : SameRows t table table' := by
  induction events generalizing table with
  | nil =>
    rw [List.foldlM_nil, pure_eq_ok] at hfold
    subst hfold
    exact .refl t _
  | cons e rest ih =>
    rw [List.foldlM_cons, bind_eq_ok] at hfold
    obtain ⟨table₁, hfirst, hrest⟩ := hfold
    have h₁ := sameRows_applyEvent (hevents e (List.mem_cons_self ..)) hfirst
    exact h₁.trans (ih (fun e' he' => hevents e' (List.mem_cons_of_mem _ he')) hrest)

end

namespace Views

variable {text : PayloadText} {v v' : Views} {context : TenantContext} {p : ProjectionName}
  {events : List EventEnvelope} {expected actual : ℕ}

/-- The loop of `apply` lets only the tenant's events through. -/
theorem applyAll_eq_ok {table table' : p.RowTable}
    (h : applyAll text context p table events = .ok table') :
    (∀ e ∈ events, e.tenantId = context.tenantId) ∧
      events.foldlM (applyEvent text p) table = .ok table' := by
  unfold applyAll at h
  induction events generalizing table with
  | nil => exact ⟨fun e he => (by cases he), h⟩
  | cons e rest ih =>
    simp only [List.foldlM_cons, bind_eq_ok, raiseIf_eq_ok, not_not] at h
    obtain ⟨table₁, ⟨-, htenant, hfirst⟩, hrest⟩ := h
    obtain ⟨htenants, hfold⟩ := ih hrest
    refine ⟨fun e' he' => ?_, ?_⟩
    · rcases List.mem_cons.1 he' with rfl | he'
      · exact htenant
      · exact htenants e' he'
    · rw [List.foldlM_cons, bind_eq_ok]
      exact ⟨table₁, hfirst, hfold⟩

theorem checkpoint_startCheckpoint (v : Views) (t : String) (p : ProjectionName) (t' : String)
    (p' : ProjectionName) : (v.startCheckpoint t p).checkpoint t' p' = v.checkpoint t' p' := by
  unfold startCheckpoint checkpoint
  dsimp only
  cases hnew : v.checkpoints.insertNew (t, p) 0 with
  | none => rfl
  | some checkpoints =>
    obtain ⟨hnone, rfl⟩ := Table.insertNew_eq_some.1 hnew
    rw [Option.getD_some, Table.lookup_upsert]
    split
    · rename_i hk
      rw [hk, hnone]
      rfl
    · rfl

/-- **What `apply` has done when it returns**: it found its events applied already, or it
found the checkpoint where the caller expected it, applied them in their order, and moved
the checkpoint to the last of them. -/
theorem apply_eq_ok (hne : events ≠ [])
    (h : v.apply text context p events expected = .ok (actual, v')) :
    (v'.tables = v.tables ∧ ∀ t p', v'.checkpoint t p' = v.checkpoint t p') ∨
      ∃ last ∈ events.getLast?, ∃ table, last.globalPosition = some actual ∧
        v.checkpoint context.tenantId p = expected ∧
        (∀ e ∈ events, e.tenantId = context.tenantId) ∧
        events.foldlM (applyEvent text p) (v.tables p) = .ok table ∧
        v'.tables = Function.update v.tables p table ∧
        ∀ t p', v'.checkpoint t p' =
          if (t, p') = (context.tenantId, p) then actual else v.checkpoint t p' := by
  unfold apply at h
  rw [if_neg (by simpa using hne)] at h
  simp only [bind_eq_ok, raiseIf_eq_ok, checkpoint_startCheckpoint] at h
  obtain ⟨-, hpositions, h⟩ := h
  split at h
  · rw [pure_eq_ok, Prod.mk.injEq] at h
    obtain ⟨-, rfl⟩ := h
    exact Or.inl ⟨rfl, checkpoint_startCheckpoint v _ _⟩
  · simp only [bind_eq_ok, raiseIf_eq_ok, not_not, pure_eq_ok, Prod.mk.injEq] at h
    obtain ⟨-, hexpected, table, hall, hfinal, rfl⟩ := h
    obtain ⟨htenants, hfold⟩ := applyAll_eq_ok hall
    have hlast := List.getLast?_eq_some_getLast hne
    have hsome : (events.getLast hne).globalPosition ≠ none := by
      intro hnone
      refine hpositions (List.any_eq_true.2 ⟨_, List.getLast_mem hne, ?_⟩)
      rw [hnone]
      rfl
    obtain ⟨position, hposition⟩ := Option.ne_none_iff_exists'.1 hsome
    rw [hlast, Option.bind_some, hposition, Option.getD_some] at hfinal
    subst hfinal
    refine Or.inr ⟨_, hlast, table, hposition, hexpected, htenants, hfold, rfl, fun t p' => ?_⟩
    have hstart := checkpoint_startCheckpoint v context.tenantId p t p'
    unfold checkpoint at *
    rw [Table.lookup_upsert, hlast, Option.bind_some, hposition]
    split
    · rfl
    · exact hstart

theorem checkpoint_reset (v : Views) (t : String) (p : ProjectionName) (t' : String)
    (p' : ProjectionName) :
    (v.reset t p).checkpoint t' p' = if (t', p') = (t, p) then 0 else v.checkpoint t' p' := by
  unfold reset checkpoint
  rw [Table.lookup_delete]
  split <;> rfl

theorem sameRows_reset (v : Views) {t t' : String} {p p' : ProjectionName} (h : (t', p') ≠ (t, p)) :
    SameRows t' (v.tables p') ((v.reset t p).tables p') := by
  intro key
  unfold reset
  dsimp only
  by_cases hp : p' = p
  · subst hp
    have ht : t' ≠ t := fun ht => h (by rw [ht])
    rw [Function.update_self, Table.lookup_deleteWhere, if_neg (by simpa using ht)]
  · rw [Function.update_of_ne hp]

theorem lookup_reset (v : Views) (t : String) (p : ProjectionName) (key : p.Key) :
    ((v.reset t p).tables p).lookup (t, key) = none := by
  unfold reset
  dsimp only
  rw [Function.update_self, Table.lookup_deleteWhere, if_pos (by simp)]

end Views

end AegisPlatform
