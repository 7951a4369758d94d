import AegisPlatform.System.Projecting

/-!
# One projection of one tenant

Whatever the rows of a projection are, `apply` and `catch_up` treat its checkpoint in the same
way.  Here the rows are those of any model.

* `ReadModel` — rows, and what the handler of a projection does to them.
* `ReadModel.apply` — the repository's `apply`.
* `ReadModel.step` — the next call of a `catch_up`.
* `ProjectionName.model` — the projections that only the engine writes, as instances;
  `apply_view` connects their repository.
-/

namespace AegisPlatform

open Fallible

/-- The rows of a projection, and its handler.  A handler refuses an event, or fails in its
statement; replay corruption is not its business. -/
structure ReadModel where
  Rows : Type
  write : Rows → EventEnvelope → Except Raised Rows
  write_ne_corrupt : ∀ rows e message, write rows e ≠ .error (.replayCorruptionError message)

/-- A tenant's rows of a projection, and its row of `projection_checkpoints`. -/
structure ProjectionView (rows : Type) where
  rows : rows
  checkpoint : Option ℕ

/-- `checkpoint`. -/
def ProjectionView.position {rows : Type} (v : ProjectionView rows) : ℕ := v.checkpoint.getD 0

namespace ReadModel

variable (model : ReadModel)

/-- The loop of `apply`. -/
def writeAll (context : TenantContext) (rows : model.Rows) (events : List EventEnvelope) :
    Except Raised model.Rows :=
  events.foldlM (fun rows e => do
    raiseIf (e.tenantId ≠ context.tenantId)
      (.permanentStorageError "projection event tenant does not match context")
    model.write rows e) rows

/-- `apply`: the new checkpoint. -/
def apply (context : TenantContext) (v : ProjectionView model.Rows)
    (events : List EventEnvelope) (expectedCheckpoint : ℕ) :
    Except Raised (ℕ × ProjectionView model.Rows) := do
  if events.isEmpty then
    return (expectedCheckpoint, v)
  raiseIf (events.any (·.globalPosition.isNone))
    (.replayCorruptionError "projection events require global positions")
  let finalPosition := (events.getLast?.bind (·.globalPosition)).getD 0
  let actual := v.position
  if finalPosition ≤ actual then
    return (actual, { v with checkpoint := some actual })
  raiseIf (actual ≠ expectedCheckpoint) (.concurrencyError expectedCheckpoint actual)
  let rows ← model.writeAll context v.rows events
  return (finalPosition, ⟨rows, some finalPosition⟩)

/-- The next call of a `catch_up`. -/
def step (context : TenantContext) (pageSize : ℤ) (l : Ledger)
    (v : ProjectionView model.Rows) :
    EngineState → ProjectionView model.Rows × EngineState
  | .loading => (v, .reading v.position [])
  | .reading cursor versions =>
    (v, EngineCall.afterRead cursor versions (l.readAll context cursor pageSize))
  | .applying cursor versions page =>
    match model.apply context v (page.events.map (·.event)) cursor with
    | .error e => (v, .raised e)
    | .ok (cursor, v) =>
      (v, if page.nextCursor.isNone then .returned cursor else .reading cursor versions)
  | state => (v, state)

variable {model} {context : TenantContext} {v v' : ProjectionView model.Rows}
  {events : List EventEnvelope} {expected actual : ℕ}

theorem writeAll_ne_corrupt (rows : model.Rows) (events : List EventEnvelope)
    (message : String) :
    model.writeAll context rows events ≠ .error (.replayCorruptionError message) := by
  unfold writeAll
  induction events generalizing rows with
  | nil => exact fun h => (by cases h)
  | cons e rest ih =>
    rw [List.foldlM_cons]
    by_cases htenant : e.tenantId = context.tenantId
    · simp only [raiseIf, htenant, ne_eq, not_true_eq_false, if_false]
      cases hwrite : model.write rows e with
      | error e' =>
        intro h
        cases h
        exact model.write_ne_corrupt rows e message hwrite
      | ok rows' => exact ih rows'
    · simp only [raiseIf, ne_eq, htenant, not_false_eq_true, if_true]
      exact fun h => (by cases h)

/-- **What `apply` has done when it returns**: it found the checkpoint at or beyond the last of
its events, or moved it there. -/
theorem apply_eq_ok {final : ℕ} (hne : events ≠ [])
    (hfinal : events.getLast?.bind (·.globalPosition) = some final)
    (h : model.apply context v events expected = .ok (actual, v')) :
    final ≤ v.position ∧ actual = v.position ∧ v'.position = v.position ∨
      actual = final ∧ v'.position = final := by
  unfold apply at h
  rw [if_neg (by simpa using hne)] at h
  simp only [bind_eq_ok, raiseIf_eq_ok, hfinal, Option.getD_some] at h
  obtain ⟨-, -, h⟩ := h
  split at h
  · rename_i hbeyond
    rw [pure_eq_ok, Prod.mk.injEq] at h
    obtain ⟨rfl, rfl⟩ := h
    exact Or.inl ⟨hbeyond, rfl, rfl⟩
  · simp only [bind_eq_ok, pure_eq_ok, Prod.mk.injEq] at h
    obtain ⟨-, -, rows, -, rfl, rfl⟩ := h
    exact Or.inr ⟨rfl, rfl⟩

/-- `apply` finds no corruption in events that have their positions. -/
theorem apply_ne_corrupt (hpositions : ∀ e ∈ events, ∃ p, e.globalPosition = some p)
    (message : String) :
    model.apply context v events expected ≠ .error (.replayCorruptionError message) := by
  have hsome : events.any (·.globalPosition.isNone) = false := by
    refine List.any_eq_false.mpr fun e he => ?_
    obtain ⟨p, hp⟩ := hpositions e he
    simp [hp]
  unfold apply
  split
  · exact fun h => (by cases h)
  · rw [hsome]
    simp only [raiseIf, Bool.false_eq_true, if_false]
    show (if _ then _ else _) ≠ _
    split
    · exact fun h => (by cases h)
    · by_cases hexpected : v.position = expected
      · simp only [hexpected, ne_eq, not_true_eq_false, if_false]
        cases hwrite : model.writeAll context v.rows events with
        | error e =>
          intro h
          cases h
          exact writeAll_ne_corrupt v.rows events message hwrite
        | ok rows => exact fun h => (by cases h)
      · simp only [ne_eq, hexpected, not_false_eq_true, if_true]
        exact fun h => (by cases h)

end ReadModel

/-! ## The projections that only the engine writes -/

/-- A failure of a handler: it refuses the event, or its statement fails. -/
def IsPermanent (e : Raised) : Prop := ∃ message, e = .permanentStorageError message

section

variable {text : PayloadText} {e : EventEnvelope}

theorem isPermanent_failure : IsPermanent permanentStorageFailure := ⟨_, rfl⟩

theorem raisesOnly_requiredString (payload : Dict) (field : String) :
    RaisesOnly IsPermanent (requiredString payload field) := by
  unfold requiredString
  split
  · exact raisesOnly_bind (raisesOnly_raiseIf fun _ => ⟨_, rfl⟩) fun _ _ => raisesOnly_ok _
  · exact raisesOnly_error ⟨_, rfl⟩

theorem raisesOnly_requiredInt (payload : Dict) (field : String) :
    RaisesOnly IsPermanent (requiredInt payload field) := by
  unfold requiredInt
  split
  · exact raisesOnly_bind (raisesOnly_raiseIf fun _ => ⟨_, rfl⟩) fun _ _ => raisesOnly_ok _
  · exact raisesOnly_error ⟨_, rfl⟩

theorem raisesOnly_requiredUuid (text : PayloadText) (payload : Dict) (field : String) :
    RaisesOnly IsPermanent (requiredUuid text payload field) :=
  raisesOnly_bind (raisesOnly_requiredString _ _) fun _ _ => raisesOnly_orRaise fun _ => ⟨_, rfl⟩

theorem raisesOnly_requiredDecimal (text : PayloadText) (payload : Dict) (field : String) :
    RaisesOnly IsPermanent (requiredDecimal text payload field) :=
  raisesOnly_bind (raisesOnly_requiredString _ _) fun _ _ =>
    raisesOnly_bind (raisesOnly_orRaise fun _ => ⟨_, rfl⟩) fun _ _ =>
      raisesOnly_bind (raisesOnly_orRaise fun _ => ⟨_, rfl⟩) fun _ _ =>
        raisesOnly_bind (raisesOnly_raiseIf fun _ => ⟨_, rfl⟩) fun _ _ => raisesOnly_ok _

theorem raisesOnly_storedPosition (e : EventEnvelope) :
    RaisesOnly IsPermanent (storedPosition e) :=
  raisesOnly_bind (raisesOnly_orRaise fun _ => isPermanent_failure) fun _ _ =>
    raisesOnly_bind (raisesOnly_raiseIf fun _ => isPermanent_failure) fun _ _ => raisesOnly_ok _

/-- An insert without a condition on the old row never fails. -/
theorem raisesOnly_write {κ ρ : Type} (key : κ) (row : ρ) (old : Option ρ) :
    RaisesOnly IsPermanent ((RowChange.insertOnce key row).write old) := by
  cases old <;> exact raisesOnly_ok _

theorem raisesOnly_insertOrUpdate {κ ρ : Type} (key : κ) (row : ρ) (p : ρ → Bool)
    {set : ρ → Except Raised ρ} (hset : ∀ old, RaisesOnly IsPermanent (set old)) (old : Option ρ) :
    RaisesOnly IsPermanent ((RowChange.insertOrUpdate key row p set).write old) := by
  cases old with
  | none => exact raisesOnly_ok _
  | some old =>
    show RaisesOnly IsPermanent (if p old then some <$> set old else .ok (some old))
    split
    · cases hold : set old with
      | ok row => exact raisesOnly_ok _
      | error e => exact raisesOnly_error (hset old e hold)
    · exact raisesOnly_ok _

/-- What a handler gives fails for good, if at all: the handler, and its statement. -/
def Permanent {κ ρ : Type} (x : Except Raised (Option (RowChange κ ρ))) : Prop :=
  RaisesOnly IsPermanent x ∧ ∀ c, x = .ok (some c) → ∀ old, RaisesOnly IsPermanent (c.write old)

section

variable {α κ ρ : Type}

theorem permanent_bind {x : Except Raised α} {f : α → Except Raised (Option (RowChange κ ρ))}
    (hx : RaisesOnly IsPermanent x) (hf : ∀ a, Permanent (f a)) : Permanent (x >>= f) := by
  refine ⟨raisesOnly_bind hx fun a _ => (hf a).1, fun c hc => ?_⟩
  obtain ⟨a, -, ha⟩ := bind_eq_ok.1 hc
  exact (hf a).2 c ha

theorem permanent_none : Permanent (.ok none : Except Raised (Option (RowChange κ ρ))) :=
  ⟨raisesOnly_ok _, fun _ h => by cases h⟩

theorem permanent_some {c : RowChange κ ρ} (h : ∀ old, RaisesOnly IsPermanent (c.write old)) :
    Permanent (.ok (some c)) := by
  refine ⟨raisesOnly_ok _, fun c' hc' => ?_⟩
  cases hc'
  exact h

end

theorem permanent_runStatus (e : EventEnvelope) : Permanent (applyRunStatus e) := by
  have hstatus : RaisesOnly IsPermanent (some <$> requiredString e.payload "status") := by
    intro e' he'
    cases hstring : requiredString e.payload "status" with
    | ok status => rw [hstring] at he'; cases he'
    | error e'' =>
      rw [hstring] at he'
      cases he'
      exact raisesOnly_requiredString _ _ _ hstring
  have hrest : ∀ status, Permanent (match status with
      | none => (.ok none : Except Raised (Option (RowChange String RunStatusRow)))
      | some status => do
        let position ← storedPosition e
        raiseIf (e.aggregateSequence = 0) permanentStorageFailure
        let updatedAt ← orRaise permanentStorageFailure e.recordedAt
        let row : RunStatusRow := ⟨status, e.aggregateSequence, position, updatedAt⟩
        return some (.insertOrUpdate e.aggregateId row
          (fun old => old.aggregateSequence < e.aggregateSequence) fun _ => .ok row)) := by
    intro status
    cases status with
    | none => exact permanent_none
    | some status =>
      refine permanent_bind (raisesOnly_storedPosition e) fun position => ?_
      refine permanent_bind (raisesOnly_raiseIf fun _ => isPermanent_failure) fun _ => ?_
      refine permanent_bind (raisesOnly_orRaise fun _ => isPermanent_failure) fun updatedAt => ?_
      exact permanent_some (raisesOnly_insertOrUpdate _ _ _ fun _ => raisesOnly_ok _)
  unfold applyRunStatus
  split
  · exact permanent_bind hstatus hrest
  all_goals exact permanent_bind (raisesOnly_ok _) hrest

theorem permanent_artifact (text : PayloadText) (e : EventEnvelope) :
    Permanent (applyArtifact text e) := by
  unfold applyArtifact
  split
  · exact permanent_none
  · refine permanent_bind (raisesOnly_requiredUuid _ _ _) fun artifactId => ?_
    refine permanent_bind (raisesOnly_requiredString _ _) fun artifactKind => ?_
    refine permanent_bind (raisesOnly_requiredString _ _) fun sourceReference => ?_
    refine permanent_bind (raisesOnly_requiredString _ _) fun summary => ?_
    refine permanent_bind (raisesOnly_storedPosition e) fun position => ?_
    exact permanent_some (raisesOnly_write _ _)

theorem permanent_approval (text : PayloadText) (e : EventEnvelope) :
    Permanent (applyApproval text e) := by
  unfold applyApproval
  split
  · refine permanent_bind (raisesOnly_requiredUuid _ _ _) fun approvalId => ?_
    refine permanent_bind (raisesOnly_requiredString _ _) fun reference => ?_
    refine permanent_bind (raisesOnly_storedPosition e) fun position => ?_
    exact permanent_some (raisesOnly_write _ _)
  · split
    · refine permanent_bind (raisesOnly_requiredUuid _ _ _) fun approvalId => ?_
      exact permanent_some fun _ => raisesOnly_ok _
    · exact permanent_none

theorem permanent_usage (text : PayloadText) (e : EventEnvelope) :
    Permanent (applyUsage text e) := by
  unfold applyUsage
  split
  · exact permanent_none
  · refine permanent_bind (raisesOnly_requiredString _ _) fun period => ?_
    refine permanent_bind (raisesOnly_requiredInt _ _) fun tokens => ?_
    refine permanent_bind (raisesOnly_requiredDecimal _ _ _) fun cost => ?_
    refine permanent_bind (raisesOnly_orRaise fun _ => isPermanent_failure) fun stored => ?_
    refine permanent_bind (raisesOnly_orRaise fun _ => isPermanent_failure) fun storedCost => ?_
    refine permanent_bind (raisesOnly_storedPosition e) fun position => ?_
    refine permanent_some (raisesOnly_insertOrUpdate _ _ _ fun old => ?_)
    refine raisesOnly_bind (raisesOnly_orRaise fun _ => isPermanent_failure) fun _ _ => ?_
    exact raisesOnly_bind (raisesOnly_orRaise fun _ => isPermanent_failure)
      fun _ _ => raisesOnly_ok _

theorem permanent_tenant (e : EventEnvelope) : Permanent (applyTenant e) := by
  unfold applyTenant
  split
  · exact permanent_none
  · refine permanent_bind (raisesOnly_requiredString _ _) fun displayName => ?_
    have hrest : ∀ enabled : Bool, Permanent (do
        let position ← storedPosition e
        let row : TenantListingRow := ⟨displayName, enabled, position⟩
        return some (.insertOrUpdate () row (fun old => old.lastGlobalPosition < position)
          fun _ => .ok row)) := fun enabled =>
      permanent_bind (raisesOnly_storedPosition e) fun position =>
        permanent_some (raisesOnly_insertOrUpdate _ _ _ fun _ => raisesOnly_ok _)
    split
    · exact permanent_bind (raisesOnly_ok _) hrest
    · exact permanent_bind (raisesOnly_ok _) hrest
    · exact permanent_bind (raisesOnly_error ⟨_, rfl⟩) hrest

/-- **A handler only fails for good**, and so does its statement. -/
theorem change_permanent (text : PayloadText) (p : ProjectionName) (e : EventEnvelope) :
    Permanent (change text p e) := by
  cases p with
  | runStatus => exact permanent_runStatus e
  | artifactIndex => exact permanent_artifact text e
  | pendingApprovals => exact permanent_approval text e
  | usageQuota => exact permanent_usage text e
  | tenantListing => exact permanent_tenant e

theorem applyEvent_permanent (text : PayloadText) (p : ProjectionName) (table : p.RowTable)
    (e : EventEnvelope) : RaisesOnly IsPermanent (applyEvent text p table e) := by
  obtain ⟨hchange, hwrite⟩ := change_permanent text p e
  refine raisesOnly_bind hchange fun c hc => ?_
  cases c with
  | none => exact raisesOnly_ok _
  | some c => exact raisesOnly_bind (hwrite c hc _) fun _ _ => raisesOnly_ok _

end

/-- A projection that only the engine writes. -/
def ProjectionName.model (text : PayloadText) (p : ProjectionName) : ReadModel where
  Rows := p.RowTable
  write := applyEvent text p
  write_ne_corrupt rows e message h := by
    obtain ⟨message', hpermanent⟩ := applyEvent_permanent text p rows e _ h
    cases hpermanent

/-- What the repository has of a tenant's projection. -/
def Views.view (text : PayloadText) (v : Views) (t : String) (p : ProjectionName) :
    ProjectionView (p.model text).Rows := ⟨v.tables p, v.checkpoints.lookup (t, p)⟩

/-- **The repository's `apply` is the one of the projection.** -/
theorem apply_view (text : PayloadText) (v : Views) (context : TenantContext) (p : ProjectionName)
    (events : List EventEnvelope) (expected : ℕ) :
    (v.apply text context p events expected).map
        (fun r => (r.1, r.2.view text context.tenantId p)) =
      (p.model text).apply context (v.view text context.tenantId p) events expected := by
  have hstart : (v.startCheckpoint context.tenantId p).checkpoints.lookup (context.tenantId, p) =
      some (v.checkpoint context.tenantId p) := by
    unfold Views.startCheckpoint Views.checkpoint
    cases hlookup : v.checkpoints.lookup (context.tenantId, p) with
    | none => simp [Table.insertNew, hlookup]
    | some position => simp [Table.insertNew, hlookup]
  have hkept : (v.startCheckpoint context.tenantId p).checkpoint context.tenantId p =
      v.checkpoint context.tenantId p := Views.checkpoint_startCheckpoint _ _ _ _ _
  have hposition : (v.view text context.tenantId p).position = v.checkpoint context.tenantId p :=
    rfl
  unfold Views.apply ReadModel.apply
  by_cases hempty : events.isEmpty = true
  · rw [if_pos hempty, if_pos hempty]
    rfl
  · rw [if_neg hempty, if_neg hempty]
    by_cases hnone : (events.any (·.globalPosition.isNone)) = true
    · simp only [raiseIf, hnone, if_true]
      rfl
    · simp only [raiseIf, hnone, hkept, hposition]
      by_cases hbeyond : (events.getLast?.bind (·.globalPosition)).getD 0 ≤
          v.checkpoint context.tenantId p
      · simp only [if_pos hbeyond]
        show Except.ok _ = Except.ok _
        simp only [Views.view, hstart]
        rfl
      · simp only [if_neg hbeyond]
        by_cases hexpected : v.checkpoint context.tenantId p = expected
        · simp only [hexpected, ne_eq, not_true_eq_false, if_false]
          have hall : Views.applyAll text context p ((v.startCheckpoint context.tenantId p).tables p)
              events = (p.model text).writeAll context (v.view text context.tenantId p).rows events :=
            rfl
          rw [hall]
          cases (p.model text).writeAll context (v.view text context.tenantId p).rows events with
          | error e => rfl
          | ok rows =>
            have hrows : Function.update (v.startCheckpoint context.tenantId p).tables p rows p =
                rows := Function.update_self ..
            have hlookup : ((v.startCheckpoint context.tenantId p).checkpoints.upsert
                (context.tenantId, p) ((events.getLast?.bind (·.globalPosition)).getD 0)).lookup
                (context.tenantId, p) = some ((events.getLast?.bind (·.globalPosition)).getD 0) := by
              rw [Table.lookup_upsert_self]
            show Except.ok _ = Except.ok _
            simp only [Views.view]
            rw [hrows, hlookup]
        · simp only [ne_eq, hexpected, not_false_eq_true, if_true]
          rfl

end AegisPlatform
