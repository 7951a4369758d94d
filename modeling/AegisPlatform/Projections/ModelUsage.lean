import AegisPlatform.System.Alarms

/-!
# The usage projection

`model-usage` is the projection admission reads its sums from.  The gateway writes a row of it
with every charge; the projection engine writes the same rows again when the projection is
rebuilt.

* `applyModelUsage` — the handler; `modelUsage` is the projection.
* `ReadModel.proceed` — an engine with nobody else about.
* `catchUp_returns` — from an empty projection it returns, with the fold of the history.
-/

namespace AegisPlatform

open Fallible

/-! ## The handler -/

/-- What `UUID` and `Decimal` raise, as `apply` reports it. -/
def invalidPayload : Raised := .permanentStorageError "projection event payload is invalid"

/-- `UUID(_required_string(payload, field))`. -/
def payloadUuid (text : PayloadText) (payload : Dict) (field : String) : Except Raised UUID := do
  let value ← requiredString payload field
  orRaise invalidPayload (text.uuid value)

/-- `Decimal(_required_string(payload, field))`, stored in a `numeric(20, 10)` column that is
not negative. -/
def payloadCost (text : PayloadText) (payload : Dict) (field : String) :
    Except Raised Decimal := do
  let value ← requiredString payload field
  let cost ← orRaise invalidPayload (text.decimal value)
  let cost ← orRaise permanentStorageFailure cost
  let stored ← orRaise permanentStorageFailure (numeric20_10 cost)
  raiseIf (stored < 0) permanentStorageFailure
  return stored

/-- `_apply_model_usage`. -/
def applyModelUsage (text : PayloadText) (e : EventEnvelope) :
    Except Raised (Option (RowChange UUID UsageRow)) := do
  if e.eventType ≠ .modelUsageRecorded then
    return none
  let inputTokens ← requiredInt e.payload "input_tokens"
  let outputTokens ← requiredInt e.payload "output_tokens"
  let cacheReadTokens ← requiredInt e.payload "cache_read_tokens"
  let cacheWriteTokens ← requiredInt e.payload "cache_write_tokens"
  let reasoningTokens ← requiredInt e.payload "reasoning_tokens"
  let requestId ← payloadUuid text e.payload "request_id"
  let runId ← payloadUuid text e.payload "run_id"
  let provider ← requiredString e.payload "provider"
  let model ← requiredString e.payload "model"
  let priceVersion ← requiredString e.payload "price_version"
  let cost ← payloadCost text e.payload "cost_usd"
  -- the other token columns are not negative, so they hold what the total holds
  let total ← orRaise permanentStorageFailure (bigint
    (inputTokens + outputTokens + cacheReadTokens + cacheWriteTokens + reasoningTokens))
  let row : UsageRow := {
    runId := runId
    provider := provider
    model := model
    priceVersion := priceVersion
    inputTokens := inputTokens
    outputTokens := outputTokens
    cacheReadTokens := cacheReadTokens
    cacheWriteTokens := cacheWriteTokens
    reasoningTokens := reasoningTokens
    totalTokens := total
    costUsd := cost
    recordedAt := e.recordedAt.getD e.occurredAt }
  return some (.insertOrUpdate requestId row (fun _ => true) fun _ => .ok row)

/-- One event, applied. -/
def writeModelUsage (text : PayloadText) (rows : Table (String × UUID) UsageRow)
    (e : EventEnvelope) : Except Raised (Table (String × UUID) UsageRow) := do
  match ← applyModelUsage text e with
  | none => return rows
  | some c =>
    let row ← c.write (rows.lookup (e.tenantId, c.key))
    return rows.put (e.tenantId, c.key) row

theorem raisesOnly_payloadUuid (text : PayloadText) (payload : Dict) (field : String) :
    RaisesOnly IsPermanent (payloadUuid text payload field) :=
  raisesOnly_bind (raisesOnly_requiredString _ _) fun _ _ => raisesOnly_orRaise fun _ => ⟨_, rfl⟩

theorem raisesOnly_payloadCost (text : PayloadText) (payload : Dict) (field : String) :
    RaisesOnly IsPermanent (payloadCost text payload field) :=
  raisesOnly_bind (raisesOnly_requiredString _ _) fun _ _ =>
    raisesOnly_bind (raisesOnly_orRaise fun _ => ⟨_, rfl⟩) fun _ _ =>
      raisesOnly_bind (raisesOnly_orRaise fun _ => isPermanent_failure) fun _ _ =>
        raisesOnly_bind (raisesOnly_orRaise fun _ => isPermanent_failure) fun _ _ =>
          raisesOnly_bind (raisesOnly_raiseIf fun _ => isPermanent_failure) fun _ _ =>
            raisesOnly_ok _

theorem permanent_modelUsage (text : PayloadText) (e : EventEnvelope) :
    Permanent (applyModelUsage text e) := by
  unfold applyModelUsage
  split
  · exact permanent_none
  · refine permanent_bind (raisesOnly_requiredInt _ _) fun inputTokens => ?_
    refine permanent_bind (raisesOnly_requiredInt _ _) fun outputTokens => ?_
    refine permanent_bind (raisesOnly_requiredInt _ _) fun cacheReadTokens => ?_
    refine permanent_bind (raisesOnly_requiredInt _ _) fun cacheWriteTokens => ?_
    refine permanent_bind (raisesOnly_requiredInt _ _) fun reasoningTokens => ?_
    refine permanent_bind (raisesOnly_payloadUuid _ _ _) fun requestId => ?_
    refine permanent_bind (raisesOnly_payloadUuid _ _ _) fun runId => ?_
    refine permanent_bind (raisesOnly_requiredString _ _) fun provider => ?_
    refine permanent_bind (raisesOnly_requiredString _ _) fun model => ?_
    refine permanent_bind (raisesOnly_requiredString _ _) fun priceVersion => ?_
    refine permanent_bind (raisesOnly_payloadCost _ _ _) fun cost => ?_
    refine permanent_bind (raisesOnly_orRaise fun _ => isPermanent_failure) fun total => ?_
    exact permanent_some (raisesOnly_insertOrUpdate _ _ _ fun _ => raisesOnly_ok _)

/-- The usage projection. -/
def modelUsage (text : PayloadText) : ReadModel where
  Rows := Table (String × UUID) UsageRow
  write := writeModelUsage text
  write_ne_corrupt rows e message h := by
    obtain ⟨hchange, hwrite⟩ := permanent_modelUsage text e
    have honly : RaisesOnly IsPermanent (writeModelUsage text rows e) := by
      refine raisesOnly_bind hchange fun c hc => ?_
      cases c with
      | none => exact raisesOnly_ok _
      | some c => exact raisesOnly_bind (hwrite c hc _) fun _ _ => raisesOnly_ok _
    obtain ⟨message', hpermanent⟩ := honly _ h
    cases hpermanent

/-! ## An engine on its own -/

namespace ReadModel

variable (model : ReadModel)

/-- The next calls of an engine that nobody interrupts. -/
def proceed (context : TenantContext) (pageSize : ℤ) (l : Ledger) :
    ℕ → ProjectionView model.Rows × EngineState → ProjectionView model.Rows × EngineState
  | 0, c => c
  | n + 1, c => proceed context pageSize l n (model.step context pageSize l c.1 c.2)

variable {model} {context : TenantContext} {pageSize : ℤ} {l : Ledger}

/-- The loop of `apply`, over a tenant's own events. -/
theorem writeAll_eq {rows : model.Rows} {events : List EventEnvelope}
    (h : ∀ e ∈ events, e.tenantId = context.tenantId) :
    model.writeAll context rows events = events.foldlM model.write rows := by
  unfold writeAll
  induction events generalizing rows with
  | nil => rfl
  | cons e rest ih =>
    have hrest : ∀ e' ∈ rest, e'.tenantId = context.tenantId :=
      fun e' he' => h e' (List.mem_cons_of_mem _ he')
    rw [List.foldlM_cons, List.foldlM_cons, raiseIf_bind,
      if_neg (not_not.2 (h e (List.mem_cons_self ..)))]
    exact congrArg _ (funext fun rows => ih hrest)

/-- A page that comes right after the checkpoint is applied. -/
theorem apply_page {rows rows' : model.Rows} {checkpoint : Option ℕ} {cursor final : ℕ}
    {events : List EventEnvelope} (hne : events ≠ [])
    (htenant : ∀ e ∈ events, e.tenantId = context.tenantId)
    (hpositions : ∀ e ∈ events, ∃ p, e.globalPosition = some p)
    (hfinal : events.getLast?.bind (·.globalPosition) = some final) (hcursor : cursor < final)
    (hcheckpoint : checkpoint.getD 0 = cursor)
    (hfold : events.foldlM model.write rows = .ok rows') :
    model.apply context ⟨rows, checkpoint⟩ events cursor = .ok (final, ⟨rows', some final⟩) := by
  have hempty : ¬ events.isEmpty = true := by simpa using hne
  have hsome : ¬ (events.any (·.globalPosition.isNone)) = true := by
    rw [List.any_eq_true]
    rintro ⟨e, he, hnone⟩
    obtain ⟨p, hp⟩ := hpositions e he
    rw [hp] at hnone
    cases hnone
  have hposition : (⟨rows, checkpoint⟩ : ProjectionView model.Rows).position = cursor := hcheckpoint
  have hbehind : ¬ final ≤ cursor := by omega
  unfold apply
  simp only [if_neg hempty, raiseIf_bind, if_neg hsome, hfinal, Option.getD_some, hposition,
    if_neg hbehind, ne_eq, not_true_eq_false, if_false, writeAll_eq htenant, hfold]
  rfl

theorem proceed_add (m n : ℕ) (c : ProjectionView model.Rows × EngineState) :
    model.proceed context pageSize l (m + n) c =
      model.proceed context pageSize l n (model.proceed context pageSize l m c) := by
  induction m generalizing c with
  | zero => rw [Nat.zero_add, proceed]
  | succ m ih => rw [Nat.succ_add, proceed, ih, proceed]

/-- **One page**: it is read and applied, and the loop goes on if it was full. -/
theorem proceed_page (hl : l.Inv) (hvalid : 1 ≤ pageSize ∧ pageSize ≤ 1000)
    {versions : Assoc String ℕ} {cursor final : ℕ} {checkpoint : Option ℕ}
    {rows rows' : model.Rows} {page : List EventEnvelope} {last : EventEnvelope}
    (hpage : (l.after context.tenantId cursor).take pageSize.toNat = page)
    (hlast : last ∈ page.getLast?) (hfinal : last.globalPosition = some final)
    (hcheckpoint : checkpoint.getD 0 = cursor)
    (hagrees : Agrees versions (l.upTo context.tenantId cursor))
    (hfold : page.foldlM model.write rows = .ok rows') :
    ∃ versions', Agrees versions' (l.upTo context.tenantId final) ∧
      model.proceed context pageSize l 2 (⟨rows, checkpoint⟩, .reading cursor versions) =
        (⟨rows', some final⟩,
          if page.length = pageSize then .reading final versions' else .returned final) := by
  have hprefix : page <+: l.after context.tenantId cursor := hpage ▸ List.take_prefix _ _
  have hall : ∀ e ∈ page, e.tenantId = context.tenantId ∧
      ∃ p, e.globalPosition = some p ∧ cursor < p := by
    intro e he
    obtain ⟨hhistory, hposition⟩ := mem_after.1 (List.IsPrefix.subset hprefix he)
    exact ⟨by simpa using (List.mem_filter.1 hhistory).2, hposition⟩
  have hne : page ≠ [] := by
    rintro rfl
    cases hlast
  have hbeyond : cursor < final := by
    obtain ⟨-, p, hp, hlt⟩ := hall last (List.mem_of_getLast? hlast)
    rw [hfinal, Option.some.injEq] at hp
    omega
  obtain ⟨versions', hcheck, hagrees'⟩ := checkVersions_after hl hagrees hprefix
  refine ⟨versions', upTo_page hl hprefix hlast hfinal ▸ hagrees', ?_⟩
  have hread : model.step context pageSize l ⟨rows, checkpoint⟩ (.reading cursor versions) =
      (⟨rows, checkpoint⟩, receive cursor versions pageSize (page.map l.replayed)) := by
    rw [ReadModel.step_reading hl hvalid, hpage]
  have hevents : (page.map l.replayed).map (·.event) = page := by
    rw [List.map_map]
    exact List.map_id _
  have happly : model.apply context ⟨rows, checkpoint⟩ page cursor =
      .ok (final, ⟨rows', some final⟩) :=
    apply_page hne (fun e he => (hall e he).1) (fun e he => (hall e he).2.imp fun _ h => h.1)
      (by rw [hlast]; exact hfinal) hbeyond hcheckpoint hfold
  unfold receive at hread
  rw [hcheck, if_neg (by simpa using hne)] at hread
  rw [proceed, hread, proceed, proceed]
  simp only [step, hevents, happly, List.length_map]
  by_cases hfull : page.length = pageSize
  · simp [hfull, List.getLast?_map, show page.getLast? = some last from hlast, Ledger.replayed,
      hfinal]
  · simp [hfull]

/-- **A loop that reads on from a cursor returns**, with what is left of the history folded
into the rows. -/
theorem proceed_reading (hl : l.Inv) (hvalid : 1 ≤ pageSize ∧ pageSize ≤ 1000)
    {versions : Assoc String ℕ} {cursor : ℕ} {checkpoint : Option ℕ} {rows rows' : model.Rows}
    (hcheckpoint : checkpoint.getD 0 = cursor)
    (hagrees : Agrees versions (l.upTo context.tenantId cursor))
    (hfold : (l.after context.tenantId cursor).foldlM model.write rows = .ok rows') :
    ∃ n checkpoint', model.proceed context pageSize l n
        (⟨rows, checkpoint⟩, .reading cursor versions) =
      (⟨rows', checkpoint'⟩, .returned (checkpoint'.getD 0)) := by
  -- each page leaves less of the history
  generalize hlength : (l.after context.tenantId cursor).length = length
  induction length using Nat.strong_induction_on generalizing versions cursor checkpoint rows with
  | _ length ih =>
    have hcut := List.take_append_drop pageSize.toNat (l.after context.tenantId cursor)
    have hprefix := List.take_prefix pageSize.toNat (l.after context.tenantId cursor)
    have hread : model.step context pageSize l ⟨rows, checkpoint⟩ (.reading cursor versions) = _ :=
      ReadModel.step_reading hl hvalid cursor versions
    generalize hpage : (l.after context.tenantId cursor).take pageSize.toNat = page at *
    have hpageLength : page.length = min pageSize.toNat length := by
      rw [← hpage, List.length_take, hlength]
    cases hlast : page.getLast? with
    | none =>
      have hnil : page = [] := List.getLast?_eq_none_iff.1 hlast
      have hempty : l.after context.tenantId cursor = [] := by
        rw [hnil, List.length_nil] at hpageLength
        exact List.length_eq_zero_iff.1 (by omega)
      rw [hempty, List.foldlM_nil, pure_eq_ok] at hfold
      refine ⟨1, checkpoint, ?_⟩
      rw [proceed, hread, hnil, ← hfold, hcheckpoint]
      rfl
    | some last =>
      obtain ⟨-, final, hfinal, hbeyond⟩ :=
        mem_after.1 (List.IsPrefix.subset hprefix (List.mem_of_getLast? hlast))
      rw [← hcut, List.foldlM_append, bind_eq_ok] at hfold
      obtain ⟨rows₁, hfirst, hrest⟩ := hfold
      obtain ⟨versions', hagrees', hproceed⟩ :=
        proceed_page hl hvalid hpage hlast hfinal hcheckpoint hagrees hfirst
      have hafter : l.after context.tenantId final =
          (l.after context.tenantId cursor).drop pageSize.toNat := by
        have hwhole := upTo_append_after hl context.tenantId final
        rw [upTo_page hl hprefix hlast hfinal,
          ← upTo_append_after hl context.tenantId cursor, ← hcut, List.append_assoc] at hwhole
        exact List.append_cancel_left (List.append_cancel_left hwhole)
      have hleft : (l.after context.tenantId final).length = length - pageSize.toNat := by
        rw [hafter, List.length_drop, hlength]
      by_cases hfull : page.length = pageSize
      · have hfold' : (l.after context.tenantId final).foldlM model.write rows₁ = .ok rows' := by
          rw [hafter]
          exact hrest
        have hless : (l.after context.tenantId final).length < length := by omega
        have hfinal' : (some final).getD 0 = final := rfl
        obtain ⟨n, checkpoint', hrest⟩ := ih _ hless hfinal' hagrees' hfold' rfl
        rw [if_pos hfull] at hproceed
        exact ⟨2 + n, checkpoint', by rw [proceed_add, hproceed, hrest]⟩
      · -- the page is the last one
        have hnil : (l.after context.tenantId cursor).drop pageSize.toNat = [] :=
          List.length_eq_zero_iff.1 (by rw [← hafter]; omega)
        rw [hnil, List.foldlM_nil, pure_eq_ok] at hrest
        rw [if_neg hfull, hrest] at hproceed
        exact ⟨2, some final, hproceed⟩

/-- **A `catch_up` from an empty projection returns**, with the fold of the tenant's history. -/
theorem catchUp_returns (hl : l.Inv) (hvalid : 1 ≤ pageSize ∧ pageSize ≤ 1000)
    {rows rows' : model.Rows}
    (hfold : (l.history context.tenantId).foldlM model.write rows = .ok rows') :
    ∃ n checkpoint, model.proceed context pageSize l n (⟨rows, none⟩, .loading) =
      (⟨rows', checkpoint⟩, .returned (checkpoint.getD 0)) := by
  have hwhole := upTo_append_after hl context.tenantId 0
  rw [upTo_zero hl, List.nil_append] at hwhole
  have hagrees : Agrees [] (l.upTo context.tenantId 0) := fun a v hv => (by cases hv)
  rw [← hwhole] at hfold
  obtain ⟨n, checkpoint, hproceed⟩ := proceed_reading hl hvalid
    (rfl : (none : Option ℕ).getD 0 = 0) hagrees hfold
  exact ⟨n + 1, checkpoint, hproceed⟩

end ReadModel

end AegisPlatform
