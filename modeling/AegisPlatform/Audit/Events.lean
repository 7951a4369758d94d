import AegisPlatform.Audit.Redaction

/-!
# Audit events and their store

`AuditEvent` redacts its details when it is constructed, and again when the store constructs it
from a row.

* `Redacted` — nothing is left to redact; `redacted_details` and `redactDetails_of_redacted`.
* `Agree` — two values that differ in what is stored under sensitive keys; `redactDetails_agree`.
* `AuditEvent.make`, `append`, `query` — the code; `query_append` is what is read back.
-/

namespace AegisPlatform

open Fallible

/-! ## Details -/

namespace WordCharacters

section

variable (W : WordCharacters)

mutual

/-- What is under a sensitive key is the marker, and no text has a match. -/
def Redacted : JsonValue → Prop
  | .str text => W.found text.toList = false
  | .list xs => RedactedItems xs
  | .obj fields => RedactedDetails fields
  | _ => True

/-- `Redacted`, of every item. -/
def RedactedItems : List JsonValue → Prop
  | [] => True
  | x :: xs => Redacted x ∧ RedactedItems xs

/-- `Redacted`, of every field. -/
def RedactedDetails : Dict → Prop
  | [] => True
  | (key, value) :: rest =>
    (isSensitive key = true → value = .str REDACTED) ∧ Redacted value ∧ RedactedDetails rest

end

theorem toList_redactText (text : String) :
    (W.redactText text).toList = W.redact text.toList :=
  String.toList_ofList

theorem redacted_marker : Redacted W (.str REDACTED) := by
  have hrun : Runs.IsRun isSpace REDACTED.toList :=
    ⟨by decide, Runs.none_of_all (by decide)⟩
  have hfound := found_run (W := W) hrun Runs.break_nil fun h => by
    have hnot := not_announces_marker (W := W) []
    rw [List.nil_append, h.1] at hnot
    cases hnot
  rw [List.append_nil] at hfound
  rw [Redacted, hfound]
  rfl

mutual

theorem redacted_value : ∀ value : JsonValue, Redacted W (redactValue W value)
  | .null => trivial
  | .bool _ => trivial
  | .int _ => trivial
  | .float _ => trivial
  | .str text => by
    rw [redactValue, Redacted, toList_redactText]
    exact found_redact W text.toList
  | .list xs => by
    rw [redactValue, Redacted]
    exact redacted_items xs
  | .obj fields => by
    rw [redactValue, Redacted]
    exact redacted_details fields

theorem redacted_items : ∀ xs : List JsonValue, RedactedItems W (redactValues W xs)
  | [] => trivial
  | x :: xs => ⟨redacted_value x, redacted_items xs⟩

/-- **Redacted details hold no secret.** -/
theorem redacted_details : ∀ d : Dict, RedactedDetails W (redactDetails W d)
  | [] => trivial
  | (key, value) :: rest => by
    by_cases hkey : isSensitive key = true
    · rw [redactDetails, if_pos hkey]
      exact ⟨fun _ => rfl, redacted_marker W, redacted_details rest⟩
    · rw [redactDetails, if_neg hkey]
      exact ⟨fun h => absurd h hkey, redacted_value value, redacted_details rest⟩

end

mutual

theorem redactValue_of_redacted :
    ∀ value : JsonValue, Redacted W value → redactValue W value = value
  | .null, _ => rfl
  | .bool _, _ => rfl
  | .int _, _ => rfl
  | .float _, _ => rfl
  | .str text, h => by
    rw [redactValue, redactText, Substitution.sub_of_not_search h, String.ofList_toList]
  | .list xs, h => by
    rw [redactValue, redactValues_of_redacted xs h]
  | .obj fields, h => by
    rw [redactValue, redactDetails_of_redacted fields h]

theorem redactValues_of_redacted :
    ∀ xs : List JsonValue, RedactedItems W xs → redactValues W xs = xs
  | [], _ => rfl
  | x :: xs, ⟨hx, hxs⟩ => by
    rw [redactValues, redactValue_of_redacted x hx, redactValues_of_redacted xs hxs]

/-- **Nothing is redacted twice.** -/
theorem redactDetails_of_redacted :
    ∀ d : Dict, RedactedDetails W d → redactDetails W d = d
  | [], _ => rfl
  | (key, value) :: rest, ⟨hkey, hvalue, hrest⟩ => by
    rw [redactDetails, redactDetails_of_redacted rest hrest]
    by_cases h : isSensitive key = true
    · rw [if_pos h, hkey h]
    · rw [if_neg h, redactValue_of_redacted value hvalue]

end

end

mutual

/-- Two values that are one but for what is stored under sensitive keys. -/
inductive Agree : JsonValue → JsonValue → Prop
  | same (value : JsonValue) : Agree value value
  | list {xs ys : List JsonValue} : AgreeItems xs ys → Agree (.list xs) (.list ys)
  | obj {d d' : Dict} : AgreeDetails d d' → Agree (.obj d) (.obj d')

/-- `Agree`, item by item. -/
inductive AgreeItems : List JsonValue → List JsonValue → Prop
  | nil : AgreeItems [] []
  | cons {x y : JsonValue} {xs ys : List JsonValue} : Agree x y → AgreeItems xs ys →
      AgreeItems (x :: xs) (y :: ys)

/-- `Agree`, field by field. -/
inductive AgreeDetails : Dict → Dict → Prop
  | nil : AgreeDetails [] []
  | secret {key : String} {d d' : Dict} (value value' : JsonValue) : isSensitive key = true →
      AgreeDetails d d' → AgreeDetails ((key, value) :: d) ((key, value') :: d')
  | field {key : String} {d d' : Dict} {value value' : JsonValue} : Agree value value' →
      AgreeDetails d d' → AgreeDetails ((key, value) :: d) ((key, value') :: d')

end

section

variable (W : WordCharacters)

mutual

theorem redactValue_agree : ∀ {value value' : JsonValue}, Agree value value' →
    redactValue W value = redactValue W value'
  | _, _, .same _ => rfl
  | _, _, .list h => by rw [redactValue, redactValue, redactValues_agree h]
  | _, _, .obj h => by rw [redactValue, redactValue, redactDetails_agree h]

theorem redactValues_agree : ∀ {xs ys : List JsonValue}, AgreeItems xs ys →
    redactValues W xs = redactValues W ys
  | _, _, .nil => rfl
  | _, _, .cons h hrest => by
    rw [redactValues, redactValues, redactValue_agree h, redactValues_agree hrest]

/-- **What is stored under sensitive keys leaves no trace.** -/
theorem redactDetails_agree : ∀ {d d' : Dict}, AgreeDetails d d' →
    redactDetails W d = redactDetails W d'
  | _, _, .nil => rfl
  | _, _, .secret _ _ hkey hrest => by
    rw [redactDetails, redactDetails, if_pos hkey, if_pos hkey, redactDetails_agree hrest]
  | _, _, .field h hrest => by
    rw [redactDetails, redactDetails, redactValue_agree h, redactDetails_agree hrest]

end

end

end WordCharacters

/-! ## Events -/

/-- The names of security events. -/
inductive AuditEventType where
  | authenticationOutcome
  | authorizationDecision
  | policyEvaluation
  | approvalIdentityRecorded
  | administrativeChange
  deriving DecidableEq, Repr

namespace AuditEventType

/-- The stored name of an event type. -/
def value : AuditEventType → String
  | authenticationOutcome => "security.authentication_outcome.v1"
  | authorizationDecision => "security.authorization_decision.v1"
  | policyEvaluation => "security.policy_evaluation.v1"
  | approvalIdentityRecorded => "security.approval_identity_recorded.v1"
  | administrativeChange => "security.administrative_change.v1"

def all : List AuditEventType :=
  [authenticationOutcome, authorizationDecision, policyEvaluation, approvalIdentityRecorded,
    administrativeChange]

/-- The type of a stored name. -/
def ofValue? (name : String) : Option AuditEventType := all.find? fun t => t.value = name

theorem ofValue?_value (t : AuditEventType) : ofValue? t.value = some t := by
  cases t <;> decide

end AuditEventType

/-- The outcome of a security event. -/
inductive AuditOutcome where
  | success
  | denied
  | failure
  deriving DecidableEq, Repr

namespace AuditOutcome

/-- The stored name of an outcome. -/
def value : AuditOutcome → String
  | success => "success"
  | denied => "denied"
  | failure => "failure"

/-- The outcome of a stored name. -/
def ofValue? (name : String) : Option AuditOutcome :=
  [success, denied, failure].find? fun o => o.value = name

theorem ofValue?_value (o : AuditOutcome) : ofValue? o.value = some o := by
  cases o <;> decide

end AuditOutcome

/-- A security event. -/
structure AuditEvent where
  eventId : UUID
  tenantId : String
  eventType : AuditEventType
  occurredAt : Timestamp
  outcome : AuditOutcome
  actorId : String
  action : String
  resource : String
  correlationId : UUID
  details : Dict
  schemaVersion : ℤ := 1
  validTenant : isIdentifier tenantId = true

/-- `AuditEvent.__post_init__`. -/
def AuditEvent.make (W : WordCharacters) (event : AuditEvent) : Except Raised AuditEvent := do
  raiseIf (event.schemaVersion ≠ 1)
    (.valueError "audit schema changes must use a new additive event type")
  raiseIf (event.actorId = "" ∨ event.action = "" ∨ event.resource = "")
    (.valueError "audit actor, action, and resource are required")
  return { event with details := W.redactDetails event.details }

/-- An event as its constructor leaves it. -/
structure AuditEvent.Made (W : WordCharacters) (event : AuditEvent) : Prop where
  schemaVersion : event.schemaVersion = 1
  actorId : event.actorId ≠ ""
  action : event.action ≠ ""
  resource : event.resource ≠ ""
  details : W.RedactedDetails event.details

/-! ## The store -/

/-- A row of `security_audit_events`. -/
structure AuditRow where
  eventId : UUID
  tenantId : String
  eventType : String
  schemaVersion : ℤ
  occurredAt : Timestamp
  outcome : String
  actorId : String
  action : String
  resource : String
  correlationId : UUID
  details : Dict

namespace PostgresAuditStore

variable (W : WordCharacters)

/-- The columns of an event. -/
def toRow (event : AuditEvent) : AuditRow where
  eventId := event.eventId
  tenantId := event.tenantId
  eventType := event.eventType.value
  schemaVersion := event.schemaVersion
  occurredAt := event.occurredAt
  outcome := event.outcome.value
  actorId := event.actorId
  action := event.action
  resource := event.resource
  correlationId := event.correlationId
  details := event.details

/-- The event of a row, constructed anew. -/
def fromRow (row : AuditRow) : Except Raised AuditEvent := do
  if h : isIdentifier row.tenantId = true then
    let eventType ← orRaise (.valueError (row.eventType ++ " is not a valid AuditEventType"))
      (AuditEventType.ofValue? row.eventType)
    let outcome ← orRaise (.valueError (row.outcome ++ " is not a valid AuditOutcome"))
      (AuditOutcome.ofValue? row.outcome)
    AuditEvent.make W {
      eventId := row.eventId
      tenantId := row.tenantId
      eventType := eventType
      occurredAt := row.occurredAt
      outcome := outcome
      actorId := row.actorId
      action := row.action
      resource := row.resource
      correlationId := row.correlationId
      details := row.details
      schemaVersion := row.schemaVersion
      validTenant := h }
  else throw (.valueError "tenant_id must be a non-empty normalized identifier")

/-- `append`, in the order of the sequence numbers. -/
def append (rows : List AuditRow) (context : TenantContext) (event : AuditEvent) :
    Except Raised (List AuditRow) := do
  raiseIf (context.tenantId ≠ event.tenantId)
    (.valueError "audit event tenant does not match trusted context")
  return rows ++ [toRow event]

/-- `query`: the latest rows of the tenant, the oldest first. -/
def query (rows : List AuditRow) (context : TenantContext) (limit : ℕ) :
    Except Raised (List AuditEvent) := do
  raiseIf (¬(1 ≤ limit ∧ limit ≤ 1000))
    (.valueError "audit query limit must be between 1 and 1000")
  (((rows.filter fun row => row.tenantId = context.tenantId).reverse.take limit).reverse).mapM
    (fromRow W)

/-! ## What is read back -/

variable {W} {event given : AuditEvent} {events : List AuditEvent}

/-- What the constructor returns. -/
theorem made_of_make (h : AuditEvent.make W given = .ok event) : event.Made W := by
  simp only [AuditEvent.make, bind_eq_ok, raiseIf_eq_ok, pure_eq_ok] at h
  obtain ⟨-, hversion, -, hnames, rfl⟩ := h
  push Not at hversion hnames
  exact ⟨hversion, hnames.1, hnames.2.1, hnames.2.2, W.redacted_details given.details⟩

/-- Constructed again it stays as it is. -/
theorem make_of_made (h : event.Made W) : AuditEvent.make W event = .ok event := by
  have hnames : ¬(event.actorId = "" ∨ event.action = "" ∨ event.resource = "") := by
    rintro (hactor | haction | hresource)
    · exact h.actorId hactor
    · exact h.action haction
    · exact h.resource hresource
  rw [AuditEvent.make, raiseIf_bind, if_neg (not_not_intro h.schemaVersion), raiseIf_bind,
    if_neg hnames, W.redactDetails_of_redacted event.details h.details]
  rfl

theorem fromRow_toRow (h : event.Made W) : fromRow W (toRow event) = .ok event := by
  rw [fromRow, dif_pos (show isIdentifier (toRow event).tenantId = true from event.validTenant)]
  simp only [toRow, AuditEventType.ofValue?_value, AuditOutcome.ofValue?_value]
  exact make_of_made h

theorem mapM_fromRow (h : ∀ event ∈ events, event.Made W) :
    (events.map toRow).mapM (fromRow W) = .ok events := by
  induction events with
  | nil => rfl
  | cons event rest ih =>
    rw [List.map_cons, List.mapM_cons, fromRow_toRow (h event List.mem_cons_self),
      ih fun e he => h e (List.mem_cons_of_mem event he)]
    rfl

/-- A run of appends adds a row for each event. -/
theorem rows_of_appends {calls : List (TenantContext × AuditEvent)} {rows rows' : List AuditRow}
    (h : calls.foldlM (fun rows call => append rows call.1 call.2) rows = .ok rows') :
    rows' = rows ++ (calls.map (·.2)).map toRow := by
  induction calls generalizing rows with
  | nil =>
    cases h
    rw [List.map_nil, List.map_nil, List.append_nil]
  | cons call rest ih =>
    rw [List.foldlM_cons, bind_eq_ok] at h
    obtain ⟨middle, hfirst, hrest⟩ := h
    simp only [append, bind_eq_ok, raiseIf_eq_ok, pure_eq_ok] at hfirst
    obtain ⟨-, -, rfl⟩ := hfirst
    rw [ih hrest, List.append_assoc]
    rfl

/-- **Events are read back as they were first constructed.** -/
theorem query_append {calls : List (TenantContext × AuditEvent)} {rows : List AuditRow}
    (hmade : ∀ call ∈ calls, ∃ given, AuditEvent.make W given = .ok call.2)
    (hrows : calls.foldlM (fun rows call => append rows call.1 call.2) [] = .ok rows)
    (context : TenantContext) {limit : ℕ} (hlimit : 1 ≤ limit ∧ limit ≤ 1000) :
    query W rows context limit =
      .ok ((((calls.map (·.2)).filter fun event =>
        event.tenantId = context.tenantId).reverse.take limit).reverse) := by
  have hfilter : ((calls.map (·.2)).map toRow).filter (fun row =>
      row.tenantId = context.tenantId) = ((calls.map (·.2)).filter fun event =>
        event.tenantId = context.tenantId).map toRow := by
    rw [List.filter_map]
    rfl
  rw [query, raiseIf_bind, if_neg (not_not_intro hlimit), rows_of_appends hrows, List.nil_append,
    hfilter, ← List.map_reverse, ← List.map_take, ← List.map_reverse]
  refine mapM_fromRow fun event hevent => ?_
  have hmem := List.mem_of_mem_take (List.mem_reverse.mp hevent)
  have hcall := List.mem_of_mem_filter (List.mem_reverse.mp hmem)
  obtain ⟨call, hin, rfl⟩ := List.mem_map.mp hcall
  obtain ⟨given, hgiven⟩ := hmade call hin
  exact made_of_make hgiven

/-- **Redaction is complete, stable and independent of what it hides.**  In redacted details
every value under a sensitive key is the marker and no text has a match; redacting again changes
nothing; what differs in secrets only is redacted to one thing; and the events of a store are
read back as they were first constructed. -/
theorem redaction (W : WordCharacters) :
    (∀ d, W.RedactedDetails (W.redactDetails d)) ∧
    (∀ d, W.redactDetails (W.redactDetails d) = W.redactDetails d) ∧
    (∀ d d', WordCharacters.AgreeDetails d d' → W.redactDetails d = W.redactDetails d') ∧
    ∀ (calls : List (TenantContext × AuditEvent)) (rows : List AuditRow) (context : TenantContext)
      (limit : ℕ), (∀ call ∈ calls, ∃ given, AuditEvent.make W given = .ok call.2) →
      calls.foldlM (fun rows call => append rows call.1 call.2) [] = .ok rows →
      1 ≤ limit ∧ limit ≤ 1000 →
      query W rows context limit =
        .ok ((((calls.map (·.2)).filter fun event =>
          event.tenantId = context.tenantId).reverse.take limit).reverse) :=
  ⟨W.redacted_details, fun d => W.redactDetails_of_redacted _ (W.redacted_details d),
    fun _ _ h => W.redactDetails_agree h,
    fun _ _ context _ hmade hrows hlimit => query_append hmade hrows context hlimit⟩

/-- Two runs with different passwords leave one record. -/
theorem redaction_sample :
    WordCharacters.asciiWords.redactDetails [("login", .obj [("password", .str "hunter2")])] =
      WordCharacters.asciiWords.redactDetails [("login", .obj [("password", .str "letmein")])] := by
  have hkey : isSensitive "password" = true := by decide +kernel
  exact (redaction .asciiWords).2.2.1 _ _ (.field (.obj (.secret _ _ hkey .nil)) .nil)

end PostgresAuditStore

end AegisPlatform
