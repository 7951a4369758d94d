import AegisPlatform.Domain.Model

/-!
# Structured output

What the gateway checks of a request before it is sent, and of a response before it is paid for.
The validator of JSON Schema is a parameter.

* `SchemaValidator` — `Draft202012Validator`.
* `validateSchema`, `validateObject`, `validateRequest`, `validateResponse` — the code.
* `Conforms` — a response has the output and the tool calls that were asked for.
* `validateResponse_eq_ok` — it is all that is checked, next to the ids.
-/

namespace AegisPlatform

open Fallible

/-- `ModelGatewayError(…)` without a retry delay. -/
def ModelGatewayError.create (errorClass : ModelErrorClass) (code : String) (retryable : Bool)
    (billingAmbiguous : Bool := false) (h : code ≠ "" := by decide) : ModelGatewayError :=
  ⟨errorClass, code, retryable, billingAmbiguous, none, valid_undelayed h⟩

/-- `Draft202012Validator`: is it a schema, and is the value valid against it? -/
structure SchemaValidator where
  checkSchema : Dict → Bool
  validate : Dict → Dict → Bool

namespace SchemaValidator

variable (validator : SchemaValidator)

/-- `validate_schema`. -/
def validateSchema (schema : JsonSchema) : Except ModelGatewayError Unit :=
  raiseIf (validator.checkSchema schema.schema = false)
    (.create .schema "invalid_json_schema" false)

/-- `validate_object`. -/
def validateObject (value : Dict) (schema : JsonSchema) : Except ModelGatewayError Dict := do
  validator.validateSchema schema
  raiseIf (validator.validate schema.schema value = false)
    (.create .schema "structured_output_validation_failed" false)
  return value

/-- `_validate_request`. -/
def validateRequest (request : ModelRequest) : Except ModelGatewayError Unit := do
  match request.responseSchema with
  | some schema => validator.validateSchema schema
  | none => pure ()
  request.tools.forM fun tool => validator.validateSchema tool.inputSchema

/-- The check of a structured output. -/
def validateOutput (request : ModelRequest) (response : ModelResponse) :
    Except ModelGatewayError Unit :=
  match request.responseSchema, response.structuredOutput with
  | none, _ => .ok ()
  | some _, none => .error (.create .schema "structured_output_missing" false true)
  | some schema, some output => do
    let _ ← validator.validateObject output schema

/-- The check of one part of the content. -/
def validatePart (request : ModelRequest) (part : ContentPart) : Except ModelGatewayError Unit := do
  match part with
  | .toolCall proposal =>
    let schema ← orRaise (.create .schema "unknown_tool_call" false true)
      ((request.tools.map fun tool => (tool.name, tool.inputSchema)).lookup proposal.toolName)
    let _ ← validator.validateObject proposal.arguments schema
  | _ => pure ()

/-- `_validate_response`. -/
def validateResponse (request : ModelRequest) (response : ModelResponse)
    (expectedModel : ModelIdentity) : Except ModelGatewayError Unit := do
  raiseIf (response.requestId ≠ request.requestId)
    (.create .malformedResponse "response_request_id_mismatch" false true)
  raiseIf (response.model ≠ expectedModel)
    (.create .malformedResponse "response_model_mismatch" false true)
  validator.validateOutput request response
  response.content.forM fun part => validator.validatePart request part

/-! ## What is accepted -/

/-- A schema, and a value that is valid against it. -/
structure Accepts (schema : JsonSchema) (value : Dict) : Prop where
  checkSchema : validator.checkSchema schema.schema = true
  validate : validator.validate schema.schema value = true

/-- The structured output is there if it was asked for, and every tool call is one of a tool
of the request. -/
structure Conforms (request : ModelRequest) (response : ModelResponse) : Prop where
  output : ∀ schema, request.responseSchema = some schema →
    ∃ output, response.structuredOutput = some output ∧ validator.Accepts schema output
  calls : ∀ proposal, .toolCall proposal ∈ response.content →
    ∃ tool ∈ request.tools, tool.name = proposal.toolName ∧
      validator.Accepts tool.inputSchema proposal.arguments

variable {validator} {request : ModelRequest} {response : ModelResponse}

theorem validateObject_eq_ok {schema : JsonSchema} {value value' : Dict} :
    validator.validateObject value schema = .ok value' ↔
      validator.Accepts schema value ∧ value' = value := by
  simp only [validateObject, validateSchema, bind_eq_ok, raiseIf_eq_ok, pure_eq_ok,
    Bool.not_eq_false]
  constructor
  · rintro ⟨-, hschema, -, hvalue, rfl⟩
    exact ⟨⟨hschema, hvalue⟩, rfl⟩
  · rintro ⟨⟨hschema, hvalue⟩, rfl⟩
    exact ⟨(), hschema, (), hvalue, rfl⟩

theorem validateOutput_eq_ok {u : Unit} :
    validator.validateOutput request response = .ok u ↔
      ∀ schema, request.responseSchema = some schema →
        ∃ output, response.structuredOutput = some output ∧ validator.Accepts schema output := by
  unfold validateOutput
  cases hschema : request.responseSchema with
  | none => simp
  | some schema =>
    cases houtput : response.structuredOutput with
    | none => simp
    | some output =>
      show (validator.validateObject output schema).map (fun _ => ()) = .ok u ↔ _
      simp [map_eq_ok, validateObject_eq_ok]

theorem lookup_tool {name : String} {schema : JsonSchema} :
    (request.tools.map fun tool => (tool.name, tool.inputSchema)).lookup name = some schema ↔
      ∃ tool ∈ request.tools, tool.name = name ∧ tool.inputSchema = schema := by
  have hnodup := request.tools_valid
  generalize request.tools = tools at hnodup
  induction tools with
  | nil => simp
  | cons tool rest ih =>
    rw [List.map_cons, List.nodup_cons] at hnodup
    by_cases hname : name = tool.name
    · subst hname
      have hothers : ∀ other ∈ rest, other.name ≠ tool.name := fun other hother heq =>
        hnodup.1 (List.mem_map.2 ⟨other, hother, heq⟩)
      simp only [List.map_cons, List.lookup_cons_self, List.mem_cons, exists_eq_or_imp, true_and,
        Option.some.injEq]
      exact ⟨Or.inl,
        fun h => h.resolve_right fun ⟨other, hother, heq, _⟩ => hothers other hother heq⟩
    · have hne : (name == tool.name) = false := beq_eq_false_iff_ne.2 hname
      simp only [List.map_cons, List.lookup_cons, hne, ih hnodup.2, List.mem_cons, exists_eq_or_imp,
        Ne.symm hname, false_and, false_or]

theorem validatePart_eq_ok {part : ContentPart} {u : Unit} :
    validator.validatePart request part = .ok u ↔
      ∀ proposal, part = .toolCall proposal →
        ∃ tool ∈ request.tools, tool.name = proposal.toolName ∧
          validator.Accepts tool.inputSchema proposal.arguments := by
  cases part with
  | toolCall proposal =>
    simp only [validatePart, bind_eq_ok, orRaise_eq_ok, lookup_tool, pure_eq_ok,
      validateObject_eq_ok, ContentPart.toolCall.injEq, forall_eq']
    constructor
    · rintro ⟨schema, ⟨tool, htool, hname, rfl⟩, -, ⟨haccepts, -⟩, -⟩
      exact ⟨tool, htool, hname, haccepts⟩
    · rintro ⟨tool, htool, hname, haccepts⟩
      exact ⟨_, ⟨tool, htool, hname, rfl⟩, _, ⟨haccepts, rfl⟩, trivial⟩
  | text => simp [validatePart, pure_eq_ok]
  | image => simp [validatePart, pure_eq_ok]
  | toolResult => simp [validatePart, pure_eq_ok]

theorem validateResponse_eq_ok {expectedModel : ModelIdentity} {u : Unit} :
    validator.validateResponse request response expectedModel = .ok u ↔
      response.requestId = request.requestId ∧ response.model = expectedModel ∧
        validator.Conforms request response := by
  simp only [validateResponse, bind_eq_ok, raiseIf_eq_ok, not_not, validateOutput_eq_ok, forM_eq_ok,
    validatePart_eq_ok]
  constructor
  · rintro ⟨-, hid, -, hmodel, -, houtput, hparts⟩
    exact ⟨hid, hmodel, houtput, fun proposal hmem => hparts _ hmem proposal rfl⟩
  · rintro ⟨hid, hmodel, houtput, hcalls⟩
    refine ⟨(), hid, (), hmodel, (), houtput, ?_⟩
    rintro part hmem proposal rfl
    exact hcalls proposal hmem

end SchemaValidator

end AegisPlatform
