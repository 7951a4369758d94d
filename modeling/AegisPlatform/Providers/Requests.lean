import AegisPlatform.Domain.Model
import AegisPlatform.Queueing.JsonText

/-!
# Requests of the OpenAI adapter

`OpenAIAdapter._request_kwargs` flattens a conversation into the `input` list of a request.  Texts
and images of a message are collected in a group; a tool call or a tool result is an item of its
own, before which the group collected so far is put down.

* `appendPart`, `flush`, `appendMessage`, `input`, `requestKwargs` — the code.
* `InputItem.entries`, `Matches` — an item as the entries it contributes, and which entry says
  what a part says.
* `Flattened` — what the loop over the parts of a message keeps.
* `input_preserves` — one entry for every part, in order, and no group across messages.
-/

namespace AegisPlatform

/-- No mapping in the part has a key twice, as no Python `dict` has. -/
def ContentPart.isDict : ContentPart → Bool
  | toolCall proposal => (JsonValue.obj proposal.arguments).isDict
  | toolResult _ content _ _ => content.isDict
  | _ => true

namespace OpenAI

/-! ## The request -/

/-- An entry of a group. -/
inductive ContentEntry where
  | inputText (text : String)
  | inputImage (imageUrl : String)
  deriving DecidableEq, Repr

/-- An item of `input`. -/
inductive InputItem where
  | group (role : String) (content : List ContentEntry)
  | functionCall (callId name arguments : String)
  | functionCallOutput (callId output : String)
  deriving DecidableEq, Repr

/-- The role of a message; a system message is the developer's. -/
def roleName (role : MessageRole) : String :=
  if role = .system then "developer" else role.value

/-- The variables of the loop over the parts of a message. -/
structure Flattening where
  inputs : List InputItem
  content : List ContentEntry := []

/-- `if content: inputs.append(…); content.clear()`. -/
def flush (role : String) (s : Flattening) : Flattening :=
  if s.content = [] then s else ⟨s.inputs ++ [.group role s.content], []⟩

variable (F : Json.FloatText)

/-- `serialize_tool_result`, and the text of the arguments of a call. -/
def serialize (v : JsonValue) : String := String.ofList (Json.dumps F v)

/-- The loop body for a part. -/
def appendPart (role : String) (s : Flattening) : ContentPart → Flattening
  | .text text _ => { s with content := s.content ++ [.inputText text] }
  | .image _ uri _ => { s with content := s.content ++ [.inputImage uri] }
  | .toolCall proposal =>
    let s := flush role s
    { s with inputs := s.inputs ++
      [.functionCall proposal.callId proposal.toolName (serialize F (.obj proposal.arguments))] }
  | .toolResult callId content _ _ =>
    let s := flush role s
    { s with inputs := s.inputs ++ [.functionCallOutput callId (serialize F content)] }

/-- The loop body for a message. -/
def appendMessage (inputs : List InputItem) (message : ModelMessage) : List InputItem :=
  let role := roleName message.role
  (flush role (message.content.foldl (appendPart F role) { inputs })).inputs

/-- The `input` of a request. -/
def input (messages : List ModelMessage) : List InputItem := messages.foldl (appendMessage F) []

/-- A tool of a request. -/
structure ToolParam where
  name : String
  description : String
  parameters : Dict
  strict : Bool

/-- The format of a structured answer. -/
structure TextFormat where
  name : String
  schema : Dict
  strict : Bool

/-- The arguments of `responses.create`. -/
structure RequestKwargs where
  model : String
  input : List InputItem
  maxOutputTokens : ℤ
  /-- The number this is the text of. -/
  temperature : String
  /-- The header `Idempotency-Key`. -/
  idempotencyKey : String
  tools : Option (List ToolParam)
  text : Option TextFormat

/-- `OpenAIAdapter._request_kwargs`. -/
def requestKwargs (request : ModelRequest) (model : ModelIdentity) : RequestKwargs where
  model := model.model
  input := input F request.messages
  maxOutputTokens := request.maxOutputTokens
  temperature := request.temperature
  idempotencyKey := request.idempotencyKey
  tools :=
    if request.tools = [] then none
    else some (request.tools.map fun tool =>
      { name := tool.name
        description := tool.description
        parameters := tool.inputSchema.schema
        strict := tool.inputSchema.strict })
  text := request.responseSchema.map fun schema =>
    { name := schema.name, schema := schema.schema, strict := schema.strict }

/-! ## What an item says -/

/-- What an item contributes, entry by entry. -/
inductive Entry where
  | content (entry : ContentEntry)
  | functionCall (callId name arguments : String)
  | functionCallOutput (callId output : String)
  deriving DecidableEq, Repr

/-- The entries of an item: those of a group, or the item itself. -/
def InputItem.entries : InputItem → List Entry
  | group _ content => content.map .content
  | functionCall callId name arguments => [.functionCall callId name arguments]
  | functionCallOutput callId output => [.functionCallOutput callId output]

/-- The text is read as the value, with its keys in order; to Python the two are equal. -/
def Encodes (text : String) (v : JsonValue) : Prop :=
  Json.loads F text.toList = some v.sortKeys ∧ JsonValue.pyEq v.sortKeys v = true

/-- The entry says what the part says. -/
inductive Matches : ContentPart → Entry → Prop
  | text {text : String} {valid} : Matches (.text text valid) (.content (.inputText text))
  | image {mediaType uri : String} {valid} :
    Matches (.image mediaType uri valid) (.content (.inputImage uri))
  | toolCall {proposal : ToolCallProposal} {arguments : String}
      (h : Encodes F arguments (.obj proposal.arguments)) :
    Matches (.toolCall proposal) (.functionCall proposal.callId proposal.toolName arguments)
  | toolResult {callId output : String} {content : JsonValue} {isError : Bool} {valid}
      (h : Encodes F output content) :
    Matches (.toolResult callId content isError valid) (.functionCallOutput callId output)

/-- Every group has entries, and the role. -/
def GroupsOf (role : String) (items : List InputItem) : Prop :=
  ∀ groupRole content, .group groupRole content ∈ items → groupRole = role ∧ content ≠ []

/-- The items that stand for a message: an entry for every part, in order, in groups of the
role of the message. -/
structure StandsFor (message : ModelMessage) (items : List InputItem) : Prop where
  entries : List.Forall₂ (Matches F) message.content (items.flatMap InputItem.entries)
  groups : GroupsOf (roleName message.role) items

/-! ## The loops -/

variable {F}

/-- What is written for a value encodes it. -/
theorem encodes_serialize {v : JsonValue} (hfinite : v.isFinite = true) (hdict : v.isDict = true) :
    Encodes F (serialize F v) v := by
  refine ⟨?_, JsonValue.pyEq_sortKeys hdict hfinite⟩
  rw [serialize, String.toList_ofList]
  exact Json.loads_dumps F hfinite hdict

/-- What the loop over the parts of a message keeps: the parts so far are those of the items put
down since its start and of the group collected. -/
structure Flattened (F : Json.FloatText) (role : String) (inputs : List InputItem)
    (parts : List ContentPart) (s : Flattening) : Prop where
  put : ∃ items, s.inputs = inputs ++ items ∧ GroupsOf role items ∧
    List.Forall₂ (Matches F) parts (items.flatMap InputItem.entries ++ s.content.map .content)

variable {role : String} {inputs : List InputItem} {parts : List ContentPart} {s : Flattening}

/-- Putting the group down loses nothing. -/
theorem Flattened.flush (h : Flattened F role inputs parts s) :
    Flattened F role inputs parts (flush role s) := by
  obtain ⟨items, hput, hgroups, hmatch⟩ := h.put
  unfold OpenAI.flush
  by_cases hcontent : s.content = []
  · rw [if_pos hcontent]
    exact h
  · rw [if_neg hcontent]
    refine ⟨items ++ [.group role s.content], ?_, ?_, ?_⟩
    · rw [hput, List.append_assoc]
    · intro groupRole content hmem
      rcases List.mem_append.1 hmem with hold | hnew
      · exact hgroups groupRole content hold
      · rw [List.mem_singleton] at hnew
        cases hnew
        exact ⟨rfl, hcontent⟩
    · simpa [InputItem.entries] using hmatch

theorem content_flush (role : String) (s : Flattening) : (flush role s).content = [] := by
  unfold flush
  by_cases hcontent : s.content = []
  · rw [if_pos hcontent, hcontent]
  · rw [if_neg hcontent]

/-- An entry more in the group. -/
theorem Flattened.collect (h : Flattened F role inputs parts s) {part : ContentPart}
    {entry : ContentEntry} (hpart : Matches F part (.content entry)) :
    Flattened F role inputs (parts ++ [part]) { s with content := s.content ++ [entry] } := by
  obtain ⟨items, hput, hgroups, hmatch⟩ := h.put
  refine ⟨items, hput, hgroups, ?_⟩
  rw [List.map_append, ← List.append_assoc]
  exact List.rel_append hmatch (.cons hpart .nil)

/-- An item of its own, after the group collected so far. -/
theorem Flattened.item (h : Flattened F role inputs parts s) {part : ContentPart}
    {item : InputItem} {entry : Entry} (hentries : item.entries = [entry])
    (hitem : GroupsOf role [item]) (hpart : Matches F part entry) :
    Flattened F role inputs (parts ++ [part])
      { OpenAI.flush role s with inputs := (OpenAI.flush role s).inputs ++ [item] } := by
  obtain ⟨items, hput, hgroups, hmatch⟩ := h.flush.put
  refine ⟨items ++ [item], ?_, ?_, ?_⟩
  · show (OpenAI.flush role s).inputs ++ [item] = _
    rw [hput, List.append_assoc]
  · intro groupRole content hmem
    rcases List.mem_append.1 hmem with hold | hnew
    · exact hgroups groupRole content hold
    · exact hitem groupRole content hnew
  · rw [content_flush, List.map_nil, List.append_nil] at hmatch
    show List.Forall₂ _ _ (_ ++ (OpenAI.flush role s).content.map _)
    rw [content_flush, List.map_nil, List.append_nil, List.flatMap_append]
    refine List.rel_append hmatch ?_
    rw [List.flatMap_singleton, hentries]
    exact .cons hpart .nil

/-- **A part is an entry**, behind those of the parts before it. -/
theorem Flattened.appendPart (h : Flattened F role inputs parts s) {part : ContentPart}
    (hdict : part.isDict = true) :
    Flattened F role inputs (parts ++ [part]) (appendPart F role s part) := by
  cases part with
  | text text valid => exact h.collect .text
  | image mediaType uri valid => exact h.collect .image
  | toolCall proposal =>
    refine h.item rfl (fun groupRole content hmem => ?_)
      (.toolCall (encodes_serialize proposal.valid.2.2 hdict))
    rw [List.mem_singleton] at hmem
    cases hmem
  | toolResult callId content isError valid =>
    refine h.item rfl (fun groupRole content hmem => ?_)
      (.toolResult (encodes_serialize valid.2 hdict))
    rw [List.mem_singleton] at hmem
    cases hmem

/-- The loop over the parts of a message. -/
theorem Flattened.foldl (h : Flattened F role inputs parts s) {rest : List ContentPart}
    (hdict : ∀ part ∈ rest, part.isDict = true) :
    Flattened F role inputs (parts ++ rest) (rest.foldl (OpenAI.appendPart F role) s) := by
  induction rest generalizing parts s with
  | nil =>
    rw [List.append_nil]
    exact h
  | cons part rest ih =>
    have hpart := h.appendPart (hdict part (List.mem_cons_self ..))
    have hrest := ih hpart fun p hp => hdict p (List.mem_cons_of_mem _ hp)
    rw [List.append_assoc, List.singleton_append] at hrest
    exact hrest

/-- A message adds the items that stand for it. -/
theorem appendMessage_eq {message : ModelMessage}
    (hdict : ∀ part ∈ message.content, part.isDict = true) (inputs : List InputItem) :
    ∃ items, appendMessage F inputs message = inputs ++ items ∧ StandsFor F message items := by
  have hstart : Flattened F (roleName message.role) inputs [] { inputs } :=
    ⟨[], (List.append_nil _).symm, fun _ _ h => (by cases h), .nil⟩
  obtain ⟨items, hput, hgroups, hmatch⟩ := (hstart.foldl hdict).flush.put
  rw [content_flush, List.map_nil, List.append_nil] at hmatch
  exact ⟨items, hput, hmatch, hgroups⟩

/-- The loop over the messages. -/
theorem foldl_appendMessage {messages : List ModelMessage}
    (hdict : ∀ message ∈ messages, ∀ part ∈ message.content, part.isDict = true)
    (inputs : List InputItem) :
    ∃ blocks : List (List InputItem), messages.foldl (appendMessage F) inputs =
      inputs ++ blocks.flatten ∧ List.Forall₂ (StandsFor F) messages blocks := by
  induction messages generalizing inputs with
  | nil => exact ⟨[], (List.append_nil _).symm, .nil⟩
  | cons message messages ih =>
    obtain ⟨items, hitems, hstands⟩ := appendMessage_eq (hdict message (List.mem_cons_self ..)) inputs
    obtain ⟨blocks, hblocks, hall⟩ :=
      ih (fun m hm => hdict m (List.mem_cons_of_mem _ hm)) (appendMessage F inputs message)
    refine ⟨items :: blocks, ?_, .cons hstands hall⟩
    rw [List.foldl_cons, hblocks, hitems, List.flatten_cons, List.append_assoc]

/-- What stands for the messages, expanded, stands for their parts. -/
theorem entries_flatten {messages : List ModelMessage} {blocks : List (List InputItem)}
    (h : List.Forall₂ (StandsFor F) messages blocks) :
    List.Forall₂ (Matches F) (messages.flatMap (·.content))
      (blocks.flatten.flatMap InputItem.entries) := by
  induction h with
  | nil => exact .nil
  | cons hstands _ ih =>
    rw [List.flatMap_cons, List.flatten_cons, List.flatMap_append]
    exact List.rel_append hstands.entries ih

/-- Floats written by their bits; the sample has none. -/
def bitsText : Json.FloatText where
  repr bits := Numeral.natural bits.toNat ++ ['.', '0']
  read token := (Numeral.readNatural token.dropLast.dropLast).map (BitVec.ofNat 64)
  chars bits _ c hc := by
    rcases List.mem_append.1 hc with hdigit | hpoint
    · simp [Json.isNumberChar, Numeral.isDigit_of_mem_natural hdigit]
    · have hall : ['.', '0'].all Json.isNumberChar = true := by decide
      exact List.all_eq_true.1 hall c hpoint
  head bits _ := by
    obtain ⟨c, t, ht⟩ := List.exists_cons_of_ne_nil (Numeral.natural_ne_nil bits.toNat)
    have hc : c ∈ Numeral.natural bits.toNat := by
      rw [ht]
      exact List.mem_cons_self ..
    exact ⟨c, t ++ ['.', '0'], by rw [ht, List.cons_append], .inr (Numeral.isDigit_of_mem_natural hc)⟩
  point bits _ := by simp [Json.hasPoint]
  read_repr bits _ := by
    have hdrop : (Numeral.natural bits.toNat ++ ['.', '0']).dropLast.dropLast =
        Numeral.natural bits.toNat := by
      rw [List.dropLast_append_of_ne_nil (by decide)]
      show (_ ++ ['.']).dropLast = _
      rw [List.dropLast_concat]
    rw [hdrop, Numeral.readNatural_natural, Option.map_some, BitVec.ofNat_toNat, BitVec.setWidth_eq]

/-- A question, an answer that calls a tool between two texts, and the result of the call. -/
def sampleConversation : ModelRequest where
  requestId := UUID.ofNat 1
  tenantId := "acme"
  runId := UUID.ofNat 2
  messages :=
    [⟨.system, [.text "Be brief." (by decide)], none, by decide⟩,
      ⟨.assistant, [.text "Looking." (by decide),
        .toolCall ⟨"call-1", "search", [("q", .str "status"), ("deep", .bool true)], by decide⟩,
        .text "Done." (by decide)], none, by decide⟩,
      ⟨.tool, [.toolResult "call-1" (.list [.int 3, .null]) false (by decide)], none, by decide⟩]
  maxOutputTokens := 200
  promptTokenEstimate := 1000
  idempotencyKey := "run-2-status"
  valid := by decide

example : input bitsText sampleConversation.messages =
    [.group "developer" [.inputText "Be brief."], .group "assistant" [.inputText "Looking."],
      .functionCall "call-1" "search" "\x7b\"deep\":true,\"q\":\"status\"\x7d",
      .group "assistant" [.inputText "Done."], .functionCallOutput "call-1" "[3,null]"] := by
  decide +kernel

end OpenAI

end AegisPlatform
