import Colloquy.Backend.Selection
import Colloquy.Proofs.Act
import Colloquy.Proofs.Json.Fields
import Colloquy.Proofs.Tool.Portable

/-!
# Colloquy — calls on the wire

Each dialect writes a call in a shape of its own: nested under a function or flat, with the
arguments as JSON or as JSON inside a string, with its identifier or without. What a dialect
writes for the message of a portable call is read by the same dialect as that call when it
comes as the content of a reply (`BackendKind.conveys_encodeCall`).

* `BackendKind.conversationField` — where a request holds what messages became.
* `BackendKind.Presents` — the reply has the item as its content.
* `BackendKind.Conveys` — what stands for a call in requests and in replies.
-/

namespace Colloquy

theorem Draw.gather_singleton {α β : Type} {f : α → Draw (List β)} {x : α} {ys : List β}
    (h : f x = pure ys) : Draw.gather f [x] = pure ys := by
  rw [gather, h]
  show (pure (ys ++ []) : Draw (List β)) = pure ys
  rw [List.append_nil]

theorem Act.perform_ofDraw_pure {σ α : Type} (a : α) (w : World σ) :
    (Act.ofDraw (pure a) : Act σ α).perform w = (.ok a, w) := rfl

/-- What an encoder makes of the message of a portable call is what it makes of the call. -/
theorem ToolCall.IsPortable.encode_functionCall {call : ToolCall} (h : call.IsPortable)
    (encode : ToolCall → Json) :
    (do return [encode (← (Message.functionCall call).toolCall)] : Draw (List Json)) =
      pure [encode call] := by
  rw [h.toolCall_functionCall, pure_bind]

namespace Dialect

variable {key other : String}

theorem contains_listField (h : other ≠ key) (items : List Json) :
    Fields.contains key (listField other items) = false := by
  unfold listField
  split
  · rfl
  · simp [Fields.contains, Fields.get?, h]

theorem contains_optional {α : Type} (h : other ≠ key) (o : Option α) (f : α → Json) :
    Fields.contains key (o.toList.map fun v => (other, f v)) = false := by
  cases o with
  | none => rfl
  | some v => simp [Fields.contains, Fields.get?, h]

/-- A call alone is read as itself. -/
theorem readCalls_singleton {v : Json} {call : ToolCall} (h : ToolCall.ofJson v = pure call) :
    readCalls [v] = pure [.call call] := by
  refine Draw.gather_singleton ?_
  rw [h]
  rfl

end Dialect

open Dialect

variable {σ : Type} {call : ToolCall}

-- ---------------------------------------------------------------------------
-- Chat completions
-- ---------------------------------------------------------------------------

namespace ChatCompletions

theorem encodeMessage_functionCall (h : call.IsPortable) (files : FileTree) :
    encodeMessage files (Message.functionCall call) = pure [encodeCall call] :=
  h.encode_functionCall encodeCall

theorem get?_bodyFields (client : Client) (sent : List Json) (catalogue : Catalogue σ)
    (options : RunOptions) :
    Fields.get? "messages" (bodyFields client sent catalogue options) = some (.arr sent) := by
  have hlater : Fields.contains "messages"
      (listField "tools" (toolDefinitions catalogue) ++
        options.format?.toList.map fun v =>
          ("response_format", (AnswerFormat.ofOption v).forChat)) = false := by
    rw [Fields.contains_append, contains_listField (by decide), contains_optional (by decide)]
    rfl
  rw [bodyFields, List.append_assoc, Fields.get?_ofList_append hlater]
  simp [Fields.get?_ofList, Fields.get?]

/-- The request for the message of a call holds what the call becomes. -/
theorem request_functionCall (h : call.IsPortable) (files : FileTree) (client : Client)
    (catalogue : Catalogue σ) (options : RunOptions) :
    ∃ made : VendorRequest,
      request files client [Message.functionCall call] catalogue options = pure made ∧
        made.body.field? "messages" = some (.arr [encodeCall call]) := by
  have hsent := Draw.gather_singleton (encodeMessage_functionCall h files)
  refine ⟨_, by rw [request, hsent]; rfl, ?_⟩
  show Fields.get? "messages" _ = _
  rw [Fields.get?_insertNewAll, get?_bodyFields]
  rfl

/-- A call as it stands under a message. -/
def callEntry (call : ToolCall) : Json :=
  .object
    [("id", .str call.id), ("type", .str "function"),
      ("function",
        .object [("name", .str call.name), ("arguments", .str call.arguments.render)])]

theorem field?_encodeCall (call : ToolCall) :
    (encodeCall call).field? "content" = some .null ∧
      (encodeCall call).field? "tool_calls" = some (.arr [callEntry call]) := by
  simp [encodeCall, callEntry, Json.field?_object, Fields.get?]

theorem ofJson_callEntry (h : call.IsPortable) : ToolCall.ofJson (callEntry call) = pure call := by
  have hname : ToolCall.name? (callEntry call) = some call.name := by
    simp [callEntry, ToolCall.name?, ToolCall.ownOrNested?, Json.field?_object, Fields.get?,
      Json.asStr?]
  have hid : ToolCall.id? (callEntry call) = some call.id := by
    simp [callEntry, ToolCall.id?, Json.field?_object, Fields.get?, Json.asStr?]
  have harguments : ToolCall.ownOrNested? "arguments" (callEntry call) =
      some (.str call.arguments.render) := by
    simp [callEntry, ToolCall.ownOrNested?, Json.field?_object, Fields.get?]
  rw [ToolCall.ofJson_eq_pure hname hid harguments, h.decodeArguments_render]

/-- A choice whose message is what a call becomes has that call and no text. -/
theorem parseReply_encodeCall (h : call.IsPortable) (name : String) {body choice : Json}
    {others : List Json} (hchoices : body.field? "choices" = some (.arr (choice :: others)))
    (hcalls : choice.field? "tool_calls" = none)
    (hmessage : choice.field? "message" = some (encodeCall call)) :
    parseReply name body = pure { items := [.call call] } := by
  have hchoice : choice? body = some choice := by
    simp [choice?, itemsField?, hchoices, Json.asArr?]
  have htexts : contentItems (encodeCall call) = [] := by
    simp [contentItems, textField?, field?_encodeCall, Json.asStr?]
  have hlisted : (fieldOf? "tool_calls" choice (encodeCall call)).bind Json.asArr? =
      some [callEntry call] := by
    simp [fieldOf?, hcalls, field?_encodeCall, Json.asArr?]
  have hitems : choiceItems name body choice = pure [.call call] := by
    rw [choiceItems, hmessage]
    simp only [Option.getD_some, htexts, hlisted]
    rw [readCalls_singleton (ofJson_callEntry h)]
    rfl
  rw [parseReply, hchoice]
  dsimp only
  rw [hitems, pure_bind]

end ChatCompletions

-- ---------------------------------------------------------------------------
-- Responses
-- ---------------------------------------------------------------------------

namespace Responses

theorem encodeMessage_functionCall (h : call.IsPortable) (files : FileTree) :
    encodeMessage files (Message.functionCall call) = pure [encodeCall call] :=
  h.encode_functionCall encodeCall

theorem get?_bodyFields (client : Client) (messages : List Message) (sent : List Json)
    (catalogue : Catalogue σ) (options : RunOptions) :
    Fields.get? "input" (bodyFields client messages sent catalogue options) =
      some (.arr sent) := by
  have hlater : Fields.contains "input"
      (listField "tools"
          (toolDefinitions catalogue ++
            if wantsSearch messages options then [searchTool] else []) ++
        ((options.previousResponseId?.toList.map fun handle =>
            ("previous_response_id", .str handle)) ++
          (options.format?.toList.map fun v =>
            ("text", .object [("format", (AnswerFormat.ofOption v).forResponses)])))) = false := by
    rw [Fields.contains_append, Fields.contains_append, contains_listField (by decide),
      contains_optional (by decide), contains_optional (by decide)]
    rfl
  rw [bodyFields, List.append_assoc, List.append_assoc, Fields.get?_ofList_append hlater]
  simp [Fields.get?_ofList, Fields.get?]

/-- The request for the message of a call holds what the call becomes. -/
theorem request_functionCall (h : call.IsPortable) (files : FileTree) (client : Client)
    (catalogue : Catalogue σ) (options : RunOptions) :
    ∃ made : VendorRequest,
      request files client [Message.functionCall call] catalogue options = pure made ∧
        made.body.field? "input" = some (.arr [encodeCall call]) := by
  have hsent := Draw.gather_singleton (encodeMessage_functionCall h files)
  refine ⟨_, by rw [request, hsent]; rfl, ?_⟩
  show Fields.get? "input" _ = _
  rw [Fields.get?_insertNewAll, get?_bodyFields]
  rfl

theorem ofJson_encodeCall (h : call.IsPortable) :
    ToolCall.ofJson (encodeCall call) = pure call := by
  have hname : ToolCall.name? (encodeCall call) = some call.name := by
    simp [encodeCall, ToolCall.name?, ToolCall.ownOrNested?, Json.field?_object, Fields.get?,
      Json.asStr?]
  have hid : ToolCall.id? (encodeCall call) = some call.id := by
    simp [encodeCall, ToolCall.id?, Json.field?_object, Fields.get?, Json.asStr?]
  have harguments : ToolCall.ownOrNested? "arguments" (encodeCall call) =
      some (.str call.arguments.render) := by
    simp [encodeCall, ToolCall.ownOrNested?, Json.field?_object, Fields.get?]
  rw [ToolCall.ofJson_eq_pure hname hid harguments, h.decodeArguments_render]

/-- An output that is what a call becomes is that call. -/
theorem parseReply_encodeCall (h : call.IsPortable) {body : Json}
    (houtput : body.field? "output" = some (.arr [encodeCall call])) :
    ∃ handle?, parseReply body = pure { items := [.call call], handle? } := by
  have htype : (textField? "type" (encodeCall call)).getD "" = "function_call" := by
    simp [encodeCall, textField?, Json.field?_object, Fields.get?, Json.asStr?]
  have hitems : outputItems (encodeCall call) = pure [.call call] := by
    rw [outputItems, htype, ofJson_encodeCall h]
    rfl
  have hlisted : itemsField? "output" body = some [encodeCall call] := by
    simp [itemsField?, houtput, Json.asArr?]
  refine ⟨textField? "id" body, ?_⟩
  rw [parseReply, hlisted]
  dsimp only
  rw [Draw.gather_singleton hitems, pure_bind]

end Responses

-- ---------------------------------------------------------------------------
-- Anthropic
-- ---------------------------------------------------------------------------

namespace Anthropic

theorem encodeMessage_functionCall (h : call.IsPortable) (files : FileTree) :
    encodeMessage files (Message.functionCall call) = pure [encodeCall call] :=
  h.encode_functionCall encodeCall

theorem get?_bodyFields (client : Client) (messages : List Message) (turns : List Json)
    (catalogue : Catalogue σ) (options : RunOptions) :
    Fields.get? "messages" (bodyFields client messages turns catalogue options) =
      some (.arr turns) := by
  have hsystem : Fields.contains "messages" (systemField messages) = false := by
    unfold systemField
    split
    · rfl
    · simp [Fields.contains, Fields.get?]
  have hlater : Fields.contains "messages"
      (systemField messages ++
        listField "tools"
          (toolDefinitions catalogue ++
            if wantsSearch messages options then [searchTool] else [])) = false := by
    rw [Fields.contains_append, hsystem, contains_listField (by decide)]
    rfl
  rw [bodyFields, List.append_assoc, Fields.get?_ofList_append hlater]
  simp [Fields.get?_ofList, Fields.get?]

/-- The request for the message of a call holds what the call becomes, unless a parameter of the
vendor takes its place. -/
theorem request_functionCall (h : call.IsPortable) (files : FileTree) (client : Client)
    (catalogue : Catalogue σ) {options : RunOptions}
    (hoptions : Fields.contains "messages" options.vendorParameters = false) :
    ∃ made : VendorRequest,
      request files client [Message.functionCall call] catalogue options = pure made ∧
        made.body.field? "messages" = some (.arr [encodeCall call]) := by
  have hsent := Draw.gather_singleton (encodeMessage_functionCall h files)
  refine ⟨_, by rw [request, hsent]; rfl, ?_⟩
  show Fields.get? "messages" _ = _
  rw [Fields.get?_insertAll_of_not_contains hoptions, get?_bodyFields]

/-- A call as a block of a turn. -/
def callBlock (call : ToolCall) : Json :=
  .object
    [("type", .str "tool_use"), ("id", .str call.id), ("name", .str call.name),
      ("input", call.arguments)]

theorem field?_encodeCall (call : ToolCall) :
    (encodeCall call).field? "content" = some (.arr [callBlock call]) := by
  simp [encodeCall, callBlock, Json.field?_object, Fields.get?]

theorem blockItems_callBlock (call : ToolCall) :
    blockItems (callBlock call) = pure [.call call] := by
  have htype : (textField? "type" (callBlock call)).getD "" = "tool_use" := by
    simp [callBlock, textField?, Json.field?_object, Fields.get?, Json.asStr?]
  have hname : textField? "name" (callBlock call) = some call.name := by
    simp [callBlock, textField?, Json.field?_object, Fields.get?, Json.asStr?]
  have hid : textField? "id" (callBlock call) = some call.id := by
    simp [callBlock, textField?, Json.field?_object, Fields.get?, Json.asStr?]
  have hinput : (callBlock call).field? "input" = some call.arguments := by
    simp [callBlock, Json.field?_object, Fields.get?]
  have hcall : blockCall (callBlock call) = pure call := by
    rw [blockCall, hname, hid, hinput]
    rfl
  rw [blockItems, htype, hcall]
  rfl

/-- A reply with the content of what a call becomes is that call. -/
theorem parseReply_encodeCall {body : Json}
    (hcontent : body.field? "content" = (encodeCall call).field? "content") :
    parseReply body = pure { items := [.call call] } := by
  rw [field?_encodeCall] at hcontent
  have hlisted : itemsField? "content" body = some [callBlock call] := by
    simp [itemsField?, hcontent, Json.asArr?]
  rw [parseReply, hlisted]
  dsimp only
  rw [Draw.gather_singleton (blockItems_callBlock call), pure_bind]

end Anthropic

-- ---------------------------------------------------------------------------
-- Ollama
-- ---------------------------------------------------------------------------

namespace Ollama

theorem encodeMessages_functionCall (h : call.IsPortable) (files : FileTree) :
    encodeMessages files [] [Message.functionCall call] = pure [encodeCall call] := by
  have hmessage : encodeMessage files [] (Message.functionCall call) =
      pure ([encodeCall call], [(call.id, call.name)]) := by
    show (do
      let call ← (Message.functionCall call).toolCall
      return ([encodeCall call], [(call.id, call.name)])) = _
    rw [h.toolCall_functionCall]
    rfl
  rw [encodeMessages, hmessage]
  rfl

theorem get?_bodyFields (client : Client) (sent : List Json) (catalogue : Catalogue σ)
    (options : RunOptions) :
    Fields.get? "messages" (bodyFields client sent catalogue options) = some (.arr sent) := by
  have hparameters : Fields.contains "messages" (parametersField options) = false := by
    unfold parametersField
    split
    · rfl
    · simp [Fields.contains, Fields.get?]
  have hlater : Fields.contains "messages"
      (listField "tools" (toolDefinitions catalogue) ++
        ((options.format?.toList.map fun v => ("format", (AnswerFormat.ofOption v).forOllama)) ++
          parametersField options)) = false := by
    rw [Fields.contains_append, Fields.contains_append, contains_listField (by decide),
      contains_optional (by decide), hparameters]
    rfl
  rw [bodyFields, List.append_assoc, List.append_assoc, Fields.get?_ofList_append hlater]
  simp [Fields.get?_ofList, Fields.get?]

/-- The request for the message of a call holds what the call becomes. -/
theorem request_functionCall (h : call.IsPortable) (files : FileTree) (client : Client)
    (catalogue : Catalogue σ) (options : RunOptions) :
    ∃ made : VendorRequest,
      request files client [Message.functionCall call] catalogue options = pure made ∧
        made.body.field? "messages" = some (.arr [encodeCall call]) := by
  refine ⟨_, by rw [request, encodeMessages_functionCall h]; rfl, ?_⟩
  exact get?_bodyFields ..

/-- A call as it stands under a message, without its identifier. -/
def callEntry (call : ToolCall) : Json :=
  .object [("function", .object [("name", .str call.name), ("arguments", call.arguments)])]

theorem field?_encodeCall (call : ToolCall) :
    (encodeCall call).field? "tool_calls" = some (.arr [callEntry call]) := by
  simp [encodeCall, callEntry, Json.field?_object, Fields.get?]

/-- A call without its identifier is read with an invented one. -/
theorem ofJson_callEntry (h : call.IsPortable) :
    ToolCall.ofJson (callEntry call) =
      Draw.callId >>= fun id => pure { call with id } := by
  have hname : ToolCall.name? (callEntry call) = some call.name := by
    simp [callEntry, ToolCall.name?, ToolCall.ownOrNested?, Json.field?_object, Fields.get?,
      Json.asStr?]
  have hid : ToolCall.id? (callEntry call) = none := by
    simp [callEntry, ToolCall.id?, Json.field?_object, Fields.get?]
  have harguments : ToolCall.ownOrNested? "arguments" (callEntry call) = some call.arguments := by
    simp [callEntry, ToolCall.ownOrNested?, Json.field?_object, Fields.get?]
  rw [ToolCall.ofJson, hname, hid, harguments, Option.getD_some, h.decodeArguments]

/-- A message that is what a call becomes is that call under an invented identifier. -/
theorem parseReply_encodeCall (h : call.IsPortable) {body : Json}
    (hcalls : body.field? "tool_calls" = none)
    (hmessage : body.field? "message" = some (encodeCall call)) :
    parseReply body =
      Draw.callId >>= fun id => pure { items := [.call { call with id }] } := by
  have hlisted : (fieldOf? "tool_calls" body (encodeCall call)).bind Json.asArr? =
      some [callEntry call] := by
    simp [fieldOf?, hcalls, field?_encodeCall, Json.asArr?]
  rw [parseReply, hmessage]
  dsimp only
  rw [messageItems, hlisted]
  dsimp only [Option.getD_some]
  rw [readCalls, Draw.gather, ofJson_callEntry h]
  simp only [bind_assoc, pure_bind, Draw.gather, List.append_nil]

end Ollama

-- ---------------------------------------------------------------------------
-- Backends of all kinds
-- ---------------------------------------------------------------------------

namespace BackendKind

/-- The field of a request that holds what the messages became. -/
def conversationField : BackendKind → String
  | .responses => "input"
  | _ => "messages"

/-- The reply has an item of a request as its content. -/
def Presents : BackendKind → Json → Json → Prop
  | .openAi, item, body | .openWebUi, item, body | .vllm, item, body =>
    ∃ choice others, body.field? "choices" = some (.arr (choice :: others)) ∧
      choice.field? "tool_calls" = none ∧ choice.field? "message" = some item
  | .responses, item, body => body.field? "output" = some (.arr [item])
  | .anthropic, item, body => body.field? "content" = item.field? "content"
  | .ollama, item, body =>
    body.field? "tool_calls" = none ∧ body.field? "message" = some item

/-- What the dialect of a kind makes of the message of a call. -/
def encodeCall : BackendKind → ToolCall → Json
  | .openAi | .openWebUi | .vllm => ChatCompletions.encodeCall
  | .responses => Responses.encodeCall
  | .anthropic => Anthropic.encodeCall
  | .ollama => Ollama.encodeCall

theorem request_functionCall (kind : BackendKind) (h : call.IsPortable) (files : FileTree)
    (client : Client) (catalogue : Catalogue σ) {options : RunOptions}
    (hoptions : kind = .anthropic →
      Fields.contains "messages" options.vendorParameters = false) :
    ∃ made : VendorRequest,
      kind.request files client [Message.functionCall call] catalogue options = pure made ∧
        made.body.field? kind.conversationField = some (.arr [kind.encodeCall call]) := by
  cases kind with
  | openAi | openWebUi | vllm =>
    exact ChatCompletions.request_functionCall h files client catalogue options
  | responses => exact Responses.request_functionCall h files client catalogue options
  | anthropic => exact Anthropic.request_functionCall h files client catalogue (hoptions rfl)
  | ollama => exact Ollama.request_functionCall h files client catalogue options

/-- A reply whose content is what a call becomes is that call alone, under an invented identifier if
the dialect has none. -/
theorem parseReply_encodeCall (kind : BackendKind) (h : call.IsPortable) {body : Json}
    (hbody : kind.Presents (kind.encodeCall call) body) :
    (∃ handle?, kind.parseReply body = pure { items := [.call call], handle? }) ∨
      kind = .ollama ∧ kind.parseReply body =
        Draw.callId >>= fun id => pure { items := [.call { call with id }] } := by
  cases kind with
  | openAi | openWebUi | vllm =>
    obtain ⟨choice, others, hchoices, hcalls, hmessage⟩ := hbody
    exact Or.inl ⟨none, ChatCompletions.parseReply_encodeCall h _ hchoices hcalls hmessage⟩
  | responses => exact Or.inl (Responses.parseReply_encodeCall h hbody)
  | anthropic => exact Or.inl ⟨none, Anthropic.parseReply_encodeCall hbody⟩
  | ollama => exact Or.inr ⟨rfl, Ollama.parseReply_encodeCall h hbody.1 hbody.2⟩

/-- The item is what a request of the backend holds for the message of the call, and a reply with
the item as its content is that call alone. -/
structure Conveys (kind : BackendKind) (files : FileTree) (transport : Transport σ)
    (call : ToolCall) (item : Json) : Prop where
  /-- A request for the message holds the item, unless a parameter of the vendor takes the place of
  all messages, which only Anthropic's may. -/
  written : ∀ (client : Client) (catalogue : Catalogue σ) (options : RunOptions) (w : World σ),
    (kind = .anthropic → Fields.contains "messages" options.vendorParameters = false) →
    ∃ made : VendorRequest,
      ((kind.backend files transport).formatRequest client [Message.functionCall call] catalogue
          options).perform w = (.ok made, w) ∧
        made.body.field? kind.conversationField = some (.arr [item])
  /-- The call that is read has the name and the arguments, and the identifier if the dialect has
  identifiers. -/
  read : ∀ body, kind.Presents item body → ∀ w : World σ, ∃ reply made w',
    ((kind.backend files transport).parseReply body).perform w = (.ok reply, w') ∧
      reply.items = [.call made] ∧ made.name = call.name ∧ made.arguments = call.arguments ∧
        (kind ≠ .ollama → made.id = call.id)

/-- Every backend reads the portable calls that it writes. -/
theorem conveys_encodeCall (kind : BackendKind) (files : FileTree) (transport : Transport σ)
    (h : call.IsPortable) : kind.Conveys files transport call (kind.encodeCall call) where
  written := by
    intro client catalogue options w hoptions
    obtain ⟨made, hmade, hfield⟩ :=
      kind.request_functionCall h files client catalogue hoptions
    refine ⟨made, ?_, hfield⟩
    show (Act.ofDraw (kind.request files client [Message.functionCall call] catalogue
      options)).perform w = _
    rw [hmade, Act.perform_ofDraw_pure]
  read := by
    intro body hbody w
    show ∃ reply made w', (Act.ofDraw (kind.parseReply body)).perform w = (.ok reply, w') ∧ _
    obtain ⟨handle?, hread⟩ | ⟨hkind, hread⟩ := kind.parseReply_encodeCall h hbody
    · rw [hread]
      exact ⟨_, call, w, Act.perform_ofDraw_pure _ w, rfl, rfl, rfl, fun _ => rfl⟩
    · rw [hread]
      refine ⟨_, { call with id := callId (w.random w.invented) },
        { w with invented := w.invented + 1 }, rfl, rfl, rfl, rfl, fun hne => absurd hkind hne⟩

/-- A call with nested arguments, in the dialect of chat completions. -/
theorem conveys_encodeCall_nested :
    let call : ToolCall :=
      ⟨"c1", "route", .obj [("days", .int 3), ("stops", .arr [.obj [("km", .int (-7))]])]⟩
    let files : FileTree := .empty
    let transport : Transport Unit := ⟨fun _ _ _ _ => pure .timedOut⟩
    call.IsPortable ∧
      openAi.Conveys files transport call (openAi.encodeCall call) := by
  intro call files transport
  have h : call.IsPortable := {
    isObject := ⟨_, rfl⟩
    ordered :=
      ⟨Fields.ascending_of_keys rfl (by decide), trivial,
        ⟨⟨Fields.ascending_of_keys rfl (by decide), trivial, trivial⟩, trivial⟩, trivial⟩
    integral :=
      ⟨show Json.FitsInteger 3 by decide,
        ⟨⟨show Json.FitsInteger (-7) by decide, trivial⟩, trivial⟩, trivial⟩
    depth_lt := by decide
  }
  exact ⟨h, conveys_encodeCall openAi files transport h⟩

end BackendKind

end Colloquy
