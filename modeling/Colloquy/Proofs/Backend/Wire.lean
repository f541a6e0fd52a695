import Colloquy.Proofs.Backend.Calls
import Colloquy.Proofs.Backend.Parameters
import Colloquy.Proofs.Tool.Reading
import Colloquy.Tool.Dispatch

/-!
# Colloquy — conversations on the wire

A dialect writes messages one after another, so what is said later adds entries after those
that are there (`BackendKind.Adds`). Ollama's dialect carries the names of the tools called so
far along the messages; a result that follows its call is under the name of that call whatever
was called before (`BackendKind.adds_exchange`). Nothing is invented while messages are written
if the calls among them have identifiers (`BackendKind.isSettled_encoded`).

* `BackendKind.encoded` — the entries that messages become.
* `BackendKind.saidEntries`, `BackendKind.resultEntry` — the entries of what the assistant said
  and of the result of a call.
* `BackendKind.replacement?` — the parameter that takes the place of all entries.
-/

namespace Colloquy

-- ---------------------------------------------------------------------------
-- Draws that invent nothing
-- ---------------------------------------------------------------------------

namespace Draw

variable {α β : Type}

/-- The draw has one result, whatever the count, and leaves the count as it is. -/
def IsSettled (draw : Draw α) : Prop :=
  ∃ result, draw = ofExcept result

theorem isSettled_ofExcept (result : Except Error α) : IsSettled (ofExcept result) := ⟨result, rfl⟩

theorem isSettled_pure (a : α) : IsSettled (pure a : Draw α) := ⟨.ok a, rfl⟩

theorem isSettled_throw (e : Error) : IsSettled (throw e : Draw α) := ⟨.error e, rfl⟩

theorem IsSettled.bind {draw : Draw α} {f : α → Draw β} (h : IsSettled draw)
    (hf : ∀ a, IsSettled (f a)) : IsSettled (draw >>= f) := by
  obtain ⟨e | a, rfl⟩ := h
  · exact isSettled_throw e
  · exact hf a

theorem IsSettled.bind_pure {draw : Draw α} (h : IsSettled draw) (f : α → β) :
    IsSettled (draw >>= fun a => pure (f a)) :=
  h.bind fun a => isSettled_pure (f a)

theorem isSettled_gather {f : α → Draw (List β)} {xs : List α} (h : ∀ x ∈ xs, IsSettled (f x)) :
    IsSettled (gather f xs) := by
  induction xs with
  | nil => exact isSettled_pure []
  | cons x rest ih =>
    rw [List.forall_mem_cons] at h
    exact h.1.bind fun here => (ih h.2).bind_pure _

theorem gather_append_of_pure {f : α → Draw (List β)} {ys : List α} {added : List β}
    (h : gather f ys = pure added) (xs : List α) :
    gather f (xs ++ ys) = gather f xs >>= fun made => pure (made ++ added) := by
  induction xs with
  | nil => simp [gather, h]
  | cons x rest ih =>
    simp only [List.cons_append, gather, ih, bind_assoc, pure_bind, List.append_assoc]

end Draw

-- ---------------------------------------------------------------------------
-- Messages of calls and results
-- ---------------------------------------------------------------------------

/-- If the message is that of a call, the call has an identifier. -/
def Message.CarriesId (m : Message) : Prop :=
  m.role = .functionCall → ∃ id, ToolCall.id? m.content.toJson = some id

theorem ToolCall.isSettled_ofJson {v : Json} {id : String} (h : id? v = some id) :
    (ofJson v).IsSettled := by
  unfold ofJson
  split
  · exact Draw.isSettled_throw _
  · rw [h]
    exact Draw.isSettled_pure _

theorem Message.CarriesId.isSettled_toolCall {m : Message} (h : m.CarriesId)
    (hrole : m.role = .functionCall) : m.toolCall.IsSettled := by
  obtain ⟨id, hid⟩ := h hrole
  exact ToolCall.isSettled_ofJson hid

/-- A call as its message carries it. -/
def ToolCall.carried (call : ToolCall) : ToolCall :=
  { call with arguments := decodeArguments call.arguments }

theorem Message.toolCall_functionCall (call : ToolCall) :
    (functionCall call).toolCall = pure call.carried :=
  ToolCall.ofJson_toJson call

theorem Message.toolResult_functionCallOutput (result : ToolResult) :
    (functionCallOutput result).toolResult = .ok result :=
  ToolResult.ofJson_toJson result

/-- An encoder that reads calls and results from their messages writes a call and its result one
after the other. -/
theorem Draw.gather_exchange {encode : Message → Draw (List Json)} {encodeCall : ToolCall → Json}
    {encodeResult : ToolResult → Json}
    (hcall : ∀ call, encode (.functionCall call) =
      do return [encodeCall (← (Message.functionCall call).toolCall)])
    (hresult : ∀ result, encode (.functionCallOutput result) =
      do return [encodeResult (← Draw.ofExcept (Message.functionCallOutput result).toolResult)])
    (call : ToolCall) (result : ToolResult) :
    Draw.gather encode (Dispatcher.exchange call result) =
      pure [encodeCall call.carried, encodeResult result] := by
  have hfirst : encode (.functionCall call) = pure [encodeCall call.carried] := by
    rw [hcall, Message.toolCall_functionCall, pure_bind]
  have hsecond : encode (.functionCallOutput result) = pure [encodeResult result] := by
    rw [hresult, Message.toolResult_functionCallOutput]
    rfl
  rw [Dispatcher.exchange, Draw.gather, hfirst, Draw.gather_singleton hsecond]
  rfl

-- ---------------------------------------------------------------------------
-- Dialects
-- ---------------------------------------------------------------------------

open Dialect

variable {files : FileTree} {m : Message}

theorem ChatCompletions.isSettled_encodeMessage (h : m.CarriesId) :
    (encodeMessage files m).IsSettled := by
  unfold encodeMessage
  split
  · next hrole => exact (h.isSettled_toolCall hrole).bind_pure _
  · exact (Draw.isSettled_ofExcept _).bind_pure _
  · exact (Draw.isSettled_ofExcept _).bind_pure _
  · exact (Draw.isSettled_ofExcept _).bind_pure _
  all_goals exact Draw.isSettled_pure _

theorem Responses.isSettled_encodeMessage (h : m.CarriesId) :
    (encodeMessage files m).IsSettled := by
  unfold encodeMessage
  split
  · next hrole => exact (h.isSettled_toolCall hrole).bind_pure _
  · exact (Draw.isSettled_ofExcept _).bind_pure _
  · exact (Draw.isSettled_ofExcept _).bind_pure _
  · exact (Draw.isSettled_ofExcept _).bind_pure _
  all_goals exact Draw.isSettled_pure _

namespace Anthropic

theorem isSettled_encodeMessage (h : m.CarriesId) : (encodeMessage files m).IsSettled := by
  unfold encodeMessage
  split
  · next hrole => exact (h.isSettled_toolCall hrole).bind_pure _
  · exact (Draw.isSettled_ofExcept _).bind_pure _
  · exact (Draw.isSettled_ofExcept _).bind_pure _
  · exact (Draw.isSettled_ofExcept _).bind_pure _
  all_goals exact Draw.isSettled_pure _

/-- What is not said by the system does not change what the system says. -/
theorem systemField_append {later : List Message} (h : ∀ m ∈ later, m.role ≠ .system)
    (messages : List Message) : systemField (messages ++ later) = systemField messages := by
  have hlater : (later.filter fun m => m.role == .system) = [] :=
    List.filter_eq_nil_iff.mpr fun m hm => by simpa using h m hm
  rw [systemField, systemTexts, List.filter_append, hlater, List.append_nil, systemField,
    systemTexts]

theorem get?_bodyFields_system {σ : Type} (client : Client) (messages : List Message)
    (turns : List Json) (catalogue : Catalogue σ) (options : RunOptions) :
    Fields.get? "system" (bodyFields client messages turns catalogue options) =
      Fields.get? "system" (systemField messages) := by
  have htools : Fields.contains "system" (listField "tools"
      (toolDefinitions catalogue ++
        if wantsSearch messages options then [searchTool] else [])) = false :=
    contains_listField (by decide) _
  rw [bodyFields, Fields.get?_ofList_append htools]
  unfold systemField
  split <;> simp [Fields.get?_ofList, Fields.get?]

end Anthropic

namespace Ollama

theorem isSettled_encodeMessage (h : m.CarriesId) (called : List (String × String)) :
    (encodeMessage files called m).IsSettled := by
  unfold encodeMessage
  split
  · next hrole => exact (h.isSettled_toolCall hrole).bind_pure _
  · exact (Draw.isSettled_ofExcept _).bind_pure _
  · exact (Draw.isSettled_ofExcept _).bind_pure _
  all_goals exact Draw.isSettled_pure _

theorem isSettled_encodeMessages {messages : List Message} (h : ∀ m ∈ messages, m.CarriesId)
    (called : List (String × String)) : (encodeMessages files called messages).IsSettled := by
  induction messages generalizing called with
  | nil => exact Draw.isSettled_pure []
  | cons m rest ih =>
    rw [List.forall_mem_cons] at h
    exact (isSettled_encodeMessage h.1 called).bind fun (_, called) => (ih h.2 called).bind_pure _

/-- Messages that become the same entries whatever was called before add these to the others. -/
theorem encodeMessages_append {later : List Message} {added : List Json}
    (h : ∀ called, encodeMessages files called later = pure added) (messages : List Message)
    (called : List (String × String)) :
    encodeMessages files called (messages ++ later) =
      encodeMessages files called messages >>= fun sent => pure (sent ++ added) := by
  induction messages generalizing called with
  | nil => simp [encodeMessages, h]
  | cons m rest ih => simp [encodeMessages, ih]

/-- A result that follows its call is under the name of the call, whatever was called before. -/
theorem encodeMessages_exchange {call : ToolCall} {result : ToolResult} (h : result.id = call.id)
    (called : List (String × String)) :
    encodeMessages files called (Dispatcher.exchange call result) =
      pure [encodeCall call.carried, encodeResult (some call.name) result] := by
  have hcall : encodeMessage files called (Message.functionCall call) =
      pure ([encodeCall call.carried], (call.id, call.name) :: called) := by
    show (Message.functionCall call).toolCall >>= _ = _
    rw [Message.toolCall_functionCall, pure_bind]
    rfl
  have hlookup : List.lookup result.id ((call.id, call.name) :: called) = some call.name := by
    rw [h, List.lookup_cons_self]
  have hresult : encodeMessage files ((call.id, call.name) :: called)
      (Message.functionCallOutput result) =
        pure ([encodeResult (some call.name) result], (call.id, call.name) :: called) := by
    show Draw.ofExcept (Message.functionCallOutput result).toolResult >>= _ = _
    rw [Message.toolResult_functionCallOutput, ← hlookup]
    rfl
  simp [Dispatcher.exchange, encodeMessages, hcall, hresult]

end Ollama

-- ---------------------------------------------------------------------------
-- Conversations
-- ---------------------------------------------------------------------------

namespace BackendKind

/-- What messages become in the dialect of a kind. -/
def encoded : BackendKind → FileTree → List Message → Draw (List Json)
  | .openAi, files, messages | .openWebUi, files, messages | .vllm, files, messages =>
    Draw.gather (ChatCompletions.encodeMessage files) messages
  | .responses, files, messages => Draw.gather (Responses.encodeMessage files) messages
  | .anthropic, files, messages => Draw.gather (Anthropic.encodeMessage files) messages
  | .ollama, files, messages => Ollama.encodeMessages files [] messages

/-- What a message of the assistant becomes. Anthropic's dialect has no empty turns. -/
def saidEntries (kind : BackendKind) (m : Message) : List Json :=
  if kind = .anthropic ∧ m.text.isEmpty then [] else [plainMessage m]

/-- What the result of a call of a tool becomes. Ollama's dialect tells it by the tool, and the
others by the identifier of the call. -/
def resultEntry : BackendKind → String → ToolResult → Json
  | .openAi, _, result | .openWebUi, _, result | .vllm, _, result =>
    ChatCompletions.encodeResult result
  | .responses, _, result => Responses.encodeResult result
  | .anthropic, _, result => Anthropic.encodeResult result
  | .ollama, tool, result => Ollama.encodeResult (some tool) result

/-- A block of a turn that is the result of a call. -/
def isResultBlock (block : Json) : Bool :=
  textField? "type" block == some "tool_result"

/-- An entry that is the result of a call. -/
def isResult : BackendKind → Json → Bool
  | .openAi, entry | .openWebUi, entry | .vllm, entry | .ollama, entry =>
    textField? "role" entry == some "tool"
  | .responses, entry => textField? "type" entry == some "function_call_output"
  | .anthropic, entry => ((itemsField? "content" entry).getD []).any isResultBlock

/-- What the assistant says is not the result of a call. -/
theorem isResult_of_mem_saidEntries (kind : BackendKind) (h : m.role = .assistant) :
    ∀ entry ∈ kind.saidEntries m, kind.isResult entry = false := by
  intro entry hentry
  obtain rfl : entry = plainMessage m := by
    unfold saidEntries at hentry
    split at hentry
    · exact absurd hentry (List.not_mem_nil)
    · exact List.mem_singleton.mp hentry
  cases kind <;>
    simp [isResult, plainMessage, h, speaker, textField?, itemsField?, Json.field?_object,
      Fields.get?, Json.asStr?, Json.asArr?]

theorem isResult_encodeCall (kind : BackendKind) (call : ToolCall) :
    kind.isResult (kind.encodeCall call) = false := by
  cases kind <;>
    simp [isResult, encodeCall, ChatCompletions.encodeCall, Responses.encodeCall,
      Anthropic.encodeCall, Ollama.encodeCall, isResultBlock, textField?, itemsField?,
      Json.field?_object, Fields.get?, Json.asStr?, Json.asArr?]

theorem isResult_resultEntry (kind : BackendKind) (tool : String) (result : ToolResult) :
    kind.isResult (kind.resultEntry tool result) = true := by
  cases kind <;>
    simp [isResult, resultEntry, ChatCompletions.encodeResult, Responses.encodeResult,
      Anthropic.encodeResult, Ollama.encodeResult, userPart, isResultBlock, textField?, itemsField?,
      Json.field?_object, Fields.get?, Json.asStr?, Json.asArr?]

/-- Nothing is invented while messages become entries if all calls have identifiers. -/
theorem isSettled_encoded (kind : BackendKind) (files : FileTree) {messages : List Message}
    (h : ∀ m ∈ messages, m.CarriesId) : (kind.encoded files messages).IsSettled := by
  cases kind with
  | openAi | openWebUi | vllm =>
    exact Draw.isSettled_gather fun m hm => ChatCompletions.isSettled_encodeMessage (h m hm)
  | responses => exact Draw.isSettled_gather fun m hm => Responses.isSettled_encodeMessage (h m hm)
  | anthropic => exact Draw.isSettled_gather fun m hm => Anthropic.isSettled_encodeMessage (h m hm)
  | ollama => exact Ollama.isSettled_encodeMessages h []

-- ---------------------------------------------------------------------------
-- What is said later
-- ---------------------------------------------------------------------------

/-- After whatever was said before, the messages add these entries. -/
def Adds (kind : BackendKind) (files : FileTree) (later : List Message) (added : List Json) :
    Prop :=
  ∀ messages, kind.encoded files (messages ++ later) =
    kind.encoded files messages >>= fun sent => pure (sent ++ added)

theorem adds_nil (kind : BackendKind) (files : FileTree) : kind.Adds files [] [] := by
  intro messages
  simp

theorem Adds.append {kind : BackendKind} {later latest : List Message} {added last : List Json}
    (h : kind.Adds files later added) (hlatest : kind.Adds files latest last) :
    kind.Adds files (later ++ latest) (added ++ last) := by
  intro messages
  rw [← List.append_assoc, hlatest, h, bind_assoc]
  simp only [pure_bind, List.append_assoc]

theorem Adds.flatMap {α : Type} {kind : BackendKind} {xs : List α} {said : α → List Message}
    {added : α → List Json} (h : ∀ x ∈ xs, kind.Adds files (said x) (added x)) :
    kind.Adds files (xs.flatMap said) (xs.flatMap added) := by
  induction xs with
  | nil => exact kind.adds_nil files
  | cons x rest ih =>
    rw [List.forall_mem_cons] at h
    exact h.1.append (ih h.2)

theorem adds_said (kind : BackendKind) (files : FileTree) (h : m.role = .assistant) :
    kind.Adds files [m] (kind.saidEntries m) := by
  cases kind with
  | openAi | openWebUi | vllm =>
    refine Draw.gather_append_of_pure (Draw.gather_singleton ?_)
    simp [ChatCompletions.encodeMessage, h, Role.isToolDirective, saidEntries]
  | responses =>
    refine Draw.gather_append_of_pure (Draw.gather_singleton ?_)
    simp [Responses.encodeMessage, h, Role.isToolDirective, saidEntries]
  | anthropic =>
    refine Draw.gather_append_of_pure (Draw.gather_singleton ?_)
    simp [Anthropic.encodeMessage, h, saidEntries]
  | ollama =>
    refine fun messages => Ollama.encodeMessages_append (fun called => ?_) messages []
    simp [Ollama.encodeMessages, Ollama.encodeMessage, h, Role.isToolDirective, saidEntries]

/-- A call and its result add an entry each, the second of which tells which call was answered. -/
theorem adds_exchange (kind : BackendKind) (files : FileTree) {call : ToolCall}
    {result : ToolResult} (h : result.id = call.id) :
    kind.Adds files (Dispatcher.exchange call result)
      [kind.encodeCall call.carried, kind.resultEntry call.name result] := by
  cases kind with
  | openAi | openWebUi | vllm | responses | anthropic =>
    exact Draw.gather_append_of_pure
      (Draw.gather_exchange (fun _ => rfl) (fun _ => rfl) call result)
  | ollama =>
    exact fun messages =>
      Ollama.encodeMessages_append (Ollama.encodeMessages_exchange h) messages []

-- ---------------------------------------------------------------------------
-- Requests
-- ---------------------------------------------------------------------------

/-- A server without memory is sent the conversation as its messages. -/
theorem conversationField_of_stateless {kind : BackendKind} (h : kind.isStateful = false) :
    kind.conversationField = "messages" := by
  cases kind with
  | responses => exact absurd h (by decide)
  | openAi | anthropic | ollama | openWebUi | vllm => rfl

/-- The parameter of the vendor that takes the place of a field, which is possible in Anthropic's
dialect alone. -/
def replacement? (kind : BackendKind) (options : RunOptions) (key : String) : Option Json :=
  if kind = .anthropic then options.parameter? key else none

variable {σ : Type} {kind : BackendKind} {messages : List Message}

/-- A request cannot be written if its messages cannot. -/
theorem request_of_encoded_eq_throw {e : Error} (h : kind.encoded files messages = throw e)
    (client : Client) (catalogue : Catalogue σ) (options : RunOptions) :
    kind.request files client messages catalogue options = throw e := by
  cases kind with
  | openAi | openWebUi | vllm | responses | anthropic | ollama =>
    exact congrArg (· >>= _) h

/-- A request holds what its messages become, unless a parameter takes its place. -/
theorem exists_request_of_encoded {sent : List Json}
    (h : kind.encoded files messages = pure sent) (client : Client) (catalogue : Catalogue σ)
    (options : RunOptions) :
    ∃ wire, kind.request files client messages catalogue options = pure wire ∧
      wire.body.field? kind.conversationField =
        some ((kind.replacement? options kind.conversationField).getD (.arr sent)) ∧
      (kind = .anthropic → wire.body.field? "system" =
        (options.parameter? "system").or
          (Fields.get? "system" (Anthropic.systemField messages))) := by
  cases kind with
  | openAi | openWebUi | vllm =>
    refine ⟨_, congrArg (· >>= _) h, ?_, nofun⟩
    show Fields.get? "messages" _ = _
    rw [Fields.get?_insertNewAll, ChatCompletions.get?_bodyFields]
    rfl
  | responses =>
    refine ⟨_, congrArg (· >>= _) h, ?_, nofun⟩
    show Fields.get? "input" _ = _
    rw [Fields.get?_insertNewAll, Responses.get?_bodyFields]
    rfl
  | anthropic =>
    refine ⟨_, congrArg (· >>= _) h, ?_, fun _ => ?_⟩
    · show Fields.get? "messages" (insertParameters .anthropic options.vendorParameters _) = _
      rw [get?_insertParameters_anthropic, Anthropic.get?_bodyFields]
      cases h : options.parameter? "messages" <;> simp [replacement?, conversationField, h]
    · show Fields.get? "system" (insertParameters .anthropic options.vendorParameters _) = _
      rw [get?_insertParameters_anthropic, Anthropic.get?_bodyFields_system]
  | ollama =>
    refine ⟨_, congrArg (· >>= _) h, ?_, nofun⟩
    exact Ollama.get?_bodyFields ..

end BackendKind

end Colloquy
