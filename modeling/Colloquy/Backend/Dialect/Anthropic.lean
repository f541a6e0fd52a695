import Colloquy.Backend.Dialect.Basic

/-!
# Colloquy — the dialect of Anthropic

What the system says is lifted out of the conversation. Calls of tools and their
results are blocks inside turns of the assistant and of the user; a result repeats
the identifier of its call.

* `encodeMessage` — a turn of a request.
* `request` — a request.
* `parseReply` — the items of a reply.
-/

namespace Colloquy.Anthropic

open Dialect

/-- The name of the backend that speaks this dialect. -/
def name : String := BackendKind.anthropic.name

/-- The version of the interface. -/
def version : String := "2023-06-01"

/-- The longest answer, in tokens, unless the options say otherwise. -/
def defaultMaxTokens : Nat := 1000

/-! ## Requests -/

def encodeCall (call : ToolCall) : Json :=
  .object
    [("role", .str "assistant"),
      ("content",
        .arr
          [.object
            [("type", .str "tool_use"), ("id", .str call.id), ("name", .str call.name),
              ("input", call.arguments)]])]

def encodeResult (result : ToolResult) : Json :=
  userPart
    (.object
      [("type", .str "tool_result"), ("tool_use_id", .str result.id),
        ("content", .str result.content)])

/-- Where a medium is found: on the web, or here with its type. -/
def mediaSource (mime : String) : Media → Json
  | .remote url => .object [("type", .str "url"), ("url", .str url)]
  | .inline _ data _ =>
    .object [("type", .str "base64"), ("media_type", .str mime), ("data", .str data)]

/-- The type that a file told. -/
def mimeOf : Media → String
  | .inline mime _ _ => mime
  | .remote _ => ""

def encodeImage (media : Media) : Json :=
  userPart (.object [("type", .str "image"), ("source", mediaSource (mimeOf media) media)])

def encodeDocument (media : Media) : Json :=
  userPart
    (.object [("type", .str "document"), ("source", mediaSource "application/pdf" media)])

/-- What a message becomes: one turn or none. -/
def encodeMessage (files : FileTree) (m : Message) : Draw (List Json) :=
  match m.role with
  | .functionCall => do return [encodeCall (← m.toolCall)]
  | .functionCallOutput => do return [encodeResult (← Draw.ofExcept m.toolResult)]
  | .image => do return [encodeImage (← Draw.ofExcept (Media.load files m.text))]
  | .pdf => do return [encodeDocument (← Draw.ofExcept (Media.load files m.text))]
  | .system | .websearch | .previousResponseId => return []
  | .assistant => return if m.text.isEmpty then [] else [plainMessage m]
  | role => return if role.isToolDirective then [] else [plainMessage m]

/-- What the system says. -/
def systemTexts (messages : List Message) : List String :=
  (messages.filter fun m => m.role == .system).map Message.text

variable {σ : Type}

def toolDefinition (tool : Tool σ) : Json :=
  .object
    [("name", .str tool.name), ("description", .str tool.description),
      ("input_schema", tool.parameters.schema)]

def toolDefinitions (catalogue : Catalogue σ) : List Json :=
  catalogue.tools.map toolDefinition

/-- The tool that searches the web. -/
def searchTool : Json :=
  .object [("type", .str "web_search_20250305"), ("name", .str "web_search")]

/-- The field of what the system says, if it says anything. -/
def systemField (messages : List Message) : List (String × Json) :=
  match systemTexts messages with
  | [] => []
  | texts => [("system", .str (joinWith "\n\n" texts))]

/-- The fields that are filled from the conversation and the tools. -/
def bodyFields (client : Client) (messages : List Message) (turns : List Json)
    (catalogue : Catalogue σ) (options : RunOptions) : Fields :=
  .ofList
    ([("model", .str client.model), ("messages", .arr turns),
        ("max_tokens", .ofNat defaultMaxTokens)] ++
      systemField messages ++
      listField "tools"
        (toolDefinitions catalogue ++ if wantsSearch messages options then [searchTool] else []))

/-- A request. Parameters of the vendor take the places of other fields. -/
def request (files : FileTree) (client : Client) (messages : List Message)
    (catalogue : Catalogue σ) (options : RunOptions) : Draw VendorRequest := do
  let turns ← Draw.gather (encodeMessage files) messages
  let body := bodyFields client messages turns catalogue options
  return ⟨"messages", .obj (body.insertAll options.vendorParameters)⟩

/-! ## Replies -/

/-- Types of blocks that are no part of the conversation. -/
def silentTypes : List String :=
  ["thinking", "redacted_thinking", "reasoning", "server_tool_use", "web_search_tool_result",
   "web_search_call"]

/-- Read the call of a block. -/
def blockCall (block : Json) : Draw ToolCall :=
  match textField? "name" block with
  | some tool => do
    let id ← match textField? "id" block with
      | some id => pure id
      | none => Draw.callId
    return ⟨id, tool, (block.field? "input").getD (.obj [])⟩
  | none => throw (.vendorProtocol name "tool_use without a name" (some block))

/-- What a block of a reply stands for. -/
def blockItems (block : Json) : Draw (List ReplyItem) :=
  let type := (textField? "type" block).getD ""
  if type == "text" then return [.text ((textField? "text" block).getD "")]
  else if type == "tool_use" then do return [.call (← blockCall block)]
  else if silentTypes.contains type then return []
  else throw (unexpectedItem name type block)

/-- Read a reply. -/
def parseReply (body : Json) : Draw Reply :=
  match itemsField? "content" body with
  | some blocks => do return { items := ← Draw.gather blockItems blocks }
  | none => throw (.vendorProtocol name "response has no content" (some body))

end Colloquy.Anthropic
