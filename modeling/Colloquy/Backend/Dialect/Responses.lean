import Colloquy.Backend.Dialect.Basic

/-!
# Colloquy — responses

Requests and replies are lists of typed items. The server keeps what it was sent:
each reply has a handle, and a request that names one goes on from there.

* `encodeMessage` — an item of a request.
* `request` — a request.
* `parseReply` — the items of a reply.
-/

namespace Colloquy.Responses

open Dialect

/-- The name of the backend that speaks this dialect. -/
def name : String := BackendKind.responses.name

/-! ## Requests -/

def encodeCall (call : ToolCall) : Json :=
  .object
    [("type", .str "function_call"), ("status", .str "completed"), ("call_id", .str call.id),
      ("name", .str call.name), ("arguments", .str call.arguments.render)]

def encodeResult (result : ToolResult) : Json :=
  .object
    [("type", .str "function_call_output"), ("call_id", .str result.id),
      ("output", .str result.content)]

def encodeImage (media : Media) : Json :=
  userPart (.object [("type", .str "input_image"), ("image_url", .str media.url)])

def encodeDocument : Media → Json
  | .remote url => userPart (.object [("type", .str "input_file"), ("file_url", .str url)])
  | .inline mime data filename =>
    userPart
      (.object
        [("type", .str "input_file"), ("file_data", .str (Media.inline mime data filename).url),
          ("filename", .str filename)])

/-- What a message becomes: one item or none. -/
def encodeMessage (files : FileTree) (m : Message) : Draw (List Json) :=
  match m.role with
  | .functionCall => do return [encodeCall (← m.toolCall)]
  | .functionCallOutput => do return [encodeResult (← Draw.ofExcept m.toolResult)]
  | .image => do return [encodeImage (← Draw.ofExcept (Media.load files m.text))]
  | .pdf => do return [encodeDocument (← Draw.ofExcept (Media.load files m.text))]
  | .websearch | .previousResponseId => return []
  | role => return if role.isToolDirective then [] else [plainMessage m]

variable {σ : Type}

def toolDefinition (tool : Tool σ) : Json :=
  .object
    [("type", .str "function"), ("name", .str tool.name), ("description", .str tool.description),
      ("parameters", tool.parameters.schema)]

def toolDefinitions (catalogue : Catalogue σ) : List Json :=
  catalogue.tools.map toolDefinition

/-- The tool that searches the web. -/
def searchTool : Json := .object [("type", .str "web_search_preview")]

/-- The fields that are filled from the conversation, the tools and the wanted format. -/
def bodyFields (client : Client) (messages : List Message) (sent : List Json)
    (catalogue : Catalogue σ) (options : RunOptions) : Fields :=
  .ofList
    ([("model", .str client.model), ("input", .arr sent)] ++
      listField "tools"
        (toolDefinitions catalogue ++ if wantsSearch messages options then [searchTool] else []) ++
      (options.previousResponseId?.toList.map fun handle =>
        ("previous_response_id", .str handle)) ++
      (options.format?.toList.map fun v =>
        ("text", .object [("format", (AnswerFormat.ofOption v).forResponses)])))

/-- A request. Parameters of the vendor take no other field's place. -/
def request (files : FileTree) (client : Client) (messages : List Message)
    (catalogue : Catalogue σ) (options : RunOptions) : Draw VendorRequest := do
  let sent ← Draw.gather (encodeMessage files) messages
  let body := bodyFields client messages sent catalogue options
  return ⟨"responses", .obj (body.insertNewAll options.vendorParameters)⟩

/-! ## Replies -/

/-- The text of a part of a message. Parts of other types say nothing. -/
def partItems (part : Json) : List ReplyItem :=
  match textField? "type" part with
  | some "output_text" => [.text ((textField? "text" part).getD "")]
  | some "refusal" => [.text ((textField? "refusal" part).getD "")]
  | _ => []

/-- Types of items that are no part of the conversation. -/
def silentTypes : List String := ["reasoning", "web_search_call"]

/-- What an item of a reply stands for. -/
def outputItems (item : Json) : Draw (List ReplyItem) :=
  let type := (textField? "type" item).getD ""
  if type == "message" then return ((itemsField? "content" item).getD []).flatMap partItems
  else if type == "function_call" then do return [.call (← ToolCall.ofJson item)]
  else if silentTypes.contains type then return []
  else throw (unexpectedItem name type item)

/-- Read a reply. -/
def parseReply (body : Json) : Draw Reply :=
  match itemsField? "output" body with
  | some output => do
    return { items := ← Draw.gather outputItems output, handle? := textField? "id" body }
  | none => throw (.vendorProtocol name "response has no output" (some body))

end Colloquy.Responses
