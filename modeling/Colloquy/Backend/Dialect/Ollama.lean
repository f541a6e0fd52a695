import Colloquy.Backend.Dialect.Basic

/-!
# Colloquy — the dialect of Ollama

Calls of tools have no identifiers, so a call that is read gets a new one, and a
result is told by the name of the tool whose call had its identifier.

* `encodeMessages` — the messages of a request.
* `request` — a request.
* `parseReply` — the items of a reply.
-/

namespace Colloquy.Ollama

open Dialect

/-- The name of the backend that speaks this dialect. -/
def name : String := BackendKind.ollama.name

/-! ## Requests -/

def encodeCall (call : ToolCall) : Json :=
  .object
    [("role", .str "assistant"), ("content", .str ""),
      ("tool_calls",
        .arr
          [.object
            [("function", .object [("name", .str call.name), ("arguments", call.arguments)])]])]

/-- A result, with the name of the tool that was called if it is known. -/
def encodeResult (tool? : Option String) (result : ToolResult) : Json :=
  .object
    ([("role", .str "tool"), ("content", .str result.content)] ++
      (tool?.toList.map fun tool => ("tool_name", .str tool)))

/-- An image; one on the web cannot be fetched by the server and is left out. -/
def encodeImage : Media → List Json
  | .inline _ data _ =>
    [.object
      [("role", .str "user"), ("content", .str ""), ("images", .arr [.str data])]]
  | .remote _ => []

/-- What a message becomes, one message or none, given the names of the tools called so far by the
identifiers of the calls. A message that is a call is known to those after it. -/
def encodeMessage (files : FileTree) (called : List (String × String)) (m : Message) :
    Draw (List Json × List (String × String)) :=
  match m.role with
  | .functionCall => do
    let call ← m.toolCall
    return ([encodeCall call], (call.id, call.name) :: called)
  | .functionCallOutput => do
    let result ← Draw.ofExcept m.toolResult
    return ([encodeResult (List.lookup result.id called) result], called)
  | .image => do return (encodeImage (← Draw.ofExcept (Media.load files m.text)), called)
  | .pdf | .websearch | .previousResponseId => return ([], called)
  | role => return (if role.isToolDirective then [] else [plainMessage m], called)

/-- What messages become, given the names of the tools called before them. -/
def encodeMessages (files : FileTree) (called : List (String × String)) :
    List Message → Draw (List Json)
  | [] => pure []
  | m :: rest => do
    let (here, called) ← encodeMessage files called m
    let others ← encodeMessages files called rest
    return here ++ others

variable {σ : Type}

def toolDefinitions (catalogue : Catalogue σ) : List Json :=
  catalogue.tools.map functionTool

/-- Parameters of the vendor, which stand in a field of their own. -/
def parametersField (options : RunOptions) : List (String × Json) :=
  match options.vendorParameters with
  | [] => []
  | parameters => [("options", .obj parameters)]

/-- The fields of a request. -/
def bodyFields (client : Client) (sent : List Json) (catalogue : Catalogue σ)
    (options : RunOptions) : Fields :=
  .ofList
    ([("model", .str client.model), ("messages", .arr sent), ("stream", .bool false)] ++
      listField "tools" (toolDefinitions catalogue) ++
      (options.format?.toList.map fun v => ("format", (AnswerFormat.ofOption v).forOllama)) ++
      parametersField options)

/-- A request. -/
def request (files : FileTree) (client : Client) (messages : List Message)
    (catalogue : Catalogue σ) (options : RunOptions) : Draw VendorRequest := do
  let sent ← encodeMessages files [] messages
  return ⟨"api/chat", .obj (bodyFields client sent catalogue options)⟩

/-! ## Replies -/

/-- The items of a reply: its calls, or else its text. -/
def messageItems (body message : Json) : Draw (List ReplyItem) :=
  match ((fieldOf? "tool_calls" body message).bind Json.asArr?).getD [] with
  | [] => return [.text ((textField? "content" message).getD "")]
  | calls => readCalls calls

/-- Read a reply. -/
def parseReply (body : Json) : Draw Reply :=
  match body.field? "message" with
  | some message => do return { items := ← messageItems body message }
  | none => throw (.vendorProtocol name "response has no message" (some body))

end Colloquy.Ollama
