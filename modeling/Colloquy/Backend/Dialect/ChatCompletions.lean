import Colloquy.Backend.Dialect.Basic

/-!
# Colloquy — chat completions

Calls of tools stand under a message of the assistant, with their arguments as JSON
inside a string; a result repeats the identifier of its call. A reply is the first
choice of several. Servers that are compatible differ only in their settings.

* `encodeMessage` — a message of a request.
* `request` — a request.
* `parseReply` — the items of a reply.
-/

namespace Colloquy.ChatCompletions

open Dialect

/-! ## Requests -/

def encodeCall (call : ToolCall) : Json :=
  .object
    [("role", .str "assistant"), ("content", .null),
      ("tool_calls",
        .arr
          [.object
            [("id", .str call.id), ("type", .str "function"),
              ("function",
                .object
                  [("name", .str call.name), ("arguments", .str call.arguments.render)])]])]

def encodeResult (result : ToolResult) : Json :=
  .object
    [("role", .str "tool"), ("tool_call_id", .str result.id), ("content", .str result.content)]

def encodeImage (media : Media) : Json :=
  userPart
    (.object [("type", .str "image_url"), ("image_url", .object [("url", .str media.url)])])

/-- A document; one on the web cannot be fetched by the server and is left out. -/
def encodeDocument : Media → List Json
  | .inline mime data filename =>
    [userPart
      (.object
        [("type", .str "file"),
          ("file",
            .object
              [("filename", .str filename),
                ("file_data", .str (Media.inline mime data filename).url)])])]
  | .remote _ => []

/-- What a message becomes: one message or none. -/
def encodeMessage (files : FileTree) (m : Message) : Draw (List Json) :=
  match m.role with
  | .functionCall => do return [encodeCall (← m.toolCall)]
  | .functionCallOutput => do return [encodeResult (← Draw.ofExcept m.toolResult)]
  | .image => do return [encodeImage (← Draw.ofExcept (Media.load files m.text))]
  | .pdf => do return encodeDocument (← Draw.ofExcept (Media.load files m.text))
  | .websearch | .previousResponseId => return []
  | role => return if role.isToolDirective then [] else [plainMessage m]

variable {σ : Type}

def toolDefinitions (catalogue : Catalogue σ) : List Json :=
  catalogue.tools.map functionTool

/-- The fields that are filled from the conversation, the tools and the wanted format. -/
def bodyFields (client : Client) (sent : List Json) (catalogue : Catalogue σ)
    (options : RunOptions) : Fields :=
  .ofList
    ([("model", .str client.model), ("messages", .arr sent)] ++
      listField "tools" (toolDefinitions catalogue) ++
      (options.format?.toList.map fun v =>
        ("response_format", (AnswerFormat.ofOption v).forChat)))

/-- A request. Parameters of the vendor take no other field's place. -/
def request (files : FileTree) (client : Client) (messages : List Message)
    (catalogue : Catalogue σ) (options : RunOptions) : Draw VendorRequest := do
  let sent ← Draw.gather (encodeMessage files) messages
  let body := bodyFields client sent catalogue options
  return ⟨"chat/completions", .obj (body.insertNewAll options.vendorParameters)⟩

/-! ## Replies -/

/-- The first choice of a reply. -/
def choice? (body : Json) : Option Json :=
  (itemsField? "choices" body).bind List.head?

/-- The text of a message, unless it is empty. -/
def contentItems (message : Json) : List ReplyItem :=
  match textField? "content" message with
  | some text => if text.isEmpty then [] else [.text text]
  | none => []

/-- What stands in the place of content and calls where there are neither. -/
def refusalItems (name : String) (body message : Json) : Draw (List ReplyItem) :=
  match textField? "refusal" message with
  | some text => return [.text text]
  | none =>
    throw (.vendorProtocol name "choice carries neither content nor tool calls" (some body))

/-- The items of a choice: its text and then its calls. -/
def choiceItems (name : String) (body choice : Json) : Draw (List ReplyItem) :=
  let message := (choice.field? "message").getD .null
  let texts := contentItems message
  match ((fieldOf? "tool_calls" choice message).bind Json.asArr?).getD [] with
  | [] => if texts.isEmpty then refusalItems name body message else return texts
  | calls => do return texts ++ (← readCalls calls)

/-- Read a reply to the backend of a name. -/
def parseReply (name : String) (body : Json) : Draw Reply :=
  match choice? body with
  | some choice => do return { items := ← choiceItems name body choice }
  | none => throw (.vendorProtocol name "no choices in response" (some body))

end Colloquy.ChatCompletions
