import Colloquy.Backend.Basic
import Colloquy.Backend.Format
import Colloquy.Backend.Media

/-!
# Colloquy — dialects

A dialect is the way in which a vendor writes conversations. The four dialects have
modules of their own; this one holds what they share.
-/

namespace Colloquy.Dialect

/-- The vendor's role of a plain message. What is neither the system's nor the assistant's is the
user's. -/
def speaker : Role → String
  | .system => "system"
  | .assistant => "assistant"
  | _ => "user"

/-- A plain message. -/
def plainMessage (m : Message) : Json :=
  .object [("role", .str (speaker m.role)), ("content", .str m.text)]

/-- A message of the user made of one part. -/
def userPart (part : Json) : Json :=
  .object [("role", .str "user"), ("content", .arr [part])]

/-- A field that is there only if the list has items. -/
def listField (key : String) (items : List Json) : List (String × Json) :=
  if items.isEmpty then [] else [(key, .arr items)]

/-- A search of the web is asked for by a message or by an option. -/
def wantsSearch (messages : List Message) (options : RunOptions) : Bool :=
  (messages.any fun m => m.role == .websearch) || options.flag "websearch"

/-- The definition of a tool, nested under its function. -/
def functionTool {σ : Type} (tool : Tool σ) : Json :=
  .object
    [("type", .str "function"),
      ("function",
        .object
          [("name", .str tool.name), ("description", .str tool.description),
            ("parameters", tool.parameters.schema)])]

/-- The text of a field; none of any other kind. -/
def textField? (key : String) (v : Json) : Option String :=
  (v.field? key).bind Json.asStr?

/-- The items of a field; none of any other kind. -/
def itemsField? (key : String) (v : Json) : Option (List Json) :=
  (v.field? key).bind Json.asArr?

/-- The field of a value, or else of another. -/
def fieldOf? (key : String) (v other : Json) : Option Json :=
  match v.field? key with
  | some found => some found
  | none => other.field? key

/-- The calls that are listed. -/
def readCalls (calls : List Json) : Draw (List ReplyItem) :=
  Draw.gather (fun v => do return [.call (← ToolCall.ofJson v)]) calls

/-- A reply with an item of a kind that the dialect does not know. -/
def unexpectedItem (backend kind : String) (item : Json) : Error :=
  .vendorProtocol backend ("unexpected response item \x60" ++ kind ++ "\x60") (some item)

end Colloquy.Dialect
