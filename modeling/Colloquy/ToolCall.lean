import Colloquy.Act
import Colloquy.Message

/-!
# Colloquy — tool calls and their results

A model asks for a tool by a `ToolCall` and is told the outcome by a `ToolResult` of
the same identifier. Both travel as the content of messages, `Message.functionCall`
and `Message.functionCallOutput`, and are read back from many shapes: a call may be
flat or nested under a function, its arguments may be JSON inside a string, and a
call without an identifier gets a new one.
-/

namespace Colloquy

structure ToolCall where
  id : String
  name : String
  arguments : Json
  deriving DecidableEq, Repr, Inhabited

structure ToolResult where
  id : String
  content : String
  deriving DecidableEq, Repr, Inhabited

namespace ToolCall

def toJson (call : ToolCall) : Json :=
  .object [("id", .str call.id), ("name", .str call.name), ("arguments", call.arguments)]

/-- Arguments as an executor sees them: JSON inside a string is read, and no arguments are an empty
object. -/
def decodeArguments : Json → Json
  | .str raw =>
    if Text.allBlank raw.toList then .obj [] else (Json.parse? raw).getD (.str raw)
  | .null => .obj []
  | v => v

/-- The first of the keys that the value has, or else the key of its function. -/
def ownOrNested? (key : String) (v : Json) : Option Json :=
  match v.field? key with
  | some found => some found
  | none => (v.field? "function").bind (Json.field? key)

/-- The name of the called tool. -/
def name? (v : Json) : Option String :=
  (ownOrNested? "name" v).bind Json.asStr?

/-- The identifier of the call, if it has one. -/
def id? (v : Json) : Option String :=
  match v.field? "call_id" with
  | some found => found.asStr?
  | none => (v.field? "id").bind Json.asStr?

/-- Read a call; one without an identifier gets a new one. -/
def ofJson (v : Json) : Draw ToolCall :=
  match name? v with
  | none => throw (.directive "function_call" "missing function name")
  | some name => do
    let id ← match id? v with
      | some id => pure id
      | none => Draw.callId
    return ⟨id, name, decodeArguments ((ownOrNested? "arguments" v).getD (.obj []))⟩

end ToolCall

namespace ToolResult

def toJson (result : ToolResult) : Json :=
  .object [("id", .str result.id), ("content", .str result.content)]

/-- The identifier of the call that was answered, under the first key that the value has. -/
def id? (v : Json) : Option String :=
  let found :=
    match v.field? "id" with
    | some found => some found
    | none =>
      match v.field? "call_id" with
      | some found => some found
      | none => v.field? "tool_call_id"
  found.bind Json.asStr?

/-- The text of the outcome. -/
def contentText : Option Json → String
  | some (.str s) => s
  | some .null => ""
  | none => ""
  | some v => v.render

/-- Read a result. -/
def ofJson (v : Json) : Except Error ToolResult :=
  match id? v with
  | none => .error (.directive "function_call_output" "missing call id")
  | some id => .ok ⟨id, contentText (v.field? "content")⟩

end ToolResult

namespace Message

def functionCall (call : ToolCall) : Message :=
  ⟨.functionCall, .structured call.toJson⟩

def functionCallOutput (result : ToolResult) : Message :=
  ⟨.functionCallOutput, .structured result.toJson⟩

/-- The call that a message carries. -/
def toolCall (m : Message) : Draw ToolCall :=
  ToolCall.ofJson m.content.toJson

/-- The result that a message carries. -/
def toolResult (m : Message) : Except Error ToolResult :=
  ToolResult.ofJson m.content.toJson

end Message

end Colloquy
