import Colloquy.Json.Parser
import Colloquy.Json.Printer
import Colloquy.Role
import Colloquy.Text.Blank

/-!
# Colloquy — messages

A message is a role and a content, which is a text or a JSON value. Either content
has a text and a JSON view.
-/

namespace Colloquy

inductive Content where
  | text (s : String)
  | structured (v : Json)
  deriving DecidableEq, Repr, Inhabited

namespace Content

/-- The text of a content: a value that is no string is written as JSON. -/
def asText : Content → String
  | .text s => s
  | .structured (.str s) => s
  | .structured v => v.render

/-- A content that says nothing. -/
def isEmpty : Content → Bool
  | .text s => s.isEmpty
  | .structured .null => true
  | .structured (.str s) => s.isEmpty
  | .structured _ => false

/-- The JSON view: a text that holds JSON is read, any other is a string. -/
def toJson : Content → Json
  | .text s => (Json.parse? (trimBlank s)).getD (.str s)
  | .structured v => v

/-- The content as it stands inside JSON. -/
def encoded : Content → Json
  | .text s => .str s
  | .structured v => v

end Content

structure Message where
  role : Role
  content : Content
  deriving DecidableEq, Repr, Inhabited

namespace Message

/-- A message with a plain text. -/
def ofText (role : Role) (text : String) : Message :=
  ⟨role, .text text⟩

def user (text : String) : Message := ofText .user text

def system (text : String) : Message := ofText .system text

def assistant (text : String) : Message := ofText .assistant text

/-- The marker that holds the handle of a response. -/
def continuation (handle : String) : Message := ofText .previousResponseId handle

def text (m : Message) : String := m.content.asText

/-- The text without blanks at its ends. -/
def trimmedText (m : Message) : String := trimBlank m.text

def isEmpty (m : Message) : Bool := m.content.isEmpty

/-- A message inside JSON. -/
def toJson (m : Message) : Json :=
  .object [("role", .str m.role.tag), ("content", m.content.encoded)]

end Message

end Colloquy
