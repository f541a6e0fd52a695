import Colloquy.Conversation
import Colloquy.File.Reading
import Colloquy.FileSearch
import Colloquy.RunOptions

/-!
# Colloquy — options inside conversations

Some messages of a conversation set options of the run and are taken out of it before
it is sent. Sticky options hold for the rest of the conversation; transient ones are
forgotten at the next message of the assistant, and come before sticky ones.

* `Extraction.step` — one message.
* `extractMessages` — all messages: those that are kept, and the options.
* `extract` — the same on a conversation, which keeps what is left.
-/

namespace Colloquy

/-- What has been gathered from the messages so far. -/
structure Extraction where
  kept : List Message := []
  sticky : Fields := []
  transient : Fields := []
  resumeAfter : Option Nat := none
  deriving DecidableEq, Repr

/-- Numbers and truth values keep their kind, all else is a string. -/
def optionValue (raw : String) : Json :=
  match Json.parse? raw with
  | some (.int i) => .int i
  | some (.real x) => .real x
  | some (.bool b) => .bool b
  | _ => .str raw

/-- The name and the value that a message sets, with a blank between them. -/
def splitOption (m : Message) : Except Error (String × Json) :=
  let text := m.trimmedText
  let (key, value) :=
    match Text.cutWhere? isBlank text.toList with
    | some (key, value) => (String.ofList key, String.ofList value)
    | none => (text, "")
  if key.isEmpty then .error (.directive m.role.tag "missing option name")
  else .ok (key, optionValue (trimBlank value))

/-- A text that is likely to name a file. -/
def looksLikeFileName (text : String) : Bool :=
  !text.isEmpty && !hasBlank text && !startsWith text "\x7b" &&
    (text.toList.contains '/' || text.toList.contains '.')

/-- The format that a text names, once it is known not to name a file. -/
def inlineFormat (text : String) : Json :=
  if startsWith text "\x7b" then (Json.parse? text).getD (.str text) else .str text

/-- The format that a message asks for: a value, a file that holds one, or a name. -/
def loadFormat (search : FileSearch) (files : FileTree) (origin? : Option String) (m : Message) :
    Except Error Json :=
  let ofText (text : String) : Except Error Json :=
    match if looksLikeFileName text then search.find files text origin? else none with
    | some path => do
      match Json.parse? (← files.readText path) with
      | some v => .ok v
      | none => .error (.serialization "the file holds no JSON")
    | none => .ok (inlineFormat text)
  match m.content with
  | .text s => ofText (trimBlank s)
  | .structured (.str s) => ofText (trimBlank s)
  | .structured v => .ok v

namespace Extraction

/-- Take in one message. -/
def step (search : FileSearch) (files : FileTree) (origin? : Option String) (x : Extraction)
    (m : Message) : Except Error Extraction :=
  match m.role with
  | .previousResponseId =>
    .ok { x with
      sticky := x.sticky.insert "previous_response_id" (.str m.trimmedText)
      resumeAfter := some x.kept.length }
  | .endpoint | .model | .backend | .agent =>
    .ok { x with sticky := x.sticky.insert m.role.tag (.str m.trimmedText) }
  | .persist =>
    .ok { x with transient := x.transient.insert "persist" (optionValue m.trimmedText) }
  | .option => do
    let (key, value) ← splitOption m
    .ok { x with transient := x.transient.insert key value }
  | .stickyOption => do
    let (key, value) ← splitOption m
    .ok { x with sticky := x.sticky.insert key value }
  | .format => do
    let format ← loadFormat search files origin? m
    .ok { x with transient := x.transient.insert "format" format }
  | .assistant => .ok { x with kept := x.kept ++ [m], transient := [] }
  | _ => .ok { x with kept := x.kept ++ [m] }

/-- The options gathered: transient ones over sticky ones. -/
def options (x : Extraction) : RunOptions :=
  { values := x.sticky.insertAll x.transient, resumeAfter := x.resumeAfter }

end Extraction

/-- Take the options out of messages. -/
def extractMessages (search : FileSearch) (files : FileTree) (messages : List Message)
    (origin? : Option String) : Except Error (List Message × RunOptions) := do
  let x ← messages.foldlM (Extraction.step search files origin?) {}
  return (x.kept, x.options)

/-- Take the options out of a conversation. On an error there is no other conversation. -/
def extract (search : FileSearch) (files : FileTree) (c : Conversation) :
    Except Error (Conversation × RunOptions) := do
  let (kept, options) ← extractMessages search files c.messages c.origin?
  return (c.replace kept, options)

end Colloquy
