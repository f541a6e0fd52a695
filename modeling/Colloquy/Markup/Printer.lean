import Colloquy.Markup.Scan

/-!
# Colloquy — printing chat markup

Messages are printed so that the scanner reads them again. Each message is printed as
plainly as it may be: on one line, as a block, or as a block in double brackets, and
the plainer form is kept only if scanning it, with a header after it, gives back the
message and the header.

* `Scanner.readsBack` — whether a printed form gives back its message.
* `Scanner.renderText`, `Scanner.print` — one message, and a conversation.
-/

namespace Colloquy.Markup.Scanner

/-- The printed form reads back as one message with this role and text, and leaves a header that
follows it intact. -/
def readsBack (scanner : Scanner) (rendered : String) (role : Role) (text : String) : Bool :=
  match scanner.parse (rendered ++ "\n\n" ++ Role.clear.tag ++ ":") .user with
  | [only, next] =>
    only.role = role && only.text = trimBlank text && next.role = .clear && next.text.isEmpty
  | _ => false

/-- A message on one line. -/
def inlineForm (role : Role) (text : String) : String :=
  role.tag ++ ": " ++ text

/-- A message as a block under its header. -/
def blockForm (role : Role) (text : String) : String :=
  role.tag ++ ":\n\n" ++ text

/-- A message as a block in double brackets. -/
def bracketForm (role : Role) (text : String) : String :=
  role.tag ++ ":\n\n[[\n" ++ text ++ "\n]]"

/-- A block, in brackets if it needs them. -/
def renderBlock (scanner : Scanner) (role : Role) (text : String) : String :=
  if scanner.readsBack (blockForm role text) role text then blockForm role text
  else bracketForm role text

/-- The printed form of a role with a text. -/
def renderText (scanner : Scanner) (role : Role) (text : String) : String :=
  if text.isEmpty then role.tag ++ ":"
  else if role.printsInline && !text.toList.contains '\n' &&
      scanner.readsBack (inlineForm role text) role text then
    inlineForm role text
  else scanner.renderBlock role text

/-- The printed form of a message. -/
def render (scanner : Scanner) (message : Message) : String :=
  scanner.renderText message.role message.text

/-- The printed form of a conversation: its messages with an empty line before each. -/
def print (scanner : Scanner) (messages : List Message) : String :=
  "\n" ++ joinWith "\n\n" (messages.map scanner.render)

end Colloquy.Markup.Scanner
