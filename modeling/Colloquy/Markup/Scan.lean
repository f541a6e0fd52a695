import Colloquy.Markup.Line
import Colloquy.Message
import Colloquy.Text.Lines

/-!
# Colloquy — scanning chat markup

Chat markup is read line by line. A header line `tag:` of a recognised role opens a
block, and `tag: text` is a message of its own, after which the block before it goes
on implicitly. Fences, double brackets, command output and elements are zones whose
lines are content whatever they look like.

* `Scanner` — the tags that make a header.
* `Scan` — what has been read so far: messages, the open block, the open zone.
* `Scanner.step` — one line.
* `Scanner.parse` — all lines of a text.
-/

namespace Colloquy.Markup

/-- Lines that are content whatever they look like. The names of open elements stand in a list, the
innermost first. -/
inductive Zone where
  | fence
  | bracket
  | command
  | element (stack : List (List Char))
  deriving DecidableEq, Repr

/-- Recognises headers: the tags of known roles and further tags. -/
structure Scanner where
  extraTags : List String := []
  deriving DecidableEq, Repr, Inhabited

namespace Scanner

/-- Recognise the tag in headers too. -/
def withRole (scanner : Scanner) (tag : String) : Scanner :=
  { scanner with extraTags := tag :: scanner.extraTags }

/-- The tag makes a header. -/
def recognises (scanner : Scanner) (tag : String) : Bool :=
  (Role.known.any fun role => role.tag == tag) || scanner.extraTags.contains tag

end Scanner

/-! ## What has been read -/

/-- The messages read so far, and the open block with its role and content. A block that a header
opened is kept even when it stays empty. -/
structure Scan where
  messages : List Message
  role : Role
  content : List Char
  explicit : Bool
  zone : Option Zone
  deriving DecidableEq, Repr

namespace Scan

/-- Nothing read, with an implicit block of the given role. -/
def start (role : Role) : Scan :=
  { messages := [], role := role, content := [], explicit := false, zone := none }

/-- Add a line to the content of the block. -/
def append (scan : Scan) (line : List Char) : Scan :=
  { scan with
    content := if scan.content.isEmpty then line else scan.content ++ '\n' :: line }

/-- Add a line to the content of the block unless it is blank. -/
def appendUnlessBlank (scan : Scan) (line : List Char) : Scan :=
  if Text.allBlank line then scan else scan.append line

/-- End the block: its trimmed content becomes a message, unless an implicit block has none. -/
def flush (scan : Scan) : Scan :=
  let content := Text.trim scan.content
  { scan with
    messages :=
      if !content.isEmpty || scan.explicit then
        scan.messages ++ [.ofText scan.role (String.ofList content)]
      else scan.messages
    content := [] }

/-- Begin a block that a header opened. -/
def openBlock (scan : Scan) (role : Role) : Scan :=
  { scan with role := role, explicit := true }

/-- Go on with an implicit block, of another role where one is given. -/
def continueImplicit (scan : Scan) (role? : Option Role) : Scan :=
  { scan with role := role?.getD scan.role, explicit := false }

/-- Add a message of one line. -/
def push (scan : Scan) (message : Message) : Scan :=
  { scan with messages := scan.messages ++ [message] }

def enter (scan : Scan) (zone : Zone) : Scan :=
  { scan with zone := some zone }

def leave (scan : Scan) : Scan :=
  { scan with zone := none }

end Scan

/-! ## Elements -/

/-- Close the innermost element for each of the names that is its own. -/
def closeNames (stack : List (List Char)) (names : List (List Char)) : List (List Char) :=
  names.foldl
    (fun stack name =>
      match stack with
      | [] => []
      | top :: rest => if top = name then rest else stack)
    stack

/-- The open elements after a line inside an element: one of the innermost name may open at the start
of the line, and each closing tag may close one. -/
def trackElements (stack : List (List Char)) (trimmed : List Char) : List (List Char) :=
  match elementOpen? trimmed with
  | some (name, after) =>
    if stack.head? = some name && !isSelfClosing trimmed then
      closeNames (name :: stack) (closingNames after)
    else closeNames stack (closingNames trimmed)
  | none => closeNames stack (closingNames trimmed)

/-! ## One line -/

/-- The opening tag that stands for a line that opens a command's output. -/
def commandTag (command : List Char) : List Char :=
  "<cmd_output cmd=\"".toList ++ command ++ "\">".toList

/-- The closing tag that stands for a line that closes a command's output. -/
def commandEndTag : List Char := "</cmd_output>".toList

def openBracket : List Char := ['[', '[']

def closeBracket : List Char := [']', ']']

/-- A line inside a zone. -/
def stepInside (scan : Scan) (zone : Zone) (line trimmed : List Char) : Scan :=
  match zone with
  | .fence => (if isFence trimmed then scan.leave else scan).append line
  | .bracket =>
    if closeBracket.isSuffixOf trimmed then
      scan.leave.appendUnlessBlank (Text.removeFirst closeBracket line)
    else scan.append line
  | .command =>
    if closesCommand trimmed then scan.leave.append commandEndTag else scan.append line
  | .element stack =>
    match trackElements stack trimmed with
    | [] => scan.leave.append line
    | stack => (scan.enter (.element stack)).append line

/-- A line that opens brackets, and closes them if its end says so. -/
def stepBracket (scan : Scan) (line : List Char) : Scan :=
  let opened := Text.removeFirst openBracket line
  if closeBracket.isSuffixOf (Text.trimEnd opened) then
    scan.appendUnlessBlank (Text.removeFirst closeBracket opened)
  else (scan.enter .bracket).appendUnlessBlank opened

/-- A line that opens an element, which stays open unless the line closes it. -/
def stepElement (scan : Scan) (line trimmed name after : List Char) : Scan :=
  if isSelfClosing trimmed then scan.append line
  else
    match closeNames [name] (closingNames after) with
    | [] => scan.append line
    | stack => (scan.enter (.element stack)).append line

/-- A header line of a recognised role. -/
def stepHeader (scan : Scan) (role : Role) (rest : List Char) : Scan :=
  let inline := Text.trim rest
  if inline.isEmpty then scan.flush.openBlock role
  else
    (scan.flush.push (.ofText role (String.ofList inline))).continueImplicit
      (if role = .previousResponseId then some .user else none)

/-- A line outside zones that opens none: a header or content. -/
def Scanner.stepPlain (scanner : Scanner) (scan : Scan) (line : List Char) : Scan :=
  match header? line with
  | some (tag, rest) =>
    if scanner.recognises (String.ofList tag) then
      stepHeader scan (Role.ofTag (String.ofList tag)) rest
    else scan.append line
  | none => scan.append line

/-- A line outside zones. -/
def Scanner.stepOutside (scanner : Scanner) (scan : Scan) (line trimmed : List Char) : Scan :=
  if isFence trimmed then (scan.enter .fence).appendUnlessBlank line
  else if openBracket.isPrefixOf trimmed then stepBracket scan line
  else
    match commandOpen? trimmed with
    | some command => (scan.enter .command).append (commandTag command)
    | none =>
      match elementOpen? trimmed with
      | some (name, after) => stepElement scan line trimmed name after
      | none => scanner.stepPlain scan line

/-- Read one line. -/
def Scanner.step (scanner : Scanner) (scan : Scan) (line : List Char) : Scan :=
  match scan.zone with
  | some zone => stepInside scan zone line (Text.trim line)
  | none => scanner.stepOutside scan line (Text.trim line)

/-- Read lines. -/
def Scanner.run (scanner : Scanner) (scan : Scan) (lines : List (List Char)) : Scan :=
  lines.foldl scanner.step scan

/-- The messages of a text; lines before the first header have the given role. -/
def Scanner.parse (scanner : Scanner) (text : String) (role : Role) : List Message :=
  (scanner.run (.start role) (Text.lines text.toList)).flush.messages

end Colloquy.Markup
