import Colloquy.Text.Blank
import Colloquy.Text.Cut
import Colloquy.Text.Word

/-!
# Colloquy — shapes of markup lines

A line of chat markup may be a header, the mark of a fence, the opening or closing
line of a command's output, or it may start or end elements. The functions here say
which shape a line has and take it apart; they know nothing of the lines around it.

* `header?` — `tag: rest`, at the very start of a line.
* `isFence` — three grave accents or three hyphens at the start.
* `commandOpen?`, `closesCommand` — the lines around a command's output.
* `elementOpen?`, `closingNames` — tags of elements.
-/

namespace Colloquy.Markup

/-- Characters of the tag of a header. -/
def isTagChar (c : Char) : Bool :=
  c.isLower || c.isDigit || c == '_'

/-- The tag of a header and what follows its colon. -/
def header? (line : List Char) : Option (List Char × List Char) :=
  match line.takeWhile isTagChar, line.dropWhile isTagChar with
  | [], _ => none
  | tag, ':' :: rest => some (tag, rest)
  | _, _ => none

/-- A trimmed line that opens or ends a fence. -/
def isFence (trimmed : List Char) : Bool :=
  ['\x60', '\x60', '\x60'].isPrefixOf trimmed || ['-', '-', '-'].isPrefixOf trimmed

/-- What stands before a command. -/
def commandMark : List Char := [':', '-', '-', ' ']

/-- What stands between a command and its output. -/
def outputOpen : List Char := [' ', '\x7b', '\x7b', '\x7b']

/-- What stands at the end of a command's output. -/
def outputClose : List Char := [' ', '\x7d', '\x7d', '\x7d']

/-- The command of a line that opens a command's output: what stands between the last possible mark
and the first opening after it. -/
def commandOpen? : List Char → Option (List Char)
  | [] => none
  | c :: rest =>
    match commandOpen? rest with
    | some command => some command
    | none =>
      match Text.dropStart? commandMark (c :: rest) with
      | some after => (Text.cut? outputOpen after).map Prod.fst
      | none => none

/-- A line that closes a command's output. -/
def closesCommand (trimmed : List Char) : Bool :=
  match Text.cut? [':', '-', '-'] trimmed with
  | some (_, after) => Text.contains outputClose after
  | none => false

/-- What follows the closing angle bracket of an opening tag whose name ends at `s`. Attributes are
set off by a blank. -/
def afterName? (s : List Char) : Option (List Char) :=
  match s with
  | '>' :: rest => some rest
  | c :: rest => if isBlank c then (Text.cut? ['>'] rest).map Prod.snd else none
  | [] => none

/-- The name of the element that a trimmed line opens at its start, and what follows the tag. -/
def elementOpen? (trimmed : List Char) : Option (List Char × List Char) :=
  match trimmed with
  | '<' :: rest =>
    let name := rest.takeWhile isWordChar
    if name.isEmpty then none
    else (afterName? (rest.dropWhile isWordChar)).map fun after => (name, after)
  | _ => none

/-- The name of a closing tag at the start of `s`. -/
def closingName? (s : List Char) : Option (List Char) :=
  match s with
  | '<' :: '/' :: rest =>
    let name := rest.takeWhile isWordChar
    match name, rest.dropWhile isWordChar with
    | [], _ => none
    | _, '>' :: _ => some name
    | _, _ => none
  | _ => none

/-- The names of all closing tags in `s`, from left to right. -/
def closingNames : List Char → List (List Char)
  | [] => []
  | c :: rest =>
    match closingName? (c :: rest) with
    | some name => name :: closingNames rest
    | none => closingNames rest

/-- A trimmed line that ends in the mark of an element without content. -/
def isSelfClosing (trimmed : List Char) : Bool :=
  ['/', '>'].isSuffixOf trimmed

end Colloquy.Markup
