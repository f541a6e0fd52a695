import Colloquy.Error
import Colloquy.File.Tree
import Colloquy.Text.Blank
import Colloquy.Text.Cut
import Colloquy.Text.Letter
import Colloquy.Text.Lines

/-!
# Colloquy — environment variables

Settings may come from environment variables, and variables from a file of
assignments in the directory where relative paths start, or in the closest directory
above that has one. A value in the file may be quoted, may hold escapes and may refer
to other variables; a variable that is set already keeps its value. Reading stops at
the first line that cannot be read.

* `Environment` — the variables, the latest setting first.
* `EnvFile.entries` — the logical lines of a file of assignments.
* `EnvFile.assignment` — one assignment.
* `EnvFile.load` — the environment after a file was read.
-/

namespace Colloquy

/-- Names and values, the latest setting of a name first. -/
abbrev Environment := List (String × String)

namespace Environment

/-- The value of a variable. The environment holds lines of a name, an equals sign and a value, and a
look-up finds the line that starts with what is asked for and an equals sign; so an equals sign in what
is asked for may be the one after the name, and the answer is then a later part of the value. -/
def get? (env : Environment) (name : String) : Option String :=
  match splitOnce? name '=' with
  | none => List.lookup name env
  | some (first, start) => (List.lookup first env).bind fun value => dropStart? value (start ++ "=")

/-- Texts that a variable can hold: the character of code zero would end them. -/
def isText (s : String) : Bool :=
  !s.toList.contains (Char.ofNat 0)

/-- Names that a variable can have. -/
def isName (name : String) : Bool :=
  !name.isEmpty && !name.toList.contains '=' && isText name

/-- Set a variable; a fault if there can be no such variable. -/
def set (env : Environment) (name value : String) : Except Failure Environment :=
  if isName name && isText value then .ok ((name, value) :: env) else .error .fault

/-- Take a variable away; a fault if there can be none of the name. -/
def unset (env : Environment) (name : String) : Except Failure Environment :=
  if isName name then .ok (env.filter fun entry => entry.1 != name) else .error .fault

end Environment

namespace EnvFile

/-! ## Logical lines -/

/-- Where a logical line stands: a line goes on over line ends inside quotes, after a backslash and
after a blank at the end. -/
inductive Quoting where
  | complete
  | escape
  | strong
  | strongEscape
  | weak
  | weakEscape
  | blank
  deriving DecidableEq, Repr

/-- One character outside quotes and escapes. -/
def openOf (c : Char) : Quoting :=
  if c == '\\' then .escape
  else if c == '\x22' then .weak
  else if c == '\x27' then .strong
  else .complete

/-- One character; none at the start of a comment. -/
def Quoting.step (state : Quoting) (c : Char) : Option Quoting :=
  match state with
  | .blank => if c == '#' then none else some (openOf c)
  | .escape => some .complete
  | .complete => some (if isBlank c && c != '\n' && c != '\r' then .blank else openOf c)
  | .weak => some (if c == '\\' then .weakEscape else if c == '\x22' then .complete else .weak)
  | .weakEscape => some .weak
  | .strong =>
    some (if c == '\\' then .strongEscape else if c == '\x27' then .complete else .strong)
  | .strongEscape => some .strong

/-- The state after a line, or the part of the line before a comment. -/
def Quoting.run (state : Quoting) : List Char → Quoting ⊕ List Char
  | [] => .inl state
  | c :: rest =>
    match state.step c with
    | none => .inr []
    | some next =>
      match next.run rest with
      | .inl final => .inl final
      | .inr before => .inr (c :: before)

/-- A line without its end. -/
def chomp (line : List Char) : List Char :=
  match line.reverse with
  | '\n' :: '\r' :: rest => rest.reverse
  | '\n' :: rest => rest.reverse
  | _ => line

/-- The logical lines made of lines with their ends. A line that cannot be read, or that does not come
to its end, is none and the last. -/
def entriesFrom (state : Quoting) (buffer : List Char) :
    List (Option (List Char)) → List (Option (List Char))
  | [] => if state = .complete then [] else [none]
  | none :: _ => [none]
  | some line :: rest =>
    let whole := buffer ++ line
    if (Text.trimStart whole).head? == some '#' then
      some [] :: entriesFrom .complete [] rest
    else
      match state.run line with
      | .inr before => some (buffer ++ before) :: entriesFrom .complete [] rest
      | .inl .complete => some (chomp whole) :: entriesFrom .complete [] rest
      | .inl next => entriesFrom next whole rest

/-- The bytes cut after each line feed. -/
def byteLines : List UInt8 → List (List UInt8)
  | [] => []
  | b :: rest =>
    if b = 10 then [b] :: byteLines rest
    else
      match byteLines rest with
      | [] => [[b]]
      | line :: lines => (b :: line) :: lines

/-- The characters of a line, if its bytes are UTF-8. -/
def decodeLine (bytes : List UInt8) : Option (List Char) :=
  (String.fromUTF8? (ByteArray.mk bytes.toArray)).map String.toList

/-- The bytes without a byte order mark at their start. -/
def dropMark : List UInt8 → List UInt8
  | 0xEF :: 0xBB :: 0xBF :: rest => rest
  | bytes => bytes

/-- The logical lines of a file. -/
def entries (contents : ByteArray) : List (Option (List Char)) :=
  entriesFrom .complete [] ((byteLines (dropMark contents.toList)).map decodeLine)

/-! ## Assignments -/

/-- How a value refers to another variable: by its bare name, or by its name in braces. -/
inductive Reference where
  | absent
  | bare
  | braced
  deriving DecidableEq, Repr

/-- The value of a variable: from the environment, else from the assignments read so far. -/
def valueOf (env : Environment) (earlier : List (String × String)) (name : List Char) : List Char :=
  match env.get? (String.ofList name) with
  | some value => value.toList
  | none => ((List.lookup (String.ofList name) earlier).getD "").toList

/-- What has been read of a value. -/
structure ValueScan where
  output : List Char := []
  strong : Bool := false
  weak : Bool := false
  escaped : Bool := false
  ending : Bool := false
  reference : Reference := .absent
  name : List Char := []

namespace ValueScan

def emit (scan : ValueScan) (c : Char) : ValueScan :=
  { scan with output := scan.output ++ [c] }

/-- Put the value of the variable referred to into the output. -/
def substitute (scan : ValueScan) (value : List Char → List Char) : ValueScan :=
  { scan with output := scan.output ++ value scan.name, name := [] }

/-- Read one character; none if the value cannot be read. -/
def step (value : List Char → List Char) (scan : ValueScan) (c : Char) : Option ValueScan :=
  if scan.escaped then
    if c == '\\' || c == '\x27' || c == '\x22' || c == '$' || c == ' ' then
      some { scan.emit c with escaped := false }
    else if c == 'n' then some { scan.emit '\n' with escaped := false }
    else none
  else if scan.strong then
    some (if c == '\x27' then { scan with strong := false } else scan.emit c)
  else if scan.reference ≠ .absent && isLetterOrDigit c then
    some { scan with name := scan.name ++ [c] }
  else if scan.reference = .bare then
    if c == '\x7b' && scan.name.isEmpty then some { scan with reference := .braced }
    else
      let scan := scan.substitute value
      some (if c == '$' then scan else { scan with reference := .absent }.emit c)
  else if scan.reference = .braced then
    some
      (if c == '\x7d' then { scan.substitute value with reference := .absent }
      else { scan with name := scan.name ++ [c] })
  else if c == '$' then some { scan with reference := .bare }
  else if scan.weak then
    some
      (if c == '\x22' then { scan with weak := false }
      else if c == '\\' then { scan with escaped := true }
      else scan.emit c)
  else if c == '\x27' then some { scan with strong := true }
  else if c == '\x22' then some { scan with weak := true }
  else if c == '\\' then some { scan with escaped := true }
  else if c == ' ' || c == '\t' then some { scan with ending := true }
  else some (scan.emit c)

/-- Read a value to its end; only blanks and a comment may follow it. -/
def run (value : List Char → List Char) (scan : ValueScan) : List Char → Option ValueScan
  | [] => some scan
  | c :: rest =>
    if scan.ending then
      if c == ' ' || c == '\t' then run value scan rest
      else if c == '#' then some scan
      else none
    else
      match scan.step value c with
      | some next => run value next rest
      | none => none

end ValueScan

/-- The value that the characters after an equals sign write. -/
def valueText? (value : List Char → List Char) (s : List Char) : Option (List Char) :=
  match ValueScan.run value {} s with
  | none => none
  | some scan =>
    if scan.reference = .braced || scan.strong || scan.weak then none
    else some (scan.substitute value).output

/-- The name at the start of `s`. -/
def name? (s : List Char) : Option (List Char × List Char) :=
  match s with
  | c :: _ =>
    if c.isAlpha || c == '_' then
      let isNamePart (c : Char) : Bool := c.isAlphanum || c == '_' || c == '.'
      some (s.takeWhile isNamePart, s.dropWhile isNamePart)
    else none
  | [] => none

/-- What follows an equals sign after blanks. -/
def afterEqual? (s : List Char) : Option (List Char) :=
  match Text.trimStart s with
  | '=' :: rest => some rest
  | _ => none

/-- The name that is assigned to and what follows the equals sign. A name may have a mark of export
before it. -/
def target? (s : List Char) : Option (List Char × List Char) := do
  let (name, rest) ← name? s
  if name = "export".toList then
    match afterEqual? rest with
    | some after => some (name, after)
    | none => do
      let (name, rest) ← name? (Text.trimStart rest)
      some (name, ← afterEqual? rest)
  else some (name, ← afterEqual? rest)

/-- What a logical line says. -/
inductive Assignment where
  | nothing
  | assign (name value : String)
  | unreadable
  deriving DecidableEq, Repr

/-- Read a logical line. -/
def assignment (value : List Char → List Char) (line : List Char) : Assignment :=
  let s := Text.trim line
  if s.isEmpty || s.head? == some '#' then .nothing
  else
    match target? s with
    | none => .unreadable
    | some (name, rest) =>
      let rest := Text.trimStart rest
      if rest.isEmpty || rest.head? == some '#' then .assign (String.ofList name) ""
      else
        match valueText? value rest with
        | some text => .assign (String.ofList name) (String.ofList text)
        | none => .unreadable

/-- Make the assignments of logical lines, up to the first that cannot be read. -/
def assignAll (env : Environment) (earlier : List (String × String)) :
    List (Option (List Char)) → Except Failure Environment
  | [] => .ok env
  | none :: _ => .ok env
  | some line :: rest =>
    match assignment (valueOf env earlier) line with
    | .nothing => assignAll env earlier rest
    | .unreadable => .ok env
    | .assign name value => do
      let env ← if (env.get? name).isSome then .ok env else env.set name value
      assignAll env ((name, value) :: earlier) rest

/-- The environment after the file of assignments, if there is one, was read. -/
def load (files : FileTree) (env : Environment) : Except Failure Environment :=
  match files.readUpward ".env" with
  | some contents => assignAll env [] (entries contents)
  | none => .ok env

end EnvFile

end Colloquy
