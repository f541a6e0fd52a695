import Colloquy.Text.Blank

/-!
# Colloquy — words of a directive

The content of a directive is split into words. Blanks set words apart, single and
double quotes group characters, and a backslash takes the next character as it is,
except in single quotes. Quotes make a word even around nothing.

* `WordScan.step` — one character.
* `words` — the words of a text.
-/

namespace Colloquy

/-- How the next character is taken. -/
inductive WordMode where
  | plain
  | escape
  | single
  | double
  | doubleEscape
  deriving DecidableEq, Repr

/-- The finished words, and the word being read. -/
structure WordScan where
  words : List String := []
  current : List Char := []
  inWord : Bool := false
  mode : WordMode := .plain
  deriving DecidableEq, Repr

namespace WordScan

/-- Add a character to the word being read. -/
def emit (scan : WordScan) (c : Char) : WordScan :=
  { scan with current := scan.current ++ [c] }

/-- Go on in another way, inside a word. -/
def go (scan : WordScan) (mode : WordMode) : WordScan :=
  { scan with mode := mode, inWord := true }

/-- End the word being read, if there is one. -/
def finishWord (scan : WordScan) : WordScan :=
  if scan.inWord then
    { scan with words := scan.words ++ [String.ofList scan.current], current := [], inWord := false }
  else scan

/-- Read one character. -/
def step (scan : WordScan) (c : Char) : WordScan :=
  match scan.mode with
  | .escape => { scan.emit c with mode := .plain }
  | .doubleEscape => { scan.emit c with mode := .double }
  | .single => if c == '\x27' then { scan with mode := .plain } else scan.emit c
  | .double =>
    if c == '\x22' then { scan with mode := .plain }
    else if c == '\\' then scan.go .doubleEscape
    else scan.emit c
  | .plain =>
    if c == '\\' then scan.go .escape
    else if c == '\x27' then scan.go .single
    else if c == '\x22' then scan.go .double
    else if isBlank c then scan.finishWord
    else (scan.emit c).go .plain

end WordScan

/-- The words of a text. -/
def words (text : String) : List String :=
  ((Text.trim text.toList).foldl WordScan.step {}).finishWord.words

end Colloquy
