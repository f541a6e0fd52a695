import Colloquy.Json.Numeral

/-!
# Colloquy — reading JSON

`Json.parse?` reads a text that holds exactly one value. Blanks between tokens are
the space, the tab, the line feed and the carriage return. Arrays and objects nest at
most `Json.greatestDepth` deep, a string holds no raw control character and no half of
a surrogate pair, and of several fields with one key the last one counts.
-/

namespace Colloquy.Json

/-- How deep arrays and objects may nest. -/
def greatestDepth : Nat := 127

/-- Blanks between tokens. -/
def isSpace (c : Char) : Bool :=
  c == ' ' || c == '\n' || c == '\t' || c == '\r'

def skipSpace (s : List Char) : List Char :=
  s.dropWhile isSpace

/-! ## Strings -/

/-- The value of a hexadecimal digit. -/
def hexValue? (c : Char) : Option Nat :=
  let n := c.toNat
  if c.isDigit then some (n - 0x30)
  else if 0x61 ≤ n ∧ n ≤ 0x66 then some (n - 0x61 + 10)
  else if 0x41 ≤ n ∧ n ≤ 0x46 then some (n - 0x41 + 10)
  else none

/-- Four hexadecimal digits. -/
def fourHex? : List Char → Option (Nat × List Char)
  | a :: b :: c :: d :: rest => do
    let a ← hexValue? a
    let b ← hexValue? b
    let c ← hexValue? c
    let d ← hexValue? d
    some (((a * 16 + b) * 16 + c) * 16 + d, rest)
  | _ => none

/-- The character after the mark of a numbered escape; a high surrogate needs its low one. -/
def unicodeEscape? (s : List Char) : Option (Char × List Char) := do
  let (n, rest) ← fourHex? s
  if 0xDC00 ≤ n ∧ n ≤ 0xDFFF then none
  else if 0xD800 ≤ n ∧ n ≤ 0xDBFF then
    match rest with
    | '\\' :: 'u' :: more => do
      let (m, after) ← fourHex? more
      if 0xDC00 ≤ m ∧ m ≤ 0xDFFF then
        some (Char.ofNat (0x10000 + (n - 0xD800) * 0x400 + (m - 0xDC00)), after)
      else none
    | _ => none
  else some (Char.ofNat n, rest)

/-- The character that a backslash and `c` stand for. -/
def simpleEscape? (c : Char) : Option Char :=
  match c with
  | '"' => some '"'
  | '\\' => some '\\'
  | '/' => some '/'
  | 'b' => some (Char.ofNat 8)
  | 'f' => some (Char.ofNat 12)
  | 'n' => some '\n'
  | 'r' => some '\r'
  | 't' => some '\t'
  | _ => none

/-- The rest of a string after its opening quote. -/
def stringBody? : Nat → List Char → Option (List Char × List Char)
  | 0, _ => none
  | _ + 1, [] => none
  | _ + 1, '"' :: rest => some ([], rest)
  | fuel + 1, '\\' :: 'u' :: rest => do
    let (c, after) ← unicodeEscape? rest
    let (cs, last) ← stringBody? fuel after
    some (c :: cs, last)
  | fuel + 1, '\\' :: e :: rest => do
    let c ← simpleEscape? e
    let (cs, last) ← stringBody? fuel rest
    some (c :: cs, last)
  | fuel + 1, c :: rest =>
    if c == '\\' || c.toNat < 0x20 then none
    else do
      let (cs, last) ← stringBody? fuel rest
      some (c :: cs, last)

/-- A string after its opening quote. -/
def string? (s : List Char) : Option (String × List Char) :=
  (stringBody? (s.length + 1) s).map fun (cs, rest) => (String.ofList cs, rest)

/-! ## Values -/

mutual

/-- A value at the start of `s`; `depth` containers may still be opened. -/
def value? : Nat → Nat → List Char → Option (Json × List Char)
  | 0, _, _ => none
  | fuel + 1, depth, s =>
    match skipSpace s with
    | 'n' :: 'u' :: 'l' :: 'l' :: rest => some (.null, rest)
    | 't' :: 'r' :: 'u' :: 'e' :: rest => some (.bool true, rest)
    | 'f' :: 'a' :: 'l' :: 's' :: 'e' :: rest => some (.bool false, rest)
    | '"' :: rest => (string? rest).map fun (text, after) => (.str text, after)
    | '[' :: rest =>
      match depth with
      | 0 => none
      | depth + 1 =>
        match skipSpace rest with
        | ']' :: after => some (.arr [], after)
        | here => (items? fuel depth here).map fun (vs, after) => (.arr vs, after)
    | '\x7b' :: rest =>
      match depth with
      | 0 => none
      | depth + 1 =>
        match skipSpace rest with
        | '\x7d' :: after => some (.obj [], after)
        | here => (members? fuel depth here).map fun (fs, after) => (object fs, after)
    | here => numeral? here

/-- Values with commas between them, up to the bracket that ends an array. -/
def items? : Nat → Nat → List Char → Option (List Json × List Char)
  | 0, _, _ => none
  | fuel + 1, depth, s => do
    let (v, rest) ← value? fuel depth s
    match skipSpace rest with
    | ',' :: more => do
      let (vs, after) ← items? fuel depth more
      some (v :: vs, after)
    | ']' :: after => some ([v], after)
    | _ => none

/-- Fields with commas between them, up to the brace that ends an object. -/
def members? : Nat → Nat → List Char → Option (List (String × Json) × List Char)
  | 0, _, _ => none
  | fuel + 1, depth, s =>
    match skipSpace s with
    | '"' :: rest => do
      let (key, afterKey) ← string? rest
      match skipSpace afterKey with
      | ':' :: here => do
        let (v, afterValue) ← value? fuel depth here
        match skipSpace afterValue with
        | ',' :: more => do
          let (fs, after) ← members? fuel depth more
          some ((key, v) :: fs, after)
        | '\x7d' :: after => some ([(key, v)], after)
        | _ => none
      | _ => none
    | _ => none

end

/-- The value that the whole of `s` writes. -/
def parseChars? (s : List Char) : Option Json :=
  match value? (2 * s.length + 2) greatestDepth s with
  | some (v, rest) => if (skipSpace rest).isEmpty then some v else none
  | none => none

/-- The value that the whole text writes. -/
def parse? (s : String) : Option Json :=
  parseChars? s.toList

end Colloquy.Json
