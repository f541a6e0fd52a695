/-!
# Colloquy — blank characters and trimming

Texts are trimmed, split into words and tested for emptiness by one notion of
blank: the characters with the Unicode property `White_Space`. Trimming works on
lists of characters, the form in which all scanning is done; `String.trimBlank` is
the same operation on strings.
-/

namespace Colloquy

/-- Characters with the Unicode property `White_Space`. -/
def isBlank (c : Char) : Bool :=
  let n := c.toNat
  (0x09 ≤ n && n ≤ 0x0D) || n == 0x20 || n == 0x85 || n == 0xA0 || n == 0x1680 ||
    (0x2000 ≤ n && n ≤ 0x200A) || n == 0x2028 || n == 0x2029 || n == 0x202F ||
    n == 0x205F || n == 0x3000

namespace Text

/-- Drop the blanks at the start. -/
def trimStart (s : List Char) : List Char :=
  s.dropWhile isBlank

/-- Drop the blanks at the end. -/
def trimEnd (s : List Char) : List Char :=
  (s.reverse.dropWhile isBlank).reverse

/-- Drop the blanks at both ends. -/
def trim (s : List Char) : List Char :=
  trimEnd (trimStart s)

/-- No character but blanks. -/
def allBlank (s : List Char) : Bool :=
  s.all isBlank

end Text

/-- The string without the blanks at both ends. -/
def trimBlank (s : String) : String :=
  String.ofList (Text.trim s.toList)

/-- Some character of the string is blank. -/
def hasBlank (s : String) : Bool :=
  s.toList.any isBlank

end Colloquy
