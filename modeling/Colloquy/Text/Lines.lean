/-!
# Colloquy — lines of a text

A line feed ends a line, and so does a carriage return directly before it; a
carriage return elsewhere is content. A text that ends in a line feed has no empty
last line.
-/

namespace Colloquy.Text

/-- A line without the carriage return at its end. -/
def dropReturn (line : List Char) : List Char :=
  if ['\r'].isSuffixOf line then line.dropLast else line

/-- The lines made of the pieces between line feeds: the last piece is no ended line. -/
def linesOfPieces : List (List Char) → List (List Char)
  | [] => []
  | [last] => if last.isEmpty then [] else [last]
  | piece :: next :: rest => dropReturn piece :: linesOfPieces (next :: rest)

/-- The lines of `s`, without their ends. -/
def lines (s : List Char) : List (List Char) :=
  linesOfPieces (s.splitOn '\n')

end Colloquy.Text
