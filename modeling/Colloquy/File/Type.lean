import Colloquy.File.Path

/-!
# Colloquy — types of files

The type of a file is told by what stands after the last dot of its name. Which endings
tell which types is for a tree of files to say; a tree that does not say it goes by the
common ones.
-/

namespace Colloquy.Path

/-- A character with its case folded, where the folding is made of ASCII letters: besides capitals, the
long s, the sign of the kelvin, the sharp s and the ligatures. -/
def foldCase (c : Char) : List Char :=
  match c with
  | 'ſ' => ['s']
  | '\u212A' => ['k']
  | 'ß' | 'ẞ' => ['s', 's']
  | 'ﬀ' => ['f', 'f']
  | 'ﬁ' => ['f', 'i']
  | 'ﬂ' => ['f', 'l']
  | 'ﬃ' => ['f', 'f', 'i']
  | 'ﬄ' => ['f', 'f', 'l']
  | 'ﬅ' | 'ﬆ' => ['s', 't']
  | _ => [c.toLower]

/-- Common types, by the endings that tell them, with their case folded. -/
def commonTypes : List (String × String) :=
  [("png", "image/png"), ("jpg", "image/jpeg"), ("jpeg", "image/jpeg"), ("gif", "image/gif"),
   ("webp", "image/webp"), ("bmp", "image/bmp"), ("svg", "image/svg+xml"),
   ("pdf", "application/pdf"), ("json", "application/json"), ("gz", "application/gzip"),
   ("txt", "text/plain"), ("html", "text/html"), ("md", "text/markdown")]

/-- The common type that a path tells. -/
def commonType? (path : String) : Option String :=
  ((fileName? path).bind extension?).bind fun ending =>
    List.lookup (String.ofList (ending.toList.flatMap foldCase)) commonTypes

end Colloquy.Path
