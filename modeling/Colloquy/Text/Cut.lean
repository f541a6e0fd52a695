/-!
# Colloquy — cutting texts at a pattern

`cut?` splits a list of characters at the first occurrence of a pattern and is the
one search from which containment, removal of a first occurrence and splitting are
made. The functions on strings below are these on `String.toList`.
-/

namespace Colloquy

namespace Text

/-- The parts before and after the first occurrence of `pat`. -/
def cut? (pat : List Char) : List Char → Option (List Char × List Char)
  | [] => if pat.isEmpty then some ([], []) else none
  | c :: rest =>
    if pat.isPrefixOf (c :: rest) then some ([], (c :: rest).drop pat.length)
    else (cut? pat rest).map fun parts => (c :: parts.1, parts.2)

/-- Whether `pat` occurs in `s`. -/
def contains (pat s : List Char) : Bool :=
  (cut? pat s).isSome

/-- `s` without the first occurrence of `pat`. -/
def removeFirst (pat s : List Char) : List Char :=
  match cut? pat s with
  | some (before, after) => before ++ after
  | none => s

/-- `s` without `pat` at its start, if it starts so. -/
def dropStart? (pat s : List Char) : Option (List Char) :=
  if pat.isPrefixOf s then some (s.drop pat.length) else none

/-- `s` without `pat` at its end, if it ends so. -/
def dropEnd? (pat s : List Char) : Option (List Char) :=
  if pat.isSuffixOf s then some (s.take (s.length - pat.length)) else none

/-- The parts before and after the first character with property `p`. -/
def cutWhere? (p : Char → Bool) (s : List Char) : Option (List Char × List Char) :=
  match s.dropWhile fun c => !p c with
  | [] => none
  | _ :: after => some (s.takeWhile fun c => !p c, after)

end Text

/-- Whether `s` starts with `pat`. -/
def startsWith (s pat : String) : Bool :=
  pat.toList.isPrefixOf s.toList

/-- Whether `s` ends with `pat`. -/
def endsWith (s pat : String) : Bool :=
  pat.toList.isSuffixOf s.toList

/-- `s` without `pat` at its start, if it starts so. -/
def dropStart? (s pat : String) : Option String :=
  (Text.dropStart? pat.toList s.toList).map String.ofList

/-- `s` without `pat` at its end, if it ends so. -/
def dropEnd? (s pat : String) : Option String :=
  (Text.dropEnd? pat.toList s.toList).map String.ofList

/-- The parts of `s` before and after its first character `c`. -/
def splitOnce? (s : String) (c : Char) : Option (String × String) :=
  (Text.cutWhere? (· == c) s.toList).map fun parts =>
    (String.ofList parts.1, String.ofList parts.2)

/-- The parts of `s` between its characters `c`: one more than there are such characters. -/
def splitAll (s : String) (c : Char) : List String :=
  (s.toList.splitOn c).map String.ofList

/-- The parts one after another, with `sep` between neighbours. -/
def joinWith (sep : String) : List String → String
  | [] => ""
  | [s] => s
  | s :: t :: rest => s ++ sep ++ joinWith sep (t :: rest)

end Colloquy
