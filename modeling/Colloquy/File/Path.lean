import Colloquy.Text.Cut

/-!
# Colloquy — the texts of paths

A path is a text of components with slashes between them; one that starts with a
slash is absolute. Empty components and single dots after the first component name
nothing. `Path.join` and `Path.parent?` keep the spelling of what they keep.
-/

namespace Colloquy.Path

def isAbsolute (path : String) : Bool :=
  path.toList.head? == some '/'

/-- `path` seen from the directory `dir`. -/
def join (dir path : String) : String :=
  if isAbsolute path then path
  else if dir.isEmpty || dir.toList.getLast? == some '/' then dir ++ path
  else dir ++ "/" ++ path

/-- Components that name nothing. -/
def isIdle (component : String) : Bool :=
  component == "" || component == "."

/-- The components without those at the end that name nothing. -/
def dropIdle (components : List String) : List String :=
  (components.reverse.dropWhile isIdle).reverse

/-- The path whose only component is a hyphen. -/
def isStandardInput (path : String) : Bool :=
  match splitAll path '/' with
  | [] => false
  | first :: rest => first == "-" && rest.all isIdle

/-- The path without its last component; the root and the empty path have none. -/
def parent? (path : String) : Option String :=
  match splitAll path '/' with
  | [] => none
  | first :: rest =>
    match dropIdle rest with
    | [] => if first.isEmpty then none else some ""
    | named =>
      match first, dropIdle named.dropLast with
      | "", [] => some "/"
      | _, kept => some (joinWith "/" (first :: kept))

/-- The name of the last component. -/
def fileName? (path : String) : Option String :=
  match (splitAll path '/').filter fun component => !isIdle component with
  | [] => none
  | names =>
    match names.getLast? with
    | some ".." => none
    | name => name

/-- What stands after the last dot of a name, if anything stands before it. -/
def extension? (name : String) : Option String :=
  match splitAll name '.' with
  | [] | [_] | ["", _] => none
  | parts => parts.getLast?

end Colloquy.Path
