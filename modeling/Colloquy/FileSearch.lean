import Colloquy.Settings

/-!
# Colloquy — finding files

A reference names a file by its path, by its path from the directory of the chat in
which it stands, by its path from one of the search roots, or by the name under which
a chat is registered; the first that leads to something is taken.
-/

namespace Colloquy

/-- Where references are searched. -/
structure FileSearch where
  roots : List String := []
  settings? : Option Settings := none
  deriving Inhabited

/-- References to the web, which are no files. -/
def isRemote (reference : String) : Bool :=
  let reference := trimBlank reference
  startsWith reference "http://" || startsWith reference "https://"

namespace FileSearch

/-- Search where settings say. -/
def ofSettings (settings : Settings) (env : Environment) : FileSearch :=
  { roots := settings.searchRoots env, settings? := some settings }

/-- The directory of the chat from which references start. -/
def originDir? (files : FileTree) (origin? : Option String) : Option String :=
  match origin? with
  | some origin => if files.isDir origin then some origin else Path.parent? origin
  | none => none

/-- The directories in which a relative path is looked for. -/
def directories (search : FileSearch) (files : FileTree) (origin? : Option String) : List String :=
  (originDir? files origin?).toList ++ search.roots

/-- The path under which a chat is registered, if it leads to something. -/
def registered? (search : FileSearch) (files : FileTree) (name : String) : Option String :=
  match search.settings? with
  | some settings => (settings.namedChat? name).filter files.hasPath
  | none => none

/-- The path that a reference stands for. -/
def find (search : FileSearch) (files : FileTree) (reference : String) (origin? : Option String) :
    Option String :=
  let reference := trimBlank reference
  if reference.isEmpty then none
  else if files.hasPath reference then some reference
  else
    let nearby :=
      if Path.isAbsolute reference then none
      else
        ((search.directories files origin?).map fun dir => Path.join dir reference).find?
          files.hasPath
    match nearby with
    | some path => some path
    | none => search.registered? files reference

end FileSearch

end Colloquy
