import Colloquy.Error
import Colloquy.File.Tree

/-!
# Colloquy — reading texts of files

A file is read as a text of UTF-8. A path that leads to no file, and bytes that are
no text, are errors of input.
-/

namespace Colloquy.FileTree

/-- The text of the file at a path. -/
def readText (files : FileTree) (path : String) : Except Error String :=
  match files.read path with
  | .found contents =>
    match String.fromUTF8? contents with
    | some text => .ok text
    | none => .error (.io "the file holds bytes that are no text")
  | .missing => .error (.io "there is no such file")
  | .barred => .error (.io "the file cannot be read")

end Colloquy.FileTree
