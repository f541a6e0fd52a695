import Colloquy.Digest.Base64
import Colloquy.File.Reading
import Colloquy.FileSearch

/-!
# Colloquy — media

Images and documents are referred to by an address of the web, which is passed on, or
by a path, whose file is sent along in base64. The type of a file is the one that its
path tells in the tree.
-/

namespace Colloquy

inductive Media where
  | remote (url : String)
  | inline (mime data filename : String)
  deriving DecidableEq, Repr

namespace Media

/-- The type of a file that nothing is known about. -/
def unknownType : String := "application/octet-stream"

/-- What a reference stands for. -/
def load (files : FileTree) (reference : String) : Except Error Media :=
  let reference := trimBlank reference
  if Colloquy.isRemote reference then .ok (.remote reference)
  else
    match files.read reference with
    | .found contents =>
      .ok
        (.inline ((files.mimeType? reference).getD unknownType)
          (Base64.encode Base64.standard contents.toList) ((Path.fileName? reference).getD reference))
    | .missing => .error (.notFound "File" reference)
    | .barred => .error (.io "the file cannot be read")

/-- An address that holds the data itself, or the address on the web. -/
def url : Media → String
  | .remote url => url
  | .inline mime data _ => "data:" ++ mime ++ ";base64," ++ data

def isRemote : Media → Bool
  | .remote _ => true
  | .inline .. => false

end Media

end Colloquy
