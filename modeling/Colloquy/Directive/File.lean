import Colloquy.Directive.Resolver

/-!
# Colloquy — files in conversations

A file directive becomes a message with the content of the file, and a directory
directive one message for each text file below the directory. References of images
and documents become paths, unless they are references to the web.
-/

namespace Colloquy.Resolver

variable {σ : Type}

/-- A message with the content of a file. -/
def fileMessage (name content : String) : Message :=
  .user (tagged "file" content (some name))

/-- The messages for the files that hold text. -/
def textFiles (found : List (String × ByteArray)) : List Message :=
  found.filterMap fun (path, contents) =>
    (String.fromUTF8? contents).map fun text => fileMessage path text

/-- What a message becomes once the files that it names are read. -/
def fileDirective (r : Resolver σ) (origin? : Option String) (m : Message) :
    Except Error (List Message) :=
  let reference := m.trimmedText
  match m.role with
  | .file =>
    match r.find? reference origin? with
    | some path => do return [fileMessage reference (← r.files.readText path)]
    | none => .error (.notFound "File" reference)
  | .directory =>
    match r.find? reference origin? with
    | some path => .ok (textFiles (r.files.filesBelow path))
    | none => .error (.notFound "Directory" reference)
  | .pdf | .image =>
    if isRemote reference then .ok [.ofText m.role reference]
    else
      match r.find? reference origin? with
      | some path => .ok [.ofText m.role path]
      | none => .error (.notFound "File" reference)
  | _ => .ok [m]

/-- Put the contents of files in the places of their directives. -/
def fileContents (r : Resolver σ) (origin? : Option String) (messages : List Message) :
    Act σ (List Message) :=
  eachMessage (fun m => Act.ofExcept (r.fileDirective origin? m)) messages

end Colloquy.Resolver
