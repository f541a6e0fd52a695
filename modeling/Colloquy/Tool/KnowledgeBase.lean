import Colloquy.Act
import Colloquy.Tool.Arguments
import Colloquy.Tool.Parameters

/-!
# Colloquy — knowledge bases

A knowledge base holds associations between entities, grouped into databases. For
each database there is a tool that looks up associations, and a tool that tells
details of them if the database has any. The tools are told apart by a suffix of
their names.

* `KnowledgeBase`, `KnowledgeBaseStore` — what a collaborator offers.
* `DatabaseInfo.lookupDescription`, `DatabaseInfo.detailsDescription` — how the tools
  are described.
* `callKnowledgeBase` — answer a call of either tool.
-/

namespace Colloquy

structure DatabaseInfo where
  name : String
  description? : Option String := none
  undirected : Bool := false
  /-- The fields of the details of an association. -/
  fields : List String := []
  deriving DecidableEq, Repr, Inhabited

structure KnowledgeBase (σ : Type) where
  databases : Act σ (List String)
  databaseInfo : String → Act σ DatabaseInfo
  /-- The associations that leave entities of a database. -/
  children : String → List String → Act σ (List String)
  /-- The associations that arrive at entities of a database. -/
  parents : String → List String → Act σ (List String)
  /-- Details of associations of a database, of some fields if they are given. -/
  associationDetails : String → List String → Option (List String) → Act σ Fields
  /-- Add a database by its name, the path of its file and options. -/
  register : String → String → Fields → Act σ Unit

structure KnowledgeBaseStore (σ : Type) where
  load : String → Act σ (KnowledgeBase σ)
  /-- The knowledge base of this run. -/
  session : Act σ (KnowledgeBase σ)

/-- The end of the names of tools that tell details. -/
def detailsSuffix : String := "_association_details"

namespace DatabaseInfo

/-- How the look-up tool is described. -/
def lookupDescription (info : DatabaseInfo) : String :=
  let about := (info.description?.map trimBlank).getD ""
  let lead := "Find associations for a list of entities in database " ++ info.name
  (if about.isEmpty then lead ++ ".\n" else lead ++ ": " ++ about ++ "\n") ++
    if info.undirected then "Returns a list in the format entity~partner.\n"
    else "Returns a list in the format source~target.\n"

/-- The parameters of the look-up tool. -/
def lookupParameters (info : DatabaseInfo) : Parameters :=
  if info.undirected then
    (({} : ParameterBuilder).stringArray "entities" "Entities for which to find associations"
      true).build
  else
    ((({} : ParameterBuilder).stringArray "entities"
      "Source entities in the association, or target entities if \x27reverse\x27 is \x27true\x27"
      true).boolean "reverse"
      "Look for targets instead of sources, defaults to \x27false\x27" false).build

def associationHelp (info : DatabaseInfo) : String :=
  if info.undirected then "Associations in the form of source~target or target~source"
  else "Associations in the form of source~target"

/-- The schema of a choice among the fields. -/
def fieldChoice (info : DatabaseInfo) : Json :=
  .object
    [("type", .str "array"),
      ("items", .object [("type", .str "string"), ("enum", .strings info.fields)]),
      ("description", .str "Limit the response to these detail fields")]

/-- The parameters of the details tool. -/
def detailsParameters (info : DatabaseInfo) : Parameters :=
  let b := ({} : ParameterBuilder).stringArray "associations" info.associationHelp true
  (if 1 < info.fields.length then b.property "fields" info.fieldChoice false else b).build

def severalValues : String :=
  "Multiple values may be present and use the character \x27;\x27 to separate them.\n"

/-- How the details tool is described. -/
def detailsDescription (info : DatabaseInfo) : String :=
  if 1 < info.fields.length then
    "Return details of association as a dictionary object.\n" ++
      "Each key is an association and the value is an array with the values of the " ++
      "different fields you asked for, or for all fields otherwise.\n" ++
      "The fields are: " ++ joinWith ", " info.fields ++ ".\n" ++ severalValues
  else
    "Return the " ++ info.fields.head?.getD "details" ++ " of association.\n" ++ severalValues

end DatabaseInfo

variable {σ : Type}

/-- Answer a call of a tool by its name. -/
def callKnowledgeBase (kb : KnowledgeBase σ) (name : String) (args : Arguments) : Act σ Json :=
  match dropEnd? name detailsSuffix with
  | some database => do
    let associations ← Act.ofExcept (args.getList "associations")
    let details ← kb.associationDetails database associations (args.getList "fields").toOption
    return .obj details
  | none => do
    let entities ← Act.ofExcept (args.getList "entities")
    let edges ←
      if (args.getBool? "reverse").getD false then kb.parents name entities
      else kb.children name entities
    return .strings edges

end Colloquy
