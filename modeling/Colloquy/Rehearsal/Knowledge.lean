import Colloquy.Rehearsal.Stage

/-!
# Colloquy — scripted knowledge bases

A scripted knowledge base lists its databases with their associations. Databases that
are registered during a rehearsal have none; they are found before listed ones.
-/

namespace Colloquy

structure ScriptedKnowledgeBase where
  /-- The name under which it is loaded; that of the session has none. -/
  name? : Option String := none
  listed : List ScriptedDatabase := []
  /-- Registering fails. -/
  registerError? : Option Error := none
  deriving DecidableEq, Repr

namespace ScriptedKnowledgeBase

/-- The databases that were registered, the latest first. -/
def registered (kb : ScriptedKnowledgeBase) (stage : Stage) : List ScriptedDatabase :=
  (stage.databases.filter fun entry => entry.1 == kb.name?).map Prod.snd

/-- The database of a name. -/
def database (kb : ScriptedKnowledgeBase) (name : String) : Act Stage ScriptedDatabase := do
  let stage ← Act.outer
  Act.ofOption (.notFound "Database" name)
    ((kb.registered stage ++ kb.listed).find? fun db => db.info.name == name)

/-- The text of an association. -/
def edgeText (edge : String × String) : String :=
  edge.1 ++ "~" ++ edge.2

/-- The associations whose chosen end is one of the entities, entity by entity. -/
def edgesAt (chosen : String × String → String) (edges : List (String × String))
    (entities : List String) : List String :=
  entities.flatMap fun entity =>
    (edges.filter fun edge => chosen edge == entity).map edgeText

/-- Look up associations. -/
def lookup (kb : ScriptedKnowledgeBase) (what : String) (chosen : String × String → String)
    (name : String) (entities : List String) : Act Stage (List String) := do
  Stage.record [.str what, .str name, .strings entities]
  let db ← kb.database name
  return edgesAt chosen db.edges entities

/-- Tell details of associations. -/
def details (kb : ScriptedKnowledgeBase) (name : String) (associations : List String)
    (fields? : Option (List String)) : Act Stage Fields := do
  Stage.record
    [.str "details", .str name, .strings associations, fields?.elim .null .strings]
  let db ← kb.database name
  return db.details.filter fun entry => associations.contains entry.1

/-- The database that options describe. -/
def newDatabase (name : String) (options : Fields) : ScriptedDatabase :=
  let text? (key : String) : Option String := (options.get? key).bind Json.asStr?
  { info :=
      { name := name
        description? := text? "description"
        undirected := text? "undirected" == some "true"
        fields := (text? "fields").elim [] fun list => splitAll list ',' } }

/-- Register a database. -/
def register (kb : ScriptedKnowledgeBase) (name path : String) (options : Fields) :
    Act Stage Unit := do
  Stage.record [.str "register", .str name, .str path, .obj options]
  Stage.failWith kb.registerError?
  Act.modifyOuter fun stage =>
    { stage with databases := (kb.name?, newDatabase name options) :: stage.databases }

def act (kb : ScriptedKnowledgeBase) : KnowledgeBase Stage where
  databases := pure (kb.listed.map fun db => db.info.name)
  databaseInfo := fun name => do return (← kb.database name).info
  children := kb.lookup "children" Prod.fst
  parents := kb.lookup "parents" Prod.snd
  associationDetails := kb.details
  register := kb.register

end ScriptedKnowledgeBase

structure ScriptedStore where
  knowledgeBases : List (String × ScriptedKnowledgeBase) := []
  session? : Option ScriptedKnowledgeBase := none
  deriving DecidableEq, Repr

namespace ScriptedStore

def act (store : ScriptedStore) : KnowledgeBaseStore Stage where
  load := fun name => do
    Stage.record [.str "load_kb", .str name]
    let kb ←
      Act.ofOption (.notFound "Knowledge base" name) (List.lookup name store.knowledgeBases)
    return kb.act
  session := do
    Stage.record [.str "session"]
    let kb ← Act.ofOption (.collaborator "no session knowledge base") store.session?
    return kb.act

end ScriptedStore

end Colloquy
