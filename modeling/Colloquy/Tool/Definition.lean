import Colloquy.Tool.KnowledgeBase
import Colloquy.Tool.Remote
import Colloquy.Tool.Workflow

/-!
# Colloquy — tools

A tool has a name, a description, parameters, and an executor that runs it. Defaults
are put underneath the arguments of every call.

* `Executor.call` — run a tool.
* `taskTool`, `workflowTools` — tools for tasks.
* `knowledgeBaseTools` — tools for databases.
* `remoteTools` — tools of a server.
-/

namespace Colloquy

/-- What runs a tool. -/
inductive Executor (σ : Type) where
  | inline (run : String → Arguments → Act σ Json)
  | workflow (w : Workflow σ)
  | knowledgeBase (kb : KnowledgeBase σ)
  | remote (client : RemoteClient σ)

structure Tool (σ : Type) where
  name : String
  description : String
  parameters : Parameters
  defaults : Fields := []
  executor : Executor σ

variable {σ : Type}

namespace Executor

def call (executor : Executor σ) (name : String) (args : Arguments) : Act σ Json :=
  match executor with
  | .inline run => run name args
  | .workflow w => callWorkflow w name args
  | .knowledgeBase kb => callKnowledgeBase kb name args
  | .remote client => do return unwrapRemote (← client.callTool name args)

/-- The name of the kind of an executor. -/
def kind : Executor σ → String
  | .inline _ => "inline"
  | .workflow _ => "workflow"
  | .knowledgeBase _ => "knowledge_base"
  | .remote _ => "remote"

end Executor

/-- The description of a tool that no vendor has shaped. -/
def Tool.schema (tool : Tool σ) : Json :=
  .object
    [("name", .str tool.name), ("description", .str tool.description),
      ("parameters", tool.parameters.schema)]

/-! ## Tools for tasks -/

/-- The tool for a task. Entries name the inputs that are offered, or give defaults. -/
def taskTool (w : Workflow σ) (task : String) (entries? : Option (List String)) :
    Act σ (Tool σ) := do
  let info ← w.taskInfo task
  let r := Restriction.ofEntries? entries?
  return { name := task, description := info.description, parameters := info.parameters r,
           defaults := r.defaults, executor := .workflow w }

/-- A tool for each exported task, or for each task if none is exported. -/
def workflowTools (w : Workflow σ) : Act σ (List (Tool σ)) := do
  let exported ← w.exportedTasks
  let tasks ← if exported.isEmpty then w.allTasks else pure exported
  Act.forEach tasks fun task => taskTool w task none

/-! ## Tools for databases -/

/-- The tool that looks up associations. -/
def lookupTool (kb : KnowledgeBase σ) (info : DatabaseInfo) : Tool σ :=
  { name := info.name, description := info.lookupDescription,
    parameters := info.lookupParameters, executor := .knowledgeBase kb }

/-- The tool that tells details of associations. -/
def detailsTool (kb : KnowledgeBase σ) (info : DatabaseInfo) : Tool σ :=
  { name := info.name ++ detailsSuffix, description := info.detailsDescription,
    parameters := info.detailsParameters, executor := .knowledgeBase kb }

/-- The tools for a database. -/
def databaseTools (kb : KnowledgeBase σ) (info : DatabaseInfo) : List (Tool σ) :=
  lookupTool kb info :: if info.fields.isEmpty then [] else [detailsTool kb info]

/-- The tools for the databases given, or for all. -/
def knowledgeBaseTools (kb : KnowledgeBase σ) (databases? : Option (List String)) :
    Act σ (List (Tool σ)) := do
  let names ←
    match databases? with
    | some names => pure names
    | none => kb.databases
  let tools ← Act.forEach names fun name => do return databaseTools kb (← kb.databaseInfo name)
  return tools.flatten

/-! ## Tools of servers -/

/-- The tools of a server, or those of them that are named. -/
def remoteTools (client : RemoteClient σ) (only : List String) : Act σ (List (Tool σ)) := do
  let listed ← client.listTools
  return (listed.filter fun tool => only.isEmpty || only.contains tool.name).map fun tool =>
    { name := tool.name, description := tool.description, parameters := tool.parameters,
      executor := .remote client }

end Colloquy
