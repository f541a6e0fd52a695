import Colloquy.Act
import Colloquy.Text.Words
import Colloquy.Tool.Arguments
import Colloquy.Tool.Parameters

/-!
# Colloquy — workflows

A workflow engine runs tasks. A task has declared inputs, and running it is a job,
which may be executed in place, run through the engine, or started and waited for.
The engine is a collaborator: its operations are acts.

* `Job`, `Workflow`, `WorkflowEngine` — what a collaborator offers.
* `schemaType` — the type in a schema of an input's type.
* `TaskInfo.parameters` — the parameters of a task offered as a tool.
* `TaskLine.parse` — the line that names a task with its inputs.
-/

namespace Colloquy

structure TaskInput where
  name : String
  /-- The engine's name of the type. -/
  type : String
  description? : Option String := none
  required : Bool := false
  /-- The values to choose from, if there are any. -/
  choices : List String := []
  deriving DecidableEq, Repr, Inhabited

structure TaskInfo where
  name : String
  description : String
  inputs : List TaskInput
  deriving DecidableEq, Repr, Inhabited

/-- A piece of work made by a workflow. Its path names it and is where its result is kept. -/
structure Job (σ : Type) where
  path : String
  taskName : String
  /-- The inputs that it was made with. -/
  inputs : Json
  isDone : Act σ Bool
  errorText? : Act σ (Option String)
  /-- Execute in place. -/
  exec : Act σ Json
  /-- Run through the engine. -/
  run : Act σ Json
  /-- Start without waiting. -/
  fork : Act σ Unit
  /-- Wait until it is done or failed. -/
  join : Act σ Unit
  /-- The result as a text. -/
  output : Act σ String

structure Workflow (σ : Type) where
  name : String
  taskInfo : String → Act σ TaskInfo
  exportedTasks : Act σ (List String)
  allTasks : Act σ (List String)
  /-- Tasks that are executed in place. -/
  execExports : Act σ (List String)
  /-- Make a job of a task, with a name if one is given. -/
  job : String → Option String → Fields → Act σ (Job σ)

structure WorkflowEngine (σ : Type) where
  workflow : String → Act σ (Workflow σ)
  loadJob : String → Act σ (Job σ)
  /-- Start the jobs of directives. -/
  produce : List (Job σ) → Act σ Unit

/-- Start jobs one after another. -/
def forkAll {σ : Type} : List (Job σ) → Act σ Unit
  | [] => pure ()
  | job :: rest => do
    job.fork
    forkAll rest

/-! ## Tasks as tools -/

/-- The type in a schema of an engine's type. -/
def schemaType (type : String) : String :=
  if endsWith type "_array" then "array"
  else if type == "float" || type == "number" then "number"
  else if type == "integer" then "integer"
  else if type == "boolean" then "boolean"
  else if type == "array" then "array"
  else if type == "hash" || type == "object" then "object"
  else "string"

namespace TaskInput

/-- The schema of an input. -/
def schema (input : TaskInput) : Json :=
  let type := schemaType input.type
  .object
    (("type", .str type) ::
      ((input.description?.toList.map fun text => ("description", .str text)) ++
        (if type == "array" then [("items", .object [("type", .str "string")])] else []) ++
        (if input.choices.isEmpty then [] else [("enum", .strings input.choices)])))

end TaskInput

/-- Which inputs of a task are offered: all, or those named, with defaults for others. -/
structure Restriction where
  names? : Option (List String) := none
  defaults : Fields := []
  deriving DecidableEq, Repr, Inhabited

namespace Restriction

/-- A name to offer, or a name with an equals sign and its default. -/
def add (r : Restriction) (entry : String) : Restriction :=
  match splitOnce? entry '=' with
  | some (name, value) => { r with defaults := r.defaults.insert name (.str value) }
  | none => { r with names? := some (r.names?.getD [] ++ [entry]) }

/-- The restriction that a list of entries writes; without a list there is none. -/
def ofEntries? : Option (List String) → Restriction
  | none => {}
  | some entries => entries.foldl add { names? := some [] }

/-- The input is offered. -/
def offers (r : Restriction) (input : TaskInput) : Bool :=
  match r.names? with
  | some names => names.contains input.name
  | none => true

end Restriction

namespace TaskInfo

/-- The inputs that are offered. -/
def offered (info : TaskInfo) (r : Restriction) : List TaskInput :=
  info.inputs.filter r.offers

/-- The parameters of a task under a restriction. -/
def parameters (info : TaskInfo) (r : Restriction) : Parameters :=
  .ofSchema
    (.object
      [("type", .str "object"),
        ("properties",
          .object ((info.offered r).map fun input => (input.name, input.schema))),
        ("required",
          .strings (((info.offered r).filter TaskInput.required).map TaskInput.name))])

end TaskInfo

/-- The name of a job, taken out of the arguments; a value that is no string names nothing. -/
def takeJobName (values : Fields) : Option String × Fields :=
  ((values.get? "jobname").bind Json.asStr?, values.erase "jobname")

variable {σ : Type}

/-- Run a task with the arguments of a call. -/
def callWorkflow (workflow : Workflow σ) (task : String) (args : Arguments) : Act σ Json := do
  let (name?, inputs) := takeJobName args.values
  let job ← workflow.job task name? inputs
  if (← workflow.execExports).contains task then job.exec else job.run

/-! ## Task lines -/

/-- A workflow, a task and its inputs, as a line names them. -/
structure TaskLine where
  workflow : String
  task : String
  inputs : Fields
  deriving DecidableEq, Repr, Inhabited

namespace TaskLine

/-- The fields that words with an equals sign write; other words say nothing. -/
def fieldsOfWords (ws : List String) : Fields :=
  .ofList
    (ws.filterMap fun word => (splitOnce? word '=').map fun (key, value) => (key, .str value))

/-- Read a line: a workflow, a task and words with an equals sign. -/
def parse (line : String) : Except Error TaskLine :=
  match words line with
  | workflow :: task :: rest => .ok ⟨workflow, task, fieldsOfWords rest⟩
  | _ => .error (.directive "task" ("expected \x60<workflow> <task>\x60: " ++ line))

end TaskLine

end Colloquy
