import Colloquy.Json.Record
import Colloquy.Rehearsal.Engine
import Colloquy.Rehearsal.Knowledge
import Colloquy.Rehearsal.Server

/-!
# Colloquy — scripts

The scripts of collaborators are written as JSON objects, with one field for each
thing that the script says.

* `Error.ofScript` — an error, by its kind.
* `Behavior.ofScript` — what an executor does.
* `ScriptedEngine.ofScript?`, `ScriptedStore.ofScript?`, `connectorOfScript?` — the
  collaborators that a script has.
* `ScriptedReply.ofScript` — a reply of the backend.
-/

namespace Colloquy

/-! ## Errors and behavior -/

/-- The error of a kind. -/
def Error.ofScript (j : Json) : Error :=
  let message := j.textAt "message"
  match j.textAt "kind" with
  | "ImportResolution" => .importResolution (j.textAt "reference") (j.textAt "reason")
  | "not_found" => .notFound (j.textAt "what") (j.textAt "reference")
  | "import_cycle" => .importCycle (j.textAt "reference")
  | "VendorProtocol" => .vendorProtocol (j.textAt "backend") message (j.valueAt? "payload")
  | "UnknownTool" => .unknownTool message
  | "ToolExecution" => .toolExecution (j.textAt "tool_name") message
  | "InvalidArgument" => .invalidArgument message
  | "Configuration" => .configuration message
  | "Directive" => .directive (j.textAt "role") message
  | "TurnLimitExceeded" => .turnLimitExceeded ((j.natAt? "turns").getD 0)
  | "Api" => .api ((j.natAt? "status").getD 0) message
  | "Authentication" => .authentication message
  | "RateLimited" => .rateLimited (j.natAt? "retry_after_ms")
  | "Timeout" => .timeout ((j.natAt? "ms").getD 0)
  | "Network" => .network message
  | "Io" => .io message
  | "Serialization" => .serialization message
  | _ => .collaborator message

/-- The error of a field, if it is there. -/
def Error.ofField? (key : String) (j : Json) : Option Error :=
  (j.valueAt? key).map Error.ofScript

/-- What an executor does; it gives its arguments if nothing else is said. -/
def Behavior.ofScript (j : Json) : Behavior :=
  match j.valueAt? "fail", j.field? "return" with
  | some e, _ => .fail (.ofScript e)
  | none, some v => .give v
  | none, none =>
    match j.textAt? "get_str", j.textAt? "get_bool", j.textAt? "get_list" with
    | some key, _, _ => .getText key
    | none, some key, _ => .getTruth key
    | none, none, some key => .getItems key
    | none, none, none => .echo

/-! ## Workflows -/

/-- What a job does. -/
def JobPlan.ofScript (j : Json) : JobPlan :=
  { behavior := .ofScript j
    isDone := (j.valueAt "done").asBool?.getD true
    errorText? := j.textAt? "error_text"
    output := j.textAt "output"
    forkError? := Error.ofField? "fork_error" j
    joinError? := Error.ofField? "join_error" j
    outputError? := Error.ofField? "output_error" j }

def TaskInput.ofScript (j : Json) : TaskInput :=
  { name := j.textAt "name"
    type := (j.textAt? "type").getD "string"
    description? := j.textAt? "description"
    required := j.flagAt "required"
    choices := j.textsAt "options" }

def ScriptedTask.ofScript (j : Json) : ScriptedTask :=
  { description := j.textAt "description"
    inputs := (j.itemsAt "inputs").map TaskInput.ofScript
    jobError? := Error.ofField? "job_error" j
    path? := j.textAt? "path"
    plan := .ofScript j }

/-- The workflow of a name. -/
def ScriptedWorkflow.ofScript (name : String) (j : Json) : ScriptedWorkflow :=
  { name := name
    exported := j.textsAt "exported"
    all := j.textsAt "all"
    execExports := j.textsAt "exec_exports"
    tasks := (j.fieldsAt "tasks").map fun (name, task) => (name, .ofScript task) }

/-- The job that is known under a path. -/
def ScriptedJob.ofScript (path : String) (j : Json) : ScriptedJob :=
  { path := (j.textAt? "path").getD path
    task := (j.textAt? "task").getD "task"
    inputs := j.fieldsAt "inputs"
    plan := .ofScript j }

/-- The workflow engine, if a script has workflows or jobs. -/
def ScriptedEngine.ofScript? (j : Json) : Option ScriptedEngine :=
  if (j.valueAt? "workflows").isSome || (j.valueAt? "jobs").isSome then
    some
      { workflows := (j.fieldsAt "workflows").map fun (name, w) => (name, .ofScript name w)
        jobs := (j.fieldsAt "jobs").map fun (path, job) => (path, .ofScript path job) }
  else none

/-! ## Knowledge bases -/

/-- A pair written as a list of two texts. -/
def pairOfScript : Json → String × String
  | .arr [a, b] => (a.toText, b.toText)
  | _ => ("", "")

def ScriptedDatabase.ofScript (j : Json) : ScriptedDatabase :=
  { info :=
      { name := j.textAt "name"
        description? := j.textAt? "description"
        undirected := j.flagAt "undirected"
        fields := j.textsAt "fields" }
    edges := (j.itemsAt "edges").map pairOfScript
    details := j.fieldsAt "details" }

/-- The knowledge base that is loaded under a name, or that of the session. -/
def ScriptedKnowledgeBase.ofScript (name? : Option String) (j : Json) : ScriptedKnowledgeBase :=
  { name? := name?
    listed := (j.itemsAt "databases").map ScriptedDatabase.ofScript
    registerError? := Error.ofField? "register_error" j }

/-- The store, if a script has knowledge bases or a session. -/
def ScriptedStore.ofScript? (j : Json) : Option ScriptedStore :=
  if (j.valueAt? "kbs").isSome || (j.valueAt? "session").isSome then
    some
      { knowledgeBases := (j.fieldsAt "kbs").map fun (name, kb) => (name, .ofScript (some name) kb)
        session? := (j.valueAt? "session").map (.ofScript none) }
  else none

/-! ## Tool servers -/

def RemoteTool.ofScript (j : Json) : RemoteTool :=
  { name := j.textAt "name"
    description := j.textAt "description"
    parameters := .ofSchema (j.valueAt "parameters") }

def ScriptedServer.ofScript (j : Json) : ScriptedServer :=
  { tools := (j.itemsAt "tools").map RemoteTool.ofScript
    listError? := Error.ofField? "list_error" j
    results := (j.fieldsAt "results").map fun (name, b) => (name, .ofScript b) }

/-- The connector, if a script has servers. -/
def connectorOfScript? (j : Json) : Option (RemoteConnector Stage) :=
  (j.valueAt? "remotes").map fun servers =>
    scriptedConnector
      ((servers.asObj?.getD []).map fun (target, server) => (target, .ofScript server))

/-! ## Messages, calls and replies -/

/-- A message; one with structured content may be a string too. -/
def Message.ofScript (j : Json) : Message :=
  let role := Role.ofTag (j.textAt "role")
  match j.field? "structured", j.valueAt "content" with
  | some v, _ => ⟨role, .structured v⟩
  | none, .str s => ⟨role, .text s⟩
  | none, v => ⟨role, .structured v⟩

def ToolCall.ofScript (j : Json) : ToolCall :=
  ⟨j.textAt "id", j.textAt "name", j.valueAt "arguments"⟩

def ReplyItem.ofScript (j : Json) : ReplyItem :=
  match j.valueAt? "call" with
  | some made => .call (.ofScript made)
  | none => .message (.ofScript j)

def ScriptedReply.ofScript (j : Json) : ScriptedReply :=
  match Error.ofField? "execute_error" j, Error.ofField? "parse_error" j with
  | some e, _ => .sendError e
  | none, some e => .parseError e
  | none, none =>
    .reply { items := (j.itemsAt "items").map ReplyItem.ofScript, handle? := j.textAt? "handle" }

/-! ## Tools -/

/-- A tool whose executor is scripted. -/
def toolOfScript (j : Json) : Tool Stage :=
  Stage.tool (j.textAt "name") (j.textAt "description") (.ofSchema (j.valueAt "parameters"))
    (j.fieldsAt "defaults") (.ofScript (j.valueAt "behavior"))

/-- The catalogue of the tools of a script. -/
def catalogueOfScript (j : Json) : Catalogue Stage :=
  .ofList ((j.itemsAt "tools").map toolOfScript)

/-- The dispatcher with the fallback of a script. -/
def dispatcherOfScript (j : Json) : Dispatcher Stage :=
  Stage.dispatcher ((j.valueAt? "fallback").map Behavior.ofScript)

end Colloquy
