import Colloquy.Digest.Base64
import Colloquy.Digest.Sha256
import Colloquy.Directive.Filter
import Colloquy.File.Reading
import Colloquy.FileSearch
import Colloquy.Markup.Scan
import Colloquy.Tool.Definition
import Colloquy.ToolCall

/-!
# Colloquy — the resolver

Directives in a conversation name other chats, files, tasks and jobs. A resolver
knows where to find them: the files, the settings, and the collaborators that are
there. This module holds what its passes share.
-/

namespace Colloquy

structure Resolver (σ : Type) where
  settings : Settings := {}
  environment : Environment := []
  files : FileTree
  scanner : Markup.Scanner := {}
  workflows? : Option (WorkflowEngine σ) := none
  knowledgeBases? : Option (KnowledgeBaseStore σ) := none
  connector? : Option (RemoteConnector σ) := none

/-- A content between tags, with a name if one is given. -/
def tagged (tag content : String) (name? : Option String) : String :=
  match name? with
  | some name => "<" ++ tag ++ " name=\x22" ++ name ++ "\x22>\n" ++ content ++ "\n</" ++ tag ++ ">"
  | none => "<" ++ tag ++ ">\n" ++ content ++ "\n</" ++ tag ++ ">"

/-- The identifier of the call that stands for a job: the start of the digest of its path. -/
def jobCallId (path : String) : String :=
  let digest := Base64.encodeChars Base64.pathSafe (Sha256.digest path.toUTF8.toList)
  "job_" ++ String.ofList (digest.take 32)

namespace Resolver

variable {σ : Type}

/-- Where references are searched. -/
def search (r : Resolver σ) : FileSearch :=
  FileSearch.ofSettings r.settings r.environment

/-- The path that a reference stands for. -/
def find? (r : Resolver σ) (reference : String) (origin? : Option String) : Option String :=
  r.search.find r.files reference origin?

def engine (r : Resolver σ) : Act σ (WorkflowEngine σ) :=
  Act.ofOption (.configuration "task directives need a workflow engine") r.workflows?

def store (r : Resolver σ) : Act σ (KnowledgeBaseStore σ) :=
  Act.ofOption
    (.configuration "kb and association directives need a knowledge base store") r.knowledgeBases?

def connector (r : Resolver σ) : Act σ (RemoteConnector σ) :=
  Act.ofOption (.configuration "mcp directives need a remote tool connector") r.connector?

/-- Put what a pass makes of each message in its place, from the first message to the last. -/
def eachMessage (f : Message → Act σ (List Message)) : List Message → Act σ (List Message)
  | [] => pure []
  | m :: rest => do
    let here ← f m
    let others ← eachMessage f rest
    return here ++ others

end Resolver

end Colloquy
