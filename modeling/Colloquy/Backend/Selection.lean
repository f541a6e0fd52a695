import Colloquy.Backend.Dialect.Anthropic
import Colloquy.Backend.Dialect.ChatCompletions
import Colloquy.Backend.Dialect.Ollama
import Colloquy.Backend.Dialect.Responses
import Colloquy.Backend.Exchange
import Colloquy.Settings

/-!
# Colloquy — choosing a backend

The backend is named by an option, by a setting or by an environment variable, and
speaks the dialect of its kind.

* `BackendKind.backend` — the backend of a kind.
* `selectBackend` — the kind that options and settings name.
-/

namespace Colloquy

namespace BackendKind

variable {σ : Type}

/-- The headers of the bearer of a key. -/
def headers : BackendKind → Option String → Headers
  | .anthropic, key? => Headers.keyed (key?.getD "") Anthropic.version
  | _, key? => Headers.bearer key?

def toolDefinitions : BackendKind → Catalogue σ → List Json
  | .openAi | .openWebUi | .vllm => ChatCompletions.toolDefinitions
  | .responses => Responses.toolDefinitions
  | .anthropic => Anthropic.toolDefinitions
  | .ollama => Ollama.toolDefinitions

/-- A request in the dialect of a kind. -/
def request : BackendKind → FileTree → Client → List Message → Catalogue σ → RunOptions →
    Draw VendorRequest
  | .openAi | .openWebUi | .vllm => ChatCompletions.request
  | .responses => Responses.request
  | .anthropic => Anthropic.request
  | .ollama => Ollama.request

/-- Read a reply in the dialect of a kind. -/
def parseReply : BackendKind → Json → Draw Reply
  | .openAi => ChatCompletions.parseReply BackendKind.openAi.name
  | .openWebUi => ChatCompletions.parseReply BackendKind.openWebUi.name
  | .vllm => ChatCompletions.parseReply BackendKind.vllm.name
  | .responses => Responses.parseReply
  | .anthropic => Anthropic.parseReply
  | .ollama => Ollama.parseReply

/-- The backend of a kind, with the files that its messages may refer to and a way to its server. -/
def backend (kind : BackendKind) (files : FileTree) (transport : Transport σ) : Backend σ where
  name := kind.name
  profile := kind.profile
  isStateful := kind.isStateful
  headers := kind.headers
  toolDefinitions := kind.toolDefinitions
  formatRequest := fun client messages catalogue options =>
    Act.ofDraw (kind.request files client messages catalogue options)
  send := exchange transport kind.name
  parseReply := fun body => Act.ofDraw (kind.parseReply body)

end BackendKind

/-- Scopes of settings about runs, whatever backend they use. -/
def runScopes (options : RunOptions) : List String :=
  options.endpoint?.toList ++ ["ask"]

/-- The kind of the backend that options or settings name; chat completions if nothing does. -/
def selectBackend (options : RunOptions) (settings : Settings) (env : Environment) :
    Except Error BackendKind :=
  let named? :=
    match options.backend? with
    | some name => some name
    | none =>
      settings.get env "backend" (runScopes options) ["ASK_BACKEND", "LLM_BACKEND"] none
  match named? with
  | none => .ok .openAi
  | some name =>
    match BackendKind.ofName? (trimBlank name) with
    | some kind => .ok kind
    | none => .error (.configuration ("unknown backend \x60" ++ name ++ "\x60"))

end Colloquy
