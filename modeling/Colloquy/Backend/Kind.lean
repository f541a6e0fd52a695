import Colloquy.Text.Cut

/-!
# Colloquy — kinds of backends

Six kinds of backends are known, by names whose case does not matter. Each has a
profile: under which scopes and variables its settings are looked up, and what holds
where nothing is set.

* `BackendKind.ofName?` — the kind of a name.
* `BackendProfile.scopes` — the scopes of a backend's settings.
-/

namespace Colloquy

inductive BackendKind where
  /-- Chat completions. -/
  | openAi
  /-- Responses that the server remembers. -/
  | responses
  | anthropic
  | ollama
  /-- Chat completions served by Open WebUI. -/
  | openWebUi
  /-- Chat completions served by vLLM. -/
  | vllm
  deriving DecidableEq, Repr

/-- Where a backend looks for its settings, and what holds without them. -/
structure BackendProfile where
  /-- The scope of the settings, and in upper case the start of the names of variables. -/
  tag : String
  defaultUrl? : Option String
  defaultModel? : Option String
  requiresKey : Bool
  deriving DecidableEq, Repr

namespace BackendKind

def all : List BackendKind :=
  [.openAi, .responses, .anthropic, .ollama, .openWebUi, .vllm]

def name : BackendKind → String
  | .openAi => "openai"
  | .responses => "responses"
  | .anthropic => "anthropic"
  | .ollama => "ollama"
  | .openWebUi => "openwebui"
  | .vllm => "vllm"

/-- The kind of a name, in any case of ASCII letters. -/
def ofName? (name : String) : Option BackendKind :=
  all.find? fun kind => kind.name.toList == name.toList.map Char.toLower

/-- The server keeps conversations, which go on under the handle of a response. -/
def isStateful : BackendKind → Bool
  | .responses => true
  | _ => false

def profile : BackendKind → BackendProfile
  | .openAi => ⟨"openai", some "https://api.openai.com/v1", some "gpt-4.1", true⟩
  | .responses => ⟨"openai", some "https://api.openai.com/v1", some "gpt-5-nano", true⟩
  | .anthropic =>
    ⟨"anthropic", some "https://api.anthropic.com/v1", some "claude-sonnet-4-20250514", true⟩
  | .ollama => ⟨"ollama", some "http://localhost:11434", some "mistral", false⟩
  | .openWebUi => ⟨"openwebui", some "http://localhost:3000/api", none, true⟩
  | .vllm => ⟨"vllm", none, some "vllm", false⟩

end BackendKind

namespace BackendProfile

/-- The scopes of settings, the closest first: the endpoint, if one is chosen, asking this backend,
asking any, and the backend itself. -/
def scopes (profile : BackendProfile) (endpoint? : Option String) : List String :=
  endpoint?.toList ++ [profile.tag ++ "_ask", "ask", profile.tag]

/-- The environment variable for a setting of the backend. -/
def variableName (profile : BackendProfile) (setting : String) : String :=
  String.ofList (profile.tag.toList.map Char.toUpper) ++ "_" ++ setting

end BackendProfile

end Colloquy
