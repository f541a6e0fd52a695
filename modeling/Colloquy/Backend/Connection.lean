import Colloquy.Backend.Basic
import Colloquy.Settings

/-!
# Colloquy — connecting

Address, key, model and longest wait of a client are taken from the options of the
run, then from settings, then from the profile of the backend. Keys and models can be
set for the server of an address.

* `Backend.buildClient` — the client of a backend.
-/

namespace Colloquy

/-- Options and settings among which a client's values are looked up. -/
structure ClientSources where
  options : RunOptions
  settings : Settings
  environment : Environment

namespace ClientSources

/-- The scopes of a backend's settings. -/
def scopes (sources : ClientSources) (profile : BackendProfile) : List String :=
  profile.scopes sources.options.endpoint?

def url? (sources : ClientSources) (profile : BackendProfile) : Option String :=
  match sources.options.getStr? "url" with
  | some url => some url
  | none =>
    sources.settings.get sources.environment "url" (sources.scopes profile)
      [profile.variableName "URL"] profile.defaultUrl?

def key? (sources : ClientSources) (profile : BackendProfile) (url : String) : Option String :=
  match sources.options.getStr? "key" with
  | some key => some key
  | none =>
    sources.settings.getForUrl sources.environment "key" (some url) (sources.scopes profile)
      [profile.variableName "KEY"] none

def model? (sources : ClientSources) (profile : BackendProfile) (url : String) :
    Option String :=
  match sources.options.model? with
  | some model => some model
  | none =>
    sources.settings.getForUrl sources.environment "model" (some url) (sources.scopes profile)
      [profile.variableName "MODEL"] profile.defaultModel?

/-- The longest wait that is set; a fault if the number of seconds is no length of time. -/
def timeout? (sources : ClientSources) (profile : BackendProfile) :
    Except Failure (Option Duration) := do
  match ← sources.options.requestTimeout? with
  | some timeout => return some timeout
  | none =>
    match
      sources.settings.get sources.environment "request_timeout" (sources.scopes profile) []
        none with
    | some text => durationOfText? text
    | none => return none

end ClientSources

namespace Backend

variable {σ : Type}

/-- A value that must be set. -/
def required (backend : Backend σ) (what detail : String) : Option String → Except Failure String
  | some value => .ok value
  | none =>
    .error
      (.error
        (.configuration
          ("no " ++ what ++ " configured for \x60" ++ backend.name ++ "\x60" ++ detail)))

/-- The name of a variable in brackets. -/
def variableHint (backend : Backend σ) (setting : String) : String :=
  " (" ++ backend.profile.variableName setting ++ ")"

/-- The key, if one is set. Some backends do not go without. -/
def findKey (backend : Backend σ) (sources : ClientSources) (url : String) :
    Except Failure (Option String) :=
  match sources.key? backend.profile url with
  | some key => .ok (some key)
  | none =>
    if backend.profile.requiresKey then
      (backend.required "key" (backend.variableHint "KEY") none).map some
    else .ok none

/-- The client of a backend. -/
def buildClient (backend : Backend σ) (sources : ClientSources) : Except Failure Client := do
  let profile := backend.profile
  let url ← backend.required "url" (backend.variableHint "URL") (sources.url? profile)
  let key? ← backend.findKey sources url
  let model ← backend.required "model" "" (sources.model? profile url)
  let timeout? ← sources.timeout? profile
  return { url := url, model := model, timeout := timeout?.getD defaultTimeout,
           headers := backend.headers key? }

end Backend

end Colloquy
