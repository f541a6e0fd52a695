import Colloquy.Json.Printer

/-!
# Colloquy — errors

An operation that cannot do its work says why by an `Error`. Its wording is one
function, `Error.message`; an error that came from elsewhere has a `Cause`, which may
have causes of its own, and `Error.causes` lists them all. `Error.category` groups errors
for recovery, and the categories that may pass by themselves are the ones worth another
attempt. A `Failure` is an error that is reported, or a fault that no caller asked about:
a length of time beyond what can be counted, or a variable of a name that none can have.
-/

namespace Colloquy

/-- An error from elsewhere: its text, and the texts of the causes beneath it, the nearest first. -/
structure Cause where
  text : String
  beneath : List String := []
  deriving DecidableEq, Repr

/-- A text is a cause with nothing beneath it. -/
instance : Coe String Cause where
  coe text := { text }

inductive Error where
  /-- A reference that leads nowhere, or back to itself. -/
  | importResolution (reference reason : String)
  /-- A vendor reply that does not keep to its protocol. -/
  | vendorProtocol (backend message : String) (payload : Option Json)
  /-- A call of a tool that nobody runs. -/
  | unknownTool (name : String)
  | toolExecution (tool message : String)
  | invalidArgument (message : String)
  | configuration (message : String)
  /-- A directive whose content cannot be read. -/
  | directive (role message : String)
  | turnLimitExceeded (turns : Nat)
  /-- A reply with a status that is no success. -/
  | api (status : Nat) (message : String)
  | authentication (message : String)
  | rateLimited (retryAfterMs : Option Nat)
  | timeout (ms : Nat)
  | network (cause : Cause)
  | io (cause : Cause)
  | serialization (cause : Cause)
  | collaborator (message : String)
  deriving DecidableEq, Repr

/-- Groups of errors that call for one kind of recovery. -/
inductive ErrorCategory where
  | resolution
  | protocol
  | authentication
  | rateLimit
  | network
  | timeout
  | server
  | api
  | configuration
  | serialization
  | toolExecution
  | unknown
  deriving DecidableEq, Repr

/-- What a caller may do about an error. -/
inductive Recovery where
  | retryWithBackoff
  | checkCredentials
  | checkConfiguration
  | checkReferences
  | increaseTimeout
  | checkToolCatalogue
  | reportProblem
  deriving DecidableEq, Repr

namespace Error

/-- Something of the given kind that a reference does not lead to. -/
def notFound (kind reference : String) : Error :=
  .importResolution reference (kind ++ " not found")

/-- A chat that imports itself, directly or through others. -/
def importCycle (reference : String) : Error :=
  .importResolution reference "Import cycle"

/-- The text of an optional wait. -/
def waitText : Option Nat → String
  | some ms => "Some(" ++ toString ms ++ ")"
  | none => "None"

/-- The wording of an error. -/
def message : Error → String
  | .importResolution reference reason => reason ++ ": " ++ reference
  | .vendorProtocol backend message _ => "Vendor protocol error (" ++ backend ++ "): " ++ message
  | .unknownTool name => "unknown executor for \x60" ++ name ++ "\x60"
  | .toolExecution tool message => "Tool execution error: " ++ tool ++ ": " ++ message
  | .invalidArgument message => "Invalid argument: " ++ message
  | .configuration message => "Configuration error: " ++ message
  | .directive role message => "Invalid \x60" ++ role ++ "\x60 directive: " ++ message
  | .turnLimitExceeded turns =>
    "Conversation exceeded " ++ toString turns ++ " backend turns without a final answer"
  | .api status message => "API error (status " ++ toString status ++ "): " ++ message
  | .authentication message => "Authentication error: " ++ message
  | .rateLimited wait => "Rate limited: retry after " ++ waitText wait ++ "ms"
  | .timeout ms => "Timeout after " ++ toString ms ++ "ms"
  | .network cause => "Network error: " ++ cause.text
  | .io cause => "IO error: " ++ cause.text
  | .serialization cause => "Serialization error: " ++ cause.text
  | .collaborator message => "Collaborator error: " ++ message

/-- The causes beneath an error, the nearest first. -/
def causes : Error → List String
  | .network cause | .io cause | .serialization cause => cause.text :: cause.beneath
  | _ => []

/-- The group of a status that is no success. -/
def statusCategory (status : Nat) : ErrorCategory :=
  if status = 401 ∨ status = 403 then .authentication
  else if status = 429 then .rateLimit
  else if 500 ≤ status ∧ status ≤ 599 then .server
  else .api

def category : Error → ErrorCategory
  | .importResolution .. => .resolution
  | .directive .. => .resolution
  | .vendorProtocol .. => .protocol
  | .unknownTool _ => .toolExecution
  | .toolExecution .. => .toolExecution
  | .invalidArgument _ => .toolExecution
  | .authentication _ => .authentication
  | .rateLimited _ => .rateLimit
  | .network _ => .network
  | .timeout _ => .timeout
  | .configuration _ => .configuration
  | .serialization _ => .serialization
  | .api status _ => statusCategory status
  | .turnLimitExceeded _ => .unknown
  | .io _ => .unknown
  | .collaborator _ => .unknown

/-- The error may pass by itself, so that another attempt is worthwhile. -/
def isRetryable (e : Error) : Bool :=
  match e.category with
  | .rateLimit | .network | .timeout | .server => true
  | _ => false

def recovery (e : Error) : Recovery :=
  match e.category with
  | .authentication => .checkCredentials
  | .rateLimit | .network | .server => .retryWithBackoff
  | .timeout => .increaseTimeout
  | .configuration => .checkConfiguration
  | .resolution => .checkReferences
  | .toolExecution => .checkToolCatalogue
  | _ => .reportProblem

end Error

/-- Why an operation ended without a result: an error that it reports, or a fault that ends the
work. -/
inductive Failure where
  | error (e : Error)
  | fault
  deriving DecidableEq, Repr

end Colloquy
