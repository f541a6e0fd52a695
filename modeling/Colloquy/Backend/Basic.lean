import Colloquy.Backend.Headers
import Colloquy.Backend.Kind
import Colloquy.Backend.Reply
import Colloquy.RunOptions
import Colloquy.Tool.Catalogue

/-!
# Colloquy — backends

A backend writes messages, tools and options as a request of its vendor, sends it,
and reads the reply. It is a record of operations, so that a conversation can be run
against any collaborator that offers them.
-/

namespace Colloquy

/-- The longest wait for a reply where none is set. -/
def defaultTimeout : Duration := .ofSecs 1200

/-- How one conversation reaches a backend. -/
structure Client where
  url : String
  model : String
  /-- The longest wait for a reply. -/
  timeout : Duration := defaultTimeout
  headers : Headers := []
  deriving DecidableEq, Repr

namespace Client

/-- The address of a path below the client's address, with one slash between them. -/
def endpoint (client : Client) (path : String) : String :=
  String.ofList (client.url.toList.reverse.dropWhile (· == '/')).reverse ++ "/" ++
    String.ofList (path.toList.dropWhile (· == '/'))

end Client

/-- A request: the path below the client's address, and the body. -/
structure VendorRequest where
  path : String
  body : Json
  deriving DecidableEq, Repr

structure Backend (σ : Type) where
  name : String
  profile : BackendProfile
  /-- The server keeps conversations, which go on under the handle of a response. -/
  isStateful : Bool
  /-- The headers of the bearer of a key. -/
  headers : Option String → Headers
  toolDefinitions : Catalogue σ → List Json
  formatRequest : Client → List Message → Catalogue σ → RunOptions → Act σ VendorRequest
  /-- Send a request and wait for the body of the reply. -/
  send : Client → VendorRequest → Act σ Json
  parseReply : Json → Act σ Reply

end Colloquy
