import Colloquy.Act
import Colloquy.Tool.Arguments
import Colloquy.Tool.Parameters

/-!
# Colloquy — tool servers

Tools may be offered by a server that is connected to at run time. Servers wrap their
results in an envelope, which `unwrapRemote` takes off.
-/

namespace Colloquy

/-- A tool that a server offers. -/
structure RemoteTool where
  name : String
  description : String
  parameters : Parameters
  deriving DecidableEq, Repr, Inhabited

structure RemoteClient (σ : Type) where
  listTools : Act σ (List RemoteTool)
  callTool : String → Arguments → Act σ Json

/-- Where a server is. -/
inductive RemoteEndpoint where
  | http (url : String) (token? : Option String)
  | stdio (command : String)
  deriving DecidableEq, Repr

structure RemoteConnector (σ : Type) where
  connect : RemoteEndpoint → Act σ (RemoteClient σ)

/-- The field of an object that has it. -/
def takeField (key : String) (v : Json) : Json :=
  (v.field? key).getD v

/-- The only item of a list of one. -/
def takeOnly : Json → Json
  | .arr [v] => v
  | v => v

/-- Take off the envelope of a result: its content, the only item of a list, and the content or the
text of that. -/
def unwrapRemote (v : Json) : Json :=
  takeField "text" (takeField "content" (takeOnly (takeField "content" v)))

end Colloquy
