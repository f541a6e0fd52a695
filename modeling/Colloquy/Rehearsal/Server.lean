import Colloquy.Rehearsal.Stage

/-!
# Colloquy — scripted tool servers

A scripted connector knows servers by their addresses or commands. A server lists its
tools and has a script for each tool that can be called.
-/

namespace Colloquy

structure ScriptedServer where
  tools : List RemoteTool := []
  /-- Listing the tools fails. -/
  listError? : Option Error := none
  results : List (String × Behavior) := []
  deriving DecidableEq, Repr

namespace ScriptedServer

/-- Call a tool. -/
def call (server : ScriptedServer) (name : String) (args : Arguments) : Act Stage Json := do
  Stage.record [.str "call_tool", .str name, args.toJson]
  match List.lookup name server.results with
  | some behavior => Act.ofExcept (behavior.run args)
  | none => Act.fail (.collaborator ("no such remote tool: " ++ name))

def act (server : ScriptedServer) : RemoteClient Stage where
  listTools := do
    Stage.record [.str "list_tools"]
    Stage.failWith server.listError?
    return server.tools
  callTool := server.call

end ScriptedServer

/-- Where a server is, as it is recorded. -/
def RemoteEndpoint.entry : RemoteEndpoint → List Json
  | .http url token? => [.str "http", .str url, .ofOption token?]
  | .stdio command => [.str "stdio", .str command]

/-- The address or the command of a server. -/
def RemoteEndpoint.target : RemoteEndpoint → String
  | .http url _ => url
  | .stdio command => command

/-- A connector to scripted servers. -/
def scriptedConnector (servers : List (String × ScriptedServer)) : RemoteConnector Stage where
  connect := fun endpoint => do
    Stage.record (.str "connect" :: endpoint.entry)
    match List.lookup endpoint.target servers with
    | some server => return server.act
    | none => Act.fail (.collaborator ("cannot connect to " ++ endpoint.target))

end Colloquy
