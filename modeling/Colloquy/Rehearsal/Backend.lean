import Colloquy.Rehearsal.Stage
import Colloquy.Backend.Basic

/-!
# Colloquy — a scripted backend

A scripted backend records each request and gives the replies of the stage one after
another, whatever it is asked.
-/

namespace Colloquy

/-- Options as they are recorded. -/
def RunOptions.toJson (options : RunOptions) : Json :=
  .object
    [("values", .obj options.values),
      ("resume_after", options.resumeAfter.elim .null Json.ofNat)]

namespace Stage

/-- A request as it is recorded. -/
def requestEntry (client : Client) (messages : List Message) (tools : Catalogue Stage)
    (options : RunOptions) : Json :=
  .object
    [("url", .str client.url), ("model", .str client.model),
      ("messages", .arr (messages.map Message.toJson)), ("tools", .strings tools.names),
      ("options", options.toJson)]

/-- Record a request. -/
def recordRequest (client : Client) (messages : List Message) (tools : Catalogue Stage)
    (options : RunOptions) : Act Stage VendorRequest := do
  Act.modifyOuter fun stage =>
    { stage with sent := stage.sent ++ [requestEntry client messages tools options] }
  return ⟨"scripted", .null⟩

/-- There is no further reply. -/
def exhausted : Error := .vendorProtocol "scripted" "script exhausted" none

/-- The body of every reply. -/
def replyBody : Json := .object [("scripted", .bool true)]

/-- Take the next reply. -/
def takeReply : Act Stage Json := do
  let stage ← Act.outer
  match stage.replies with
  | [] => Act.fail exhausted
  | next :: rest => do
    let (sending, latest?) : Except Error Unit × Option (Except Error Reply) :=
      match next with
      | .sendError e => (.error e, stage.latest?)
      | .parseError e => (.ok (), some (.error e))
      | .reply r => (.ok (), some (.ok r))
    Act.modifyOuter fun stage => { stage with replies := rest, latest? := latest? }
    Act.ofExcept sending
    return replyBody

/-- What the latest reply says. -/
def latestReply : Act Stage Reply := do
  match (← Act.outer).latest? with
  | some latest => Act.ofExcept latest
  | none => Act.fail exhausted

/-- A backend that keeps to the replies of the stage. -/
def backend (isStateful : Bool) : Backend Stage where
  name := (if isStateful then BackendKind.responses else BackendKind.openAi).name
  profile := ⟨"scripted", some "http://localhost", some "scripted-model", false⟩
  isStateful := isStateful
  headers := Headers.bearer
  toolDefinitions := Catalogue.schemas
  formatRequest := recordRequest
  send := fun _ _ => takeReply
  parseReply := fun _ => latestReply

end Stage

end Colloquy
