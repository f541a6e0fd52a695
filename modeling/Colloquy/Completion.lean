import Colloquy.Conversation
import Colloquy.Error

/-!
# Colloquy — completed runs

A completed run is the list of all messages, of which the last ones were produced by
the run. On request they are told apart.
-/

namespace Colloquy

structure Completion where
  /-- The messages of the beginning, all replies and tool exchanges, and a marker of the handle. -/
  messages : List Message
  /-- How many of the messages the run produced. -/
  newMessages : Nat
  handle? : Option String := none
  /-- How often the backend was asked. -/
  turns : Nat
  deriving DecidableEq, Repr

namespace Completion

/-- The text of the last message of the assistant. -/
def answer? (c : Completion) : Option String :=
  ((c.messages.filter fun m => m.role == .assistant).getLast?).map Message.text

/-- The messages that the run produced; a fault if there are fewer messages than that. -/
def produced (c : Completion) : Except Failure (List Message) :=
  if c.newMessages ≤ c.messages.length then
    .ok (c.messages.drop (c.messages.length - c.newMessages))
  else .error .fault

end Completion

end Colloquy
