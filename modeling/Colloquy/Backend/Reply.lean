import Colloquy.ToolCall

/-!
# Colloquy — replies

A backend's reply is a list of items, each a message or a call of a tool, and the
handle under which the conversation can go on, if the backend issued one.
-/

namespace Colloquy

inductive ReplyItem where
  | message (m : Message)
  | call (made : ToolCall)
  deriving DecidableEq, Repr

structure Reply where
  items : List ReplyItem := []
  handle? : Option String := none
  deriving DecidableEq, Repr

namespace ReplyItem

/-- A text that the model wrote. -/
def text (text : String) : ReplyItem := .message (.assistant text)

def call? : ReplyItem → Option ToolCall
  | .call made => some made
  | .message _ => none

end ReplyItem

/-- The calls of a reply, in order. -/
def Reply.toolCalls (reply : Reply) : List ToolCall :=
  reply.items.filterMap ReplyItem.call?

end Colloquy
