import Colloquy.Markup.Printer
import Colloquy.ToolCall

/-!
# Colloquy — conversations

A conversation is a list of messages with the file it was read from, if there is one.
A branch is a copy that remembers the messages it was branched from. The builders
below append messages; what a directive says is written as its reader reads it.
-/

namespace Colloquy

structure Conversation where
  messages : List Message := []
  /-- The messages of the conversation that this one was branched from. -/
  lineage? : Option (List Message) := none
  /-- The file from which relative references start. -/
  origin? : Option String := none
  deriving DecidableEq, Repr, Inhabited

namespace Conversation

def ofMessages (messages : List Message) : Conversation :=
  { messages := messages }

/-- The conversation that a markup text writes. -/
def parse (text : String) : Conversation :=
  ofMessages (({} : Markup.Scanner).parse text .user)

def print (c : Conversation) : String :=
  ({} : Markup.Scanner).print c.messages

def withOrigin (c : Conversation) (path : String) : Conversation :=
  { c with origin? := some path }

def push (c : Conversation) (m : Message) : Conversation :=
  { c with messages := c.messages ++ [m] }

def extend (c : Conversation) (more : List Message) : Conversation :=
  { c with messages := c.messages ++ more }

/-- Put other messages in the place of all. -/
def replace (c : Conversation) (messages : List Message) : Conversation :=
  { c with messages := messages }

/-- A copy that remembers the messages of this conversation. -/
def branch (c : Conversation) : Conversation :=
  { c with lineage? := some c.messages }

/-- Append a message with a plain text. -/
def say (c : Conversation) (role : Role) (text : String) : Conversation :=
  c.push (.ofText role text)

/-- Ask for a format of the answer. -/
def format (c : Conversation) (v : Json) : Conversation :=
  match v with
  | .str s => c.say .format s
  | v => c.push ⟨.format, .structured v⟩

/-- Offer a task of a workflow as a tool, or all its tasks. -/
def tool (c : Conversation) (workflow : String) (task? : Option String) (inputs : List String) :
    Conversation :=
  c.say .tool (joinWith " " (workflow :: (task?.toList ++ inputs)))

/-- An input of a task as it is written: in quotes if its value holds a blank. -/
def inputText (input : String × String) : String :=
  if hasBlank input.2 then " " ++ input.1 ++ "=\x27" ++ input.2 ++ "\x27"
  else " " ++ input.1 ++ "=" ++ input.2

/-- The line that names a task with its inputs. -/
def taskLine (workflow task : String) (inputs : List (String × String)) : String :=
  inputs.foldl (fun line input => line ++ inputText input) (workflow ++ " " ++ task)

/-- Append a directive for a task; the role says how the task is run. -/
def taskDirective (c : Conversation) (role : Role) (workflow task : String)
    (inputs : List (String × String)) : Conversation :=
  c.say role (taskLine workflow task inputs)

/-- Set an option; the role says for how long. -/
def setOption (c : Conversation) (role : Role) (name value : String) : Conversation :=
  c.say role (name ++ " " ++ value)

end Conversation

end Colloquy
