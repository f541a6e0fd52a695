import Colloquy.Duration
import Colloquy.Json.Basic
import Colloquy.Json.Printer
import Colloquy.Number.Reading
import Colloquy.Text.Blank

/-!
# Colloquy — options of a run

A run has options: JSON values by name. Some names are used here and called control
keys; all others are handed to the backend. The options of a conversation that goes
on from a response also hold the place in the conversation just after the response.
-/

namespace Colloquy

/-- Names of options that are not handed to a backend. -/
def controlKeys : List String :=
  ["agent", "backend", "endpoint", "format", "key", "max_turns", "model", "persist",
   "previous_response_id", "request_timeout", "tool_choice_next", "url", "websearch"]

structure RunOptions where
  values : Fields := []
  /-- How many messages stand before the place from which a response goes on. -/
  resumeAfter : Option Nat := none
  deriving DecidableEq, Repr, Inhabited

/-- A length of time given as a text of seconds: none if the text is no number. -/
def durationOfText? (text : String) : Except Failure (Option Duration) :=
  match Binary64.ofText? text with
  | some seconds => (Duration.ofSeconds seconds).map some
  | none => .ok none

namespace RunOptions

def get? (o : RunOptions) (key : String) : Option Json :=
  o.values.get? key

/-- The text of an option; numbers and truth values are written as JSON. -/
def getStr? (o : RunOptions) (key : String) : Option String :=
  match o.get? key with
  | some (.str s) => some s
  | some .null => none
  | some v => some v.render
  | none => none

def set (o : RunOptions) (key : String) (value : Json) : RunOptions :=
  { o with values := o.values.insert key value }

def remove (o : RunOptions) (key : String) : RunOptions :=
  { o with values := o.values.erase key }

def contains (o : RunOptions) (key : String) : Bool :=
  Fields.contains key o.values

def isEmpty (o : RunOptions) : Bool :=
  o.values.isEmpty

/-- Put every option of `upper` over these. -/
def merge (o upper : RunOptions) : RunOptions :=
  { o with values := o.values.insertAll upper.values }

/-- Take the options of `lower` that are not set here. -/
def mergeDefaults (o lower : RunOptions) : RunOptions :=
  { o with values := o.values.insertNewAll lower.values }

def backend? (o : RunOptions) : Option String := o.getStr? "backend"

def model? (o : RunOptions) : Option String := o.getStr? "model"

def endpoint? (o : RunOptions) : Option String := o.getStr? "endpoint"

def agent? (o : RunOptions) : Option String := o.getStr? "agent"

/-- The handle of the response to go on from, unless it is blank. -/
def previousResponseId? (o : RunOptions) : Option String :=
  (o.getStr? "previous_response_id").filter fun handle => !Text.allBlank handle.toList

def format? (o : RunOptions) : Option Json := o.get? "format"

/-- The longest wait for a reply; a fault if the number of seconds is no length of time. -/
def requestTimeout? (o : RunOptions) : Except Failure (Option Duration) :=
  match o.getStr? "request_timeout" with
  | some text => durationOfText? text
  | none => .ok none

def maxTurns? (o : RunOptions) : Option Nat :=
  (o.getStr? "max_turns").bind natOfText?

/-- An option that is set to something that means yes. -/
def flag (o : RunOptions) (key : String) : Bool :=
  match o.get? key with
  | some (.bool b) => b
  | some (.str s) => s == "true" || s == "yes" || s == "1"
  | some (.int i) => i != 0
  | some (.real x) => !x.isZero
  | _ => false

/-- The options that are handed to a backend. -/
def vendorParameters (o : RunOptions) : Fields :=
  o.values.filter fun field => !controlKeys.contains field.1

end RunOptions

end Colloquy
