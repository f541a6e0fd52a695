import Colloquy.Backend.Exchange
import Colloquy.Retry
import Colloquy.Tool.Dispatch

/-!
# Colloquy — rehearsals

A conversation can be rehearsed with collaborators that keep to a script. They share
a stage, which is the outer part of the world and records what they were asked to do.
The modules beside this one hold the collaborators.

* `Stage` — what is recorded, and what is left of the scripts.
* `Behavior` — what a scripted executor does.
* `Stage.clock` — a clock on which only waiting takes time.
-/

namespace Colloquy

/-- What a scripted executor does with its arguments. -/
inductive Behavior where
  | fail (e : Error)
  | give (v : Json)
  /-- Give the argument of a name as a text. -/
  | getText (key : String)
  /-- Give the argument of a name as a truth value. -/
  | getTruth (key : String)
  /-- Give the argument of a name as a list. -/
  | getItems (key : String)
  /-- Give all arguments. -/
  | echo
  deriving DecidableEq, Repr

namespace Behavior

def run : Behavior → Arguments → Except Error Json
  | .fail e, _ => .error e
  | .give v, _ => .ok v
  | .getText key, args => (args.getStr key).map .str
  | .getTruth key, args => .ok ((args.getBool? key).elim .null .bool)
  | .getItems key, args => (args.getList key).map .strings
  | .echo, args => .ok args.toJson

end Behavior

/-- What a scripted job does. -/
structure JobPlan where
  behavior : Behavior := .echo
  isDone : Bool := true
  errorText? : Option String := none
  output : String := ""
  forkError? : Option Error := none
  joinError? : Option Error := none
  outputError? : Option Error := none
  deriving DecidableEq, Repr

structure ScriptedJob where
  path : String
  task : String
  inputs : Fields := []
  plan : JobPlan := {}
  deriving DecidableEq, Repr

structure ScriptedDatabase where
  info : DatabaseInfo
  edges : List (String × String) := []
  /-- Details of associations, by the texts of the associations. -/
  details : Fields := []
  deriving DecidableEq, Repr

/-- A reply of a scripted backend: sending fails, reading fails, or it says something. -/
inductive ScriptedReply where
  | sendError (e : Error)
  | parseError (e : Error)
  | reply (r : Reply)
  deriving DecidableEq, Repr

structure Stage where
  /-- What collaborators were asked to do, in order. -/
  log : List Json := []
  /-- The jobs made so far, the latest first. -/
  jobs : List ScriptedJob := []
  /-- The databases registered so far, with the names of their knowledge bases, the latest first. -/
  databases : List (Option String × ScriptedDatabase) := []
  /-- Replies that have not been asked for. -/
  replies : List ScriptedReply := []
  /-- What the latest reply says. -/
  latest? : Option (Except Error Reply) := none
  /-- The requests made of the scripted backend, in order. -/
  sent : List Json := []
  /-- The waits, in order. -/
  waits : List Duration := []

namespace Stage

/-- Record what a collaborator is asked to do. -/
def record (entry : List Json) : Act Stage Unit :=
  Act.modifyOuter fun stage => { stage with log := stage.log ++ [.arr entry] }

/-- An error, if the script has one. -/
def failWith : Option Error → Act Stage Unit
  | some e => Act.fail e
  | none => pure ()

/-- The middle of the random numbers below `2 ^ 16`, which varies nothing. -/
def middle : Nat := 32768

/-- A clock on which only waiting takes time. -/
def clock : Clock Stage where
  sleep := fun wait => Act.modifyOuter fun stage => { stage with waits := stage.waits ++ [wait] }
  random := pure middle

/-- A way to send that reaches nothing. -/
def offline : Transport Stage where
  post := fun _ _ _ _ => pure (.broken "there is no connection")

/-- A tool whose executor is scripted. -/
def tool (name description : String) (parameters : Parameters) (defaults : Fields)
    (behavior : Behavior) : Tool Stage :=
  { name := name, description := description, parameters := parameters, defaults := defaults,
    executor := .inline fun _ args => Act.ofExcept (behavior.run args) }

/-- A dispatcher whose fallback is scripted and tells which call it handled. -/
def dispatcher : Option Behavior → Dispatcher Stage
  | none => {}
  | some behavior =>
    { fallback? := some fun name args => do
        let v ← Act.ofExcept (behavior.run args)
        return .object [("handled", .str name), ("value", v)] }

end Stage

end Colloquy
