import Colloquy.Tool.Catalogue
import Colloquy.ToolCall

/-!
# Colloquy — dispatching tool calls

A call is answered by the executor of its tool, or by a fallback for names that are
in no catalogue. An executor's error is told to the model as the outcome of the call;
only a call that nobody answers is an error of the run.

* `outcomeText` — what the model is told.
* `Dispatcher.invoke` — answer one call.
* `Dispatcher.dispatch` — answer calls in order and record each with its outcome.
-/

namespace Colloquy

/-- The text of an outcome: a string as it is, a word of success for nothing, and JSON for anything
else, errors with their causes included. -/
def outcomeText : Except Error Json → String
  | .ok (.str s) => s
  | .ok .null => "success"
  | .ok v => v.render
  | .error e =>
    (Json.object [("exception", .str e.message), ("stack", .strings e.causes)]).render

structure Dispatcher (σ : Type) where
  /-- Answers calls of tools that are in no catalogue. -/
  fallback? : Option (String → Arguments → Act σ Json) := none

namespace Dispatcher

variable {σ : Type}

/-- What answers a call: the arguments it gets, and the act. None if nobody does. -/
def answerer? (d : Dispatcher σ) (catalogue : Catalogue σ) (call : ToolCall) :
    Option (Act σ Json) :=
  let args := Arguments.ofJson call.arguments
  match catalogue.get? call.name with
  | some tool => some (tool.executor.call call.name (args.withDefaults tool.defaults))
  | none => d.fallback?.map fun run => run call.name args

/-- Answer a call. -/
def invoke (d : Dispatcher σ) (catalogue : Catalogue σ) (call : ToolCall) : Act σ ToolResult :=
  match d.answerer? catalogue call with
  | some act => do
    let outcome ← act.attempt
    return ⟨call.id, outcomeText outcome⟩
  | none => Act.fail (.unknownTool call.name)

/-- The messages of a call and its outcome. -/
def exchange (call : ToolCall) (result : ToolResult) : List Message :=
  [.functionCall call, .functionCallOutput result]

/-- Answer calls in order, with two messages for each. -/
def dispatch (d : Dispatcher σ) (catalogue : Catalogue σ) : List ToolCall → Act σ (List Message)
  | [] => pure []
  | call :: rest => do
    let result ← d.invoke catalogue call
    let others ← dispatch d catalogue rest
    return exchange call result ++ others

end Dispatcher

end Colloquy
