import Colloquy.Backend.Connection
import Colloquy.Backend.Selection
import Colloquy.Directive.Import
import Colloquy.Directive.ToolRegistration
import Colloquy.Run
import Colloquy.RunOptions.Extraction

/-!
# Colloquy — asking

A question is a conversation in markup. It is resolved, its tool directives and its
options are taken out, a backend is chosen and connected to, and the conversation is
run until it is complete.

* `Inquiry.run` — run a conversation.
* `Inquiry.completion`, `Inquiry.messages`, `Inquiry.answer` — run a text, and take
  everything, the messages, or the last answer.
-/

namespace Colloquy

/-- Everything that a run needs besides the conversation. -/
structure Inquiry (σ : Type) where
  resolver : Resolver σ
  /-- Tools beside those of directives. -/
  tools : Catalogue σ := {}
  dispatcher : Dispatcher σ := {}
  retry : RetryPolicy := {}
  clock : Clock σ
  transport : Transport σ
  maxTurns? : Option Nat := none
  /-- The backend to use, whatever options and settings say. -/
  backend? : Option (Backend σ) := none
  /-- Options underneath those of the conversation. -/
  defaults : RunOptions := {}
  /-- The file that the text is from. -/
  origin? : Option String := none

namespace Inquiry

variable {σ : Type}

/-- The bound on turns: what the caller, the options or the settings say. -/
def maxTurns (q : Inquiry σ) (options : RunOptions) : Nat :=
  let set? :=
    match q.maxTurns? with
    | some n => some n
    | none =>
      match options.maxTurns? with
      | some n => some n
      | none =>
        (q.resolver.settings.get q.resolver.environment "max_turns" (runScopes options)
          ["ASK_MAX_TURNS"] none).bind natOfText?
  set?.getD defaultMaxTurns

/-- The backend of a run. -/
def backend (q : Inquiry σ) (options : RunOptions) : Except Error (Backend σ) :=
  match q.backend? with
  | some backend => .ok backend
  | none => do
    let kind ← selectBackend options q.resolver.settings q.resolver.environment
    return kind.backend q.resolver.files q.transport

/-- Where the values of the client are looked up. -/
def sources (q : Inquiry σ) (options : RunOptions) : ClientSources :=
  { options := options, settings := q.resolver.settings, environment := q.resolver.environment }

/-- What drives a run with options and tools. -/
def runner (q : Inquiry σ) (options : RunOptions) (tools : Catalogue σ) :
    Except Failure (Runner σ) := do
  let backend ← (q.backend options).mapError Failure.error
  let client ← backend.buildClient (q.sources options)
  return { backend := backend, client := client, tools := tools, dispatcher := q.dispatcher,
           retry := q.retry, clock := q.clock, maxTurns := q.maxTurns options }

/-- The messages that are sent, the options and the tools of a conversation. -/
def prepare (q : Inquiry σ) (c : Conversation) :
    Act σ (List Message × RunOptions × Catalogue σ) := do
  let resolved ← q.resolver.resolveMessages c.messages c.origin?
  let (messages, tools) ← q.resolver.registerTools resolved q.tools
  let (kept, options) ←
    Act.ofExcept (extractMessages q.resolver.search q.resolver.files messages c.origin?)
  return (kept, options.mergeDefaults q.defaults, tools)

/-- Run a conversation. -/
def run (q : Inquiry σ) (c : Conversation) : Act σ Completion := do
  let (messages, options, tools) ← q.prepare c
  let runner ← Act.ofFailable (q.runner options tools)
  runner.run messages options

/-- The conversation that a text writes. -/
def conversation (q : Inquiry σ) (text : String) : Conversation :=
  { messages := q.resolver.scanner.parse text .user, origin? := q.origin? }

/-- Run a text. -/
def completion (q : Inquiry σ) (text : String) : Act σ Completion :=
  q.run (q.conversation text)

/-- Run a text and take all messages. -/
def messages (q : Inquiry σ) (text : String) : Act σ (List Message) := do
  return (← q.completion text).messages

/-- Run a text and take the last answer. -/
def answer (q : Inquiry σ) (text : String) : Act σ String := do
  let completion ← q.completion text
  Act.ofOption (.vendorProtocol "ask" "run finished without an assistant message" none)
    completion.answer?

end Inquiry

end Colloquy
