import Colloquy.Backend.Basic
import Colloquy.Completion
import Colloquy.Retry
import Colloquy.Tool.Dispatch

/-!
# Colloquy — running a conversation

A run takes turns: the backend is asked, the calls of its reply are answered, and the
results are sent back, until a reply ends in something other than the result of a
call. The number of turns is bounded.

A server that keeps conversations is sent what it does not have yet, under the handle
of its last response; any other is sent everything in every turn.

* `Runner.takeTurn` — one turn.
* `Runner.turnsFrom` — turns until the conversation is complete.
* `Runner.run`, `Runner.complete` — a run on messages, and on a conversation.
-/

namespace Colloquy

/-- Turns are taken up to this number where none is set. -/
def defaultMaxTurns : Nat := 20

structure Runner (σ : Type) where
  backend : Backend σ
  client : Client
  tools : Catalogue σ := {}
  dispatcher : Dispatcher σ := {}
  retry : RetryPolicy := {}
  clock : Clock σ
  /-- The bound on turns; none counts as one. -/
  maxTurns : Nat := defaultMaxTurns

/-- Where a run stands between turns. -/
structure Progress where
  /-- What is sent next. -/
  pending : List Message
  /-- What the turns so far produced. -/
  exchanges : List Message := []
  handle? : Option String := none
  turns : Nat := 0
  deriving DecidableEq, Repr

/-- The messages of a turn end in the result of a call, which is to be sent back. -/
def awaitsReply (output : List Message) : Bool :=
  match output.getLast? with
  | some m => m.role == .functionCallOutput
  | none => false

/-- The results of calls among messages. -/
def callOutputs (messages : List Message) : List Message :=
  messages.filter fun m => m.role == .functionCallOutput

namespace Progress

/-- What is sent first: the messages after the response that is gone on from, or all. -/
def initialPending (messages : List Message) (handle? : Option String)
    (resumeAfter : Option Nat) : List Message :=
  match handle?, resumeAfter with
  | some _, some place => if place < messages.length then messages.drop place else messages
  | _, _ => messages

/-- Where a run on messages starts. -/
def start (isStateful : Bool) (messages : List Message) (options : RunOptions) : Progress :=
  let handle? := if isStateful then options.previousResponseId? else none
  { pending := initialPending messages handle? options.resumeAfter, handle? := handle? }

/-- The options of the next turn: the handle that is held, and no choice of a tool after the first
turn. -/
def turnOptions (p : Progress) (options : RunOptions) : RunOptions :=
  let options :=
    match p.handle? with
    | some handle => options.set "previous_response_id" (.str handle)
    | none => options.remove "previous_response_id"
  if 0 < p.turns then options.remove "tool_choice" else options

/-- Where a run stands after a turn whose messages are to be sent back. -/
def next (p : Progress) (messages output : List Message) (handle? : Option String) : Progress :=
  let exchanges := p.exchanges ++ output
  { pending :=
      match handle? with
      | some _ => callOutputs output
      | none => messages ++ exchanges
    exchanges := exchanges
    handle? := handle?
    turns := p.turns + 1 }

/-- The completed run after a last turn. -/
def finish (p : Progress) (messages output : List Message) (handle? : Option String) :
    Completion :=
  let exchanges := p.exchanges ++ output ++ (handle?.toList.map Message.continuation)
  { messages := messages ++ exchanges, newMessages := exchanges.length, handle? := handle?,
    turns := p.turns + 1 }

end Progress

namespace Runner

variable {σ : Type}

/-- The messages of a reply's items, with calls answered in order. -/
def outputs (r : Runner σ) : List ReplyItem → Act σ (List Message)
  | [] => pure []
  | .message m :: rest => do
    let others ← outputs r rest
    return m :: others
  | .call call :: rest => do
    let here ← r.dispatcher.dispatch r.tools [call]
    let others ← outputs r rest
    return here ++ others

/-- The bound on turns. -/
def turnLimit (r : Runner σ) : Nat :=
  max r.maxTurns 1

/-- Ask the backend once: the body of the reply, and what it says. -/
def ask (r : Runner σ) (options : RunOptions) (pending : List Message) : Act σ (Json × Reply) := do
  let request ← r.backend.formatRequest r.client pending r.tools options
  let body ← r.retry.execute r.clock (r.backend.send r.client request)
  let reply ← r.backend.parseReply body
  return (body, reply)

/-- The handle that is held after a reply. -/
def handleAfter (r : Runner σ) (p : Progress) (reply : Reply) : Option String :=
  if r.backend.isStateful then reply.handle?.or p.handle? else p.handle?

/-- Take a turn: its messages, of which there is at least one, and the handle after it. -/
def takeTurn (r : Runner σ) (options : RunOptions) (p : Progress) :
    Act σ (List Message × Option String) := do
  let (body, reply) ← r.ask (p.turnOptions options) p.pending
  let output ← r.outputs reply.items
  if output.isEmpty then
    Act.fail (.vendorProtocol r.backend.name "response carried no messages" (some body))
  else return (output, r.handleAfter p reply)

/-- Take turns, at most so many, until the conversation is complete. -/
def turnsFrom (r : Runner σ) (messages : List Message) (options : RunOptions) :
    Nat → Progress → Act σ Completion
  | 0, _ => Act.fail (.turnLimitExceeded r.turnLimit)
  | left + 1, p => do
    let (output, handle?) ← r.takeTurn options p
    if awaitsReply output then turnsFrom r messages options left (p.next messages output handle?)
    else return p.finish messages output handle?

/-- Run messages until they are complete. -/
def run (r : Runner σ) (messages : List Message) (options : RunOptions) : Act σ Completion :=
  r.turnsFrom messages options r.turnLimit
    (Progress.start r.backend.isStateful messages options)

/-- Run a conversation, which then ends in what the run produced. On an error there is no other
conversation. -/
def complete (r : Runner σ) (c : Conversation) (options : RunOptions) :
    Act σ (Completion × Conversation) := do
  let completion ← r.run c.messages options
  let produced ← Act.ofFailable completion.produced
  return (completion, c.extend produced)

end Runner

end Colloquy
