import Colloquy.Directive.Resolver
import Colloquy.Tool.Catalogue

/-!
# Colloquy — directives that register tools

Tool directives are taken out of a conversation, and the tools that they name are put
into the catalogue. Tools of associations are gathered apart from all others, so that
each of the two kinds can be cleared by itself.

* `Resolver.register` — one message.
* `Resolver.registerTools` — all messages: those that are left, and the catalogue.
-/

namespace Colloquy

/-- What has been gathered from the messages so far. -/
structure Registration (σ : Type) where
  kept : List Message := []
  tools : Catalogue σ := {}
  associations : Catalogue σ := {}

/-- Entries that restrict a task to no inputs. -/
def isNoInputs (entries : List String) : Bool :=
  entries == ["none"] || entries == ["noinputs"]

/-- The restriction that the words after a task write. -/
def entriesOfWords (entries : List String) : Option (List String) :=
  if entries.isEmpty then none else if isNoInputs entries then some [] else some entries

namespace Resolver

variable {σ : Type}

/-- The tools of a directive for a workflow. -/
def workflowDirective (r : Resolver σ) (m : Message) : Act σ (List (Tool σ)) :=
  match words m.text with
  | [] => Act.fail (.directive "tool" "missing workflow name")
  | name :: rest => do
    let workflow ← (← r.engine).workflow name
    match rest with
    | [] => workflowTools workflow
    | task :: entries => return [← taskTool workflow task (entriesOfWords entries)]

/-- The server that the first words of a directive name, and the words that are left. -/
def remoteTarget (r : Resolver σ) (ws : List String) : Except Error (RemoteEndpoint × List String) :=
  match ws with
  | [] => .error (.directive "mcp" "missing server url")
  | "stdio" :: [] => .error (.directive "mcp" "missing stdio command")
  | "stdio" :: command :: only => .ok (.stdio command, only)
  | url :: only =>
    .ok (.http url (r.settings.getForUrl r.environment "key" (some url) ["mcp"] [] none), only)

/-- The tools of a directive for a tool server. -/
def remoteDirective (r : Resolver σ) (m : Message) : Act σ (List (Tool σ)) := do
  let (endpoint, only) ← Act.ofExcept (r.remoteTarget (words m.text))
  let client ← (← r.connector).connect endpoint
  remoteTools client only

/-- The tools of a directive for a knowledge base. -/
def knowledgeBaseDirective (r : Resolver σ) (m : Message) : Act σ (List (Tool σ)) :=
  match words m.text with
  | [] => Act.fail (.directive "kb" "missing knowledge base name")
  | name :: databases => do
    let kb ← (← r.store).load name
    knowledgeBaseTools kb (if databases.isEmpty then none else some databases)

/-- The tools of a directive for an association, which is registered first. -/
def associationDirective (r : Resolver σ) (m : Message) : Act σ (List (Tool σ)) :=
  match words m.text with
  | name :: path :: rest => do
    let kb ← (← r.store).session
    kb.register name path (TaskLine.fieldsOfWords rest)
    knowledgeBaseTools kb (some [name])
  | _ => Act.fail (.directive "association" "expected \x60<name> <path> [key=value…]\x60")

/-- Take in one message. -/
def register (r : Resolver σ) (g : Registration σ) (m : Message) : Act σ (Registration σ) :=
  match m.role with
  | .tool => do return { g with tools := g.tools.extend (← r.workflowDirective m) }
  | .mcp => do return { g with tools := g.tools.extend (← r.remoteDirective m) }
  | .kb => do return { g with tools := g.tools.extend (← r.knowledgeBaseDirective m) }
  | .association => do
    return { g with associations := g.associations.extend (← r.associationDirective m) }
  | .clearTools => pure { g with tools := {} }
  | .clearAssociations => pure { g with associations := {} }
  | _ => pure { g with kept := g.kept ++ [m] }

/-- Take in messages one after another. -/
def registerAll (r : Resolver σ) (g : Registration σ) : List Message → Act σ (Registration σ)
  | [] => pure g
  | m :: rest => do
    let g ← r.register g m
    registerAll r g rest

/-- Take the tool directives out of messages and put their tools into a catalogue. On an error there
is no other catalogue. -/
def registerTools (r : Resolver σ) (messages : List Message) (catalogue : Catalogue σ) :
    Act σ (List Message × Catalogue σ) := do
  let g ← r.registerAll {} messages
  return (g.kept, (catalogue.extend g.tools.tools).extend g.associations.tools)

end Resolver

end Colloquy
