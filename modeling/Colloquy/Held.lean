import Colloquy.Directive.ToolRegistration
import Colloquy.Run
import Colloquy.RunOptions.Extraction

/-!
# Colloquy — changing what a caller holds

A caller may hand over its own catalogue or conversation to be changed where it is. What is held is
then a part of the world, beside that of the collaborators, and is found afterwards as the work left
it, also where the work failed.

* `Act.beside` — an act of the collaborators, which does not reach what is held.
* `Resolver.registerToolsHeld` — put the tools of directives into a catalogue.
* `extractHeld` — take the options out of a conversation.
* `Runner.completeHeld` — run a conversation, and append what the run produced.
-/

namespace Colloquy

/-- What a caller holds, beside the collaborators' own part of the world. -/
structure Holding (κ σ : Type) where
  held : κ
  outer : σ

variable {κ σ α : Type}

/-- The world without what is held. -/
def World.besides (w : World (Holding κ σ)) : World σ :=
  { w with outer := w.outer.outer }

/-- What is held in a world. -/
def World.held (w : World (Holding κ σ)) : κ := w.outer.held

/-- The world where something is held. -/
def World.holding (w : World σ) (held : κ) : World (Holding κ σ) :=
  { w with outer := { held := held, outer := w.outer } }

namespace Act

/-- The same act where something is held. -/
def beside (act : Act σ α) : Act (Holding κ σ) α := fun w =>
  match act.perform w.besides with
  | (result, w') => (result, w'.holding w.held)

/-- What is held. -/
def getHeld : Act (Holding κ σ) κ := do
  return (← outer).held

def changeHeld (f : κ → κ) : Act (Holding κ σ) Unit :=
  modifyOuter fun h => { h with held := f h.held }

end Act

/-- Take the tool directives out of messages and put their tools into the catalogue that is held:
first the general ones, then those of associations. -/
def Resolver.registerToolsHeld (r : Resolver σ) (messages : List Message) :
    Act (Holding (Catalogue σ) σ) (List Message) := do
  let g ← (r.registerAll {} messages).beside
  Act.changeHeld fun catalogue => catalogue.extend g.tools.tools
  Act.changeHeld fun catalogue => catalogue.extend g.associations.tools
  return g.kept

/-- Take the options out of the conversation that is held. -/
def extractHeld (search : FileSearch) (files : FileTree) :
    Act (Holding Conversation σ) RunOptions := do
  let c ← Act.getHeld
  let (kept, options) ← Act.ofExcept (extractMessages search files c.messages c.origin?)
  Act.changeHeld fun c => c.replace kept
  return options

/-- Run the conversation that is held, and append what the run produced. -/
def Runner.completeHeld (r : Runner σ) (options : RunOptions) :
    Act (Holding Conversation σ) Completion := do
  let c ← Act.getHeld
  let completion ← (r.run c.messages options).beside
  let produced ← Act.ofFailable completion.produced
  Act.changeHeld fun c => c.extend produced
  return completion

end Colloquy
