import Colloquy.Directive.File
import Colloquy.Directive.Task

/-!
# Colloquy — imports, and resolving as a whole

An import directive is replaced by the messages of another chat, resolved in turn;
two of its kinds take a single message. Resolving runs its passes in a fixed order:
clear, clean, imports, tasks, jobs, files.

The chats being imported form a chain of places in the file tree. A chat already on
the chain is a cycle, so each further import puts a new place on the chain, and the
number of places that are not on it bounds the depth.

* `Resolver.importsWith` — the imports of a list of messages.
* `Resolver.pipeline` — all passes.
* `Resolver.resolve` — all passes, from a conversation.
-/

namespace Colloquy

/-- Roles of directives that take messages of other chats. -/
def Role.isImportDirective : Role → Bool
  | .import_ | .continue_ | .last => true
  | _ => false

/-- The last message with a property. -/
def lastWith? (p : Message → Bool) (messages : List Message) : Option Message :=
  (messages.filter p).getLast?

/-- The messages that a directive takes of a chat: all but markers, the last that is not blank, or the
last that is neither empty nor a marker. -/
def selectImported (role : Role) (messages : List Message) : List Message :=
  match role with
  | .continue_ => (lastWith? (fun m => !m.trimmedText.isEmpty) messages).toList
  | .last => (lastWith? (fun m => !m.isEmpty) (purge messages)).toList
  | _ => purge messages

/-- The places of a tree that are not on a chain. -/
def placesOff (files : FileTree) (chain : List Place) : List Place :=
  files.places.filter fun place => !chain.contains place

theorem length_filter_cons_lt {here : Place} {chain : List Place} (off : here ∉ chain) :
    ∀ {places : List Place}, here ∈ places →
      (places.filter fun place => !(here :: chain).contains place).length <
        (places.filter fun place => !chain.contains place).length
  | [], h => by simp at h
  | place :: rest, h => by
    have le : (rest.filter fun place => !(here :: chain).contains place).length ≤
        (rest.filter fun place => !chain.contains place).length := by
      have : (rest.filter fun place => !(here :: chain).contains place) =
          (rest.filter fun place => !chain.contains place).filter fun place => place != here := by
        rw [List.filter_filter]
        apply List.filter_congr
        intro place _
        simp only [List.contains_cons, Bool.not_or]
        rfl
      rw [this]
      exact List.length_filter_le _ _
    by_cases same : place = here
    · subst same
      have : chain.contains place = false := by simpa using off
      rw [List.filter_cons_of_neg (by simp), List.filter_cons_of_pos (by simp [off])]
      simp only [List.length_cons]
      omega
    · have later : here ∈ rest := by
        rcases List.mem_cons.mp h with h | h
        · exact absurd h.symm same
        · exact h
      have ih := length_filter_cons_lt off later
      by_cases on : place ∈ chain
      · rw [List.filter_cons_of_neg (by simp [on]), List.filter_cons_of_neg (by simp [on])]
        exact ih
      · rw [List.filter_cons_of_pos (by simp [on, same]), List.filter_cons_of_pos (by simp [on])]
        simp only [List.length_cons]
        omega

/-- A place off the chain leaves fewer places off the longer chain. -/
theorem length_placesOff_cons_lt {files : FileTree} {here : Place} {chain : List Place}
    (mem : here ∈ files.places) (off : here ∉ chain) :
    (placesOff files (here :: chain)).length < (placesOff files chain).length :=
  length_filter_cons_lt off mem

namespace Resolver

variable {σ : Type}

/-- How the messages of a chat at a place off the chain are resolved, given its path. -/
abbrev Nested (r : Resolver σ) (chain : List Place) :=
  (here : Place) → here ∈ r.files.places → here ∉ chain → List Message → String →
    Act σ (List Message)

/-- What an import directive becomes. -/
def importDirective (r : Resolver σ) (origin? : Option String) (chain : List Place)
    (nested : Nested r chain) (m : Message) : Act σ (List Message) :=
  let reference := m.trimmedText
  match r.find? reference origin? with
  | none => Act.fail (.notFound "Import" reference)
  | some path =>
    match located : r.files.locate path with
    | .found (here, _) =>
      if on : here ∈ chain then Act.fail (.importCycle reference)
      else do
        let text ← Act.ofExcept (r.files.readText path)
        nested here (FileTree.mem_places_of_locate located) on
          (selectImported m.role (r.scanner.parse text .user)) path
    | _ => Act.fail (.io "the path leads nowhere")

/-- Put the messages of other chats in the places of their directives. -/
def importsWith (r : Resolver σ) (origin? : Option String) (chain : List Place)
    (nested : Nested r chain) : List Message → Act σ (List Message)
  | [] => pure []
  | m :: rest => do
    let here ←
      if m.role.isImportDirective then r.importDirective origin? chain nested m else pure [m]
    let others ← importsWith r origin? chain nested rest
    return here ++ others

/-- The passes after imports. -/
def afterImports (r : Resolver σ) (origin? : Option String) (messages : List Message) :
    Act σ (List Message) := do
  let messages ← r.tasks messages
  let messages ← r.jobs messages
  r.fileContents origin? messages

/-- All passes. The chain holds the places of the chats being imported, the innermost first. -/
def pipeline (r : Resolver σ) (chain : List Place) (origin? : Option String)
    (messages : List Message) : Act σ (List Message) := do
  let messages ←
    r.importsWith origin? chain
      (fun here _ _ chosen path => pipeline r (here :: chain) (some path) chosen)
      (clean .skip (clear .clear messages))
  r.afterImports origin? messages
termination_by (placesOff r.files chain).length
decreasing_by exact length_placesOff_cons_lt ‹_› ‹_›

/-- The place of the origin, which is the first of the chain. -/
def originChain (r : Resolver σ) (origin? : Option String) : List Place :=
  match origin? with
  | some origin =>
    match r.files.locate origin with
    | .found (here, _) => [here]
    | _ => []
  | none => []

/-- Resolve the directives of messages that come from an origin. -/
def resolveMessages (r : Resolver σ) (messages : List Message) (origin? : Option String) :
    Act σ (List Message) :=
  r.pipeline (r.originChain origin?) origin? messages

end Resolver

end Colloquy
