import Colloquy.Tool.Definition

/-!
# Colloquy — the catalogue of tools

The tools of a conversation, by name. A tool registered under a name that is taken
replaces the other in its place.
-/

namespace Colloquy

/-- Tools of distinct names, in the order in which the names were first registered. -/
structure Catalogue (σ : Type) where
  tools : List (Tool σ) := []

namespace Catalogue

variable {σ : Type}

/-- Put a tool in the place of the one with its name, or at the end. -/
def registerIn (tool : Tool σ) : List (Tool σ) → List (Tool σ)
  | [] => [tool]
  | other :: rest =>
    if other.name = tool.name then tool :: rest else other :: registerIn tool rest

def register (c : Catalogue σ) (tool : Tool σ) : Catalogue σ :=
  ⟨registerIn tool c.tools⟩

/-- Register tools one after another. -/
def extend (c : Catalogue σ) (tools : List (Tool σ)) : Catalogue σ :=
  tools.foldl register c

def ofList (tools : List (Tool σ)) : Catalogue σ :=
  extend {} tools

def get? (c : Catalogue σ) (name : String) : Option (Tool σ) :=
  c.tools.find? fun tool => tool.name == name

def contains (c : Catalogue σ) (name : String) : Bool :=
  (c.get? name).isSome

/-- The tools without the first of a name. -/
def removeFrom (name : String) : List (Tool σ) → List (Tool σ)
  | [] => []
  | tool :: rest => if tool.name = name then rest else tool :: removeFrom name rest

/-- The tool of a name, and the catalogue without it. -/
def remove (c : Catalogue σ) (name : String) : Option (Tool σ) × Catalogue σ :=
  (c.get? name, ⟨removeFrom name c.tools⟩)

def clear (_ : Catalogue σ) : Catalogue σ := {}

def size (c : Catalogue σ) : Nat := c.tools.length

def isEmpty (c : Catalogue σ) : Bool := c.tools.isEmpty

def names (c : Catalogue σ) : List String := c.tools.map Tool.name

def schemas (c : Catalogue σ) : List Json := c.tools.map Tool.schema

end Catalogue

end Colloquy
