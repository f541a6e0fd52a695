import Colloquy.Error
import Colloquy.Text.Blank
import Colloquy.Text.Cut

/-!
# Colloquy — arguments of tool calls

A tool is called with an object. The accessors read the shapes that models send: a
truth value may be a word, and a list may be a text with commas.
-/

namespace Colloquy

structure Arguments where
  values : Fields := []
  deriving DecidableEq, Repr, Inhabited

namespace Arguments

/-- The arguments that a value stands for: a value that is no object is the input. -/
def ofJson : Json → Arguments
  | .obj fields => ⟨fields⟩
  | .null => ⟨[]⟩
  | v => ⟨[("input", v)]⟩

/-- Take the defaults for keys that are not supplied. -/
def withDefaults (args : Arguments) (defaults : Fields) : Arguments :=
  ⟨args.values.insertNewAll defaults⟩

def toJson (args : Arguments) : Json := .obj args.values

def get? (args : Arguments) (key : String) : Option Json :=
  args.values.get? key

/-- The value under a key, and the arguments without it. -/
def take (args : Arguments) (key : String) : Option Json × Arguments :=
  (args.get? key, ⟨args.values.erase key⟩)

def getStr? (args : Arguments) (key : String) : Option String :=
  (args.get? key).bind Json.asStr?

def getStr (args : Arguments) (key : String) : Except Error String :=
  match args.getStr? key with
  | some s => .ok s
  | none => .error (.invalidArgument ("Missing string argument: " ++ key))

/-- The truth value of a word. -/
def boolOfWord? (word : String) : Option Bool :=
  if word == "true" || word == "yes" then some true
  else if word == "false" || word == "no" || word == "" then some false
  else none

def getBool? (args : Arguments) (key : String) : Option Bool :=
  match args.get? key with
  | some (.bool b) => some b
  | some (.str s) => boolOfWord? s
  | _ => none

/-- The text of a list's item. -/
def itemText : Json → String
  | .str s => s
  | v => v.render

/-- The parts of a text between its commas, without blanks around them and without empty ones. -/
def commaList (text : String) : List String :=
  ((splitAll text ',').map trimBlank).filter fun item => !item.isEmpty

def getList (args : Arguments) (key : String) : Except Error (List String) :=
  match args.get? key with
  | some (.arr items) => .ok (items.map itemText)
  | some (.str s) => .ok (commaList s)
  | _ => .error (.invalidArgument ("Missing list argument: " ++ key))

/-- All values are strings. -/
def allStrings (args : Arguments) : Bool :=
  args.values.all fun field => field.2.asStr?.isSome

end Arguments

end Colloquy
