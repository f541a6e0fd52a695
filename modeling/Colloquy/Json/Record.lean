import Colloquy.Json.Basic

/-!
# Colloquy — JSON objects as records

Scripts and the like are objects with fields of known kinds. A field that is absent is
read as null, and a field of another kind as the empty value of its own.
-/

namespace Colloquy.Json

/-- The value of a field, null in its absence. -/
def valueAt (key : String) (j : Json) : Json :=
  (j.field? key).getD .null

/-- The value of a field that is there and is not null. -/
def valueAt? (key : String) (j : Json) : Option Json :=
  match j.field? key with
  | some .null => none
  | found => found

/-- The text of a value; of any other kind, the empty text. -/
def toText (j : Json) : String :=
  j.asStr?.getD ""

def textAt (key : String) (j : Json) : String :=
  (j.valueAt key).toText

def textAt? (key : String) (j : Json) : Option String :=
  (j.valueAt key).asStr?

def itemsAt (key : String) (j : Json) : List Json :=
  (j.valueAt key).asArr?.getD []

def itemsAt? (key : String) (j : Json) : Option (List Json) :=
  (j.valueAt key).asArr?

def textsAt (key : String) (j : Json) : List String :=
  (j.itemsAt key).map toText

def fieldsAt (key : String) (j : Json) : Fields :=
  (j.valueAt key).asObj?.getD []

def flagAt (key : String) (j : Json) : Bool :=
  (j.valueAt key).asBool?.getD false

/-- A natural number. -/
def toNat? : Json → Option Nat
  | .int i => if 0 ≤ i then some i.toNat else none
  | _ => none

def natAt? (key : String) (j : Json) : Option Nat :=
  (j.valueAt key).toNat?

end Colloquy.Json
