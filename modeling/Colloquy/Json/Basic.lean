import Colloquy.Number.Binary64

/-!
# Colloquy — JSON values

Option values, tool arguments, schemas and everything on the wire are JSON values. An
object is a list of fields in the order of their keys, by code points, with one field
for each key; `Fields.insert` and `Fields.ofList` keep that form, and `Json.Ordered`
says it. Integers of 64 bits, signed or unsigned, are kept apart from other numbers.

* `Fields.get?`, `Fields.insert`, `Fields.erase` — the fields of an object as a map.
* `Json.field?` — a field of a value, none for a value that is no object.
-/

namespace Colloquy

inductive Json where
  | null
  | bool (b : Bool)
  | int (i : Int)
  | real (x : Binary64)
  | str (s : String)
  | arr (items : List Json)
  | obj (fields : List (String × Json))
  deriving Repr, Inhabited

/-- The fields of an object, in the order of their keys. -/
abbrev Fields := List (String × Json)

namespace Json

mutual

/-- Equality of values is decidable. -/
def decEq : (a b : Json) → Decidable (a = b)
  | .null, .null => isTrue rfl
  | .bool a, .bool b => if h : a = b then isTrue (h ▸ rfl) else isFalse (by simp [h])
  | .int a, .int b => if h : a = b then isTrue (h ▸ rfl) else isFalse (by simp [h])
  | .real a, .real b => if h : a = b then isTrue (h ▸ rfl) else isFalse (by simp [h])
  | .str a, .str b => if h : a = b then isTrue (h ▸ rfl) else isFalse (by simp [h])
  | .arr as, .arr bs =>
    match decEqItems as bs with
    | isTrue h => isTrue (h ▸ rfl)
    | isFalse h => isFalse (by simp [h])
  | .obj as, .obj bs =>
    match decEqFields as bs with
    | isTrue h => isTrue (h ▸ rfl)
    | isFalse h => isFalse (by simp [h])
  | .null, .bool _ | .null, .int _ | .null, .real _ | .null, .str _ | .null, .arr _
  | .null, .obj _ => isFalse nofun
  | .bool _, .null | .bool _, .int _ | .bool _, .real _ | .bool _, .str _ | .bool _, .arr _
  | .bool _, .obj _ => isFalse nofun
  | .int _, .null | .int _, .bool _ | .int _, .real _ | .int _, .str _ | .int _, .arr _
  | .int _, .obj _ => isFalse nofun
  | .real _, .null | .real _, .bool _ | .real _, .int _ | .real _, .str _ | .real _, .arr _
  | .real _, .obj _ => isFalse nofun
  | .str _, .null | .str _, .bool _ | .str _, .int _ | .str _, .real _ | .str _, .arr _
  | .str _, .obj _ => isFalse nofun
  | .arr _, .null | .arr _, .bool _ | .arr _, .int _ | .arr _, .real _ | .arr _, .str _
  | .arr _, .obj _ => isFalse nofun
  | .obj _, .null | .obj _, .bool _ | .obj _, .int _ | .obj _, .real _ | .obj _, .str _
  | .obj _, .arr _ => isFalse nofun

def decEqItems : (as bs : List Json) → Decidable (as = bs)
  | [], [] => isTrue rfl
  | [], _ :: _ => isFalse nofun
  | _ :: _, [] => isFalse nofun
  | a :: as, b :: bs =>
    match decEq a b, decEqItems as bs with
    | isTrue h, isTrue hs => isTrue (h ▸ hs ▸ rfl)
    | isFalse h, _ => isFalse (by simp [h])
    | _, isFalse hs => isFalse (by simp [hs])

def decEqFields : (as bs : List (String × Json)) → Decidable (as = bs)
  | [], [] => isTrue rfl
  | [], _ :: _ => isFalse nofun
  | _ :: _, [] => isFalse nofun
  | (k, a) :: as, (l, b) :: bs =>
    if hk : k = l then
      match decEq a b, decEqFields as bs with
      | isTrue h, isTrue hs => isTrue (by rw [hk, h, hs])
      | isFalse h, _ => isFalse (by simp [h])
      | _, isFalse hs => isFalse (by simp [hs])
    else isFalse (by simp [hk])

end

instance : DecidableEq Json := decEq

end Json

/-! ## Fields -/

namespace Fields

/-- The value under a key. -/
def get? (key : String) : Fields → Option Json
  | [] => none
  | (k, v) :: rest => if k = key then some v else get? key rest

/-- Put a value under a key, in the place of an earlier one. -/
def insert (key : String) (value : Json) : Fields → Fields
  | [] => [(key, value)]
  | (k, v) :: rest =>
    if key < k then (key, value) :: (k, v) :: rest
    else if k = key then (key, value) :: rest
    else (k, v) :: insert key value rest

/-- Drop the field of a key. -/
def erase (key : String) (fields : Fields) : Fields :=
  fields.filter fun field => field.1 != key

/-- The object that holds the given fields; of several with one key, the last. -/
def ofList (pairs : List (String × Json)) : Fields :=
  pairs.foldl (fun fields pair => fields.insert pair.1 pair.2) []

def contains (key : String) (fields : Fields) : Bool :=
  (get? key fields).isSome

/-- Put a value under a key that has none. -/
def insertNew (key : String) (value : Json) (fields : Fields) : Fields :=
  if contains key fields then fields else insert key value fields

/-- Every field of `upper` put into `fields`. -/
def insertAll (fields upper : Fields) : Fields :=
  upper.foldl (fun acc pair => acc.insert pair.1 pair.2) fields

/-- The fields of `lower` under keys that `fields` does not have put into it. -/
def insertNewAll (fields lower : Fields) : Fields :=
  lower.foldl (fun acc pair => insertNew pair.1 pair.2 acc) fields

/-- The keys come in strictly ascending order. -/
def Ascending (fields : Fields) : Prop :=
  fields.Pairwise fun a b => a.1 < b.1

end Fields

/-! ## Parts of a value -/

namespace Json

/-- The object that holds the given fields. -/
def object (pairs : List (String × Json)) : Json :=
  .obj (Fields.ofList pairs)

/-- A field of an object. -/
def field? (key : String) : Json → Option Json
  | .obj fields => Fields.get? key fields
  | _ => none

def asStr? : Json → Option String
  | .str s => some s
  | _ => none

def asArr? : Json → Option (List Json)
  | .arr items => some items
  | _ => none

def asObj? : Json → Option Fields
  | .obj fields => some fields
  | _ => none

def asBool? : Json → Option Bool
  | .bool b => some b
  | _ => none

/-- A number, rounded to the binary64 format. -/
def asBinary64? : Json → Option Binary64
  | .int i => some (Binary64.ofInt i)
  | .real x => some x
  | _ => none

def isNull : Json → Bool
  | .null => true
  | _ => false

def ofNat (n : Nat) : Json := .int n

def strings (ss : List String) : Json := .arr (ss.map .str)

/-- A text, or null in its absence. -/
def ofOption : Option String → Json
  | some s => .str s
  | none => .null

mutual

/-- Every object in the value has its keys in ascending order. -/
def Ordered : Json → Prop
  | .arr items => OrderedItems items
  | .obj fields => Fields.Ascending fields ∧ OrderedFields fields
  | _ => True

def OrderedItems : List Json → Prop
  | [] => True
  | v :: rest => Ordered v ∧ OrderedItems rest

def OrderedFields : List (String × Json) → Prop
  | [] => True
  | (_, v) :: rest => Ordered v ∧ OrderedFields rest

end

end Json

end Colloquy
