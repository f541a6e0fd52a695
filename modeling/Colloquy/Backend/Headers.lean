/-!
# Colloquy — headers of requests

A request says by headers of what type it is and who sends it. A value with control
characters other than the tab is no header value, and its header is left out.
-/

namespace Colloquy

/-- Names in lower case, and values. -/
abbrev Headers := List (String × String)

namespace Headers

/-- Characters that may stand in the value of a header. -/
def isValueChar (c : Char) : Bool :=
  c == '\t' || (0x20 ≤ c.toNat && c.toNat ≠ 0x7F)

/-- The header, if its value is one. -/
def one (name value : String) : Headers :=
  if value.toList.all isValueChar then [(name, value)] else []

def contentType : Headers := [("content-type", "application/json")]

/-- The headers of a bearer of a key; without a key only the type is told. -/
def bearer (key? : Option String) : Headers :=
  contentType ++
    match key? with
    | some key => if key.isEmpty then [] else one "authorization" ("Bearer " ++ key)
    | none => []

/-- The headers of a key and a version of the interface. -/
def keyed (key version : String) : Headers :=
  contentType ++ one "x-api-key" key ++ one "anthropic-version" version

end Headers

end Colloquy
