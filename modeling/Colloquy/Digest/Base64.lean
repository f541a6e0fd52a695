/-!
# Colloquy — base64

Three bytes become four characters of an alphabet of 64. Media are sent in the
standard alphabet with padding; identifiers use the alphabet that is safe in paths,
without padding.
-/

namespace Colloquy.Base64

/-- Upper case, lower case and digits, then two more characters. -/
structure Alphabet where
  char62 : Char
  char63 : Char
  padded : Bool

def standard : Alphabet := ⟨'+', '/', true⟩

def pathSafe : Alphabet := ⟨'-', '_', false⟩

/-- The character that stands for six bits. -/
def Alphabet.char (a : Alphabet) (n : Nat) : Char :=
  if n < 26 then Char.ofNat (0x41 + n)
  else if n < 52 then Char.ofNat (0x61 + n - 26)
  else if n < 62 then Char.ofNat (0x30 + n - 52)
  else if n = 62 then a.char62
  else a.char63

/-- The characters for the bytes, three bytes at a time. -/
def encodeChars (a : Alphabet) : List UInt8 → List Char
  | x :: y :: z :: rest =>
    let n := x.toNat * 65536 + y.toNat * 256 + z.toNat
    a.char (n / 262144) :: a.char (n / 4096 % 64) :: a.char (n / 64 % 64) :: a.char (n % 64) ::
      encodeChars a rest
  | [x, y] =>
    let n := x.toNat * 65536 + y.toNat * 256
    [a.char (n / 262144), a.char (n / 4096 % 64), a.char (n / 64 % 64)] ++
      if a.padded then ['='] else []
  | [x] =>
    let n := x.toNat * 65536
    [a.char (n / 262144), a.char (n / 4096 % 64)] ++ if a.padded then ['=', '='] else []
  | [] => []

def encode (a : Alphabet) (bytes : List UInt8) : String :=
  String.ofList (encodeChars a bytes)

end Colloquy.Base64
