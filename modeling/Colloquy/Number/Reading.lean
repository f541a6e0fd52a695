import Colloquy.Number.Binary64
import Colloquy.Text.Blank

/-!
# Colloquy — reading numbers from texts

Settings and options hold numbers as texts. `Binary64.ofText?` reads a number with an
optional sign, digits with an optional point among or beside them, and an optional
exponent, or one of the names of infinity and of the value that is no number, in any
case; the result is rounded once. `natOfText?` reads a natural number.
-/

namespace Colloquy

/-- The value of a digit. -/
def digitValue (c : Char) : Nat :=
  c.toNat - '0'.toNat

/-- The number that the digits `ds` write. -/
def digitsValue (ds : List Char) : Nat :=
  ds.foldl (fun n c => 10 * n + digitValue c) 0

/-- The number nearest to `digits * 10 ^ place`. Exponents far outside the range of the format are
decided by the position of the first digit alone. -/
def nearestDecimal (negative : Bool) (digits : Nat) (place : Int) : Binary64 :=
  if digits = 0 then ⟨negative, 0⟩
  else
    let lead := ((Nat.toDigits 10 digits).length : Int) + place
    if lead < -400 then ⟨negative, 0⟩
    else if 400 < lead then ⟨negative, Binary64.infinityCode⟩
    else if 0 ≤ place then Binary64.nearest negative (digits * pow10 place.toNat) 1
    else Binary64.nearest negative digits (pow10 (-place).toNat)

/-- An exponent: an optional sign and at least one digit, to the end. -/
def exponentOf? (s : List Char) : Option Int :=
  let (negative, ds) :=
    match s with
    | '-' :: rest => (true, rest)
    | '+' :: rest => (false, rest)
    | _ => (false, s)
  if ds.isEmpty || !ds.all Char.isDigit then none
  else some (if negative then -(digitsValue ds : Int) else digitsValue ds)

/-- Digits, point, digits, exponent; at least one digit before the exponent. -/
def unsignedOf? (negative : Bool) (s : List Char) : Option Binary64 :=
  let whole := s.takeWhile Char.isDigit
  let afterWhole := s.dropWhile Char.isDigit
  let (fraction, rest) :=
    match afterWhole with
    | '.' :: more => (more.takeWhile Char.isDigit, more.dropWhile Char.isDigit)
    | _ => ([], afterWhole)
  if whole.isEmpty && fraction.isEmpty then none
  else
    let digits := digitsValue (whole ++ fraction)
    match rest with
    | [] => some (nearestDecimal negative digits (-(fraction.length : Int)))
    | e :: more =>
      if e == 'e' || e == 'E' then
        (exponentOf? more).map fun x => nearestDecimal negative digits (x - fraction.length)
      else none

/-- The number that the whole of `s` writes. -/
def Binary64.ofChars? (s : List Char) : Option Binary64 :=
  let (negative, body) :=
    match s with
    | '-' :: rest => (true, rest)
    | '+' :: rest => (false, rest)
    | _ => (false, s)
  let name := String.ofList (body.map Char.toLower)
  if name == "inf" || name == "infinity" then some ⟨negative, Binary64.infinityCode⟩
  else if name == "nan" then some ⟨negative, Binary64.nan.code⟩
  else unsignedOf? negative body

/-- The number that a text writes, blanks around it aside. -/
def Binary64.ofText? (s : String) : Option Binary64 :=
  Binary64.ofChars? (Text.trim s.toList)

/-- Counts are read up to this number. -/
def greatestCount : Nat := pow2 64 - 1

/-- The count that a text writes, blanks around it aside: an optional plus and digits. -/
def natOfText? (s : String) : Option Nat :=
  let body :=
    match Text.trim s.toList with
    | '+' :: rest => rest
    | cs => cs
  if body.isEmpty || !body.all Char.isDigit then none
  else
    let n := digitsValue body
    if n ≤ greatestCount then some n else none

end Colloquy
