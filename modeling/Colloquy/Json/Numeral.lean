import Colloquy.Json.Basic
import Colloquy.Number.Reading

/-!
# Colloquy — numbers of JSON texts

The digits of a number are gathered into a significand of at most 64 bits. A number
without fraction and exponent that fits 64 bits is an integer; any other is scaled by
a power of ten in the binary64 format, with one rounding for the significand and one
for each factor. Digits beyond the significand count only through the exponent, and a
number beyond the largest of the format is refused.

* `Json.numeral?` — read a number at the start of a text.
-/

namespace Colloquy.Json

/-- The largest significand. -/
def greatestSignificand : Nat := pow2 64 - 1

/-- The largest exponent that is read digit by digit. -/
def greatestExponent : Nat := pow2 31 - 1

/-- `x * 10 ^ e`, by factors of at most `10 ^ 308`. Three divisions by `10 ^ 308` bring every
significand to zero, so the first argument need not exceed four. -/
def scaled? : Nat → Binary64 → Int → Option Binary64
  | 0, _, _ => some Binary64.zero
  | steps + 1, x, e =>
    if e.natAbs ≤ 308 then
      if 0 ≤ e then
        let y := x.mul (Binary64.tenPow e.natAbs)
        if y.isInfinite then none else some y
      else some (x.div (Binary64.tenPow e.natAbs))
    else if x.isZero then some x
    else if 0 ≤ e then none
    else scaled? steps (x.div (Binary64.tenPow 308)) (e + 308)

/-- The number `significand * 10 ^ e` with a sign. -/
def realOf? (negative : Bool) (significand : Nat) (e : Int) : Option Json :=
  (scaled? 4 (Binary64.ofNat significand) e).map fun x =>
    .real (if negative then x.neg else x)

/-- Gather digits into a significand: the significand, how many digits were taken, and the rest,
which starts with a digit if and only if that digit would not fit. -/
def gather : Nat → Nat → List Char → Nat × Nat × List Char
  | acc, count, c :: rest =>
    if c.isDigit then
      let next := acc * 10 + digitValue c
      if next ≤ greatestSignificand then gather next (count + 1) rest
      else (acc, count, c :: rest)
    else (acc, count, c :: rest)
  | acc, count, [] => (acc, count, [])

/-- An exponent held within 32 bits. -/
def clampExponent (e : Int) : Int :=
  max (-(greatestExponent : Int) - 1) (min e greatestExponent)

/-- After the mark of an exponent: an optional sign and digits. -/
def exponentPart? (negative : Bool) (significand : Nat) (start : Int) (s : List Char) :
    Option (Json × List Char) :=
  let (down, ds) :=
    match s with
    | '-' :: rest => (true, rest)
    | '+' :: rest => (false, rest)
    | _ => (false, s)
  let digits := ds.takeWhile Char.isDigit
  let rest := ds.dropWhile Char.isDigit
  if digits.isEmpty then none
  else
    let e := digitsValue digits
    if greatestExponent < e then
      if significand ≠ 0 && !down then none
      else some (.real ⟨negative, 0⟩, rest)
    else
      let shift : Int := if down then -(e : Int) else e
      (realOf? negative significand (clampExponent (start + shift))).map (·, rest)

/-- What follows the digits of a number with the exponent `e` so far. -/
def tailPart? (negative : Bool) (significand : Nat) (e : Int) (s : List Char) :
    Option (Json × List Char) :=
  match s with
  | c :: rest =>
    if c == 'e' || c == 'E' then exponentPart? negative significand e rest
    else (realOf? negative significand e).map (·, s)
  | [] => (realOf? negative significand e).map (·, s)

/-- After the decimal point: at least one digit. Digits that no longer fit are passed over. -/
def fractionPart? (negative : Bool) (significand : Nat) (e : Int) (s : List Char) :
    Option (Json × List Char) :=
  let (total, count, rest) := gather significand 0 s
  let here := e - count
  match rest with
  | c :: _ =>
    if c.isDigit then tailPart? negative total here (rest.dropWhile Char.isDigit)
    else if count = 0 then none
    else tailPart? negative total here rest
  | [] => if count = 0 then none else tailPart? negative total here rest

/-- The number made of a significand alone. Zero with a sign is no integer. -/
def wholeNumber (negative : Bool) (significand : Nat) : Json :=
  if !negative then .int significand
  else if significand = 0 || pow2 63 < significand then .real (Binary64.ofNat significand).neg
  else .int (-(significand : Int))

/-- A number without its sign, at the start of `s`. -/
def unsigned? (negative : Bool) (s : List Char) : Option (Json × List Char) :=
  match s with
  | [] => none
  | c :: after =>
    if !c.isDigit then none
    else if c == '0' && (after.head?.any Char.isDigit) then none
    else
      let (significand, _, rest) := gather 0 0 s
      let skipped := (rest.takeWhile Char.isDigit).length
      let here := rest.dropWhile Char.isDigit
      match here with
      | '.' :: more => fractionPart? negative significand skipped more
      | 'e' :: more => exponentPart? negative significand skipped more
      | 'E' :: more => exponentPart? negative significand skipped more
      | _ =>
        if skipped = 0 then some (wholeNumber negative significand, here)
        else (realOf? negative significand skipped).map (·, here)

/-- The number at the start of `s`, and what follows it. -/
def numeral? (s : List Char) : Option (Json × List Char) :=
  match s with
  | '-' :: rest => unsigned? true rest
  | _ => unsigned? false s

end Colloquy.Json
