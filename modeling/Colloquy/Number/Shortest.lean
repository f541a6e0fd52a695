import Colloquy.Number.Binary64

/-!
# Colloquy — shortest decimal texts of binary64 numbers

A number is written with the fewest digits that read back as the same number, and of
those with the digits nearest to it. The digits are found by trying, for one digit,
two digits and so on, the two neighbours of the value on that decimal grid.
`FloatLayout` says how digits and exponent become a text.
-/

namespace Colloquy

/-- Digits and the power of ten of their last place. -/
structure Decimal where
  digits : Nat
  place : Int
  deriving DecidableEq, Repr

namespace Decimal

/-- The value as a ratio. -/
def ratio (d : Decimal) : Nat × Nat :=
  if 0 ≤ d.place then (d.digits * pow10 d.place.toNat, 1)
  else (d.digits, pow10 (-d.place).toNat)

/-- How many decimal digits `n` has; zero has one. -/
def digitCount (n : Nat) : Nat :=
  (Nat.toDigits 10 n).length

/-- The power of ten of the first digit of `num / den`. -/
def leadingPlace (num den : Nat) : Int :=
  let guess : Int := (digitCount num : Int) - (digitCount den : Int)
  let reached :=
    if 0 ≤ guess then den * pow10 guess.toNat ≤ num else den ≤ num * pow10 (-guess).toNat
  if reached then guess else guess - 1

/-- Remove zeros at the end of the digits, at most `fuel` of them. -/
def dropZeros : Nat → Decimal → Decimal
  | 0, d => d
  | fuel + 1, d =>
    if d.digits ≠ 0 ∧ d.digits % 10 = 0 then dropZeros fuel ⟨d.digits / 10, d.place + 1⟩ else d

/-- The grid point with last place `place` that is nearest to `num / den` among those of its two
neighbours that read back as `code`; a tie goes to the even one. -/
def onGrid? (code num den : Nat) (place : Int) : Option Decimal :=
  let (n, d) :=
    if 0 ≤ place then (num, den * pow10 place.toNat) else (num * pow10 (-place).toNat, den)
  let below := n / d
  let reads (k : Nat) : Bool :=
    let (a, b) := (Decimal.mk k place).ratio
    Binary64.nearestCode a b == code
  let upper := 2 * (n % d) > d ∨ (2 * (n % d) = d ∧ below % 2 = 1)
  if reads below && reads (below + 1) then
    some ⟨if upper then below + 1 else below, place⟩
  else if reads below then some ⟨below, place⟩
  else if reads (below + 1) then some ⟨below + 1, place⟩
  else none

/-- Try the grids with `count`, `count + 1`, … digits. -/
def shortestFrom (code num den : Nat) (lead : Int) : Nat → Nat → Decimal
  | 0, _ => ⟨num / den, 0⟩
  | fuel + 1, count =>
    match onGrid? code num den (lead - count + 1) with
    | some d => d
    | none => shortestFrom code num den lead fuel (count + 1)

/-- The shortest decimal that reads back as the finite, positive number `x`. Seventeen digits are
always enough. -/
def shortest (x : Binary64) : Decimal :=
  let (num, den) := x.ratio
  dropZeros 20 (shortestFrom x.code num den (leadingPlace num den) 17 1)

end Decimal

/-- How a number is laid out: the exponents written in plain notation. -/
structure FloatLayout where
  plainFrom : Int
  plainTo : Int
  deriving DecidableEq, Repr

/-- Plain notation for exponents from -5 to 15; a plain number always has a fraction, and an exponent
always has a sign. -/
def FloatLayout.json : FloatLayout := ⟨-5, 15⟩

namespace FloatLayout

/-- The text of the digits `ds`, the first of which has the exponent `e`. -/
def layOut (layout : FloatLayout) (ds : List Char) (e : Int) : List Char :=
  if layout.plainFrom ≤ e ∧ e ≤ layout.plainTo then
    if e < 0 then '0' :: '.' :: (List.replicate (-e - 1).toNat '0' ++ ds)
    else
      let whole := e.toNat + 1
      if ds.length ≤ whole then ds ++ List.replicate (whole - ds.length) '0' ++ ['.', '0']
      else ds.take whole ++ '.' :: ds.drop whole
  else
    let mantissa :=
      match ds with
      | [] => []
      | [d] => [d]
      | d :: rest => d :: '.' :: rest
    let sign := if e < 0 then '-' else '+'
    mantissa ++ 'e' :: sign :: Nat.toDigits 10 e.natAbs

/-- The text of a finite number. -/
def render (layout : FloatLayout) (x : Binary64) : List Char :=
  let body :=
    if x.isZero then ['0', '.', '0']
    else
      let d := Decimal.shortest x
      let ds := Nat.toDigits 10 d.digits
      layout.layOut ds (d.place + ds.length - 1)
  if x.negative then '-' :: body else body

end FloatLayout

end Colloquy
