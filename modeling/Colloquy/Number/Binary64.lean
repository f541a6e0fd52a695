import Colloquy.Number.Power

/-!
# Colloquy — binary64 numbers

Fractions in JSON values and in lengths of time are numbers of the 64-bit binary
floating-point format. A number is kept as its sign and its other 63 bits, and every
operation is exact arithmetic on natural numbers followed by one rounding to the
nearest number of the format, a tie going to the even one.

* `Binary64.magnitude` — the mantissa and the exponent of a finite number.
* `Binary64.nearest` — the number of the format nearest to a ratio.
* `Binary64.mul`, `Binary64.div`, `Binary64.add` — arithmetic, rounded once.
-/

namespace Colloquy

/-- A number of the binary64 format: its sign, and its other 63 bits as a number. -/
structure Binary64 where
  negative : Bool
  code : Nat
  deriving DecidableEq, Repr, Inhabited

namespace Binary64

/-- The code of the infinities; the codes above it are no numbers. -/
def infinityCode : Nat := 2047 * pow2 52

def zero : Binary64 := ⟨false, 0⟩

def nan : Binary64 := ⟨false, infinityCode + pow2 51⟩

def isFinite (x : Binary64) : Bool :=
  x.code < infinityCode

def isInfinite (x : Binary64) : Bool :=
  x.code == infinityCode

def isNan (x : Binary64) : Bool :=
  infinityCode < x.code

/-- Zero of either sign. -/
def isZero (x : Binary64) : Bool :=
  x.code == 0

def neg (x : Binary64) : Binary64 :=
  ⟨!x.negative, x.code⟩

/-- The mantissa and the exponent of the absolute value: it is `m * 2 ^ q`. -/
def magnitude (x : Binary64) : Nat × Int :=
  let biased : Nat := x.code / pow2 52
  let fraction : Nat := x.code % pow2 52
  if biased = 0 then (fraction, -1074) else (pow2 52 + fraction, Int.ofNat biased - 1075)

/-- The absolute value of a finite number as a ratio of natural numbers. -/
def ratio (x : Binary64) : Nat × Nat :=
  let (m, q) := x.magnitude
  if 0 ≤ q then (m * pow2 q.toNat, 1) else (m, pow2 (-q).toNat)

/-- `num / den` rounded to a natural number, a tie going to the even one. -/
def roundHalfEven (num den : Nat) : Nat :=
  let whole := num / den
  let rest := num % den
  if den < 2 * rest ∨ (den = 2 * rest ∧ whole % 2 = 1) then whole + 1 else whole

/-- The exponent of the last place of numbers near `num / den`. -/
def placeOf (num den : Nat) : Int :=
  let guess : Int := (num.log2 : Int) - (den.log2 : Int) - 52
  let reached :=
    if 0 ≤ guess then den * pow2 guess.toNat * pow2 52 ≤ num
    else den * pow2 52 ≤ num * pow2 (-guess).toNat
  max (if reached then guess else guess - 1) (-1074)

/-- The code of the number nearest to `num / den`. -/
def nearestCode (num den : Nat) : Nat :=
  if num = 0 ∨ den = 0 then 0
  else
    let q := placeOf num den
    let m :=
      if 0 ≤ q then roundHalfEven num (den * pow2 q.toNat)
      else roundHalfEven (num * pow2 (-q).toNat) den
    min ((q + 1074).toNat * pow2 52 + m) infinityCode

/-- The number of the given sign nearest to `num / den`; infinity beyond the largest. -/
def nearest (negative : Bool) (num den : Nat) : Binary64 :=
  ⟨negative, nearestCode num den⟩

def ofNat (n : Nat) : Binary64 :=
  nearest false n 1

def ofInt (i : Int) : Binary64 :=
  nearest (decide (i < 0)) i.natAbs 1

/-- The number nearest to `10 ^ k`. -/
def tenPow (k : Nat) : Binary64 :=
  ofNat (pow10 k)

def mul (x y : Binary64) : Binary64 :=
  let negative := x.negative != y.negative
  if x.isNan || y.isNan then nan
  else if x.isInfinite || y.isInfinite then
    if x.isZero || y.isZero then nan else ⟨negative, infinityCode⟩
  else
    let (a, b) := x.ratio
    let (c, d) := y.ratio
    nearest negative (a * c) (b * d)

def div (x y : Binary64) : Binary64 :=
  let negative := x.negative != y.negative
  if x.isNan || y.isNan then nan
  else if x.isInfinite then
    if y.isInfinite then nan else ⟨negative, infinityCode⟩
  else if y.isInfinite then ⟨negative, 0⟩
  else if y.isZero then
    if x.isZero then nan else ⟨negative, infinityCode⟩
  else
    let (a, b) := x.ratio
    let (c, d) := y.ratio
    nearest negative (a * d) (b * c)

/-- The value of a finite number as a signed numerator over a denominator. -/
def signedRatio (x : Binary64) : Int × Nat :=
  let (a, b) := x.ratio
  (if x.negative then -(a : Int) else a, b)

def add (x y : Binary64) : Binary64 :=
  if x.isNan || y.isNan then nan
  else if x.isInfinite then
    if y.isInfinite && x.negative != y.negative then nan else x
  else if y.isInfinite then y
  else
    let (a, b) := x.signedRatio
    let (c, d) := y.signedRatio
    let sum := a * d + c * b
    if sum = 0 then ⟨x.negative && y.negative, 0⟩
    else nearest (decide (sum < 0)) sum.natAbs (b * d)

/-- Toward zero, held between `0` and `most`. -/
def toNatClamped (x : Binary64) (most : Nat) : Nat :=
  if x.isNan || x.negative then 0
  else if x.isInfinite then most
  else
    let (a, b) := x.ratio
    min (a / b) most

end Binary64

end Colloquy
