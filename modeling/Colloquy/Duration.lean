import Colloquy.Error

/-!
# Colloquy — lengths of time

A length of time is a whole number of nanoseconds. Seconds given in the binary64
format are rounded to the nearest nanosecond, a tie going to the even one; a number
of seconds that is negative, no number, or beyond 64 bits is no length of time, and
turning it into one is a fault.
-/

namespace Colloquy

structure Duration where
  totalNanos : Nat
  deriving DecidableEq, Repr, Inhabited

namespace Duration

def nanosPerSecond : Nat := 1000000000

def ofMillis (ms : Nat) : Duration := ⟨ms * 1000000⟩

def ofSecs (secs : Nat) : Duration := ⟨secs * nanosPerSecond⟩

def secs (d : Duration) : Nat := d.totalNanos / nanosPerSecond

/-- The nanoseconds beyond the whole seconds. -/
def nanos (d : Duration) : Nat := d.totalNanos % nanosPerSecond

def millis (d : Duration) : Nat := d.totalNanos / 1000000

/-- Fewer seconds than this can be counted. -/
def secondsLimit : Nat := pow2 64

/-- The seconds as a length of time. -/
def ofSeconds? (x : Binary64) : Option Duration :=
  if !x.isFinite then none
  else if x.negative && !x.isZero then none
  else
    let (num, den) := x.ratio
    if num < secondsLimit * den then some ⟨Binary64.roundHalfEven (num * nanosPerSecond) den⟩
    else none

/-- The seconds as a length of time, or a fault. -/
def ofSeconds (x : Binary64) : Except Failure Duration :=
  match ofSeconds? x with
  | some d => .ok d
  | none => .error .fault

/-- The length in seconds: whole seconds and the part of a second, each rounded, added. -/
def toSeconds (d : Duration) : Binary64 :=
  (Binary64.ofNat d.secs).add ((Binary64.ofNat d.nanos).div (Binary64.ofNat nanosPerSecond))

/-- The length times a factor. -/
def scale (d : Duration) (factor : Binary64) : Except Failure Duration :=
  ofSeconds (factor.mul d.toSeconds)

/-- The shorter of two lengths. -/
def shorter (a b : Duration) : Duration :=
  if a.totalNanos ≤ b.totalNanos then a else b

end Duration

end Colloquy
