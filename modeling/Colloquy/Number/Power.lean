/-!
# Colloquy — powers of two and of ten

Formats of numbers are made of powers of two, and decimal notation of powers of ten.
-/

namespace Colloquy

/-- A power of two. -/
def pow2 (n : Nat) : Nat := Nat.pow 2 n

/-- A power of ten. -/
def pow10 (n : Nat) : Nat := Nat.pow 10 n

theorem pow2_pos (n : Nat) : 0 < pow2 n := Nat.pow_pos (by decide)

end Colloquy
