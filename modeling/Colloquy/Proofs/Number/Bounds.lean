import Colloquy.Number.Binary64
import Mathlib.Algebra.Order.Field.Power
import Mathlib.Data.Rat.Cast.Order
import Mathlib.Tactic.FieldSimp
import Mathlib.Tactic.Linarith
import Mathlib.Tactic.Positivity
import Mathlib.Tactic.Ring

/-!
# Colloquy — bounds of binary64 numbers

Rounding does not lead across a power of two: a ratio of at most `2 ^ k` is rounded to a number of
at most `2 ^ k` (`Binary64.atMost_nearest`). So a bound by a power of two is carried through
arithmetic (`Binary64.AtMost.mul`, `Binary64.AtMost.add`, `Binary64.AtMost.div`), and numbers
under such a bound are finite.
-/

namespace Colloquy

theorem cast_pow2 (n : Nat) : (pow2 n : ℚ) = 2 ^ n := by
  show ((2 ^ n : Nat) : ℚ) = 2 ^ n
  push_cast
  rfl

namespace Binary64

-- ---------------------------------------------------------------------------
-- Places
-- ---------------------------------------------------------------------------

/-- A number times a power of two, positive or negative, compared in natural numbers. -/
theorem mul_zpow_le_iff (a b : Nat) (q : Int) :
    (a : ℚ) * 2 ^ q ≤ b ↔
      if 0 ≤ q then a * pow2 q.toNat ≤ b else a ≤ b * pow2 (-q).toNat := by
  split
  · next hq =>
    lift q to Nat using hq
    rw [zpow_natCast, Int.toNat_natCast, ← cast_pow2]
    exact_mod_cast Iff.rfl
  · next hq =>
    obtain ⟨n, rfl⟩ : ∃ n : Nat, q = -n := ⟨q.natAbs, by omega⟩
    have hpos : (0 : ℚ) < 2 ^ n := by positivity
    rw [zpow_neg, zpow_natCast, ← div_eq_mul_inv, div_le_iff₀ hpos, neg_neg, Int.toNat_natCast,
      ← cast_pow2]
    exact_mod_cast Iff.rfl

variable {num den : Nat}

/-- A ratio stands between the powers of two that the lengths of its parts tell. -/
theorem ratio_bounds (hnum : num ≠ 0) (hden : den ≠ 0) :
    (den : ℚ) * 2 ^ ((num.log2 : Int) - den.log2 - 1) ≤ num ∧
      (num : ℚ) < den * 2 ^ ((num.log2 : Int) - den.log2 + 1) := by
  have hnum₁ : (2 : ℚ) ^ (num.log2 : Int) ≤ num := by
    exact_mod_cast Nat.log2_self_le hnum
  have hnum₂ : (num : ℚ) < 2 ^ ((num.log2 : Int) + 1) := by
    exact_mod_cast Nat.lt_log2_self
  have hden₁ : (2 : ℚ) ^ (den.log2 : Int) ≤ den := by
    exact_mod_cast Nat.log2_self_le hden
  have hden₂ : (den : ℚ) < 2 ^ ((den.log2 : Int) + 1) := by
    exact_mod_cast Nat.lt_log2_self
  have htwo : (2 : ℚ) ≠ 0 := by norm_num
  constructor
  · calc (den : ℚ) * 2 ^ ((num.log2 : Int) - den.log2 - 1)
        ≤ 2 ^ ((den.log2 : Int) + 1) * 2 ^ ((num.log2 : Int) - den.log2 - 1) := by gcongr
      _ = 2 ^ (num.log2 : Int) := by rw [← zpow_add₀ htwo]; congr 1; omega
      _ ≤ num := hnum₁
  · calc (num : ℚ) < 2 ^ ((num.log2 : Int) + 1) := hnum₂
      _ = 2 ^ (den.log2 : Int) * 2 ^ ((num.log2 : Int) - den.log2 + 1) := by
          rw [← zpow_add₀ htwo]; congr 1; omega
      _ ≤ den * 2 ^ ((num.log2 : Int) - den.log2 + 1) := by gcongr

/-- The last place of a ratio is one that a mantissa of 53 bits reaches down to; where it is not the
last place of all it is none too low. -/
theorem placeOf_spec (hnum : num ≠ 0) (hden : den ≠ 0) :
    -1074 ≤ placeOf num den ∧ (num : ℚ) < den * 2 ^ (placeOf num den + 53) ∧
      (placeOf num den = -1074 ∨ (den : ℚ) * 2 ^ (placeOf num den + 52) ≤ num) := by
  obtain ⟨hlow, hhigh⟩ := ratio_bounds hnum hden
  have htwo : (2 : ℚ) ≠ 0 := by norm_num
  set guess : Int := (num.log2 : Int) - den.log2 - 52 with hguess
  have hreached : (if 0 ≤ guess then den * pow2 guess.toNat * pow2 52 ≤ num
      else den * pow2 52 ≤ num * pow2 (-guess).toNat) ↔ (den : ℚ) * 2 ^ (guess + 52) ≤ num := by
    have hshift := mul_zpow_le_iff (den * pow2 52) num guess
    have hcast : ((den * pow2 52 : Nat) : ℚ) * 2 ^ guess = den * 2 ^ (guess + 52) := by
      rw [Nat.cast_mul, cast_pow2, zpow_add₀ htwo]
      ring
    rw [hcast] at hshift
    rw [hshift, Nat.mul_right_comm]
  have hmono {q : Int} (hq : (num : ℚ) < den * 2 ^ (q + 53)) :
      (num : ℚ) < den * 2 ^ (max q (-1074) + 53) := by
    refine lt_of_lt_of_le hq ?_
    gcongr
    · norm_num
    · exact le_max_left ..
  unfold placeOf
  simp only [← hguess, hreached]
  split
  · next h =>
    refine ⟨le_max_right .., hmono ?_, ?_⟩
    · rwa [show guess + 53 = (num.log2 : Int) - den.log2 + 1 by omega]
    · rcases le_total guess (-1074) with hle | hle
      · exact Or.inl (max_eq_right hle)
      · rw [max_eq_left hle]
        exact Or.inr h
  · next h =>
    refine ⟨le_max_right .., hmono ?_, ?_⟩
    · rw [show guess - 1 + 53 = guess + 52 by omega]
      exact not_le.mp h
    · rcases le_total (guess - 1) (-1074) with hle | hle
      · exact Or.inl (max_eq_right hle)
      · rw [max_eq_left hle, show guess - 1 + 52 = (num.log2 : Int) - den.log2 - 1 by omega]
        exact Or.inr hlow

-- ---------------------------------------------------------------------------
-- Rounding
-- ---------------------------------------------------------------------------

theorem roundHalfEven_le {bound : Nat} (hden : den ≠ 0) (h : num ≤ bound * den) :
    roundHalfEven num den ≤ bound := by
  have hwhole : num / den ≤ bound := Nat.div_le_of_le_mul (by rwa [Nat.mul_comm])
  unfold roundHalfEven
  dsimp only
  split
  · next hup =>
    have hdiv := Nat.div_add_mod num den
    rcases Nat.lt_or_ge (num / den) bound with hlt | hge
    · exact hlt
    · -- the ratio is the bound itself, and nothing is left to be rounded up
      have hle : den * bound ≤ den * (num / den) := Nat.mul_le_mul_left den hge
      rw [Nat.mul_comm] at h
      omega
  · exact hwhole

/-- The mantissa of a ratio at a place. -/
theorem mantissa_le {q : Int} {n : Nat} (hden : den ≠ 0)
    (h : (num : ℚ) ≤ den * 2 ^ (q + n)) :
    (if 0 ≤ q then roundHalfEven num (den * pow2 q.toNat)
      else roundHalfEven (num * pow2 (-q).toNat) den) ≤ pow2 n := by
  have htwo : (2 : ℚ) ≠ 0 := by norm_num
  have hdown : (num : ℚ) * 2 ^ (-q) ≤ (pow2 n * den : Nat) := by
    rw [zpow_neg, ← div_eq_mul_inv, div_le_iff₀ (by positivity)]
    calc (num : ℚ) ≤ den * 2 ^ (q + n) := h
      _ = (pow2 n * den : Nat) * 2 ^ q := by
          rw [zpow_add₀ htwo, zpow_natCast, Nat.cast_mul, cast_pow2]
          ring
  rw [mul_zpow_le_iff, neg_neg] at hdown
  split
  · next hq =>
    refine roundHalfEven_le (Nat.mul_ne_zero hden (pow2_pos _).ne') ?_
    rw [← Nat.mul_assoc]
    split at hdown
    · next hq' =>
      obtain rfl : q = 0 := by omega
      simpa [pow2] using hdown
    · exact hdown
  · next hq =>
    rw [if_pos (by omega)] at hdown
    exact roundHalfEven_le hden hdown

/-- What is at most a power of two is rounded to at most that power. -/
theorem nearestCode_le {k : Nat} (h : (num : ℚ) ≤ den * 2 ^ k) :
    nearestCode num den ≤ (k + 1023) * pow2 52 := by
  unfold nearestCode
  split
  · exact Nat.zero_le _
  · next hne =>
    obtain ⟨hnum, hden⟩ := not_or.mp hne
    dsimp only
    obtain ⟨hlast, hhigh, hlow⟩ := placeOf_spec hnum hden
    generalize placeOf num den = q at hlast hhigh hlow
    have hplace : q + 52 ≤ k := by
      rcases hlow with rfl | hlow
      · omega
      · have hpos : (0 : ℚ) < den := by exact_mod_cast Nat.pos_of_ne_zero hden
        have hle : (2 : ℚ) ^ (q + 52) ≤ 2 ^ (k : Int) := by
          rw [zpow_natCast]
          exact le_of_mul_le_mul_left (hlow.trans h) hpos
        exact (zpow_le_zpow_iff_right₀ (by norm_num)).mp hle
    have hfiftyTwo : pow2 52 = 4503599627370496 := rfl
    refine (Nat.min_le_left ..).trans ?_
    rcases hplace.lt_or_eq with hlt | heq
    · have hmantissa := mantissa_le (n := 53) hden hhigh.le
      rw [show pow2 53 = 9007199254740992 from rfl] at hmantissa
      rw [hfiftyTwo]
      omega
    · -- at the highest place the mantissa is at most that of the power of two
      have hmantissa := mantissa_le (q := q) (n := 52) hden (by
        rw [show q + ((52 : Nat) : Int) = k from heq, zpow_natCast]
        exact h)
      rw [hfiftyTwo] at hmantissa ⊢
      omega

-- ---------------------------------------------------------------------------
-- Numbers under a power of two
-- ---------------------------------------------------------------------------

/-- The number is not below zero and at most `2 ^ k`. -/
structure AtMost (x : Binary64) (k : Nat) : Prop where
  notNegative : x.negative = false
  code_le : x.code ≤ (k + 1023) * pow2 52

theorem atMost_nearest {k : Nat} (h : (num : ℚ) ≤ den * 2 ^ k) : (nearest false num den).AtMost k :=
  ⟨rfl, nearestCode_le h⟩

theorem atMost_ofNat {n k : Nat} (h : n ≤ 2 ^ k) : (ofNat n).AtMost k := by
  refine atMost_nearest ?_
  rw [Nat.cast_one, one_mul]
  exact_mod_cast h

theorem ratio_snd_pos (x : Binary64) : 0 < x.ratio.2 := by
  unfold ratio
  dsimp only
  split
  · exact Nat.one_pos
  · exact pow2_pos _

/-- The ratio of a number is its mantissa at its place. -/
theorem cast_ratio_fst (x : Binary64) :
    (x.ratio.1 : ℚ) = x.ratio.2 * (x.magnitude.1 * 2 ^ x.magnitude.2) := by
  unfold ratio
  dsimp only
  generalize x.magnitude.1 = m
  generalize x.magnitude.2 = q
  split
  · next hq =>
    lift q to Nat using hq
    rw [Int.toNat_natCast, zpow_natCast, Nat.cast_mul, cast_pow2, Nat.cast_one, one_mul]
  · next hq =>
    obtain ⟨n, rfl⟩ : ∃ n : Nat, q = -n := ⟨q.natAbs, by omega⟩
    rw [neg_neg, Int.toNat_natCast, zpow_neg, zpow_natCast, cast_pow2]
    field_simp

namespace AtMost

variable {x y : Binary64} {j k : Nat}

theorem mono (h : x.AtMost j) (hjk : j ≤ k) : x.AtMost k where
  notNegative := h.notNegative
  code_le := h.code_le.trans (Nat.mul_le_mul_right _ (by omega))

theorem isFinite (h : x.AtMost k) (hk : k ≤ 1023) : x.isFinite = true := by
  have hcode := h.code_le
  have hlt : x.code < infinityCode := by
    unfold infinityCode
    rw [show pow2 52 = 4503599627370496 from rfl] at hcode ⊢
    omega
  exact decide_eq_true hlt

theorem magnitude_le (h : x.AtMost k) :
    (x.magnitude.1 : ℚ) * 2 ^ x.magnitude.2 ≤ 2 ^ (k : Int) := by
  have htwo : (2 : ℚ) ≠ 0 := by norm_num
  have hcode := h.code_le
  have hpow : pow2 52 = 4503599627370496 := rfl
  have hfiftyTwo : ((4503599627370496 : Nat) : ℚ) = 2 ^ (52 : Int) := by norm_num
  have hfiftyThree : ((9007199254740992 : Nat) : ℚ) = 2 ^ (53 : Int) := by norm_num
  unfold magnitude
  dsimp only
  rw [hpow] at hcode ⊢
  set biased := x.code / 4503599627370496 with hbiased
  set fraction := x.code % 4503599627370496 with hfraction
  -- a mantissa of so many bits at a place that leaves room for them
  have hroom (m bits : Nat) (q : Int) (hm : (m : ℚ) ≤ 2 ^ (bits : Int)) (hq : q + bits ≤ k) :
      (m : ℚ) * 2 ^ q ≤ 2 ^ (k : Int) := by
    calc (m : ℚ) * 2 ^ q ≤ 2 ^ (bits : Int) * 2 ^ q := by gcongr
      _ = 2 ^ (q + bits) := by rw [← zpow_add₀ htwo, add_comm]
      _ ≤ 2 ^ (k : Int) := zpow_le_zpow_right₀ (by norm_num) hq
  split
  · refine hroom fraction 52 _ ?_ (by omega)
    refine le_trans ?_ hfiftyTwo.le
    exact_mod_cast (show fraction ≤ 4503599627370496 by omega)
  · rcases Nat.lt_or_ge biased (k + 1023) with hlt | hge
    · refine hroom _ 53 _ ?_ (by simp only [Int.ofNat_eq_natCast]; omega)
      refine le_trans ?_ hfiftyThree.le
      exact_mod_cast (show 4503599627370496 + fraction ≤ 9007199254740992 by omega)
    · refine hroom _ 52 _ ?_ (by simp only [Int.ofNat_eq_natCast]; omega)
      refine le_trans ?_ hfiftyTwo.le
      exact_mod_cast (show 4503599627370496 + fraction ≤ 4503599627370496 by omega)

theorem ratio_le (h : x.AtMost k) : (x.ratio.1 : ℚ) ≤ x.ratio.2 * 2 ^ k := by
  rw [cast_ratio_fst, ← zpow_natCast]
  gcongr
  exact h.magnitude_le

theorem isNan_eq_false (h : x.AtMost k) (hk : k ≤ 1023) : x.isNan = false := by
  have hlt : x.code < infinityCode := of_decide_eq_true (h.isFinite hk)
  exact decide_eq_false (by omega)

theorem isInfinite_eq_false (h : x.AtMost k) (hk : k ≤ 1023) : x.isInfinite = false := by
  have hlt : x.code < infinityCode := of_decide_eq_true (h.isFinite hk)
  exact beq_eq_false_iff_ne.mpr (by omega)

theorem mul (hx : x.AtMost j) (hy : y.AtMost k) (hj : j ≤ 1023) (hk : k ≤ 1023) :
    (x.mul y).AtMost (j + k) := by
  unfold Binary64.mul
  simp only [hx.isNan_eq_false hj, hy.isNan_eq_false hk, hx.isInfinite_eq_false hj,
    hy.isInfinite_eq_false hk, hx.notNegative, hy.notNegative, Bool.or_self, Bool.false_eq_true,
    if_false, bne_self_eq_false]
  refine atMost_nearest ?_
  push_cast
  calc (x.ratio.1 : ℚ) * y.ratio.1 ≤ (x.ratio.2 * 2 ^ j) * (y.ratio.2 * 2 ^ k) := by
        gcongr
        · exact hx.ratio_le
        · exact hy.ratio_le
    _ = x.ratio.2 * y.ratio.2 * 2 ^ (j + k) := by ring

/-- A quotient by a number that is at least a power of two. -/
theorem div (hx : x.AtMost (j + k)) (hjk : j + k ≤ 1023) (hy : y.isFinite = true)
    (hpositive : y.negative = false) (hleast : y.ratio.2 * 2 ^ j ≤ y.ratio.1)
    (hne : y.isZero = false) : (x.div y).AtMost k := by
  have hlt : y.code < infinityCode := of_decide_eq_true hy
  have hnan : y.isNan = false := decide_eq_false (by omega)
  have hinfinite : y.isInfinite = false := beq_eq_false_iff_ne.mpr (by omega)
  unfold Binary64.div
  simp only [hx.isNan_eq_false hjk, hnan, hx.isInfinite_eq_false hjk, hinfinite, hne,
    hx.notNegative, hpositive, Bool.or_self, Bool.false_eq_true, if_false, bne_self_eq_false]
  refine atMost_nearest ?_
  have hleast' : (y.ratio.2 : ℚ) * 2 ^ j ≤ y.ratio.1 := by exact_mod_cast hleast
  push_cast
  calc (x.ratio.1 : ℚ) * y.ratio.2 ≤ (x.ratio.2 * 2 ^ (j + k)) * y.ratio.2 := by
        gcongr
        exact hx.ratio_le
    _ = x.ratio.2 * (y.ratio.2 * 2 ^ j) * 2 ^ k := by ring
    _ ≤ x.ratio.2 * y.ratio.1 * 2 ^ k := by gcongr

theorem add (hx : x.AtMost k) (hy : y.AtMost k) (hk : k ≤ 1023) : (x.add y).AtMost (k + 1) := by
  unfold Binary64.add signedRatio
  simp only [hx.isNan_eq_false hk, hy.isNan_eq_false hk, hx.isInfinite_eq_false hk,
    hy.isInfinite_eq_false hk, hx.notNegative, hy.notNegative, Bool.or_self, Bool.and_self,
    Bool.false_eq_true, if_false]
  have hsum : (x.ratio.1 : Int) * y.ratio.2 + y.ratio.1 * x.ratio.2 =
      ((x.ratio.1 * y.ratio.2 + y.ratio.1 * x.ratio.2 : Nat) : Int) := by push_cast; rfl
  rw [hsum]
  split
  · exact ⟨rfl, Nat.zero_le _⟩
  · rw [decide_eq_false (by omega), Int.natAbs_natCast]
    refine atMost_nearest ?_
    push_cast
    calc (x.ratio.1 : ℚ) * y.ratio.2 + y.ratio.1 * x.ratio.2
        ≤ (x.ratio.2 * 2 ^ k) * y.ratio.2 + (y.ratio.2 * 2 ^ k) * x.ratio.2 := by
          gcongr
          · exact hx.ratio_le
          · exact hy.ratio_le
      _ = x.ratio.2 * y.ratio.2 * 2 ^ (k + 1) := by ring

end AtMost

end Binary64

end Colloquy
