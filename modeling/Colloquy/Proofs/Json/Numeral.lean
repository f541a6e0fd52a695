import Colloquy.Json.Numeral
import Colloquy.Json.Printer

/-!
# Colloquy — integers read back

The digits of a number are gathered into that number (`Json.gather_toDigits`), and a
numeral ends where neither a digit nor the mark of a fraction or of an exponent follows.
So an integer of 64 bits, signed or unsigned, is read from its digits
(`Json.numeral?_intChars`).

* `Json.EndsNumeral` — texts before which a numeral ends.
* `Json.StartsNumeral` — characters with which one starts.
* `Json.FitsInteger` — the integers of 64 bits.
-/

namespace Colloquy.Json

/-- A numeral before this text does not go on with it. -/
def EndsNumeral (rest : List Char) : Prop :=
  ∀ c ∈ rest.head?, c.isDigit = false ∧ c ≠ '.' ∧ c ≠ 'e' ∧ c ≠ 'E'

/-- The character may be the first of a numeral. -/
def StartsNumeral (c : Char) : Prop := c = '-' ∨ c.isDigit = true

/-- The integer has 64 bits, with a sign or without one. -/
def FitsInteger (i : Int) : Prop :=
  -(pow2 63 : Int) ≤ i ∧ i ≤ greatestSignificand

instance (i : Int) : Decidable (FitsInteger i) := inferInstanceAs (Decidable (_ ∧ _))

theorem endsNumeral_nil : EndsNumeral [] := nofun

theorem endsNumeral_cons {c : Char} (hdigit : c.isDigit = false)
    (hmarks : c ≠ '.' ∧ c ≠ 'e' ∧ c ≠ 'E') (rest : List Char) : EndsNumeral (c :: rest) := by
  intro d hd
  obtain rfl := Option.some.inj hd
  exact ⟨hdigit, hmarks⟩

-- ---------------------------------------------------------------------------
-- Digits
-- ---------------------------------------------------------------------------

/-- Further digits only make a number greater. -/
theorem le_ofDigitChars (ds : List Char) (acc : Nat) : acc ≤ Nat.ofDigitChars 10 ds acc := by
  rw [Nat.ofDigitChars_eq_ofDigitChars_zero]
  have hpow : acc ≤ 10 ^ ds.length * acc := Nat.le_mul_of_pos_left acc (Nat.pow_pos (by decide))
  omega

/-- Digits that fit are all gathered, up to the first character that is none. -/
theorem gather_digits {ds rest : List Char} (hds : ∀ c ∈ ds, c.isDigit = true)
    (hrest : EndsNumeral rest) {acc : Nat}
    (hfits : Nat.ofDigitChars 10 ds acc ≤ greatestSignificand) (count : Nat) :
    gather acc count (ds ++ rest) = (Nat.ofDigitChars 10 ds acc, count + ds.length, rest) := by
  induction ds generalizing acc count with
  | nil =>
    cases rest with
    | nil => rfl
    | cons c rest => simp [gather, (hrest c rfl).1]
  | cons c ds ih =>
    obtain ⟨hc, hds⟩ := List.forall_mem_cons.mp hds
    rw [Nat.ofDigitChars_cons] at hfits ⊢
    have hnext : acc * 10 + digitValue c = 10 * acc + (c.toNat - '0'.toNat) := by
      rw [digitValue]
      omega
    have hle : acc * 10 + digitValue c ≤ greatestSignificand := by
      rw [hnext]
      exact Nat.le_trans (le_ofDigitChars ds _) hfits
    rw [List.cons_append, gather, if_pos hc]
    dsimp only
    rw [if_pos hle, hnext, ih hds hfits (count + 1), List.length_cons]
    simp only [Nat.add_comm, Nat.add_left_comm]

theorem gather_toDigits {n : Nat} (hn : n ≤ greatestSignificand) {rest : List Char}
    (hrest : EndsNumeral rest) :
    gather 0 0 (Nat.toDigits 10 n ++ rest) = (n, (Nat.toDigits 10 n).length, rest) := by
  have hds : ∀ c ∈ Nat.toDigits 10 n, c.isDigit = true :=
    fun c hc => Nat.isDigit_of_mem_toDigits (by decide) (by decide) hc
  have hvalue : Nat.ofDigitChars 10 (Nat.toDigits 10 n) 0 = n := Nat.ofDigitChars_ten_toDigits
  rw [gather_digits hds hrest (by rwa [hvalue]), hvalue, Nat.zero_add]

/-- The digits of a number start with a digit. -/
theorem exists_toDigits_eq_cons (n : Nat) :
    ∃ c ds, Nat.toDigits 10 n = c :: ds ∧ c.isDigit = true := by
  obtain ⟨c, ds, hds⟩ := List.exists_cons_of_ne_nil (Nat.toDigits_ne_nil (b := 10) (n := n))
  have hmem : c ∈ Nat.toDigits 10 n := hds ▸ List.mem_cons_self ..
  exact ⟨c, ds, hds, Nat.isDigit_of_mem_toDigits (by decide) (by decide) hmem⟩

/-- Only zero is written with a zero in front, and that is its only digit. -/
theorem eq_zero_of_head?_toDigits {n : Nat} (h : (Nat.toDigits 10 n).head? = some '0') :
    n = 0 := by
  induction n using Nat.strongRecOn with
  | ind n ih =>
    rw [Nat.toDigits_eq_if (by decide)] at h
    split at h
    · exact Nat.digitChar_eq_zero.mp (Option.some.inj h)
    · next hten =>
      obtain ⟨c, ds, hds, -⟩ := exists_toDigits_eq_cons (n / 10)
      have hhead : (Nat.toDigits 10 (n / 10)).head? = some '0' := by
        rwa [hds] at h ⊢
      have := ih (n / 10) (by omega) hhead
      omega

-- ---------------------------------------------------------------------------
-- Integers
-- ---------------------------------------------------------------------------

theorem takeWhile_isDigit_of_endsNumeral {rest : List Char} (h : EndsNumeral rest) :
    rest.takeWhile Char.isDigit = [] := by
  cases rest with
  | nil => rfl
  | cons c rest => simp [(h c rfl).1]

theorem dropWhile_isDigit_of_endsNumeral {rest : List Char} (h : EndsNumeral rest) :
    rest.dropWhile Char.isDigit = rest := by
  cases rest with
  | nil => rfl
  | cons c rest => simp [(h c rfl).1]

theorem unsigned?_toDigits {negative : Bool} {n : Nat} (hn : n ≤ greatestSignificand)
    {rest : List Char} (hrest : EndsNumeral rest) :
    unsigned? negative (Nat.toDigits 10 n ++ rest) = some (wholeNumber negative n, rest) := by
  obtain ⟨c, ds, hds, hc⟩ := exists_toDigits_eq_cons n
  -- a zero in front is the whole numeral, and what follows it is no digit
  have hzero : (c == '0' && (ds ++ rest).head?.any Char.isDigit) = false := by
    by_cases hc0 : c = '0'
    · subst hc0
      obtain rfl := eq_zero_of_head?_toDigits (by rw [hds]; rfl)
      have hnil : ds = [] := by simpa using hds.symm
      subst hnil
      cases rest with
      | nil => rfl
      | cons d rest => simp [(hrest d rfl).1]
    · simp [hc0]
  have hgather := gather_toDigits hn hrest
  rw [hds, List.cons_append] at hgather ⊢
  rw [unsigned?, hc, hzero, hgather]
  dsimp only [Bool.not_true]
  rw [takeWhile_isDigit_of_endsNumeral hrest, dropWhile_isDigit_of_endsNumeral hrest,
    if_neg (by simp), if_neg (by simp)]
  split
  · exact absurd rfl (hrest _ rfl).2.1
  · exact absurd rfl (hrest _ rfl).2.2.1
  · exact absurd rfl (hrest _ rfl).2.2.2
  · rfl

/-- An integer is written with a first character of a numeral. -/
theorem exists_intChars_eq_cons (i : Int) :
    ∃ c ds, intChars i = c :: ds ∧ StartsNumeral c := by
  unfold intChars
  split
  · exact ⟨_, _, rfl, Or.inl rfl⟩
  · obtain ⟨c, ds, hds, hc⟩ := exists_toDigits_eq_cons i.natAbs
    exact ⟨c, ds, hds, Or.inr hc⟩

theorem numeral?_of_digit {c : Char} (hc : c.isDigit = true) (s : List Char) :
    numeral? (c :: s) = unsigned? false (c :: s) := by
  rw [numeral?]
  intro rest hs
  obtain rfl := (List.cons.inj hs).1
  exact absurd hc (by decide)

/-- An integer of 64 bits is read from its digits. -/
theorem numeral?_intChars {i : Int} (hi : FitsInteger i) {rest : List Char}
    (hrest : EndsNumeral rest) : numeral? (intChars i ++ rest) = some (.int i, rest) := by
  obtain ⟨hlow, hhigh⟩ := hi
  have hpow : pow2 63 ≤ greatestSignificand := by decide
  have hfits : i.natAbs ≤ greatestSignificand := by omega
  have hread (negative : Bool) : unsigned? negative (Nat.toDigits 10 i.natAbs ++ rest) =
      some (wholeNumber negative i.natAbs, rest) := unsigned?_toDigits hfits hrest
  unfold intChars
  split
  · next hneg =>
    have hinteger : ¬ ((decide (i.natAbs = 0) || decide (pow2 63 < i.natAbs)) = true) := by
      simp only [Bool.or_eq_true, decide_eq_true_eq]
      omega
    have hvalue : -((i.natAbs : Nat) : Int) = i := by omega
    rw [List.cons_append, numeral?, hread, wholeNumber, if_neg (by decide), if_neg hinteger, hvalue]
  · next hneg =>
    obtain ⟨c, ds, hds, hc⟩ := exists_toDigits_eq_cons i.natAbs
    have hplain : numeral? (Nat.toDigits 10 i.natAbs ++ rest) =
        unsigned? false (Nat.toDigits 10 i.natAbs ++ rest) := by
      rw [hds, List.cons_append, numeral?_of_digit hc]
    have hvalue : ((i.natAbs : Nat) : Int) = i := by omega
    rw [hplain, hread, wholeNumber, if_pos (by decide), hvalue]

end Colloquy.Json
