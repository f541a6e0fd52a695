import Colloquy.Proofs.Json.RoundTrip

/-!
# Colloquy — values on a line

The text of a value has no control characters, since those of its strings are escaped
(`Json.forall_mem_chars`): it is a single line. The text of an object stands between
braces (`Json.exists_chars_obj`).
-/

namespace Colloquy.Json

-- ---------------------------------------------------------------------------
-- Control characters
-- ---------------------------------------------------------------------------

/-- The character is no control character. -/
def IsPrinted (c : Char) : Prop := 0x20 ≤ c.toNat

instance (c : Char) : Decidable (IsPrinted c) := inferInstanceAs (Decidable (_ ≤ _))

theorem isPrinted_of_all {s : List Char} (h : (s.all fun c => decide (IsPrinted c)) = true) :
    ∀ c ∈ s, IsPrinted c := by
  simpa using h

theorem isPrinted_of_isDigit {c : Char} (hc : c.isDigit = true) : IsPrinted c := by
  have hzero : '0'.toNat ≤ c.toNat := (Char.isDigit_iff_toNat.mp hc).1
  exact Nat.le_trans (by decide) hzero

theorem isPrinted_hexDigit : ∀ n < 16, IsPrinted (hexDigit n) := by
  decide

theorem isPrinted_of_simpleEscape? {e c : Char} (h : simpleEscape? e = some c) : IsPrinted e := by
  unfold simpleEscape? at h
  split at h <;> first | decide | exact absurd h (by simp)

/-- No escape has a control character. -/
theorem forall_mem_escaped (c : Char) : ∀ d ∈ escaped c, IsPrinted d := by
  obtain ⟨h, -, -, hc⟩ | ⟨e, h, -, he⟩ | ⟨h, hc⟩ := escaped_cases c
  · rw [h, List.forall_mem_singleton]
    exact hc
  · rw [h]
    simpa using ⟨by decide, isPrinted_of_simpleEscape? he⟩
  · have hhigh := isPrinted_hexDigit (c.toNat / 16) (by omega)
    have hlow := isPrinted_hexDigit (c.toNat % 16) (by omega)
    rw [h]
    simpa [hhigh, hlow] using by decide

theorem forall_mem_quoted (s : String) : ∀ c ∈ quoted s, IsPrinted c := by
  have hbody : ∀ c ∈ s.toList.flatMap escaped, IsPrinted c := by
    intro c hc
    obtain ⟨d, -, hd⟩ := List.mem_flatMap.mp hc
    exact forall_mem_escaped d c hd
  rw [quoted, List.forall_mem_cons, List.forall_mem_append, List.forall_mem_singleton]
  exact ⟨by decide, hbody, by decide⟩

theorem forall_mem_intChars (i : Int) : ∀ c ∈ intChars i, IsPrinted c := by
  have hdigits : ∀ c ∈ Nat.toDigits 10 i.natAbs, IsPrinted c := fun c hc =>
    isPrinted_of_isDigit (Nat.isDigit_of_mem_toDigits (by decide) (by decide) hc)
  unfold intChars
  split
  · exact List.forall_mem_cons.mpr ⟨by decide, hdigits⟩
  · exact hdigits

mutual

/-- The text of a value has no control characters. -/
theorem forall_mem_chars : ∀ v : Json, v.Integral → ∀ c ∈ chars v, IsPrinted c
  | .null, _ => isPrinted_of_all (by decide)
  | .bool true, _ => isPrinted_of_all (by decide)
  | .bool false, _ => isPrinted_of_all (by decide)
  | .int i, _ => forall_mem_intChars i
  | .real _, h => absurd h id
  | .str s, _ => forall_mem_quoted s
  | .arr [], _ => isPrinted_of_all (by decide)
  | .arr (v :: vs), ⟨hv, hvs⟩ => by
    rw [chars, List.forall_mem_cons, List.forall_mem_append]
    exact ⟨by decide, forall_mem_chars v hv, forall_mem_itemChars vs hvs⟩
  | .obj [], _ => isPrinted_of_all (by decide)
  | .obj ((k, v) :: fs), ⟨hv, hfs⟩ => by
    rw [chars, List.forall_mem_cons, List.forall_mem_append, List.forall_mem_cons,
      List.forall_mem_append]
    exact ⟨by decide, forall_mem_quoted k, by decide, forall_mem_chars v hv,
      forall_mem_fieldChars fs hfs⟩

theorem forall_mem_itemChars : ∀ vs : List Json, IntegralItems vs →
    ∀ c ∈ itemChars vs, IsPrinted c
  | [], _ => isPrinted_of_all (by decide)
  | v :: vs, ⟨hv, hvs⟩ => by
    rw [itemChars, List.forall_mem_cons, List.forall_mem_append]
    exact ⟨by decide, forall_mem_chars v hv, forall_mem_itemChars vs hvs⟩

theorem forall_mem_fieldChars : ∀ fs : Fields, IntegralFields fs →
    ∀ c ∈ fieldChars fs, IsPrinted c
  | [], _ => isPrinted_of_all (by decide)
  | (k, v) :: fs, ⟨hv, hfs⟩ => by
    rw [fieldChars, List.forall_mem_cons, List.forall_mem_append, List.forall_mem_cons,
      List.forall_mem_append]
    exact ⟨by decide, forall_mem_quoted k, by decide, forall_mem_chars v hv,
      forall_mem_fieldChars fs hfs⟩

end

theorem newline_not_mem_chars {v : Json} (h : v.Integral) : '\n' ∉ chars v :=
  fun hmem => absurd (forall_mem_chars v h _ hmem) (by decide)

-- ---------------------------------------------------------------------------
-- Braces
-- ---------------------------------------------------------------------------

theorem exists_fieldChars_eq_concat (fs : Fields) : ∃ s, fieldChars fs = s ++ ['\x7d'] := by
  induction fs with
  | nil => exact ⟨[], rfl⟩
  | cons field fs ih =>
    obtain ⟨k, v⟩ := field
    obtain ⟨s, hs⟩ := ih
    refine ⟨',' :: (quoted k ++ ':' :: (chars v ++ s)), ?_⟩
    rw [fieldChars, hs]
    simp

/-- The text of an object stands between braces. -/
theorem exists_chars_obj (fs : Fields) :
    ∃ body, chars (.obj fs) = '\x7b' :: body ++ ['\x7d'] := by
  cases fs with
  | nil => exact ⟨[], rfl⟩
  | cons field fs =>
    obtain ⟨k, v⟩ := field
    obtain ⟨s, hs⟩ := exists_fieldChars_eq_concat fs
    refine ⟨quoted k ++ ':' :: (chars v ++ s), ?_⟩
    rw [chars, hs]
    simp

end Colloquy.Json
