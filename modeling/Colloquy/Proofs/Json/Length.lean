import Colloquy.Json.Parser

/-!
# Colloquy — how much is read

A string is read from more characters than it has, by its quotes at least
(`Json.length_string?`), and a numeral is never read as a string. So a text that holds
a string is longer than that string (`Json.length_lt_of_parse?_eq_str`), and no text
holds itself.
-/

namespace Colloquy.Json

-- ---------------------------------------------------------------------------
-- Strings
-- ---------------------------------------------------------------------------

theorem length_fourHex? {s rest : List Char} {n : Nat} (h : fourHex? s = some (n, rest)) :
    rest.length < s.length := by
  unfold fourHex? at h
  split at h
  · simp only [Option.bind_eq_bind, Option.bind_eq_some_iff, Option.some.injEq, Prod.mk.injEq] at h
    obtain ⟨-, -, -, -, -, -, -, -, -, rfl⟩ := h
    simp only [List.length_cons]
    omega
  · exact absurd h (by simp)

theorem length_unicodeEscape? {s rest : List Char} {c : Char}
    (h : unicodeEscape? s = some (c, rest)) : rest.length < s.length := by
  unfold unicodeEscape? at h
  obtain ⟨⟨n, after⟩, hfour, h⟩ := Option.bind_eq_some_iff.mp h
  have hafter := length_fourHex? hfour
  dsimp only at h
  split at h
  · exact absurd h (by simp)
  · split at h
    -- a high surrogate is read together with its low one
    · split at h
      · next more =>
        obtain ⟨⟨m, last⟩, hmore, h⟩ := Option.bind_eq_some_iff.mp h
        have hlast := length_fourHex? hmore
        simp only [List.length_cons] at hafter
        dsimp only at h
        split at h
        · obtain rfl : last = rest := (Prod.mk.inj (Option.some.inj h)).2
          omega
        · exact absurd h (by simp)
      · exact absurd h (by simp)
    · obtain rfl : after = rest := (Prod.mk.inj (Option.some.inj h)).2
      exact hafter

theorem length_stringBody? {fuel : Nat} {s cs rest : List Char}
    (h : stringBody? fuel s = some (cs, rest)) : cs.length + rest.length < s.length := by
  fun_induction stringBody? fuel s generalizing cs rest with
  | case1 | case2 => exact absurd h (by simp)
  | case3 =>
    simp only [Option.some.injEq, Prod.mk.injEq] at h
    obtain ⟨rfl, rfl⟩ := h
    simp
  | case4 fuel s ih =>
    obtain ⟨⟨c, after⟩, hescape, h⟩ := Option.bind_eq_some_iff.mp h
    obtain ⟨⟨body, last⟩, hbody, h⟩ := Option.bind_eq_some_iff.mp h
    have hafter := length_unicodeEscape? hescape
    have hlast := ih after hbody
    simp only [Option.some.injEq, Prod.mk.injEq] at h
    obtain ⟨rfl, rfl⟩ := h
    simp only [List.length_cons]
    omega
  | case5 fuel e s he ih =>
    obtain ⟨c, -, h⟩ := Option.bind_eq_some_iff.mp h
    obtain ⟨⟨body, last⟩, hbody, h⟩ := Option.bind_eq_some_iff.mp h
    have hlast := ih hbody
    simp only [Option.some.injEq, Prod.mk.injEq] at h
    obtain ⟨rfl, rfl⟩ := h
    simp only [List.length_cons]
    omega
  | case6 => exact absurd h (by simp)
  | case7 fuel c s _ _ _ _ ih =>
    obtain ⟨⟨body, last⟩, hbody, h⟩ := Option.bind_eq_some_iff.mp h
    have hlast := ih hbody
    simp only [Option.some.injEq, Prod.mk.injEq] at h
    obtain ⟨rfl, rfl⟩ := h
    simp only [List.length_cons]
    omega

theorem length_string? {s rest : List Char} {t : String} (h : string? s = some (t, rest)) :
    t.length < s.length := by
  obtain ⟨⟨cs, last⟩, hbody, h⟩ := Option.map_eq_some_iff.mp h
  have hlength := length_stringBody? hbody
  obtain rfl : String.ofList cs = t := (Prod.mk.inj h).1
  rw [String.length_ofList]
  omega

-- ---------------------------------------------------------------------------
-- Numerals
-- ---------------------------------------------------------------------------

/-- The value is no string. -/
def IsNoString (v : Json) : Prop := ∀ t, v ≠ .str t

theorem isNoString_wholeNumber (negative : Bool) (n : Nat) :
    IsNoString (wholeNumber negative n) := by
  intro t
  unfold wholeNumber
  repeat' split
  all_goals simp

/-- A number that was scaled is real. -/
theorem isNoString_realOf? {negative : Bool} {n : Nat} {e : Int} {rest : List Char}
    {found : Json × List Char} (h : (realOf? negative n e).map (·, rest) = some found) :
    IsNoString found.1 := by
  intro t ht
  unfold realOf? at h
  simp only [Option.map_map, Option.map_eq_some_iff] at h
  obtain ⟨x, -, rfl⟩ := h
  exact absurd ht (by simp)

theorem isNoString_exponentPart? {negative : Bool} {n : Nat} {start : Int} {s : List Char}
    {found : Json × List Char} (h : exponentPart? negative n start s = some found) :
    IsNoString found.1 := by
  unfold exponentPart? at h
  split at h
  dsimp only at h
  split at h
  · exact absurd h (by simp)
  · split at h
    · split at h
      · exact absurd h (by simp)
      · obtain rfl := Option.some.inj h
        exact fun t => by simp
    · exact isNoString_realOf? h

theorem isNoString_tailPart? {negative : Bool} {n : Nat} {e : Int} {s : List Char}
    {found : Json × List Char} (h : tailPart? negative n e s = some found) :
    IsNoString found.1 := by
  unfold tailPart? at h
  split at h
  · split at h
    · exact isNoString_exponentPart? h
    · exact isNoString_realOf? h
  · exact isNoString_realOf? h

theorem isNoString_fractionPart? {negative : Bool} {n : Nat} {e : Int} {s : List Char}
    {found : Json × List Char} (h : fractionPart? negative n e s = some found) :
    IsNoString found.1 := by
  unfold fractionPart? at h
  dsimp only at h
  split at h
  · split at h
    · exact isNoString_tailPart? h
    · split at h
      · exact absurd h (by simp)
      · exact isNoString_tailPart? h
  · split at h
    · exact absurd h (by simp)
    · exact isNoString_tailPart? h

theorem isNoString_unsigned? {negative : Bool} {s : List Char} {found : Json × List Char}
    (h : unsigned? negative s = some found) : IsNoString found.1 := by
  unfold unsigned? at h
  split at h
  · exact absurd h (by simp)
  · split at h
    · exact absurd h (by simp)
    · split at h
      · exact absurd h (by simp)
      · dsimp only at h
        split at h
        · exact isNoString_fractionPart? h
        · exact isNoString_exponentPart? h
        · exact isNoString_exponentPart? h
        · split at h
          · obtain rfl := Option.some.inj h
            exact isNoString_wholeNumber negative _
          · exact isNoString_realOf? h

theorem isNoString_numeral? {s : List Char} {found : Json × List Char}
    (h : numeral? s = some found) : IsNoString found.1 := by
  unfold numeral? at h
  split at h <;> exact isNoString_unsigned? h

-- ---------------------------------------------------------------------------
-- Texts that hold a string
-- ---------------------------------------------------------------------------

theorem length_skipSpace_le (s : List Char) : (skipSpace s).length ≤ s.length :=
  (List.dropWhile_sublist _).length_le

theorem length_value? {fuel d : Nat} {s rest : List Char} {t : String}
    (h : value? fuel d s = some (.str t, rest)) : t.length < s.length := by
  have hskip := length_skipSpace_le s
  cases fuel with
  | zero => exact absurd h (by simp [value?])
  | succ fuel =>
    rw [value?] at h
    split at h
    · exact absurd h (by simp)
    · exact absurd h (by simp)
    · exact absurd h (by simp)
    · next hs =>
      obtain ⟨⟨text, after⟩, htext, h⟩ := Option.map_eq_some_iff.mp h
      have hlength := length_string? htext
      obtain rfl : text = t := by simpa using (Prod.mk.inj h).1
      rw [hs, List.length_cons] at hskip
      omega
    · repeat' split at h
      all_goals simp at h
    · repeat' split at h
      all_goals simp [object] at h
    · exact absurd rfl (isNoString_numeral? h t)

/-- A text that holds a string is longer than the string. -/
theorem length_lt_of_parse?_eq_str {s t : String} (h : parse? s = some (.str t)) :
    t.length < s.length := by
  unfold parse? parseChars? at h
  split at h
  · next v rest hread =>
    split at h
    · obtain rfl := Option.some.inj h
      rw [← String.length_toList (s := s)]
      exact length_value? hread
    · exact absurd h (by simp)
  · exact absurd h (by simp)

/-- No text holds itself as a string. -/
theorem parse?_ne_str_self (s : String) : parse? s ≠ some (.str s) :=
  fun h => Nat.lt_irrefl _ (length_lt_of_parse?_eq_str h)

end Colloquy.Json
