import Colloquy.Json.Parser
import Colloquy.Json.Printer

/-!
# Colloquy — strings read back

A character of a string is written as itself, as a short escape or as a numbered one
(`Json.escaped_cases`), and each of the three is read as that character
(`Json.stringBody?_escaped`). So a string in quotes is read as it is, whatever characters
it has (`Json.string?_quoted`).
-/

namespace Colloquy.Json

-- ---------------------------------------------------------------------------
-- Reading one character
-- ---------------------------------------------------------------------------

/-- A character put before what is read of a string. -/
def prepend (c : Char) (body : List Char × List Char) : List Char × List Char :=
  (c :: body.1, body.2)

theorem stringBody?_plain {c : Char} (hquote : c ≠ '"') (hbackslash : c ≠ '\\')
    (hcontrol : 0x20 ≤ c.toNat) (fuel : Nat) (rest : List Char) :
    stringBody? (fuel + 1) (c :: rest) = (stringBody? fuel rest).map (prepend c) := by
  rw [stringBody?]
  · rw [if_neg (by simp [hbackslash, hcontrol])]
    cases stringBody? fuel rest <;> rfl
  · exact hquote
  · exact fun _ h => absurd h hbackslash
  · exact fun _ _ h => absurd h hbackslash

theorem stringBody?_short {e c : Char} (he : e ≠ 'u') (hc : simpleEscape? e = some c)
    (fuel : Nat) (rest : List Char) :
    stringBody? (fuel + 1) ('\\' :: e :: rest) = (stringBody? fuel rest).map (prepend c) := by
  rw [stringBody?, hc]
  · cases stringBody? fuel rest <;> rfl
  · exact he

theorem stringBody?_numbered {s rest : List Char} {c : Char}
    (hc : unicodeEscape? s = some (c, rest)) (fuel : Nat) :
    stringBody? (fuel + 1) ('\\' :: 'u' :: s) = (stringBody? fuel rest).map (prepend c) := by
  rw [stringBody?, hc]
  cases h : stringBody? fuel rest <;> simp [h, prepend]

-- ---------------------------------------------------------------------------
-- Writing one character
-- ---------------------------------------------------------------------------

theorem hexValue?_hexDigit : ∀ n < 16, hexValue? (hexDigit n) = some n := by
  decide

/-- A numbered escape below the space is read as its character. -/
theorem unicodeEscape?_control {n : Nat} (hn : n < 0x20) (rest : List Char) :
    unicodeEscape? ('0' :: '0' :: hexDigit (n / 16) :: hexDigit (n % 16) :: rest) =
      some (Char.ofNat n, rest) := by
  have hzero : hexValue? '0' = some 0 := rfl
  have hhigh := hexValue?_hexDigit (n / 16) (by omega)
  have hlow := hexValue?_hexDigit (n % 16) (by omega)
  have hvalue : ((0 * 16 + 0) * 16 + n / 16) * 16 + n % 16 = n := by omega
  have hfour : fourHex? ('0' :: '0' :: hexDigit (n / 16) :: hexDigit (n % 16) :: rest) =
      some (n, rest) := by
    simp only [fourHex?, hzero, hhigh, hlow, Option.bind_eq_bind, Option.bind_some, hvalue]
  rw [unicodeEscape?, hfour]
  simp only [Option.bind_eq_bind, Option.bind_some]
  rw [if_neg (by omega), if_neg (by omega)]

/-- How a character is written: as itself, as a short escape or as a numbered one. -/
theorem escaped_cases (c : Char) :
    (escaped c = [c] ∧ c ≠ '"' ∧ c ≠ '\\' ∧ 0x20 ≤ c.toNat) ∨
    (∃ e, escaped c = ['\\', e] ∧ e ≠ 'u' ∧ simpleEscape? e = some c) ∨
    (escaped c = ['\\', 'u', '0', '0', hexDigit (c.toNat / 16), hexDigit (c.toNat % 16)] ∧
      c.toNat < 0x20) := by
  have hchar {n : Nat} (h : c.toNat = n) : c = Char.ofNat n := by
    rw [← h, Char.ofNat_toNat]
  unfold escaped
  split
  · next h => exact Or.inr (Or.inl ⟨'"', rfl, by decide, by rw [eq_of_beq h]; rfl⟩)
  · next hquote =>
    split
    · next h => exact Or.inr (Or.inl ⟨'\\', rfl, by decide, by rw [eq_of_beq h]; rfl⟩)
    · next hbackslash =>
      split
      · next hcontrol =>
        split
        · next h => exact Or.inr (Or.inl ⟨'b', rfl, by decide, by rw [hchar h]; rfl⟩)
        · next h => exact Or.inr (Or.inl ⟨'t', rfl, by decide, by rw [hchar h]; rfl⟩)
        · next h => exact Or.inr (Or.inl ⟨'n', rfl, by decide, by rw [hchar h]; rfl⟩)
        · next h => exact Or.inr (Or.inl ⟨'f', rfl, by decide, by rw [hchar h]; rfl⟩)
        · next h => exact Or.inr (Or.inl ⟨'r', rfl, by decide, by rw [hchar h]; rfl⟩)
        · exact Or.inr (Or.inr ⟨rfl, hcontrol⟩)
      · next hcontrol =>
        exact Or.inl ⟨rfl, by simpa using hquote, by simpa using hbackslash, by omega⟩

/-- What is written for a character is read as that character. -/
theorem stringBody?_escaped (c : Char) (fuel : Nat) (rest : List Char) :
    stringBody? (fuel + 1) (escaped c ++ rest) = (stringBody? fuel rest).map (prepend c) := by
  obtain ⟨hself, hquote, hbackslash, hcontrol⟩ | ⟨e, hshort, he, hc⟩ | ⟨hnumbered, hcontrol⟩ :=
    escaped_cases c
  · rw [hself]
    exact stringBody?_plain hquote hbackslash hcontrol fuel rest
  · rw [hshort]
    exact stringBody?_short he hc fuel rest
  · rw [hnumbered]
    have hc := unicodeEscape?_control hcontrol rest
    rw [Char.ofNat_toNat] at hc
    exact stringBody?_numbered hc fuel

-- ---------------------------------------------------------------------------
-- Strings
-- ---------------------------------------------------------------------------

/-- Characters are read one by one, up to the quote that ends them. -/
theorem stringBody?_flatMap_escaped (cs rest : List Char) {fuel : Nat} (h : cs.length < fuel) :
    stringBody? fuel (cs.flatMap escaped ++ '"' :: rest) = some (cs, rest) := by
  obtain ⟨fuel, rfl⟩ := Nat.exists_eq_add_one_of_ne_zero (Nat.ne_zero_of_lt h)
  induction cs generalizing fuel with
  | nil => rfl
  | cons c cs ih =>
    rw [List.length_cons] at h
    obtain ⟨fuel, rfl⟩ := Nat.exists_eq_add_one_of_ne_zero (n := fuel) (by omega)
    rw [List.flatMap_cons, List.append_assoc, stringBody?_escaped, ih fuel (by omega)]
    rfl

/-- No character is written as nothing. -/
theorem length_le_flatMap_escaped (cs : List Char) : cs.length ≤ (cs.flatMap escaped).length := by
  induction cs with
  | nil => exact Nat.zero_le _
  | cons c cs ih =>
    have hc : 1 ≤ (escaped c).length := by
      obtain ⟨h, -⟩ | ⟨e, h, -⟩ | ⟨h, -⟩ := escaped_cases c <;> simp [h]
    rw [List.flatMap_cons, List.length_append, List.length_cons]
    omega

/-- A string is read as it is from its quotes. -/
theorem string?_quoted (s : String) (rest : List Char) :
    string? (s.toList.flatMap escaped ++ '"' :: rest) = some (s, rest) := by
  have hlength := length_le_flatMap_escaped s.toList
  rw [string?, stringBody?_flatMap_escaped _ _ (by rw [List.length_append]; omega), Option.map_some]
  dsimp only
  rw [String.ofList_toList]

end Colloquy.Json
