import Colloquy.Markup.Line
import Colloquy.Markup.Scan
import Colloquy.Proofs.Text.Cut
import Colloquy.Proofs.Text.Trim

/-!
# Colloquy — laws of line shapes

A header is its tag, a colon and the rest (`header?_eq_some_iff`). The first character
of a trimmed line tells fences, brackets and elements from headers
(`outside_shapes_of_tagChar`), and a line that opens a fence, an element or a command's
output has one of the characters `isZoneMark` in it.
-/

namespace Colloquy.Markup

open Text

-- ---------------------------------------------------------------------------
-- Headers
-- ---------------------------------------------------------------------------

theorem not_isBlank_of_isTagChar {c : Char} (h : isTagChar c = true) : isBlank c = false := by
  -- an underscore, a small letter or a digit, by its code point
  have hn : c.toNat = 0x5F ∨ (0x61 ≤ c.toNat ∧ c.toNat ≤ 0x7A) ∨
      (0x30 ≤ c.toNat ∧ c.toNat ≤ 0x39) := by
    unfold isTagChar at h
    change (decide ('a'.val ≤ c.val) && decide (c.val ≤ 'z'.val) ||
      (decide ('0'.val ≤ c.val) && decide (c.val ≤ '9'.val)) || c == '_') = true at h
    simp only [Bool.or_eq_true, Bool.and_eq_true, decide_eq_true_eq, beq_iff_eq,
      UInt32.le_iff_toNat_le] at h
    rcases h with (h | h) | rfl
    · exact Or.inr (Or.inl h)
    · exact Or.inr (Or.inr h)
    · exact Or.inl rfl
  simp only [isBlank, Bool.or_eq_false_iff, Bool.and_eq_false_iff, decide_eq_false_iff_not,
    beq_eq_false_iff_ne, ne_eq]
  omega

theorem header?_eq_some_iff {line tag rest : List Char} :
    header? line = some (tag, rest) ↔
      line = tag ++ ':' :: rest ∧ tag ≠ [] ∧ ∀ c ∈ tag, isTagChar c = true := by
  constructor
  · intro h
    have hline := List.takeWhile_append_dropWhile (p := isTagChar) (l := line)
    unfold header? at h
    split at h
    · simp at h
    · next hrest hne =>
      obtain ⟨rfl, rfl⟩ : line.takeWhile isTagChar = tag ∧ _ = rest := by simpa using h
      refine ⟨?_, hne, fun c hc => List.mem_takeWhile_imp hc⟩
      rw [← hrest]
      exact hline.symm
    · simp at h
  · rintro ⟨rfl, hne, htag⟩
    have htake : (tag ++ ':' :: rest).takeWhile isTagChar = tag := by
      rw [List.takeWhile_append_of_pos htag]
      simp [isTagChar]
    have hdrop : (tag ++ ':' :: rest).dropWhile isTagChar = ':' :: rest := by
      rw [List.dropWhile_append_of_pos htag]
      simp [isTagChar]
    unfold header?
    rw [htake, hdrop]
    cases tag with
    | nil => exact absurd rfl hne
    | cons c tag => rfl

/-- A header's line starts with a character of its tag. -/
theorem exists_cons_of_header? {line tag rest : List Char} (h : header? line = some (tag, rest)) :
    ∃ c r, line = c :: r ∧ isTagChar c = true := by
  obtain ⟨rfl, hne, htag⟩ := header?_eq_some_iff.mp h
  obtain ⟨c, r, rfl⟩ := List.exists_cons_of_ne_nil hne
  exact ⟨c, r ++ ':' :: rest, rfl, htag c (List.mem_cons_self ..)⟩

-- ---------------------------------------------------------------------------
-- First characters
-- ---------------------------------------------------------------------------

theorem head?_trim {c : Char} (hc : isBlank c = false) (r : List Char) :
    (trim (c :: r)).head? = some c := by
  obtain ⟨a, b, ha, hb, hs⟩ := exists_eq_append_trim (c :: r)
  -- nothing is trimmed before a character that is not blank
  have hanil : a = [] := by
    cases a with
    | nil => rfl
    | cons d a =>
      obtain ⟨rfl, -⟩ : c = d ∧ _ := by simpa using hs
      rw [allBlank_iff.mp ha c (List.mem_cons_self ..)] at hc
      exact absurd hc (by simp)
  subst hanil
  cases ht : trim (c :: r) with
  | nil =>
    rw [trim_eq_nil_iff, allBlank_iff] at ht
    rw [ht c (List.mem_cons_self ..)] at hc
    exact absurd hc (by simp)
  | cons d t =>
    rw [ht] at hs
    obtain ⟨rfl, -⟩ : c = d ∧ _ := by simpa using hs
    rfl

theorem head?_of_isFence {t : List Char} (h : isFence t = true) :
    t.head? = some '\x60' ∨ t.head? = some '-' := by
  rw [isFence, Bool.or_eq_true, List.isPrefixOf_iff_prefix, List.isPrefixOf_iff_prefix] at h
  rcases h with ⟨u, rfl⟩ | ⟨u, rfl⟩
  · exact Or.inl rfl
  · exact Or.inr rfl

theorem isFence_eq_false {t : List Char} (htick : t.head? ≠ some '\x60')
    (hdash : t.head? ≠ some '-') : isFence t = false := by
  rw [Bool.eq_false_iff]
  intro h
  rcases head?_of_isFence h with h' | h'
  · exact htick h'
  · exact hdash h'

theorem head?_of_openBracket {t : List Char} (h : openBracket.isPrefixOf t = true) :
    t.head? = some '[' := by
  obtain ⟨u, rfl⟩ := List.isPrefixOf_iff_prefix.mp h
  rfl

theorem head?_of_elementOpen? {t : List Char} {p : List Char × List Char}
    (h : elementOpen? t = some p) : t.head? = some '<' := by
  unfold elementOpen? at h
  split at h
  · rfl
  · simp at h

theorem mark_infix_of_commandOpen? {t command : List Char} (h : commandOpen? t = some command) :
    commandMark <:+: t := by
  induction t generalizing command with
  | nil => simp [commandOpen?] at h
  | cons c t ih =>
    rw [commandOpen?] at h
    split at h
    · next found => exact List.infix_cons (ih found)
    · split at h
      · next hafter =>
        unfold Text.dropStart? at hafter
        split at hafter
        · next hp => exact (List.isPrefixOf_iff_prefix.mp hp).isInfix
        · simp at hafter
      · simp at h

/-- A line that starts with a character of tags opens neither a fence nor brackets nor an
element. -/
theorem outside_shapes_of_tagChar {c : Char} (hc : isTagChar c = true) (r : List Char) :
    isFence (trim (c :: r)) = false ∧ openBracket.isPrefixOf (trim (c :: r)) = false ∧
      elementOpen? (trim (c :: r)) = none := by
  have hhead := head?_trim (not_isBlank_of_isTagChar hc) r
  -- each of these shapes starts with a character that is in no tag
  have hne {d : Char} (hd : isTagChar d = false) : (trim (c :: r)).head? ≠ some d := by
    rw [hhead]
    intro h
    rw [Option.some.inj h] at hc
    rw [hc] at hd
    exact absurd hd (by simp)
  refine ⟨?_, ?_, ?_⟩
  · exact isFence_eq_false (hne (by decide)) (hne (by decide))
  · rw [Bool.eq_false_iff]
    exact fun h => hne (by decide) (head?_of_openBracket h)
  · rw [Option.eq_none_iff_forall_ne_some]
    exact fun p h => hne (by decide) (head?_of_elementOpen? h)

/-- A line without spaces opens no command's output. -/
theorem commandOpen?_eq_none_of_not_mem {t : List Char} (h : ' ' ∉ t) : commandOpen? t = none := by
  rw [Option.eq_none_iff_forall_ne_some]
  intro command hc
  exact h ((mark_infix_of_commandOpen? hc).subset (by decide))

-- ---------------------------------------------------------------------------
-- Marks of zones
-- ---------------------------------------------------------------------------

/-- Characters of which every line that opens a fence, an element or a command's output has one. -/
def isZoneMark (c : Char) : Bool :=
  c == '\x60' || c == '-' || c == '<'

theorem zoneMark_not_isBlank {c : Char} (h : isZoneMark c = true) : isBlank c = false := by
  simp only [isZoneMark, Bool.or_eq_true, beq_iff_eq] at h
  rcases h with (rfl | rfl) | rfl <;> decide

/-- The line has a character that may open a zone other than brackets. -/
def hasZoneMark (line : List Char) : Bool :=
  line.any isZoneMark

theorem hasZoneMark_iff {line : List Char} :
    hasZoneMark line = true ↔ ∃ c ∈ line, isZoneMark c = true :=
  List.any_eq_true

theorem hasZoneMark_trim (line : List Char) : hasZoneMark (trim line) = hasZoneMark line := by
  rw [Bool.eq_iff_iff, hasZoneMark_iff, hasZoneMark_iff]
  constructor
  · rintro ⟨c, hm, hc⟩
    exact ⟨c, mem_of_mem_trim hm, hc⟩
  · rintro ⟨c, hm, hc⟩
    exact ⟨c, mem_trim hm (zoneMark_not_isBlank hc), hc⟩

theorem not_allBlank_of_hasZoneMark {line : List Char} (h : hasZoneMark line = true) :
    allBlank line = false := by
  obtain ⟨c, hm, hc⟩ := hasZoneMark_iff.mp h
  rw [Bool.eq_false_iff]
  intro hb
  have := zoneMark_not_isBlank hc
  rw [allBlank_iff.mp hb c hm] at this
  exact absurd this (by simp)

theorem hasZoneMark_removeFirst {pat line : List Char} (hp : hasZoneMark pat = false)
    (h : hasZoneMark line = true) : hasZoneMark (removeFirst pat line) = true := by
  obtain ⟨c, hm, hc⟩ := hasZoneMark_iff.mp h
  refine hasZoneMark_iff.mpr ⟨c, mem_removeFirst hm fun hmem => ?_, hc⟩
  rw [hasZoneMark_iff.mpr ⟨c, hmem, hc⟩] at hp
  exact absurd hp (by simp)

/-- A line without such a character opens at most brackets. -/
theorem outside_shapes_of_not_hasZoneMark {line : List Char} (h : hasZoneMark line = false) :
    isFence (trim line) = false ∧ commandOpen? (trim line) = none ∧
      elementOpen? (trim line) = none := by
  have hmark {c : Char} (hc : isZoneMark c = true) : c ∉ trim line := by
    intro hm
    rw [← hasZoneMark_trim, hasZoneMark_iff.mpr ⟨c, hm, hc⟩] at h
    exact absurd h (by simp)
  have hhead {c : Char} (hc : isZoneMark c = true) : (trim line).head? ≠ some c :=
    fun hh => hmark hc (List.mem_of_head? hh)
  refine ⟨?_, ?_, ?_⟩
  · exact isFence_eq_false (hhead (by decide)) (hhead (by decide))
  · rw [Option.eq_none_iff_forall_ne_some]
    intro command hc
    exact hmark (c := '-') (by decide) ((mark_infix_of_commandOpen? hc).subset (by decide))
  · rw [Option.eq_none_iff_forall_ne_some]
    exact fun p hp => hhead (by decide) (head?_of_elementOpen? hp)

end Colloquy.Markup
