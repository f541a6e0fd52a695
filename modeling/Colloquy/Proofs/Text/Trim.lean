import Colloquy.Text.Blank
import Mathlib.Data.List.DropRight
import Mathlib.Data.List.TakeWhile

/-!
# Colloquy — laws of trimming

Trimming takes a text apart into blanks, its trimmed part and blanks
(`exists_eq_append_trim`). Blanks at the ends make no difference to it
(`trim_append_left`, `trim_append_right`), it loses no character that is not blank
(`mem_trim`), and only a text of blanks is trimmed to nothing (`trim_eq_nil_iff`).
-/

namespace Colloquy.Text

-- ---------------------------------------------------------------------------
-- Blanks
-- ---------------------------------------------------------------------------

/-- The code points of blanks, which are few. -/
def blankCodes : List Nat :=
  [0x09, 0x0A, 0x0B, 0x0C, 0x0D, 0x20, 0x85, 0xA0, 0x1680, 0x2000, 0x2001, 0x2002, 0x2003, 0x2004,
   0x2005, 0x2006, 0x2007, 0x2008, 0x2009, 0x200A, 0x2028, 0x2029, 0x202F, 0x205F, 0x3000]

theorem toNat_mem_blankCodes {c : Char} (h : isBlank c = true) : c.toNat ∈ blankCodes := by
  simp only [isBlank, Bool.or_eq_true, Bool.and_eq_true, decide_eq_true_eq, beq_iff_eq] at h
  simp only [blankCodes, List.mem_cons, List.not_mem_nil, or_false]
  omega

theorem allBlank_iff {s : List Char} : allBlank s = true ↔ ∀ c ∈ s, isBlank c = true :=
  List.all_eq_true

@[simp]
theorem allBlank_nil : allBlank [] = true := rfl

theorem allBlank_append {s t : List Char} :
    allBlank (s ++ t) = (allBlank s && allBlank t) :=
  List.all_append

theorem allBlank_cons {c : Char} {s : List Char} (hc : isBlank c = true)
    (hs : allBlank s = true) : allBlank (c :: s) = true := by
  rw [allBlank, List.all_cons, hc, Bool.true_and]
  exact hs

theorem trimStart_eq_nil_iff {s : List Char} : trimStart s = [] ↔ allBlank s = true := by
  rw [trimStart, List.dropWhile_eq_nil_iff, allBlank_iff]

-- ---------------------------------------------------------------------------
-- Blanks at the ends
-- ---------------------------------------------------------------------------

theorem trimStart_append_left {a : List Char} (ha : allBlank a = true) (s : List Char) :
    trimStart (a ++ s) = trimStart s :=
  List.dropWhile_append_of_pos (allBlank_iff.mp ha)

theorem trimEnd_append_right {b : List Char} (hb : allBlank b = true) (s : List Char) :
    trimEnd (s ++ b) = trimEnd s := by
  rw [trimEnd, trimEnd, List.reverse_append, List.dropWhile_append_of_pos]
  intro c hc
  exact allBlank_iff.mp hb c (List.mem_reverse.mp hc)

theorem trim_append_left {a : List Char} (ha : allBlank a = true) (s : List Char) :
    trim (a ++ s) = trim s := by
  rw [trim, trim, trimStart_append_left ha]

theorem trim_append_right {b : List Char} (hb : allBlank b = true) (s : List Char) :
    trim (s ++ b) = trim s := by
  by_cases hs : allBlank s = true
  · rw [trim_append_left hs, trim, trim, trimStart_eq_nil_iff.mpr hs, trimStart_eq_nil_iff.mpr hb]
  -- not all is blank, so the start is trimmed within the first text
  · have hne : (trimStart s).isEmpty = false := by
      rw [List.isEmpty_eq_false_iff]
      exact fun h => hs (trimStart_eq_nil_iff.mp h)
    rw [trim, trim, show trimStart (s ++ b) = trimStart s ++ b by
      rw [trimStart, List.dropWhile_append]
      simp [← trimStart.eq_1, hne]]
    exact trimEnd_append_right hb _

/-- A text is blanks, its trimmed part, and blanks. -/
theorem exists_eq_append_trim (s : List Char) :
    ∃ a b, allBlank a = true ∧ allBlank b = true ∧ s = a ++ trim s ++ b := by
  refine ⟨s.takeWhile isBlank, (trimStart s).rtakeWhile isBlank, ?_, ?_, ?_⟩
  · exact allBlank_iff.mpr fun c hc => List.mem_takeWhile_imp hc
  · exact allBlank_iff.mpr fun c hc => List.mem_rtakeWhile_imp hc
  · rw [List.append_assoc]
    have hEnd : trim s ++ (trimStart s).rtakeWhile isBlank = trimStart s :=
      List.rdropWhile_append_rtakeWhile
    rw [hEnd, trimStart, List.takeWhile_append_dropWhile]

/-- The end of a trimmed text has no blanks at its own end, whatever stands before it. -/
theorem trimEnd_append_of_trim {s p r : List Char} (h : trim s = p ++ r) (hr : r ≠ [])
    (q : List Char) : trimEnd (q ++ r) = q ++ r := by
  have htrim : (p ++ r).rdropWhile isBlank = p ++ r := by
    rw [← h]
    exact List.rdropWhile_idempotent _ (trimStart s)
  have hlast := List.rdropWhile_eq_self_iff.mp htrim (by simp [hr])
  rw [List.getLast_append_of_ne_nil _ hr] at hlast
  refine List.rdropWhile_eq_self_iff.mpr fun hne => ?_
  rwa [List.getLast_append_of_ne_nil _ hr]

/-- Neither the first nor the last character is a blank. -/
def IsTrimmed (s : List Char) : Prop :=
  (∀ c ∈ s.head?, isBlank c = false) ∧ ∀ c ∈ s.getLast?, isBlank c = false

theorem trimStart_eq_self {s : List Char} (h : ∀ c ∈ s.head?, isBlank c = false) :
    trimStart s = s := by
  cases s with
  | nil => rfl
  | cons c s => exact List.dropWhile_cons_of_neg (by simp [h c rfl])

theorem IsTrimmed.trim_eq {s : List Char} (h : IsTrimmed s) : trim s = s := by
  have hlast : trimStart s.reverse = s.reverse :=
    trimStart_eq_self fun c hc => h.2 c (by rwa [List.head?_reverse] at hc)
  rw [trim, trimStart_eq_self h.1]
  show (trimStart s.reverse).reverse = s
  rw [hlast, List.reverse_reverse]

/-- Only the ends of a text count, whatever stands between them. -/
theorem IsTrimmed.append {s t : List Char} (hs : IsTrimmed s) (ht : IsTrimmed t) (hsne : s ≠ [])
    (htne : t ≠ []) (m : List Char) : IsTrimmed (s ++ m ++ t) := by
  constructor
  · rw [List.append_assoc, List.head?_append_of_ne_nil _ hsne]
    exact hs.1
  · rw [List.getLast?_append_of_ne_nil _ htne]
    exact ht.2

theorem isTrimmed_of_ends {c d : Char} (hc : isBlank c = false) (hd : isBlank d = false)
    (s : List Char) : IsTrimmed (c :: s ++ [d]) := by
  constructor
  · simpa using hc
  · rw [List.getLast?_concat]
    simpa using hd

/-- A text without blanks at its ends is trimmed. -/
theorem trim_of_ends {c d : Char} (hc : isBlank c = false) (hd : isBlank d = false)
    (s : List Char) : trim (c :: s ++ [d]) = c :: s ++ [d] :=
  (isTrimmed_of_ends hc hd s).trim_eq

@[simp]
theorem trim_nil : trim [] = [] := rfl

@[simp]
theorem trim_trim (s : List Char) : trim (trim s) = trim s := by
  obtain ⟨a, b, ha, hb, hs⟩ := exists_eq_append_trim s
  calc trim (trim s) = trim (a ++ trim s ++ b) := by
        rw [trim_append_right hb, trim_append_left ha]
    _ = trim s := by rw [← hs]

theorem trim_eq_nil_iff {s : List Char} : trim s = [] ↔ allBlank s = true := by
  constructor
  · intro h
    obtain ⟨a, b, ha, hb, hs⟩ := exists_eq_append_trim s
    rw [hs, h, allBlank_append, allBlank_append, ha, hb]
    rfl
  · intro h
    rw [trim, trimStart_eq_nil_iff.mpr h]
    rfl

theorem allBlank_trim (s : List Char) : allBlank (trim s) = allBlank s := by
  rw [Bool.eq_iff_iff, ← trim_eq_nil_iff, ← trim_eq_nil_iff, trim_trim]

-- ---------------------------------------------------------------------------
-- What trimming keeps
-- ---------------------------------------------------------------------------

theorem mem_trim {s : List Char} {c : Char} (hc : c ∈ s) (hb : isBlank c = false) :
    c ∈ trim s := by
  obtain ⟨a, b, ha, hb', hs⟩ := exists_eq_append_trim s
  rw [hs, List.mem_append, List.mem_append] at hc
  rcases hc with (h | h) | h
  · rw [allBlank_iff.mp ha c h] at hb
    exact absurd hb (by simp)
  · exact h
  · rw [allBlank_iff.mp hb' c h] at hb
    exact absurd hb (by simp)

theorem trim_sublist (s : List Char) : (trim s).Sublist s := by
  obtain ⟨a, b, -, -, hs⟩ := exists_eq_append_trim s
  have h := ((List.sublist_append_right a (trim s)).trans (List.sublist_append_left _ b))
  rwa [← hs] at h

theorem mem_of_mem_trim {s : List Char} {c : Char} (h : c ∈ trim s) : c ∈ s :=
  (trim_sublist s).subset h

theorem length_trim_le (s : List Char) : (trim s).length ≤ s.length :=
  (trim_sublist s).length_le

/-- Trimming that takes no character away changes nothing. -/
theorem trim_eq_self_of_length_le {s : List Char} (h : s.length ≤ (trim s).length) : trim s = s :=
  (trim_sublist s).eq_of_length_le h

/-- A character that is not blank stands in the trimmed text as often as in the text. -/
theorem count_trim {c : Char} (hc : isBlank c = false) (s : List Char) :
    (trim s).count c = s.count c := by
  -- the blanks that are taken away do not count
  have hzero {a : List Char} (ha : allBlank a = true) : a.count c = 0 := by
    rw [List.count_eq_zero]
    intro hm
    rw [allBlank_iff.mp ha c hm] at hc
    exact absurd hc (by simp)
  obtain ⟨a, b, ha, hb, hs⟩ := exists_eq_append_trim s
  conv_rhs => rw [hs, List.count_append, List.count_append, hzero ha, hzero hb]
  omega

-- ---------------------------------------------------------------------------
-- Texts without blanks
-- ---------------------------------------------------------------------------

/-- The text with all its blanks deleted. -/
def withoutBlanks (s : List Char) : List Char :=
  s.filter fun c => !isBlank c

@[simp]
theorem withoutBlanks_append (s t : List Char) :
    withoutBlanks (s ++ t) = withoutBlanks s ++ withoutBlanks t :=
  List.filter_append ..

theorem withoutBlanks_eq_nil_iff {s : List Char} : withoutBlanks s = [] ↔ allBlank s = true := by
  rw [withoutBlanks, List.filter_eq_nil_iff, allBlank_iff]
  simp

/-- Trimming takes blanks away and nothing else. -/
@[simp]
theorem withoutBlanks_trim (s : List Char) : withoutBlanks (trim s) = withoutBlanks s := by
  obtain ⟨a, b, ha, hb, hs⟩ := exists_eq_append_trim s
  conv_rhs =>
    rw [hs, withoutBlanks_append, withoutBlanks_append, withoutBlanks_eq_nil_iff.mpr ha,
      withoutBlanks_eq_nil_iff.mpr hb, List.nil_append, List.append_nil]

end Colloquy.Text
