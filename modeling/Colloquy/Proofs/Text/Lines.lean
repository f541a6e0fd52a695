import Colloquy.Proofs.Text.Cut
import Colloquy.Proofs.Text.Trim
import Colloquy.Text.Lines

/-!
# Colloquy — laws of lines

A line feed cuts the lines of a text in two: those before it are all ended, and those
after it are the lines of what follows (`lines_append_newline`). A text and the same
text with its last line ended have lines that differ at most in that last one
(`exists_last_line`).

What is left of a text when its lines are trimmed and the blank ones dropped is
`nonblankLines`; it does not depend on blanks at the ends (`nonblankLines_trim`).
-/

namespace Colloquy.Text

-- ---------------------------------------------------------------------------
-- Carriage returns
-- ---------------------------------------------------------------------------

theorem dropReturn_eq_or (l : List Char) : dropReturn l = l ∨ l = dropReturn l ++ ['\r'] := by
  unfold dropReturn
  split
  · next h =>
    obtain ⟨t, rfl⟩ := List.isSuffixOf_iff_suffix.mp h
    right
    simp
  · exact Or.inl rfl

theorem dropReturn_sublist (l : List Char) : (dropReturn l).Sublist l := by
  rcases dropReturn_eq_or l with h | h
  · rw [h]
  · conv_rhs => rw [h]
    exact List.sublist_append_left _ _

theorem mem_of_mem_dropReturn {l : List Char} {c : Char} (h : c ∈ dropReturn l) : c ∈ l := by
  rcases dropReturn_eq_or l with hl | hl
  · rwa [hl] at h
  · rw [hl]
    exact List.mem_append_left _ h

theorem dropReturn_eq_self_iff {l : List Char} :
    dropReturn l = l ↔ ['\r'].isSuffixOf l = false := by
  constructor
  · intro h
    rw [Bool.eq_false_iff]
    intro hs
    obtain ⟨t, rfl⟩ := List.isSuffixOf_iff_suffix.mp hs
    have := congrArg List.length h
    rw [dropReturn, if_pos hs] at this
    simp at this
  · intro h
    rw [dropReturn, h]
    rfl

/-- A carriage return at the end of a line is a blank at its end. -/
theorem trim_dropReturn (l : List Char) : trim (dropReturn l) = trim l := by
  rcases dropReturn_eq_or l with h | h
  · rw [h]
  · conv_rhs => rw [h]
    exact (trim_append_right rfl _).symm

theorem dropReturn_append {s t : List Char} (ht : t ≠ []) :
    dropReturn (s ++ t) = s ++ dropReturn t := by
  -- only the last character counts, and that is one of the second text
  obtain ⟨u, c, hu⟩ := List.eq_nil_or_concat t |>.resolve_left ht
  rw [List.concat_eq_append] at hu
  subst hu
  have hsuffix (v : List Char) : ['\r'].isSuffixOf (v ++ [c]) = ('\r' == c) := by
    simp [List.isSuffixOf, List.isPrefixOf]
  rw [dropReturn, dropReturn, ← List.append_assoc, hsuffix, hsuffix]
  split <;> simp

-- ---------------------------------------------------------------------------
-- Lines of a concatenation
-- ---------------------------------------------------------------------------

/-- The lines of a text when a line feed follows it. -/
def endedLines (s : List Char) : List (List Char) :=
  (s.splitOn '\n').map dropReturn

theorem linesOfPieces_append (ps qs : List (List Char)) (hq : qs ≠ []) :
    linesOfPieces (ps ++ qs) = ps.map dropReturn ++ linesOfPieces qs := by
  induction ps with
  | nil => rfl
  | cons p ps ih =>
    obtain ⟨r, rs, hr⟩ := List.exists_cons_of_ne_nil (List.append_ne_nil_of_right_ne_nil ps hq)
    rw [List.cons_append, hr, linesOfPieces, ← hr, ih]
    rfl

theorem lines_append_newline (s t : List Char) :
    lines (s ++ '\n' :: t) = endedLines s ++ lines t := by
  rw [lines, List.splitOn_append_cons_self, linesOfPieces_append _ _ (List.splitOn_ne_nil _ _)]
  rfl

theorem endedLines_append_newline (s t : List Char) :
    endedLines (s ++ '\n' :: t) = endedLines s ++ endedLines t := by
  rw [endedLines, List.splitOn_append_cons_self, List.map_append]
  rfl

theorem endedLines_of_not_mem {s : List Char} (h : '\n' ∉ s) : endedLines s = [dropReturn s] := by
  rw [endedLines, List.splitOn_eq_singleton h]
  rfl

/-- The lines of a text are its ended lines, but for the last: that keeps a carriage return, and is
no line if it is empty. -/
theorem exists_last_line (s : List Char) :
    ∃ ls last, endedLines s = ls ++ [dropReturn last] ∧
      lines s = ls ++ if last.isEmpty then [] else [last] := by
  obtain ⟨ps, last, h⟩ := List.eq_nil_or_concat (s.splitOn '\n') |>.resolve_left
    (List.splitOn_ne_nil _ _)
  rw [List.concat_eq_append] at h
  -- all pieces but the last are ended by a line feed
  refine ⟨ps.map dropReturn, last, ?_, ?_⟩
  · rw [endedLines, h, List.map_append]
    rfl
  · rw [lines, h, linesOfPieces_append _ _ (by simp)]
    rfl

theorem not_mem_of_mem_endedLines {s l : List Char} (h : l ∈ endedLines s) : '\n' ∉ l := by
  obtain ⟨p, hp, rfl⟩ := List.mem_map.mp h
  exact fun hm => not_mem_of_mem_splitOn hp (mem_of_mem_dropReturn hm)

-- ---------------------------------------------------------------------------
-- Lines that are not blank
-- ---------------------------------------------------------------------------

/-- A line without the blanks at its ends; none if it is blank. -/
def nonblankLine (l : List Char) : List (List Char) :=
  if allBlank l then [] else [trim l]

/-- The lines of a text that are not blank, without the blanks at their ends. -/
def nonblankLines (s : List Char) : List (List Char) :=
  (s.splitOn '\n').flatMap nonblankLine

theorem nonblankLine_of_allBlank {l : List Char} (h : allBlank l = true) : nonblankLine l = [] :=
  if_pos h

theorem nonblankLine_of_not_allBlank {l : List Char} (h : allBlank l = false) :
    nonblankLine l = [trim l] := by
  rw [nonblankLine, h]
  rfl

theorem length_nonblankLine_le (l : List Char) : (nonblankLine l).length ≤ 1 := by
  unfold nonblankLine
  split <;> simp

/-- The nonblank part of a line depends on the trimmed line only. -/
theorem nonblankLine_congr {l k : List Char} (h : trim l = trim k) :
    nonblankLine l = nonblankLine k := by
  have hblank : allBlank l = allBlank k := by
    rw [Bool.eq_iff_iff, ← trim_eq_nil_iff, ← trim_eq_nil_iff, h]
  rw [nonblankLine, nonblankLine, hblank, h]

theorem nonblankLine_dropReturn (l : List Char) :
    nonblankLine (dropReturn l) = nonblankLine l :=
  nonblankLine_congr (trim_dropReturn l)

theorem nonblankLines_append_newline (s t : List Char) :
    nonblankLines (s ++ '\n' :: t) = nonblankLines s ++ nonblankLines t := by
  rw [nonblankLines, List.splitOn_append_cons_self, List.flatMap_append]
  rfl

theorem nonblankLines_of_not_mem {s : List Char} (h : '\n' ∉ s) :
    nonblankLines s = nonblankLine s := by
  rw [nonblankLines, List.splitOn_eq_singleton h, List.flatMap_singleton]

@[simp]
theorem nonblankLines_nil : nonblankLines [] = [] := rfl

theorem nonblankLines_eq_endedLines (s : List Char) :
    nonblankLines s = (endedLines s).flatMap nonblankLine := by
  rw [nonblankLines, endedLines, List.flatMap_map]
  simp only [nonblankLine_dropReturn]

theorem flatMap_nonblankLines_endedLines (s : List Char) :
    (endedLines s).flatMap nonblankLines = nonblankLines s := by
  rw [nonblankLines_eq_endedLines s]
  refine List.flatMap_congr fun l hl => ?_
  rw [nonblankLines_of_not_mem (not_mem_of_mem_endedLines hl)]

/-- A text ends in a piece without line feeds, which is all of it or follows a line feed. -/
theorem exists_last_piece (s : List Char) :
    '\n' ∉ s ∨ ∃ t p, s = t ++ '\n' :: p ∧ '\n' ∉ p := by
  by_cases h : '\n' ∈ s
  · obtain ⟨a, b, hs, hb⟩ := List.eq_append_cons_of_mem (List.mem_reverse.mpr h)
    refine Or.inr ⟨b.reverse, a.reverse, ?_, ?_⟩
    · have := congrArg List.reverse hs
      simpa using this
    · simpa using hb
  · exact Or.inl h

/-- A blank at the end changes no line that is not blank. -/
theorem nonblankLines_concat {c : Char} (hc : isBlank c = true) (s : List Char) :
    nonblankLines (s ++ [c]) = nonblankLines s := by
  by_cases hn : c = '\n'
  · rw [hn, nonblankLines_append_newline, nonblankLines_nil, List.append_nil]
  -- any other blank is at the end of the last line
  · have hpiece {p : List Char} (hp : '\n' ∉ p) : nonblankLines (p ++ [c]) = nonblankLines p := by
      have hpc : '\n' ∉ p ++ [c] := by simp [hp, Ne.symm hn]
      rw [nonblankLines_of_not_mem hp, nonblankLines_of_not_mem hpc]
      exact nonblankLine_congr (trim_append_right (by simp [allBlank, hc]) p)
    rcases exists_last_piece s with hs | ⟨t, p, rfl, hp⟩
    · exact hpiece hs
    · rw [List.append_assoc, List.cons_append, nonblankLines_append_newline, hpiece hp,
        nonblankLines_append_newline]

theorem nonblankLines_append_right {b : List Char} (hb : allBlank b = true) (s : List Char) :
    nonblankLines (s ++ b) = nonblankLines s := by
  induction b generalizing s with
  | nil => rw [List.append_nil]
  | cons c b ih =>
    rw [allBlank, List.all_cons, Bool.and_eq_true] at hb
    rw [List.append_cons, ih hb.2, nonblankLines_concat hb.1]

theorem nonblankLines_append_left {a : List Char} (ha : allBlank a = true) (s : List Char) :
    nonblankLines (a ++ s) = nonblankLines s := by
  induction a with
  | nil => rfl
  | cons c a ih =>
    rw [allBlank, List.all_cons, Bool.and_eq_true] at ha
    rw [← ih ha.2, List.cons_append, nonblankLines, List.splitOn_cons_eq_if_modifyHead]
    obtain ⟨q, qs, hq⟩ := List.exists_cons_of_ne_nil (List.splitOn_ne_nil '\n' (a ++ s))
    have htrim : trim (c :: q) = trim q := trim_append_left (a := [c]) (by simp [allBlank, ha.1]) q
    rw [nonblankLines, hq, List.modifyHead_cons]
    split
    · rfl
    · rw [List.flatMap_cons, List.flatMap_cons, nonblankLine_congr htrim]

/-- Trimming a text changes no line that is not blank. -/
theorem nonblankLines_trim (s : List Char) : nonblankLines (trim s) = nonblankLines s := by
  obtain ⟨a, b, ha, hb, hs⟩ := exists_eq_append_trim s
  conv_rhs => rw [hs, nonblankLines_append_right hb, nonblankLines_append_left ha]

/-- The ended lines are the pieces between line feeds if none ends in a carriage return. -/
theorem endedLines_eq_splitOn_iff {s : List Char} :
    endedLines s = s.splitOn '\n' ↔
      ((s.splitOn '\n').all fun l => !List.isSuffixOf ['\r'] l) = true := by
  have hid : endedLines s = s.splitOn '\n' ↔
      (s.splitOn '\n').map dropReturn = (s.splitOn '\n').map id := by
    rw [List.map_id]
    rfl
  rw [hid, List.map_inj_left, List.all_eq_true]
  refine forall₂_congr fun l _ => ?_
  rw [id_eq, dropReturn_eq_self_iff, Bool.not_eq_true']

-- ---------------------------------------------------------------------------
-- Texts of lines
-- ---------------------------------------------------------------------------

/-- The lines one after another, each after a line feed. -/
def unlines (ls : List (List Char)) : List Char :=
  ls.flatMap fun l => '\n' :: l

@[simp]
theorem unlines_nil : unlines [] = [] := rfl

theorem unlines_cons (l : List Char) (ls : List (List Char)) :
    unlines (l :: ls) = '\n' :: (l ++ unlines ls) := rfl

theorem unlines_append (ls ks : List (List Char)) :
    unlines (ls ++ ks) = unlines ls ++ unlines ks :=
  List.flatMap_append

theorem unlines_eq_intercalate {ls : List (List Char)} (h : ls ≠ []) :
    unlines ls = '\n' :: ['\n'].intercalate ls := by
  induction ls with
  | nil => exact absurd rfl h
  | cons l ls ih =>
    cases ls with
    | nil => simp [unlines]
    | cons k ks =>
      rw [unlines_cons, ih (List.cons_ne_nil _ _), List.intercalate_cons_cons]
      simp

theorem unlines_splitOn (s : List Char) : unlines (s.splitOn '\n') = '\n' :: s := by
  rw [unlines_eq_intercalate (List.splitOn_ne_nil _ _), List.intercalate_splitOn]

/-- Lines are told apart in their text if they have no line feeds in them. -/
theorem splitOn_of_unlines_eq {s : List Char} {ls : List (List Char)} (h : ∀ l ∈ ls, '\n' ∉ l)
    (hs : unlines ls = '\n' :: s) : s.splitOn '\n' = ls := by
  have hls : ls ≠ [] := by
    rintro rfl
    exact absurd hs (by simp [unlines])
  rw [unlines_eq_intercalate hls, List.cons.injEq] at hs
  rw [← hs.2, List.splitOn_intercalate _ h hls]

theorem endedLines_sublist (s : List Char) : (unlines (endedLines s)).Sublist ('\n' :: s) := by
  -- the ended lines are the pieces, each with at most a carriage return less
  have hpieces (ps : List (List Char)) : (unlines (ps.map dropReturn)).Sublist (unlines ps) := by
    induction ps with
    | nil => exact List.Sublist.refl _
    | cons p ps ih =>
      rw [List.map_cons, unlines_cons, unlines_cons]
      exact ((dropReturn_sublist p).append ih).cons_cons '\n'
  rw [← unlines_splitOn]
  exact hpieces _

end Colloquy.Text
