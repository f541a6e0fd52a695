import Colloquy.Proofs.Markup.Header

/-!
# Colloquy — cutting texts at headers

A header line of a block, or a continuation marker, takes over nothing from what was read
before it but the messages: the role, the content and the zone after it are its own
(`Scanner.step_cut`). So a text may be cut before such a line wherever no zone is open, and
its messages are those of the two parts (`Scanner.parse_cut`).
-/

namespace Colloquy.Markup

open Text

namespace Scanner

variable {scanner : Scanner} {scan : Scan}

-- ---------------------------------------------------------------------------
-- Lines that cut
-- ---------------------------------------------------------------------------

/-- A carriage return at the end of a header line belongs to no text after the colon. -/
theorem exists_effect_dropReturn {line rest : List Char} {role : Role}
    (he : scanner.effect none line = .header role rest) :
    ∃ rest', scanner.effect none (dropReturn line) = .header role rest' ∧
      (allBlank rest = true → allBlank rest' = true) := by
  rcases dropReturn_eq_or line with h | h
  · rw [h]
    exact ⟨rest, he, id⟩
  · have hsimilar : (scanner.effect none (dropReturn line ++ ['\r'])).Similar
        (scanner.effect none (dropReturn line)) := similar_effect_return none (dropReturn line)
    rw [← h, he] at hsimilar
    generalize scanner.effect none (dropReturn line) = effect at hsimilar ⊢
    cases hsimilar with
    | refl => exact ⟨rest, rfl, id⟩
    | header _ rest' =>
      refine ⟨rest', rfl, fun hblank => ?_⟩
      rw [allBlank_append, Bool.and_eq_true] at hblank
      exact hblank.1

/-- After the header of a block or a continuation marker all is as if the text had started with it,
but for the messages before. -/
theorem step_cut {line rest : List Char} {role : Role} (hz : scan.zone = none)
    (he : scanner.effect none line = .header role rest)
    (hcut : allBlank rest = true ∨ role = .previousResponseId) (start : Role) :
    scanner.step scan line = (scanner.step (.start start) line).after scan.result := by
  obtain ⟨messages, role', content, explicit, zone⟩ := scan
  subst hz
  have hstart : (Scan.start start).zone = none := rfl
  rw [step_eq_apply, step_eq_apply, hstart, he, LineEffect.apply, LineEffect.apply, stepHeader_eq,
    stepHeader_eq]
  by_cases hblank : allBlank rest = true
  · rw [trim_eq_nil_iff.mpr hblank]
    simp [Scan.after, Scan.result, Scan.pending, Scan.start]
  -- a marker with a text hands over to the user, whoever spoke before
  · obtain rfl := hcut.resolve_left hblank
    have hinline : (trim rest).isEmpty = false := by
      rw [List.isEmpty_eq_false_iff]
      exact fun h => hblank (trim_eq_nil_iff.mp h)
    rw [hinline]
    simp [Scan.after, Scan.result, Scan.pending, Scan.start]

-- ---------------------------------------------------------------------------
-- Texts that are cut
-- ---------------------------------------------------------------------------

/-- A text that leaves no zone open ends before the header of a block, or before a continuation
marker: the messages are its own and those of the text from there on, whichever role each of the
two is read in. -/
theorem parse_cut {before line after : String} {first second role : Role} {rest : List Char}
    (hclosed : (scanner.run (.start first) (lines before.toList)).zone = none)
    (hline : '\n' ∉ line.toList)
    (he : scanner.effect none line.toList = .header role rest)
    (hcut : allBlank rest = true ∨ role = .previousResponseId) :
    scanner.parse (before ++ "\n" ++ line ++ "\n" ++ after) first =
      scanner.parse before first ++ scanner.parse (line ++ "\n" ++ after) second := by
  have hwhole : (before ++ "\n" ++ line ++ "\n" ++ after).toList =
      before.toList ++ '\n' :: (line.toList ++ '\n' :: after.toList) := by simp
  have hpart : (line ++ "\n" ++ after).toList = line.toList ++ '\n' :: after.toList := by simp
  obtain ⟨rest', he', hblank⟩ := exists_effect_dropReturn he
  have hcut' : allBlank rest' = true ∨ role = .previousResponseId := hcut.imp_left hblank
  rw [parse_eq, parse_eq, parse_eq, hwhole, hpart, lines_append_newline, lines_append_newline,
    endedLines_of_not_mem hline, run_append, List.singleton_append, run_cons, run_cons,
    step_cut (zone_run_endedLines hclosed) he' hcut' second, run_after, Scan.result_after,
    result_run_lines (.start first)]

/-- A continuation marker after a fence that was closed, in a text that goes on with another
fence. -/
theorem parse_cut_marker :
    let before := "assistant:\r\n```\nuser: no\n```\nanswer\r"
    let line := "previous_response_id: resp_1\r"
    let after := "go on\n```\nsystem:"
    ((({} : Scanner).run (.start .user) (lines before.toList)).zone = none ∧
      '\n' ∉ line.toList ∧
      ({} : Scanner).effect none line.toList = .header .previousResponseId " resp_1\r".toList) ∧
    ({} : Scanner).parse (before ++ "\n" ++ line ++ "\n" ++ after) .user =
      ({} : Scanner).parse before .user ++
        ({} : Scanner).parse (line ++ "\n" ++ after) .system := by
  intro before line after
  have hclosed : (({} : Scanner).run (.start .user) (lines before.toList)).zone = none := by
    decide +kernel
  have hline : '\n' ∉ line.toList := by decide
  have he : ({} : Scanner).effect none line.toList =
      .header .previousResponseId " resp_1\r".toList := by
    have hform : line.toList =
        Role.previousResponseId.tag.toList ++ ':' :: " resp_1\r".toList := by decide
    have hcommand : commandOpen? (trim line.toList) = none := by decide +kernel
    rw [hform] at hcommand ⊢
    exact (hasHeader_of_isKnown rfl).effect_headerLine _ hcommand
  exact ⟨⟨hclosed, hline, he⟩, parse_cut hclosed hline he (Or.inr rfl)⟩

end Scanner

end Colloquy.Markup
