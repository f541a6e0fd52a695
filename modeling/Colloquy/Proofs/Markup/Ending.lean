import Colloquy.Proofs.Markup.Effect

/-!
# Colloquy — ends of lines and texts

The messages of a text do not depend on blanks at the ends of contents: an empty line
(`Scanner.result_step_nil`), a carriage return at the end of a line
(`Scanner.result_step_dropReturn`) and a line feed at the end of the text
(`Scanner.result_run_lines`) make no difference to them.
-/

namespace Colloquy.Markup

open Text

-- ---------------------------------------------------------------------------
-- Blanks that make no difference
-- ---------------------------------------------------------------------------

/-- A content with a line added. -/
def joinLine (content line : List Char) : List Char :=
  if content.isEmpty then line else content ++ '\n' :: line

theorem Scan.append_eq (scan : Scan) (line : List Char) :
    scan.append line = { scan with content := joinLine scan.content line } := rfl

theorem joinLine_append (content line more : List Char) :
    joinLine content (line ++ more) = joinLine content line ++ more := by
  unfold joinLine
  split
  · rfl
  · rw [List.append_assoc, List.cons_append]

theorem trim_joinLine {line : List Char} (h : allBlank line = true) (content : List Char) :
    trim (joinLine content line) = trim content := by
  unfold joinLine
  split
  · next hc => rw [List.isEmpty_iff.mp hc, trim_nil, trim_eq_nil_iff.mpr h]
  · exact trim_append_right (allBlank_cons rfl h) content

/-- The messages depend on the content only up to blanks at its ends. -/
theorem Scan.result_congr (scan : Scan) {content : List Char} (zone : Option Zone)
    (h : trim content = trim scan.content) :
    { scan with content := content, zone := zone }.result = scan.result := by
  simp only [Scan.result, Scan.pending, h]

theorem trim_return (line : List Char) : trim (line ++ ['\r']) = trim line :=
  trim_append_right rfl line

/-- Two effects with the same header or the same zone, and texts that differ at most by a carriage
return at the end. -/
inductive LineEffect.Similar : LineEffect → LineEffect → Prop
  | refl (effect : LineEffect) : Similar effect effect
  | header (role : Role) (rest : List Char) :
      Similar (.header role (rest ++ ['\r'])) (.header role rest)
  | content (zone : Option Zone) (line : List Char) :
      Similar (.content zone (line ++ ['\r'])) (.content zone line)

theorem LineEffect.Similar.result_eq {e e' : LineEffect} (h : e.Similar e') (scan : Scan) :
    (e.apply scan).result = (e'.apply scan).result := by
  cases h with
  | refl => rfl
  | header role rest =>
    rw [LineEffect.apply, LineEffect.apply, stepHeader_eq, stepHeader_eq, trim_return]
  | content zone line =>
    have htrim := trim_return (joinLine scan.content line)
    rw [LineEffect.apply, LineEffect.apply, Scan.append_eq, joinLine_append]
    exact Scan.result_congr ({ scan with zone := zone }.append line) zone htrim

theorem LineEffect.Similar.zone_eq {e e' : LineEffect} (h : e.Similar e') (scan : Scan) :
    (e.apply scan).zone = (e'.apply scan).zone := by
  cases h with
  | refl => rfl
  | header role rest =>
    rw [LineEffect.apply, LineEffect.apply, stepHeader_eq, stepHeader_eq, trim_return]
  | content zone line => rfl

theorem removeFirst_return {pat : List Char} (hr : '\r' ∉ pat) (hp : pat ≠ [])
    (line : List Char) : removeFirst pat (line ++ ['\r']) = removeFirst pat line ++ ['\r'] :=
  removeFirst_concat hr hp line

theorem LineEffect.similar_unlessBlank (zone : Option Zone) (line : List Char) :
    (LineEffect.unlessBlank zone (line ++ ['\r'])).Similar (.unlessBlank zone line) := by
  have hblank : allBlank (line ++ ['\r']) = allBlank line := by
    rw [allBlank_append, show allBlank ['\r'] = true from rfl, Bool.and_true]
  unfold LineEffect.unlessBlank
  rw [hblank]
  split
  · exact .refl _
  · exact .content zone line

theorem header?_return (line : List Char) :
    header? (line ++ ['\r']) = (header? line).map fun header => (header.1, header.2 ++ ['\r']) := by
  cases h : header? line with
  | some header =>
    obtain ⟨hline, hne, htag⟩ := header?_eq_some_iff.mp h
    rw [Option.map_some, header?_eq_some_iff]
    exact ⟨by rw [hline, List.append_assoc, List.cons_append], hne, htag⟩
  | none =>
    rw [Option.map_none, Option.eq_none_iff_forall_ne_some]
    rintro ⟨tag, rest⟩ h'
    obtain ⟨hline, hne, htag⟩ := header?_eq_some_iff.mp h'
    -- the carriage return ends the text after the colon, which is not the colon itself
    rcases List.eq_nil_or_concat rest with rfl | ⟨rest, c, rfl⟩
    · have := List.append_inj_right' hline rfl
      simp at this
    · rw [List.concat_eq_append, ← List.cons_append, ← List.append_assoc] at hline
      have hshort : line = tag ++ ':' :: rest := List.append_inj_left' hline rfl
      rw [header?_eq_some_iff.mpr ⟨hshort, hne, htag⟩] at h
      exact absurd h (by simp)

theorem Zone.similar_effect_return (zone : Zone) (line : List Char) :
    (zone.effect (line ++ ['\r'])).Similar (zone.effect line) := by
  cases zone with
  | fence =>
    rw [Zone.effect, Zone.effect, trim_return]
    exact .content _ line
  | bracket =>
    rw [Zone.effect, Zone.effect, trim_return, removeFirst_return (by decide) (by decide)]
    split
    · exact LineEffect.similar_unlessBlank _ _
    · exact .content _ line
  | command =>
    rw [Zone.effect, Zone.effect, trim_return]
    split
    · exact .refl _
    · exact .content _ line
  | element stack =>
    simp only [Zone.effect, trim_return]
    split
    · exact .content _ line
    · exact .content _ line

theorem similar_bracketEffect_return (line : List Char) :
    (bracketEffect (line ++ ['\r'])).Similar (bracketEffect line) := by
  unfold bracketEffect
  rw [removeFirst_return (by decide) (by decide), removeFirst_return (by decide) (by decide),
    trimEnd_append_right rfl]
  split
  · exact LineEffect.similar_unlessBlank _ _
  · exact LineEffect.similar_unlessBlank _ _

theorem similar_elementEffect_return (line name after : List Char) :
    (elementEffect (line ++ ['\r']) name after).Similar (elementEffect line name after) := by
  unfold elementEffect
  rw [trim_return]
  split
  · exact .content _ line
  · split
    · exact .content _ line
    · exact .content _ line

namespace Scanner

variable {scanner : Scanner}

theorem similar_plainEffect_return (line : List Char) :
    (scanner.plainEffect (line ++ ['\r'])).Similar (scanner.plainEffect line) := by
  unfold plainEffect
  rw [header?_return]
  cases header? line with
  | none => exact .content none line
  | some header =>
    dsimp only [Option.map_some]
    split
    · exact .header _ header.2
    · exact .content none line

theorem similar_effect_return (zone? : Option Zone) (line : List Char) :
    (scanner.effect zone? (line ++ ['\r'])).Similar (scanner.effect zone? line) := by
  cases zone? with
  | some zone => exact zone.similar_effect_return line
  | none =>
    rw [effect, effect, outsideEffect, outsideEffect, trim_return]
    split
    · exact LineEffect.similar_unlessBlank _ _
    · split
      · exact similar_bracketEffect_return line
      · cases commandOpen? (trim line) with
        | some command => exact .refl _
        | none =>
          cases elementOpen? (trim line) with
          | some element => exact similar_elementEffect_return line _ _
          | none => exact similar_plainEffect_return line

/-- A carriage return at the end of a line makes no difference to the messages. -/
theorem result_step_dropReturn (scan : Scan) (line : List Char) :
    (scanner.step scan (dropReturn line)).result = (scanner.step scan line).result := by
  rcases dropReturn_eq_or line with h | h
  · rw [h]
  · conv_rhs => rw [h, step_eq_apply, (similar_effect_return _ _).result_eq, ← step_eq_apply]

theorem zone_step_dropReturn (scan : Scan) (line : List Char) :
    (scanner.step scan (dropReturn line)).zone = (scanner.step scan line).zone := by
  rcases dropReturn_eq_or line with h | h
  · rw [h]
  · conv_rhs => rw [h, step_eq_apply, (similar_effect_return _ _).zone_eq, ← step_eq_apply]

theorem effect_none_nil : scanner.effect none [] = .content none [] := rfl

theorem exists_effect_nil (scanner : Scanner) (zone? : Option Zone) :
    ∃ zone, scanner.effect zone? [] = .content zone [] := by
  cases zone? with
  | none => exact ⟨none, rfl⟩
  | some zone =>
    cases zone with
    | fence => exact ⟨some .fence, rfl⟩
    | bracket => exact ⟨some .bracket, rfl⟩
    | command => exact ⟨some .command, rfl⟩
    | element stack =>
      rw [effect, Zone.effect]
      split
      · exact ⟨_, rfl⟩
      · exact ⟨_, rfl⟩

/-- An empty line makes no difference to the messages. -/
theorem result_step_nil (scan : Scan) : (scanner.step scan []).result = scan.result := by
  obtain ⟨zone, h⟩ := exists_effect_nil scanner scan.zone
  rw [step_eq_apply, h, LineEffect.apply, Scan.append_eq]
  exact Scan.result_congr scan zone (trim_joinLine allBlank_nil _)

theorem zone_step_nil (scanner : Scanner) {scan : Scan} (h : scan.zone = none) :
    (scanner.step scan []).zone = none := by
  rw [step_eq_apply, h, effect_none_nil]
  rfl

/-- It makes no difference to the messages of a text whether its last line is ended. -/
theorem result_run_lines (scan : Scan) (s : List Char) :
    (scanner.run scan (lines s)).result = (scanner.run scan (endedLines s)).result := by
  obtain ⟨ls, last, he, hl⟩ := exists_last_line s
  rw [he, hl, run_append, run_append, run_cons, run_nil, result_step_dropReturn]
  cases last with
  | nil => exact (result_step_nil _).symm
  | cons c last => rfl

/-- A line feed at the end of a text opens no zone. -/
theorem zone_run_endedLines {scan : Scan} {s : List Char}
    (h : (scanner.run scan (lines s)).zone = none) :
    (scanner.run scan (endedLines s)).zone = none := by
  obtain ⟨ls, last, hended, hlines⟩ := exists_last_line s
  rw [hlines, run_append] at h
  rw [hended, run_append, run_cons, run_nil, zone_step_dropReturn]
  cases last with
  | nil => exact zone_step_nil scanner h
  | cons c last => exact h

end Scanner

end Colloquy.Markup
