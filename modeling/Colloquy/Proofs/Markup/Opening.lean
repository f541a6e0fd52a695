import Colloquy.Proofs.Markup.Block
import Colloquy.Proofs.Markup.Header

/-!
# Colloquy — what an opening line leaves open

A line may open a zone and have more on it than the opening mark. Brackets that close again
on their line leave a zone open unless the line ends in closing brackets
(`Scanner.step_brackets_iff`), and an element without a closing tag on its line is open
after it unless the line ends in the mark of an element without content
(`Scanner.step_tag_iff`). Where the zone is left open headers are content up to the line that
ends it.
-/

namespace Colloquy.Markup

open Text

-- ---------------------------------------------------------------------------
-- Ends of lines
-- ---------------------------------------------------------------------------

/-- Only the end of a text counts for what it ends in. -/
theorem suffix_append_iff {pat s t : List Char} (h : pat.length ≤ t.length) :
    pat <:+ s ++ t ↔ pat <:+ t :=
  ⟨fun hs => List.suffix_of_suffix_length_le hs (List.suffix_append s t) h,
    List.suffix_append_of_suffix⟩

theorem not_allBlank_of_closeBracket {s : List Char} (h : closeBracket <:+: s) :
    allBlank s = false := by
  rw [Bool.eq_false_iff]
  intro hb
  have hmem : ']' ∈ s := h.subset (by decide)
  exact absurd (allBlank_iff.mp hb _ hmem) (by decide)

namespace Scanner

variable {scan : Scan} {line : List Char}

-- ---------------------------------------------------------------------------
-- Brackets
-- ---------------------------------------------------------------------------

/-- What a line with both brackets does: its last characters say whether the brackets are closed,
and the first closing brackets are taken from it if they are. -/
theorem effect_of_brackets (scanner : Scanner) {inside after : List Char}
    (hline : trim line = openBracket ++ inside ++ closeBracket ++ after) :
    scanner.effect none line =
      if closeBracket.isSuffixOf (closeBracket ++ after) then
        .unlessBlank none (removeFirst closeBracket (removeFirst openBracket line))
      else .content (some .bracket) (removeFirst openBracket line) := by
  have hopen : openBracket.isPrefixOf (trim line) = true := by
    rw [hline, List.append_assoc, List.append_assoc]
    exact List.isPrefixOf_iff_prefix.mpr (List.prefix_append ..)
  obtain ⟨a, b, ha, hb, hab⟩ := exists_eq_append_trim line
  have hmem : '[' ∉ a := fun hm => absurd (allBlank_iff.mp ha _ hm) (by decide)
  -- the blanks at the ends stay when the opening brackets go
  have hremoved : removeFirst openBracket line = a ++ inside ++ (closeBracket ++ after) ++ b := by
    have hcut : removeFirst openBracket
        (a ++ (openBracket ++ (inside ++ (closeBracket ++ after) ++ b))) =
          a ++ (inside ++ (closeBracket ++ after) ++ b) := removeFirst_append hmem ['['] _
    rw [hab, hline]
    simpa using hcut
  have htrimmed : trimEnd (removeFirst openBracket line) =
      a ++ inside ++ (closeBracket ++ after) := by
    rw [List.append_assoc _ closeBracket after] at hline
    rw [hremoved, trimEnd_append_right hb]
    exact trimEnd_append_of_trim hline (by simp [closeBracket]) _
  have hend : closeBracket.isSuffixOf (trimEnd (removeFirst openBracket line)) =
      closeBracket.isSuffixOf (closeBracket ++ after) := by
    rw [Bool.eq_iff_iff, List.isSuffixOf_iff_suffix, List.isSuffixOf_iff_suffix, htrimmed]
    exact suffix_append_iff (by simp)
  have hblank : allBlank (removeFirst openBracket line) = false := by
    refine not_allBlank_of_closeBracket ?_
    rw [hremoved]
    exact ⟨a ++ inside, after ++ b, by simp⟩
  rw [effect_of_openBracket scanner hopen, bracketEffect, hend]
  split
  · rfl
  · rw [LineEffect.unlessBlank, hblank]
    rfl

/-- Outside zones, a line that opens brackets and has closing ones on it leaves no zone open if and
only if it ends in closing brackets. A header line after it is read as a header under the same
condition, and else it is content, as all lines are up to one that ends in closing brackets. -/
theorem step_brackets_iff (scanner : Scanner) (hz : scan.zone = none) {inside after : List Char}
    (hline : trim line = openBracket ++ inside ++ closeBracket ++ after) :
    ((scanner.step scan line).zone = none ↔ closeBracket <:+ closeBracket ++ after) ∧
    (∀ header role rest, scanner.effect none header = .header role rest →
      (scanner.step (scanner.step scan line) header =
          stepHeader (scanner.step scan line) role rest ↔
        closeBracket <:+ closeBracket ++ after)) ∧
    (¬ closeBracket <:+ closeBracket ++ after →
      ∀ rest : List (List Char), Zone.bracket.Outlasts rest →
        scanner.run scan (line :: rest) =
          { scan with
            zone := some .bracket
            content := joinLines scan.content (removeFirst openBracket line :: rest) }) := by
  have heffect := scanner.effect_of_brackets hline
  have hzone : (scanner.step scan line).zone = none ↔ closeBracket <:+ closeBracket ++ after := by
    rw [step_eq_apply, hz, heffect, ← List.isSuffixOf_iff_suffix]
    split
    · next h => simp [LineEffect.zone_apply_unlessBlank, h]
    · next h => simp [LineEffect.apply, Scan.append, h]
  refine ⟨hzone, fun header role rest hheader => ?_, fun hopen rest houtlasts => ?_⟩
  · rw [step_eq_stepHeader_iff hheader, hzone]
  · rw [← List.isSuffixOf_iff_suffix] at hopen
    rw [if_neg hopen] at heffect
    have hflow : scanner.Flows none (line :: rest) (some .bracket)
        (removeFirst openBracket line :: rest) := .content heffect houtlasts.flows
    rw [← hz] at hflow
    exact Flows.run_eq scan hflow

/-- A remark after the closing brackets, with closing brackets of its own and without. -/
theorem step_brackets_iff_remark :
    let scan := Scan.start .user
    let ended := " [[a]] b ]]".toList
    let opened := " [[a]] b".toList
    let header := "system: s".toList
    (scan.zone = none ∧
      trim ended = openBracket ++ "a".toList ++ closeBracket ++ " b ]]".toList ∧
      trim opened = openBracket ++ "a".toList ++ closeBracket ++ " b".toList ∧
      ({} : Scanner).effect none header = .header .system " s".toList ∧
      Zone.bracket.Outlasts [header]) ∧
    (({} : Scanner).step scan ended).zone = none ∧
    ({} : Scanner).step (({} : Scanner).step scan ended) header =
      stepHeader (({} : Scanner).step scan ended) .system " s".toList ∧
    ({} : Scanner).run scan [opened, header] =
      { scan with
        zone := some .bracket
        content := joinLines [] [removeFirst openBracket opened, header] } := by
  intro scan ended opened header
  have hz : scan.zone = none := rfl
  have hended : trim ended = openBracket ++ "a".toList ++ closeBracket ++ " b ]]".toList := by
    decide +kernel
  have hopened : trim opened = openBracket ++ "a".toList ++ closeBracket ++ " b".toList := by
    decide +kernel
  have hheader : ({} : Scanner).effect none header = .header .system " s".toList := by
    decide +kernel
  have houtlasts : Zone.bracket.Outlasts [header] := by
    intro line hline
    rw [List.mem_singleton.mp hline]
    decide +kernel
  obtain ⟨hzone, hstep, -⟩ := step_brackets_iff {} hz hended
  exact ⟨⟨hz, hended, hopened, hheader, houtlasts⟩, hzone.mpr (by decide +kernel),
    (hstep _ _ _ hheader).mpr (by decide +kernel),
    (step_brackets_iff {} hz hopened).2.2 (by decide +kernel) _ houtlasts⟩

/-- A remark after the closing brackets keeps them open, and the header after it is content. -/
theorem step_brackets_stays_open :
    let line := "[[a]] b".toList
    (Scan.start .user).zone = none ∧
    trim line = openBracket ++ "a".toList ++ closeBracket ++ " b".toList ∧
    ({} : Scanner).effect none "system: s".toList = .header .system " s".toList ∧
    (({} : Scanner).step (.start .user) line).zone = some .bracket ∧
    ({} : Scanner).parse "[[a]] b\nsystem: s" .user = [.ofText .user "a]] b\nsystem: s"] := by
  decide +kernel

-- ---------------------------------------------------------------------------
-- Elements
-- ---------------------------------------------------------------------------

/-- What a line does that starts with a tag and does not close the element after it: the end of the
line says whether the element is open after it, wherever the tag ends. -/
theorem effect_of_leadsWithTag (scanner : Scanner) {name attributes after : List Char}
    (hcommand : commandOpen? (trim line) = none)
    (htag : LeadsWithTag name attributes after (trim line))
    (hself : attributes.getLast? ≠ some '/') (hclosing : ¬ closingTag name <:+: after) :
    scanner.effect none line =
      .content (if isSelfClosing after then none else some (.element [name])) line := by
  have hopen := elementOpen?_eq_some_iff.mpr ⟨attributes, htag⟩
  have hend : isSelfClosing (trim line) = isSelfClosing after := by
    rw [Bool.eq_iff_iff, htag.isSelfClosing_iff hself, isSelfClosing, List.isSuffixOf_iff_suffix]
  rw [effect_of_elementOpen? scanner hcommand hopen, elementEffect, hend,
    closeNames_of_no_closingTag hclosing]
  split <;> rfl

theorem outlasts_of_no_closingTag {name : List Char} {ls : List (List Char)}
    (h : ∀ line ∈ ls, ¬ closingTag name <:+: line) : Zone.Outlasts (.element [name]) ls := by
  intro before hbefore
  obtain ⟨depth, hdepth⟩ :=
    exists_openElements_eq (fun line hline => h line (hbefore.subset hline)) 0
  rw [List.replicate_one] at hdepth
  rw [hdepth]
  simp

/-- Outside zones, a line that starts with the tag of an element and has no closing tag of it leaves
the element open if and only if the line does not end in the mark of an element without content,
though it stand in another tag. A header line after it is read as a header under the opposite
condition, and else it is content, as all lines are up to one with a closing tag. -/
theorem step_tag_iff (scanner : Scanner) (hz : scan.zone = none)
    {name attributes after : List Char} (hcommand : commandOpen? (trim line) = none)
    (htag : LeadsWithTag name attributes after (trim line))
    (hself : attributes.getLast? ≠ some '/') (hclosing : ¬ closingTag name <:+: after) :
    ((scanner.step scan line).zone = some (.element [name]) ↔ ¬ ['/', '>'] <:+ after) ∧
    (∀ header role rest, scanner.effect none header = .header role rest →
      (scanner.step (scanner.step scan line) header =
          stepHeader (scanner.step scan line) role rest ↔
        ['/', '>'] <:+ after)) ∧
    (¬ ['/', '>'] <:+ after →
      ∀ rest : List (List Char), (∀ line ∈ rest, ¬ closingTag name <:+: line) →
        ∃ depth, scanner.run scan (line :: rest) =
          { scan with
            zone := some (.element (List.replicate (depth + 1) name))
            content := joinLines scan.content (line :: rest) }) := by
  have heffect := scanner.effect_of_leadsWithTag hcommand htag hself hclosing
  have hafter : isSelfClosing after = true ↔ ['/', '>'] <:+ after := List.isSuffixOf_iff_suffix
  have hzone : (scanner.step scan line).zone =
      if isSelfClosing after then none else some (.element [name]) := by
    rw [step_eq_apply, hz, heffect]
    rfl
  rw [← hafter]
  refine ⟨?_, fun header role rest hheader => ?_, fun hopen rest hrest => ?_⟩
  · rw [hzone]
    split
    · next h => simp [h]
    · next h => simp [h]
  · rw [step_eq_stepHeader_iff hheader, hzone]
    split
    · next h => simp [h]
    · next h => simp [h]
  · rw [if_neg hopen] at heffect
    have hflow : scanner.Flows none (line :: rest)
        (some (.element (openElements [name] rest))) (line :: rest) :=
      .content heffect (outlasts_of_no_closingTag hrest).flows
    rw [← hz] at hflow
    obtain ⟨depth, hdepth⟩ := exists_openElements_eq hrest 0
    rw [List.replicate_one] at hdepth
    rw [hdepth] at hflow
    exact ⟨depth, Flows.run_eq scan hflow⟩

/-- A note with another element after its tag, one with content and one without. -/
theorem step_tag_iff_note :
    let scan := Scan.start .user
    let name := "note".toList
    let attributes := " id=\"1\"".toList
    let opened := "<note id=\"1\">a<br>".toList
    let ended := "<note id=\"1\">a<br/>".toList
    let header := "system: s".toList
    (scan.zone = none ∧ commandOpen? (trim opened) = none ∧ commandOpen? (trim ended) = none ∧
      LeadsWithTag name attributes "a<br>".toList (trim opened) ∧
      LeadsWithTag name attributes "a<br/>".toList (trim ended) ∧
      attributes.getLast? ≠ some '/' ∧ ¬ closingTag name <:+: "a<br>".toList ∧
      ¬ closingTag name <:+: "a<br/>".toList ∧ ¬ closingTag name <:+: header ∧
      ({} : Scanner).effect none header = .header .system " s".toList) ∧
    (({} : Scanner).step scan opened).zone = some (.element [name]) ∧
    (∃ depth, ({} : Scanner).run scan [opened, header] =
      { scan with
        zone := some (.element (List.replicate (depth + 1) name))
        content := joinLines [] [opened, header] }) ∧
    ({} : Scanner).step (({} : Scanner).step scan ended) header =
      stepHeader (({} : Scanner).step scan ended) .system " s".toList := by
  intro scan name attributes opened ended header
  have hz : scan.zone = none := rfl
  have hword : name.all isWordChar = true := by decide +kernel
  have hname : IsName name := ⟨by decide, List.all_eq_true.mp hword⟩
  have hblank : ∀ c ∈ attributes.head?, isBlank c = true := by
    intro c hc
    obtain rfl : ' ' = c := Option.some.inj hc
    rfl
  have hleads {t after : List Char} (ht : t = '<' :: (name ++ (attributes ++ '>' :: after))) :
      LeadsWithTag name attributes after t :=
    ⟨hname, hblank, by decide +kernel, ht⟩
  have hopened : LeadsWithTag name attributes "a<br>".toList (trim opened) :=
    hleads (by decide +kernel)
  have hended : LeadsWithTag name attributes "a<br/>".toList (trim ended) :=
    hleads (by decide +kernel)
  have hheader : ({} : Scanner).effect none header = .header .system " s".toList := by
    decide +kernel
  have hself : attributes.getLast? ≠ some '/' := by decide
  have hnone : ∀ line ∈ [header], ¬ closingTag name <:+: line := by
    intro line hline
    rw [List.mem_singleton.mp hline]
    decide +kernel
  obtain ⟨hzone, -, hrun⟩ := step_tag_iff {} hz (by decide +kernel) hopened hself (by decide +kernel)
  obtain ⟨-, hstep, -⟩ := step_tag_iff {} hz (by decide +kernel) hended hself (by decide +kernel)
  exact ⟨⟨hz, by decide +kernel, by decide +kernel, hopened, hended, hself, by decide +kernel,
      by decide +kernel, hnone _ (List.mem_singleton.mpr rfl), hheader⟩,
    hzone.mpr (by decide +kernel), hrun (by decide +kernel) _ hnone,
    (hstep _ _ _ hheader).mpr (by decide +kernel)⟩

/-- The mark of another element at the end of the line keeps the note from being open, and the header
after it is a message of its own. -/
theorem step_tag_leaves_none :
    let line := "<note>a<br/>".toList
    (Scan.start .user).zone = none ∧ commandOpen? (trim line) = none ∧
    trim line = openingTag "note".toList ++ "a<br/>".toList ∧
    ¬ closingTag "note".toList <:+: line ∧
    (({} : Scanner).step (.start .user) line).zone = none ∧
    ({} : Scanner).parse "<note>a<br/>\nsystem: s\n</note>" .user =
      [.ofText .user "<note>a<br/>", .ofText .system "s", .ofText .user "</note>"] := by
  decide +kernel

end Scanner

end Colloquy.Markup
