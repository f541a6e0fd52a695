import Colloquy.Proofs.Markup.Element
import Colloquy.Proofs.Markup.Flow

/-!
# Colloquy — protected blocks

A protected block is a line that opens a zone (`Opens`), lines that the zone holds (`Holds`)
and a line that closes it (`Closes`). Whatever its lines look like, it adds them to the
content (`joinLines_of_ne_nil`) and does nothing else. Lines that follow an opening line and
do not close its zone (`Zone.Outlasts`) are content to the last (`Scanner.run_protected`).
-/

namespace Colloquy.Markup

open Text

-- ---------------------------------------------------------------------------
-- Lines of a block
-- ---------------------------------------------------------------------------

/-- A line that does nothing but open a zone, and the lines that it adds to the content. Where a
line could open several zones the first of fence, brackets, command and element counts. -/
inductive Opens (line : List Char) : Zone → List (List Char) → Prop
  | fence (h : isFence (trim line) = true) : Opens line .fence [line]
  | bracket (h : trim line = openBracket) : Opens line .bracket []
  | command {command : List Char} (hfence : isFence (trim line) = false)
      (hbracket : openBracket.isPrefixOf (trim line) = false)
      (h : commandOpen? (trim line) = some command) : Opens line .command [commandTag command]
  | element {name : List Char} (hcommand : commandOpen? (trim line) = none)
      (h : OpensElement name line) : Opens line (.element [name]) [line]

/-- A line that does nothing but close a zone, and the lines that it adds to the content. -/
inductive Closes (line : List Char) : Zone → List (List Char) → Prop
  | fence (h : isFence (trim line) = true) : Closes line .fence [line]
  | bracket (h : trim line = closeBracket) : Closes line .bracket []
  | command (h : closesCommand (trim line) = true) : Closes line .command [commandEndTag]
  | element {name : List Char} (h : trim line = closingTag name) :
      Closes line (.element [name]) [line]

/-- Lines inside a zone: none closes it, and what elements of the same name they open they close. -/
inductive Holds (body : List (List Char)) : Zone → Prop
  | fence (h : ∀ line ∈ body, isFence (trim line) = false) : Holds body .fence
  | bracket (h : ∀ line ∈ body, closeBracket.isSuffixOf (trim line) = false) : Holds body .bracket
  | command (h : ∀ line ∈ body, closesCommand (trim line) = false) : Holds body .command
  | element {name : List Char} (h : Nested name 0 body 0) : Holds body (.element [name])

/-- None of the lines ends the zone. -/
def Zone.Outlasts : Zone → List (List Char) → Prop
  | .fence, ls => ∀ line ∈ ls, isFence (trim line) = false
  | .bracket, ls => ∀ line ∈ ls, closeBracket.isSuffixOf (trim line) = false
  | .command, ls => ∀ line ∈ ls, closesCommand (trim line) = false
  | .element stack, ls => ∀ before, before <+: ls → openElements stack before ≠ []

/-- The zone after lines that do not end it. -/
def Zone.afterLines : Zone → List (List Char) → Zone
  | .element stack, ls => .element (openElements stack ls)
  | zone, _ => zone

-- ---------------------------------------------------------------------------
-- Brackets alone on a line
-- ---------------------------------------------------------------------------

/-- A line that is nothing but the pattern is blank without it. -/
theorem allBlank_removeFirst {pat line : List Char} (h : trim line = pat) :
    allBlank (removeFirst pat line) = true := by
  obtain ⟨a, b, -, -, hline⟩ := exists_eq_append_trim line
  have hinfix : pat <:+: line := ⟨a, b, by rw [← h]; exact hline.symm⟩
  rw [allBlank_iff]
  intro c hc
  by_contra hblank
  rw [Bool.not_eq_true] at hblank
  -- all that is not blank in the line stands in the pattern, as often as in the line
  have hcount := count_removeFirst hinfix c
  rw [← count_trim hblank line, h] at hcount
  have hpos : 0 < (removeFirst pat line).count c := List.count_pos_iff.mpr hc
  omega

-- ---------------------------------------------------------------------------
-- Flows of a block
-- ---------------------------------------------------------------------------

namespace Opens

variable {scanner : Scanner} {line : List Char} {zone : Zone} {opened : List (List Char)}

theorem isName {name : List Char} (h : Opens line (.element [name]) opened) : IsName name := by
  cases h with
  | element _ h => exact h.isName

/-- A line that opens a zone leaves it open. -/
theorem flows (h : Opens line zone opened) : scanner.Flows none [line] (some zone) opened := by
  cases h with
  | fence h =>
    have hblank : allBlank line = false := by
      rw [Bool.eq_false_iff]
      intro hb
      rw [trim_eq_nil_iff.mpr hb] at h
      exact absurd h (by decide)
    refine .content ?_ (.nil _)
    rw [Scanner.effect, Scanner.outsideEffect, if_pos h, LineEffect.unlessBlank, hblank]
    rfl
  | bracket h =>
    have hblank := allBlank_removeFirst h
    have hend : trimEnd (removeFirst openBracket line) = [] := by
      rw [← List.nil_append (removeFirst openBracket line), trimEnd_append_right hblank]
      rfl
    refine .nothing ?_ (.nil _)
    rw [scanner.effect_of_openBracket (by rw [h]; rfl), bracketEffect, hend]
    show LineEffect.unlessBlank (some .bracket) (removeFirst openBracket line) = _
    rw [LineEffect.unlessBlank, if_pos hblank]
  | command hfence hbracket h =>
    refine .content ?_ (.nil _)
    rw [Scanner.effect, Scanner.outsideEffect, hfence, hbracket, h]
    rfl
  | element hcommand h =>
    refine .content ?_ (.nil _)
    rw [scanner.effect_of_elementOpen? hcommand h.opens, elementEffect, h.stays]
    rfl

end Opens

/-- A line that closes a zone leaves none open. -/
theorem Closes.flows {scanner : Scanner} {line : List Char} {zone : Zone}
    {closed : List (List Char)} (h : Closes line zone closed)
    (hname : ∀ name, zone = .element [name] → IsName name) :
    scanner.Flows (some zone) [line] none closed := by
  cases h with
  | fence h =>
    refine .content ?_ (.nil _)
    rw [Scanner.effect, Zone.effect, if_pos h]
  | bracket h =>
    refine .nothing ?_ (.nil _)
    rw [Scanner.effect, Zone.effect, h, LineEffect.unlessBlank,
      if_pos (allBlank_removeFirst h)]
    rfl
  | command h =>
    refine .content ?_ (.nil _)
    rw [Scanner.effect, Zone.effect, if_pos h]
  | element h =>
    refine .content ?_ (.nil _)
    rw [Scanner.effect, Zone.effect, h, trackElements_closingTag (hname _ rfl)]

namespace Zone.Outlasts

variable {scanner : Scanner}

theorem flows_of_same {zone : Zone} {ls : List (List Char)}
    (h : ∀ line ∈ ls, zone.effect line = .content (some zone) line) :
    scanner.Flows (some zone) ls (some zone) ls := by
  induction ls with
  | nil => exact .nil _
  | cons line ls ih =>
    rw [List.forall_mem_cons] at h
    exact .content h.1 (ih h.2)

theorem flows_of_element {stack ls : List (List Char)}
    (h : ∀ before, before <+: ls → openElements stack before ≠ []) :
    scanner.Flows (some (.element stack)) ls (some (.element (openElements stack ls))) ls := by
  induction ls generalizing stack with
  | nil => exact .nil _
  | cons line ls ih =>
    have hstack : trackElements stack (trim line) ≠ [] :=
      h [line] (List.cons_prefix_cons.mpr ⟨rfl, List.nil_prefix⟩)
    have heffect : scanner.effect (some (.element stack)) line =
        .content (some (.element (trackElements stack (trim line)))) line := by
      rw [Scanner.effect, Zone.effect]
      split
      · next hnil => exact absurd hnil hstack
      · rfl
    refine .content heffect (ih fun before hbefore => ?_)
    exact h (line :: before) (List.cons_prefix_cons.mpr ⟨rfl, hbefore⟩)

/-- Lines that do not end a zone are content. -/
theorem flows {zone : Zone} {ls : List (List Char)} (h : zone.Outlasts ls) :
    scanner.Flows (some zone) ls (some (zone.afterLines ls)) ls := by
  cases zone with
  | fence =>
    refine flows_of_same fun line hline => ?_
    rw [Zone.effect, h line hline]
    rfl
  | bracket =>
    refine flows_of_same fun line hline => ?_
    rw [Zone.effect, h line hline]
    rfl
  | command =>
    refine flows_of_same fun line hline => ?_
    rw [Zone.effect, h line hline]
    rfl
  | element stack => exact flows_of_element h

end Zone.Outlasts

/-- Lines that a zone holds leave it open as it was. -/
theorem Holds.outlasts {body : List (List Char)} {zone : Zone} (h : Holds body zone)
    (hname : ∀ name, zone = .element [name] → IsName name) :
    zone.Outlasts body ∧ zone.afterLines body = zone := by
  cases h with
  | fence h => exact ⟨h, rfl⟩
  | bracket h => exact ⟨h, rfl⟩
  | command h => exact ⟨h, rfl⟩
  | element h =>
    have hname := hname _ rfl
    exact ⟨fun before hbefore => h.openElements_ne_nil hname hbefore,
      congrArg Zone.element (h.openElements_eq hname)⟩

-- ---------------------------------------------------------------------------
-- Reading a block
-- ---------------------------------------------------------------------------

namespace Scanner

/-- Outside zones, a line that opens a zone, lines that the zone holds and a line that closes it do
nothing but add to the content: the lines themselves, of brackets only the lines between them, and
of a command its tags. Where no line closes the zone, all lines to the last are content of the open
block. -/
theorem run_protected (scanner : Scanner) {scan : Scan} (hz : scan.zone = none)
    {opening : List Char} {zone : Zone} {opened : List (List Char)}
    (hopens : Opens opening zone opened) :
    (∀ (body : List (List Char)) (closing : List Char) (closed : List (List Char)),
      Holds body zone → Closes closing zone closed →
        scanner.run scan (opening :: (body ++ [closing])) =
          { scan with content := joinLines scan.content (opened ++ (body ++ closed)) }) ∧
    ∀ rest : List (List Char), zone.Outlasts rest →
      scanner.run scan (opening :: rest) =
          { scan with
            zone := some (zone.afterLines rest)
            content := joinLines scan.content (opened ++ rest) } ∧
        (scanner.run scan (opening :: rest)).result =
          scan.messages ++
            { scan with content := joinLines scan.content (opened ++ rest) }.pending := by
  have hname : ∀ name, zone = .element [name] → IsName name := by
    rintro name rfl
    exact hopens.isName
  constructor
  · intro body closing closed hholds hcloses
    obtain ⟨houtlasts, hsame⟩ := hholds.outlasts hname
    have hbody : scanner.Flows (some zone) body (some (zone.afterLines body)) body :=
      houtlasts.flows
    rw [hsame] at hbody
    have hflow := hopens.flows.append (hbody.append (hcloses.flows hname))
    rw [← hz] at hflow
    exact Flows.run_eq scan hflow
  · intro rest houtlasts
    have hflow : scanner.Flows none (opening :: rest) (some (zone.afterLines rest))
        (opened ++ rest) := hopens.flows.append houtlasts.flows
    rw [← hz] at hflow
    have hrun := Flows.run_eq scan hflow
    refine ⟨hrun, ?_⟩
    rw [hrun]
    rfl

/-- A note with a note in it, and with lines that would be a header, a fence and brackets
elsewhere. -/
theorem run_protected_note :
    let name := "note".toList
    let scan : Scan := { Scan.start .user with content := "see".toList }
    let opening := "<note id=\"1\">".toList
    let body :=
      ["assistant: no".toList, "<note>".toList, "```".toList, "</note>".toList, "[[".toList]
    let closing := " </note>".toList
    (scan.zone = none ∧ Opens opening (.element [name]) [opening] ∧
      Holds body (.element [name]) ∧ Closes closing (.element [name]) [closing] ∧
      Zone.Outlasts (.element [name]) body) ∧
    ({} : Scanner).run scan (opening :: (body ++ [closing])) =
      { scan with content := joinLines scan.content (opening :: (body ++ [closing])) } ∧
    (({} : Scanner).run scan (opening :: body)).result =
      { scan with content := joinLines scan.content (opening :: body) }.pending := by
  intro name scan opening body closing
  have hscan : scan.zone = none := rfl
  have hword : name.all isWordChar = true := by decide +kernel
  have hname : IsName name := ⟨by decide, List.all_eq_true.mp hword⟩
  have hopens : Opens opening (.element [name]) [opening] :=
    .element (by decide) ⟨by decide +kernel, by decide⟩
  have hnested : Nested name 0 body 0 :=
    .plain (hasNoTag_of_no_occurrence (by decide) (by decide)) <|
    .opening (opensElement_of_trim_eq hname rfl) <|
    .plain (hasNoTag_of_no_occurrence (by decide) (by decide)) <|
    .closing rfl <|
    .plain (hasNoTag_of_no_occurrence (by decide) (by decide)) <| .nil 0
  have hcloses : Closes closing (.element [name]) [closing] := .element rfl
  have houtlasts : Zone.Outlasts (.element [name]) body :=
    fun _ hbefore => hnested.openElements_ne_nil hname hbefore
  obtain ⟨hclosed, hunclosed⟩ := run_protected {} hscan hopens
  exact ⟨⟨hscan, hopens, .element hnested, hcloses, houtlasts⟩,
    hclosed body closing [closing] (.element hnested) hcloses, (hunclosed body houtlasts).2⟩

end Scanner

end Colloquy.Markup
