import Colloquy.Markup.Scan
import Colloquy.Proofs.Markup.Line
import Colloquy.Proofs.Text.Lines

/-!
# Colloquy — effects of lines

What a line does depends on the open zone and the line alone (`Scanner.effect`): it is
a header, or it adds at most one line to the content, and it leaves a zone open or
none. `Scanner.step_eq_apply` says so of the step, and the laws of scanning are laws
of effects.

* `Scanner.run_after` — messages read before make no difference to what is read.
* `Scanner.messages_prefix_run` — messages once read stay.
-/

namespace Colloquy.Markup

open Text

-- ---------------------------------------------------------------------------
-- Effects of lines
-- ---------------------------------------------------------------------------

/-- What a line does to what has been read: it is a header of a role with the text after its colon,
or it adds a line to the content or nothing; the zone is the one open after it. -/
inductive LineEffect where
  | header (role : Role) (rest : List Char)
  | content (zone : Option Zone) (line : List Char)
  | nothing (zone : Option Zone)
  deriving DecidableEq, Repr

namespace LineEffect

/-- Add the line unless it is blank. -/
def unlessBlank (zone : Option Zone) (line : List Char) : LineEffect :=
  if allBlank line then .nothing zone else .content zone line

def apply : LineEffect → Scan → Scan
  | .header role rest, scan => stepHeader scan role rest
  | .content zone line, scan => { scan with zone := zone }.append line
  | .nothing zone, scan => { scan with zone := zone }

end LineEffect

/-- What a line does inside a zone. -/
def Zone.effect (zone : Zone) (line : List Char) : LineEffect :=
  match zone with
  | .fence => .content (if isFence (trim line) then none else some .fence) line
  | .bracket =>
    if closeBracket.isSuffixOf (trim line) then
      .unlessBlank none (removeFirst closeBracket line)
    else .content (some .bracket) line
  | .command =>
    if closesCommand (trim line) then .content none commandEndTag else .content (some .command) line
  | .element stack =>
    match trackElements stack (trim line) with
    | [] => .content none line
    | stack => .content (some (.element stack)) line

/-- What a line that opens brackets does. -/
def bracketEffect (line : List Char) : LineEffect :=
  if closeBracket.isSuffixOf (trimEnd (removeFirst openBracket line)) then
    .unlessBlank none (removeFirst closeBracket (removeFirst openBracket line))
  else .unlessBlank (some .bracket) (removeFirst openBracket line)

/-- What a line that opens an element does. -/
def elementEffect (line name after : List Char) : LineEffect :=
  if isSelfClosing (trim line) then .content none line
  else
    match closeNames [name] (closingNames after) with
    | [] => .content none line
    | stack => .content (some (.element stack)) line

namespace Scanner

/-- What a line outside zones does that opens none. -/
def plainEffect (scanner : Scanner) (line : List Char) : LineEffect :=
  match header? line with
  | some (tag, rest) =>
    if scanner.recognises (String.ofList tag) then
      .header (Role.ofTag (String.ofList tag)) rest
    else .content none line
  | none => .content none line

/-- What a line outside zones does. -/
def outsideEffect (scanner : Scanner) (line : List Char) : LineEffect :=
  if isFence (trim line) then .unlessBlank (some .fence) line
  else if openBracket.isPrefixOf (trim line) then bracketEffect line
  else
    match commandOpen? (trim line) with
    | some command => .content (some .command) (commandTag command)
    | none =>
      match elementOpen? (trim line) with
      | some (name, after) => elementEffect line name after
      | none => scanner.plainEffect line

/-- What a line does while a zone is open, or none. -/
def effect (scanner : Scanner) (zone? : Option Zone) (line : List Char) : LineEffect :=
  match zone? with
  | some zone => zone.effect line
  | none => scanner.outsideEffect line

end Scanner

-- ---------------------------------------------------------------------------
-- Lines that start with a mark
-- ---------------------------------------------------------------------------

namespace Scanner

/-- Outside zones, a line that starts with opening brackets opens them. -/
theorem effect_of_openBracket (scanner : Scanner) {line : List Char}
    (h : openBracket.isPrefixOf (trim line) = true) :
    scanner.effect none line = bracketEffect line := by
  have hhead := head?_of_openBracket h
  have hfence : isFence (trim line) = false := by
    apply isFence_eq_false <;> rw [hhead] <;> decide
  rw [effect, outsideEffect, hfence, h]
  rfl

/-- Outside zones, a line that starts with the tag of an element opens the element, unless it opens
a command's output. -/
theorem effect_of_elementOpen? (scanner : Scanner) {line name after : List Char}
    (hcommand : commandOpen? (trim line) = none)
    (h : elementOpen? (trim line) = some (name, after)) :
    scanner.effect none line = elementEffect line name after := by
  have hhead := head?_of_elementOpen? h
  have hfence : isFence (trim line) = false := by
    apply isFence_eq_false <;> rw [hhead] <;> decide
  have hbracket : openBracket.isPrefixOf (trim line) = false := by
    rw [Bool.eq_false_iff]
    intro hb
    exact absurd (hhead.symm.trans (head?_of_openBracket hb)) (by decide)
  rw [effect, outsideEffect, hfence, hbracket, hcommand, h]
  rfl

end Scanner

-- ---------------------------------------------------------------------------
-- Steps and effects
-- ---------------------------------------------------------------------------

theorem LineEffect.apply_unlessBlank (zone : Option Zone) (line : List Char) (scan : Scan) :
    (LineEffect.unlessBlank zone line).apply scan =
      { scan with zone := zone }.appendUnlessBlank line := by
  unfold LineEffect.unlessBlank Scan.appendUnlessBlank
  split <;> rfl

theorem LineEffect.zone_apply_unlessBlank (zone : Option Zone) (line : List Char) (scan : Scan) :
    ((LineEffect.unlessBlank zone line).apply scan).zone = zone := by
  unfold LineEffect.unlessBlank
  split <;> rfl

theorem stepInside_eq_apply {scan : Scan} {zone : Zone} (h : scan.zone = some zone)
    (line : List Char) :
    stepInside scan zone line (trim line) = (zone.effect line).apply scan := by
  obtain ⟨messages, role, content, explicit, zone?⟩ := scan
  subst h
  cases zone with
  | fence =>
    simp only [stepInside, Zone.effect]
    split <;> rfl
  | bracket =>
    simp only [stepInside, Zone.effect]
    split
    · rw [LineEffect.apply_unlessBlank]
      rfl
    · rfl
  | command =>
    simp only [stepInside, Zone.effect]
    split <;> rfl
  | element stack =>
    simp only [stepInside, Zone.effect]
    cases trackElements stack (trim line) <;> rfl

theorem stepBracket_eq_apply {scan : Scan} (h : scan.zone = none) (line : List Char) :
    stepBracket scan line = (bracketEffect line).apply scan := by
  obtain ⟨messages, role, content, explicit, zone?⟩ := scan
  subst h
  simp only [stepBracket, bracketEffect]
  split
  · rw [LineEffect.apply_unlessBlank]
  · rw [LineEffect.apply_unlessBlank]
    rfl

theorem stepElement_eq_apply {scan : Scan} (h : scan.zone = none) (line name after : List Char) :
    stepElement scan line (trim line) name after =
      (elementEffect line name after).apply scan := by
  obtain ⟨messages, role, content, explicit, zone?⟩ := scan
  subst h
  simp only [stepElement, elementEffect]
  split
  · rfl
  · cases closeNames [name] (closingNames after) <;> rfl

namespace Scanner

variable {scanner : Scanner}

theorem stepPlain_eq_apply {scan : Scan} (h : scan.zone = none) (line : List Char) :
    scanner.stepPlain scan line = (scanner.plainEffect line).apply scan := by
  obtain ⟨messages, role, content, explicit, zone?⟩ := scan
  subst h
  unfold stepPlain plainEffect
  cases header? line with
  | none => rfl
  | some header =>
    dsimp only
    split <;> rfl

theorem stepOutside_eq_apply {scan : Scan} (h : scan.zone = none) (line : List Char) :
    scanner.stepOutside scan line (trim line) = (scanner.outsideEffect line).apply scan := by
  unfold stepOutside outsideEffect
  split
  · rw [LineEffect.apply_unlessBlank]
    rfl
  · split
    · exact stepBracket_eq_apply h line
    · cases commandOpen? (trim line) with
      | some command => rfl
      | none =>
        cases elementOpen? (trim line) with
        | some element => exact stepElement_eq_apply h line _ _
        | none => exact stepPlain_eq_apply h line

/-- A line does to what has been read what its effect says. -/
theorem step_eq_apply (scan : Scan) (line : List Char) :
    scanner.step scan line = (scanner.effect scan.zone line).apply scan := by
  unfold step effect
  cases h : scan.zone with
  | some zone => exact stepInside_eq_apply h line
  | none => exact stepOutside_eq_apply h line

/-- A line that is content leaves open the zone its effect names. -/
theorem zone_step_content {scan : Scan} {line line' : List Char} {zone : Option Zone}
    (h : scanner.effect scan.zone line = .content zone line') :
    (scanner.step scan line).zone = zone := by
  rw [step_eq_apply, h]
  rfl

end Scanner

-- ---------------------------------------------------------------------------
-- Messages read before
-- ---------------------------------------------------------------------------

namespace Scan

/-- The same, read after other messages. -/
def after (scan : Scan) (messages : List Message) : Scan :=
  { scan with messages := messages ++ scan.messages }

/-- The message of the open block if the text ends here, unless an implicit block has none. -/
def pending (scan : Scan) : List Message :=
  if !(trim scan.content).isEmpty || scan.explicit then
    [.ofText scan.role (String.ofList (trim scan.content))]
  else []

/-- The messages of a text that ends here. -/
def result (scan : Scan) : List Message :=
  scan.messages ++ scan.pending

theorem flush_eq (scan : Scan) :
    scan.flush = { scan with messages := scan.result, content := [] } := by
  by_cases h : (!(trim scan.content).isEmpty || scan.explicit) = true
  · simp only [flush, result, pending, if_pos h]
  · simp only [flush, result, pending, if_neg h, List.append_nil]

@[simp]
theorem flush_messages (scan : Scan) : scan.flush.messages = scan.result := by
  rw [flush_eq]

@[simp]
theorem zone_after (scan : Scan) (messages : List Message) :
    (scan.after messages).zone = scan.zone := rfl

theorem result_after (scan : Scan) (messages : List Message) :
    (scan.after messages).result = messages ++ scan.result :=
  List.append_assoc ..

end Scan

theorem stepHeader_eq (scan : Scan) (role : Role) (rest : List Char) :
    stepHeader scan role rest =
      if (trim rest).isEmpty then
        { scan with messages := scan.result, content := [], role := role, explicit := true }
      else
        { scan with
          messages := scan.result ++ [.ofText role (String.ofList (trim rest))]
          content := []
          role := (if role = .previousResponseId then some .user else none).getD scan.role
          explicit := false } := by
  unfold stepHeader
  rw [Scan.flush_eq]
  rfl

theorem LineEffect.apply_after (effect : LineEffect) (scan : Scan) (messages : List Message) :
    effect.apply (scan.after messages) = (effect.apply scan).after messages := by
  cases effect with
  | header role rest =>
    simp only [LineEffect.apply, stepHeader_eq, Scan.result_after]
    split
    · rfl
    · simp [Scan.after]
  | content zone line => rfl
  | nothing zone => rfl

namespace Scanner

variable {scanner : Scanner}

theorem step_after (scan : Scan) (messages : List Message) (line : List Char) :
    scanner.step (scan.after messages) line = (scanner.step scan line).after messages := by
  rw [step_eq_apply, step_eq_apply, LineEffect.apply_after, Scan.zone_after]

@[simp]
theorem run_nil (scan : Scan) : scanner.run scan [] = scan := rfl

@[simp]
theorem run_cons (scan : Scan) (line : List Char) (lines : List (List Char)) :
    scanner.run scan (line :: lines) = scanner.run (scanner.step scan line) lines := rfl

theorem run_append (scan : Scan) (lines more : List (List Char)) :
    scanner.run scan (lines ++ more) = scanner.run (scanner.run scan lines) more :=
  List.foldl_append

theorem run_concat (scan : Scan) (lines : List (List Char)) (line : List Char) :
    scanner.run scan (lines ++ [line]) = scanner.step (scanner.run scan lines) line :=
  run_append scan lines [line]

/-- Messages read before make no difference to what is read. -/
theorem run_after (scan : Scan) (messages : List Message) (lines : List (List Char)) :
    scanner.run (scan.after messages) lines = (scanner.run scan lines).after messages := by
  induction lines generalizing scan with
  | nil => rfl
  | cons line lines ih => rw [run_cons, run_cons, step_after, ih]

theorem parse_eq (text : String) (role : Role) :
    scanner.parse text role = (scanner.run (.start role) (lines text.toList)).result := by
  rw [parse, Scan.flush_messages]

-- ---------------------------------------------------------------------------
-- Messages stay
-- ---------------------------------------------------------------------------

theorem messages_prefix_step (scan : Scan) (line : List Char) :
    scan.messages <+: (scanner.step scan line).messages := by
  rw [step_eq_apply]
  cases scanner.effect scan.zone line with
  | header role rest =>
    rw [LineEffect.apply, stepHeader_eq]
    split
    · exact List.prefix_append ..
    · exact (List.prefix_append ..).trans (List.prefix_append ..)
  | content zone line => exact List.prefix_rfl
  | nothing zone => exact List.prefix_rfl

/-- Messages once read stay. -/
theorem messages_prefix_run (scan : Scan) (lines : List (List Char)) :
    scan.messages <+: (scanner.run scan lines).messages := by
  induction lines generalizing scan with
  | nil => exact List.prefix_rfl
  | cons line lines ih => exact (messages_prefix_step scan line).trans (ih _)

theorem messages_prefix_result (scan : Scan) (lines : List (List Char)) :
    scan.messages <+: (scanner.run scan lines).result :=
  (messages_prefix_run scan lines).trans (List.prefix_append ..)

end Scanner

end Colloquy.Markup
