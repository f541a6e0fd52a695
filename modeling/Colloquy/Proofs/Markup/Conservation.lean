import Colloquy.Proofs.Markup.Effect

/-!
# Colloquy — nothing is lost and nothing read twice

Each line stands for a text that depends on the zone it is read in (`Scanner.reading`): the
part after the colon of a header, the line without its brackets, the tag of a command, or
the line itself. Up to blanks, what has been written after a line is what was written
before it and the text that the line stands for (`Scanner.written_step`), and the messages
of a text are the texts of its lines (`Scanner.parse_conserves`).
-/

namespace Colloquy.Markup

open Text

-- ---------------------------------------------------------------------------
-- What lines stand for
-- ---------------------------------------------------------------------------

namespace Scanner

/-- What a line outside zones stands for that opens none: of a header the part after the colon, and
else the line. -/
def plainReading (scanner : Scanner) (line : List Char) : List Char :=
  match header? line with
  | some (tag, rest) => if scanner.recognises (String.ofList tag) then rest else line
  | none => line

/-- What the line stands for where it is read. Brackets that open a zone are no part of it, nor are
those that close it on this line, and the lines around a command's output are its tags. -/
def reading (scanner : Scanner) (scan : Scan) (line : List Char) : List Char :=
  let closes : Bool := (scanner.step scan line).zone = none
  match scan.zone with
  | some .bracket => if closes then removeFirst closeBracket line else line
  | some .command => if closes then commandEndTag else line
  | some .fence => line
  | some (.element _) => line
  | none =>
    if isFence (trim line) then line
    else if openBracket.isPrefixOf (trim line) then
      if closes then removeFirst closeBracket (removeFirst openBracket line)
      else removeFirst openBracket line
    else
      match commandOpen? (trim line) with
      | some command => commandTag command
      | none => if (elementOpen? (trim line)).isSome then line else scanner.plainReading line

/-- What the lines stand for, each read after those before it. -/
def readings (scanner : Scanner) : Scan → List (List Char) → List (List Char)
  | _, [] => []
  | scan, line :: lines =>
    scanner.reading scan line :: readings scanner (scanner.step scan line) lines

end Scanner

-- ---------------------------------------------------------------------------
-- Texts of effects
-- ---------------------------------------------------------------------------

namespace LineEffect

/-- What a line adds. -/
def text : LineEffect → List Char
  | .header _ rest => rest
  | .content _ line => line
  | .nothing _ => []

/-- A line that is left out because it is blank is not missed. -/
theorem withoutBlanks_text_unlessBlank (zone : Option Zone) (line : List Char) :
    withoutBlanks (unlessBlank zone line).text = withoutBlanks line := by
  unfold unlessBlank
  split
  · next h => exact (withoutBlanks_eq_nil_iff.mpr h).symm
  · rfl

end LineEffect

namespace Scanner

variable {scanner : Scanner}

theorem text_plainEffect (line : List Char) :
    (scanner.plainEffect line).text = scanner.plainReading line := by
  unfold plainEffect plainReading
  cases header? line with
  | none => rfl
  | some header =>
    dsimp only
    split <;> rfl

theorem text_elementEffect (line name after : List Char) :
    (elementEffect line name after).text = line := by
  unfold elementEffect
  split
  · rfl
  · split <;> rfl

/-- The effect of a line adds what the line stands for, but for blanks. -/
theorem withoutBlanks_text_effect (scan : Scan) (line : List Char) :
    withoutBlanks (scanner.effect scan.zone line).text =
      withoutBlanks (scanner.reading scan line) := by
  rw [reading, step_eq_apply]
  cases hz : scan.zone with
  | some zone =>
    cases zone with
    | fence => rfl
    | bracket =>
      rw [effect, Zone.effect]
      split
      · simp [LineEffect.withoutBlanks_text_unlessBlank, LineEffect.zone_apply_unlessBlank]
      · rfl
    | command =>
      rw [effect, Zone.effect]
      split <;> rfl
    | element stack =>
      rw [effect, Zone.effect]
      split <;> rfl
  | none =>
    rw [effect, outsideEffect]
    split
    · exact LineEffect.withoutBlanks_text_unlessBlank _ _
    · split
      · rw [bracketEffect]
        split
        · simp [LineEffect.withoutBlanks_text_unlessBlank, LineEffect.zone_apply_unlessBlank]
        · simp [LineEffect.withoutBlanks_text_unlessBlank, LineEffect.zone_apply_unlessBlank]
      · cases commandOpen? (trim line) with
        | some command => rfl
        | none =>
          cases elementOpen? (trim line) with
          | some element => exact congrArg withoutBlanks (text_elementEffect line _ _)
          | none => exact congrArg withoutBlanks (text_plainEffect line)

end Scanner

-- ---------------------------------------------------------------------------
-- What has been written
-- ---------------------------------------------------------------------------

/-- The texts of messages, one after another. -/
def textsOf (messages : List Message) : List Char :=
  messages.flatMap fun m => m.text.toList

theorem textsOf_append (ms more : List Message) :
    textsOf (ms ++ more) = textsOf ms ++ textsOf more :=
  List.flatMap_append ..

theorem textsOf_ofText (role : Role) (s : List Char) :
    textsOf [.ofText role (String.ofList s)] = s := by
  simp [textsOf, Message.ofText, Message.text, Content.asText]

namespace Scan

/-- What stands in the messages read so far and in the open block, without blanks. -/
def written (scan : Scan) : List Char :=
  withoutBlanks (textsOf scan.messages) ++ withoutBlanks scan.content

/-- An open block that leaves no message has nothing but blanks in it. -/
theorem withoutBlanks_textsOf_pending (scan : Scan) :
    withoutBlanks (textsOf scan.pending) = withoutBlanks scan.content := by
  unfold pending
  split
  · rw [textsOf_ofText, withoutBlanks_trim]
  · next h =>
    rw [Bool.not_eq_true, Bool.or_eq_false_iff, Bool.not_eq_false', List.isEmpty_iff] at h
    rw [← withoutBlanks_trim scan.content, h.1]
    rfl

theorem withoutBlanks_textsOf_result (scan : Scan) :
    withoutBlanks (textsOf scan.result) = scan.written := by
  rw [result, textsOf_append, withoutBlanks_append, withoutBlanks_textsOf_pending, written]

end Scan

theorem written_stepHeader (scan : Scan) (role : Role) (rest : List Char) :
    (stepHeader scan role rest).written = scan.written ++ withoutBlanks rest := by
  rw [stepHeader_eq]
  split
  · next h =>
    -- a header alone on its line ends the block before it
    rw [← withoutBlanks_trim rest, List.isEmpty_iff.mp h, Scan.written,
      Scan.withoutBlanks_textsOf_result]
  · rw [Scan.written, textsOf_append, withoutBlanks_append, Scan.withoutBlanks_textsOf_result,
      textsOf_ofText, withoutBlanks_trim]
    exact List.append_nil _

theorem written_append (scan : Scan) (line : List Char) :
    (scan.append line).written = scan.written ++ withoutBlanks line := by
  have hcontent : withoutBlanks (scan.append line).content =
      withoutBlanks scan.content ++ withoutBlanks line := by
    unfold Scan.append
    dsimp only
    split
    · next h => rw [List.isEmpty_iff.mp h]; rfl
    · exact withoutBlanks_append ..
  rw [Scan.written, hcontent, ← List.append_assoc]
  rfl

/-- A line adds its text to what has been written, whatever it does besides. -/
theorem LineEffect.written_apply (effect : LineEffect) (scan : Scan) :
    (effect.apply scan).written = scan.written ++ withoutBlanks effect.text := by
  cases effect with
  | header role rest => exact written_stepHeader scan role rest
  | content zone line => exact written_append { scan with zone := zone } line
  | nothing zone => exact (List.append_nil _).symm

namespace Scanner

variable {scanner : Scanner}

theorem written_step (scan : Scan) (line : List Char) :
    (scanner.step scan line).written =
      scan.written ++ withoutBlanks (scanner.reading scan line) := by
  rw [step_eq_apply, LineEffect.written_apply, withoutBlanks_text_effect]

theorem written_run (scan : Scan) (lines : List (List Char)) :
    (scanner.run scan lines).written =
      scan.written ++ withoutBlanks (scanner.readings scan lines).flatten := by
  induction lines generalizing scan with
  | nil => exact (List.append_nil _).symm
  | cons line lines ih =>
    rw [run_cons, ih, written_step, readings, List.flatten_cons, withoutBlanks_append,
      List.append_assoc]

/-- The messages of a text are, one after another and without blanks, what the lines of the text
stand for where they are read. -/
theorem parse_conserves (scanner : Scanner) (text : String) (role : Role) :
    withoutBlanks (textsOf (scanner.parse text role)) =
      withoutBlanks (scanner.readings (.start role) (lines text.toList)).flatten := by
  rw [parse_eq, Scan.withoutBlanks_textsOf_result, written_run]
  rfl

end Scanner

end Colloquy.Markup
