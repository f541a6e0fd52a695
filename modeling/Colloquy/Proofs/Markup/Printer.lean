import Colloquy.Markup.Printer
import Colloquy.Proofs.Markup.Header

/-!
# Colloquy — printed conversations

A printed form reads back alone exactly if scanning it leaves no zone open and gives
its message and no other (`Scanner.readsBack_iff`). A form that reads back alone reads
back wherever no zone is open, whatever was read before (`Scanner.run_renderText`), so
messages whose forms read back alone read back together (`Scanner.parse_print`).
-/

namespace Colloquy.Markup.Scanner

open Text

variable {scanner : Scanner} {role : Role} {scan : Scan}

-- ---------------------------------------------------------------------------
-- Steps at headers
-- ---------------------------------------------------------------------------

/-- A header line ends the open block and begins a message with its text. -/
theorem step_header {line rest : List Char} (hz : scan.zone = none)
    (he : scanner.effect none line = .header role rest) :
    (scanner.step scan line).zone = none ∧
      (scanner.step scan line).result =
        scan.result ++ [.ofText role (String.ofList (trim rest))] := by
  rw [step_eq_apply, hz, he, LineEffect.apply, stepHeader_eq]
  split
  · next hrest =>
    rw [List.isEmpty_iff] at hrest
    exact ⟨hz, by rw [hrest]; rfl⟩
  · exact ⟨hz, by simp [Scan.result, Scan.pending]⟩

/-- A block that a header opened, before its first line. -/
def openedBlock (role : Role) : Scan :=
  { messages := [], role := role, content := [], explicit := true, zone := none }

theorem step_blockLine (h : scanner.HasHeader role) (hz : scan.zone = none) :
    scanner.step scan (role.tag.toList ++ [':']) = (openedBlock role).after scan.result := by
  rw [step_eq_apply, hz, h.effect_blockLine, LineEffect.apply, stepHeader_eq]
  obtain ⟨messages, role', content, explicit, zone⟩ := scan
  subst hz
  simp [openedBlock, Scan.after]

/-- What follows a header line is read as it is anywhere else. -/
theorem run_blockLine (h : scanner.HasHeader role) (hz : scan.zone = none)
    (lines : List (List Char)) :
    scanner.run scan ((role.tag.toList ++ [':']) :: lines) =
      (scanner.run (openedBlock role) lines).after scan.result := by
  rw [run_cons, step_blockLine h hz, run_after]

theorem run_start_blockLine (h : scanner.HasHeader role) (lines : List (List Char)) :
    scanner.run (.start .user) ((role.tag.toList ++ [':']) :: lines) =
      scanner.run (openedBlock role) lines := by
  rw [run_blockLine h rfl]
  rfl

-- ---------------------------------------------------------------------------
-- Reading back alone
-- ---------------------------------------------------------------------------

theorem endedLines_ended (s t : List Char) :
    lines (s ++ '\n' :: '\n' :: t) = endedLines s ++ [] :: lines t := by
  rw [lines_append_newline, ← List.nil_append ('\n' :: t), lines_append_newline]
  rfl

/-- The header that tells whether a printed form leaves what follows intact. -/
def clearLine : List Char := Role.clear.tag.toList ++ [':']

theorem zoneEffect_clearLine (zone : Zone) :
    ∃ zone', zone.effect clearLine = .content zone' clearLine := by
  cases zone with
  | fence => exact ⟨_, rfl⟩
  | bracket => exact ⟨some .bracket, rfl⟩
  | command => exact ⟨some .command, rfl⟩
  | element stack =>
    rw [Zone.effect]
    split
    · exact ⟨_, rfl⟩
    · exact ⟨_, rfl⟩

/-- Inside a zone the header is content, and then the last message has a text. -/
theorem result_step_clearLine (scanner : Scanner) (hz : scan.zone ≠ none) :
    ∃ text : List Char, text ≠ [] ∧ (scanner.step scan clearLine).result =
      scan.messages ++ [.ofText scan.role (String.ofList text)] := by
  obtain ⟨zone, hzone⟩ := Option.ne_none_iff_exists'.mp hz
  obtain ⟨zone', he⟩ := zoneEffect_clearLine zone
  have hmem : 'c' ∈ trim (joinLine scan.content clearLine) := by
    refine mem_trim ?_ (by decide)
    unfold joinLine
    split
    · decide
    · exact List.mem_append_right _ (by decide)
  refine ⟨trim (joinLine scan.content clearLine), List.ne_nil_of_mem hmem, ?_⟩
  rw [step_eq_apply, hzone, effect, he, LineEffect.apply, Scan.append_eq, Scan.result, Scan.pending,
    if_pos]
  simp [List.ne_nil_of_mem hmem]

/-- What is read before a header that ends it, where the header must be read as one. -/
theorem result_step_clear (hz : scan.zone = none) :
    (scanner.step scan clearLine).result = scan.result ++ [.ofText .clear ""] :=
  (step_header hz (hasHeader_of_isKnown rfl).effect_blockLine).2

theorem lines_clear (rendered : String) :
    lines (rendered ++ "\n\n" ++ Role.clear.tag ++ ":").toList =
      endedLines rendered.toList ++ [[]] ++ [clearLine] := by
  have htext : (rendered ++ "\n\n" ++ Role.clear.tag ++ ":").toList =
      rendered.toList ++ '\n' :: '\n' :: clearLine := by
    simp [clearLine]
  have hclear : lines clearLine = [clearLine] := by decide
  rw [htext, endedLines_ended, hclear, List.append_assoc]
  rfl

/-- A printed form reads back alone exactly if its lines and an empty line leave no zone open and
give its message. -/
theorem readsBack_iff {rendered text : String} :
    scanner.readsBack rendered role text = true ↔
      (scanner.run (.start .user) (endedLines rendered.toList ++ [[]])).zone = none ∧
      (scanner.run (.start .user) (endedLines rendered.toList ++ [[]])).result =
        [.ofText role (trimBlank text)] := by
  rw [readsBack, parse_eq, lines_clear, run_append, run_cons, run_nil]
  have hreads : ReadsAll scanner.HasHeader
      (scanner.run (.start .user) (endedLines rendered.toList ++ [[]])) :=
    ReadsAll.run hasHeader_user (fun _ hrole => hrole) ⟨hasHeader_user, by simp [Scan.start]⟩ _
  generalize scanner.run (.start .user) (endedLines rendered.toList ++ [[]]) = scan at hreads
  -- with no zone open the header is read, and otherwise it is part of the last message
  by_cases hz : scan.zone = none
  · rw [result_step_clear hz]
    have hresult := hreads.result
    generalize scan.result = result at hresult
    rcases result with _ | ⟨only, _ | ⟨next, rest⟩⟩
    · simp
    · obtain ⟨role', text', rfl⟩ : ∃ role' text', only = .ofText role' text' :=
        ⟨_, _, (hresult only (List.mem_singleton_self _)).eq_ofText⟩
      rw [List.singleton_append]
      simp only [Bool.and_eq_true, decide_eq_true_eq]
      simp [hz, Message.ofText, Message.text, Content.asText]
    · simp
  · obtain ⟨text', hne, hresult⟩ := result_step_clearLine scanner hz
    rw [hresult]
    have hlast : (Message.ofText scan.role (String.ofList text')).text.isEmpty = false := by
      rw [Bool.eq_false_iff, ne_eq, String.isEmpty_iff]
      exact fun h => hne (String.ofList_eq_empty_iff.mp h)
    rcases scan.messages with _ | ⟨only, _ | ⟨next, rest⟩⟩
    · simp [hz]
    · simp [hz, hlast]
    · simp [hz]

theorem hasHeader_of_readsBack {rendered text : String}
    (h : scanner.readsBack rendered role text = true) : scanner.HasHeader role := by
  obtain ⟨-, hresult⟩ := readsBack_iff.mp h
  have hreads : ReadsAll scanner.HasHeader
      (scanner.run (.start .user) (endedLines rendered.toList ++ [[]])) :=
    ReadsAll.run hasHeader_user (fun _ hrole => hrole) ⟨hasHeader_user, by simp [Scan.start]⟩ _
  have honly : scanner.Reads (.ofText role (trimBlank text)) := by
    apply hreads.result
    rw [hresult]
    exact List.mem_singleton_self _
  exact honly.hasHeader

-- ---------------------------------------------------------------------------
-- Lines of printed forms
-- ---------------------------------------------------------------------------

/-- The header line of a role, before its text. -/
theorem endedLines_blockLine (h : scanner.HasHeader role) (text : List Char) :
    endedLines (role.tag.toList ++ ':' :: '\n' :: text) =
      (role.tag.toList ++ [':']) :: endedLines text := by
  have hnl : '\n' ∉ role.tag.toList ++ [':'] := by
    simp [h.newline_not_mem]
  rw [List.append_cons, endedLines_append_newline, endedLines_of_not_mem hnl,
    dropReturn_append (by simp)]
  rfl

theorem endedLines_blockForm (h : scanner.HasHeader role) (text : String) :
    endedLines (blockForm role text).toList =
      (role.tag.toList ++ [':']) :: [] :: endedLines text.toList := by
  have htext : (blockForm role text).toList =
      role.tag.toList ++ ':' :: '\n' :: ([] ++ '\n' :: text.toList) := by
    simp [blockForm]
  rw [htext, endedLines_blockLine h, endedLines_append_newline]
  rfl

theorem endedLines_bracketForm (h : scanner.HasHeader role) (text : String) :
    endedLines (bracketForm role text).toList =
      (role.tag.toList ++ [':']) :: [] :: openBracket ::
        (endedLines text.toList ++ [closeBracket]) := by
  have htext : (bracketForm role text).toList =
      role.tag.toList ++ ':' :: '\n' ::
        ([] ++ '\n' :: (openBracket ++ '\n' :: (text.toList ++ '\n' :: closeBracket))) := by
    simp [bracketForm, openBracket, closeBracket]
  rw [htext, endedLines_blockLine h, endedLines_append_newline, endedLines_append_newline,
    endedLines_append_newline]
  rfl

theorem endedLines_inlineForm (h : scanner.HasHeader role) {text : String}
    (hnl : text.toList.contains '\n' = false) :
    endedLines (inlineForm role text).toList =
      [role.tag.toList ++ ':' :: dropReturn (' ' :: text.toList)] := by
  have htext : (inlineForm role text).toList =
      (role.tag.toList ++ [':']) ++ ' ' :: text.toList := by
    simp [inlineForm]
  have hmem : '\n' ∉ (role.tag.toList ++ [':']) ++ ' ' :: text.toList := by
    simpa [h.newline_not_mem] using hnl
  rw [htext, endedLines_of_not_mem hmem, dropReturn_append (by simp), List.append_assoc]
  rfl

/-- A line with a text that leaves no zone open is a header: it opens no command's output, which an
empty line does not end. -/
theorem effect_inlineLine_of_zone {rest : List Char} (h : scanner.HasHeader role)
    (hz : (scanner.run (.start .user) [role.tag.toList ++ ':' :: rest, []]).zone = none) :
    scanner.effect none (role.tag.toList ++ ':' :: rest) = .header role rest := by
  rcases h.effect_inlineLine rest with he | ⟨command, he⟩
  · exact he
  · have hopen : (scanner.step (.start .user) (role.tag.toList ++ ':' :: rest)).zone =
        some .command :=
      zone_step_content he
    have hstay : (scanner.step (scanner.step (.start .user) (role.tag.toList ++ ':' :: rest))
        []).zone = some .command :=
      zone_step_content (by rw [hopen]; rfl : scanner.effect _ [] = .content (some .command) [])
    rw [run_cons, run_cons, run_nil, hstay] at hz
    exact absurd hz (by simp)

/-- A printed form is the header line of a block and more lines, or one header line with a text. -/
theorem endedLines_renderText (h : scanner.HasHeader role) (text : String) :
    (∃ more, endedLines (scanner.renderText role text).toList =
        (role.tag.toList ++ [':']) :: more) ∨
      ∃ rest, endedLines (scanner.renderText role text).toList =
          [role.tag.toList ++ ':' :: rest] ∧
        scanner.effect none (role.tag.toList ++ ':' :: rest) = .header role rest := by
  unfold renderText
  split
  · have hnl : '\n' ∉ (role.tag ++ ":").toList := by
      simp [h.newline_not_mem]
    rw [endedLines_of_not_mem hnl]
    refine Or.inl ⟨[], ?_⟩
    rw [String.toList_append, dropReturn_append (by simp)]
    rfl
  · split
    · next hinline =>
      simp only [Bool.and_eq_true, Bool.not_eq_true'] at hinline
      have hline := endedLines_inlineForm h hinline.1.2
      have hz := (readsBack_iff.mp hinline.2).1
      rw [hline] at hz
      exact Or.inr ⟨_, hline, effect_inlineLine_of_zone h hz⟩
    · refine Or.inl ?_
      unfold renderBlock
      split
      · exact ⟨_, endedLines_blockForm h text⟩
      · exact ⟨_, endedLines_bracketForm h text⟩

-- ---------------------------------------------------------------------------
-- Reading back together
-- ---------------------------------------------------------------------------

/-- A printed form that reads back alone reads back wherever no zone is open. -/
theorem run_renderText {text : String}
    (h : scanner.readsBack (scanner.renderText role text) role text = true)
    (hz : scan.zone = none) :
    (scanner.run scan (endedLines (scanner.renderText role text).toList ++ [[]])).zone = none ∧
      (scanner.run scan (endedLines (scanner.renderText role text).toList ++ [[]])).result =
        scan.result ++ [.ofText role (trimBlank text)] := by
  have hheader := hasHeader_of_readsBack h
  have hrun := readsBack_iff.mp h
  -- either way the first line is a header, and what was read before is out of the way
  rcases endedLines_renderText hheader text with ⟨more, hlines⟩ | ⟨rest, hlines⟩
  · rw [hlines, List.cons_append] at hrun ⊢
    rw [run_start_blockLine hheader] at hrun
    rw [run_blockLine hheader hz, Scan.zone_after, Scan.result_after, hrun.2]
    exact ⟨hrun.1, rfl⟩
  · obtain ⟨hlines, he⟩ := hlines
    obtain ⟨hzone, hresult⟩ := step_header hz he
    have hstart : (scanner.step (.start .user) (role.tag.toList ++ ':' :: rest)).result = _ :=
      (step_header rfl he).2
    rw [hlines, List.singleton_append, run_cons, run_cons, run_nil, result_step_nil] at hrun ⊢
    rw [hstart] at hrun
    rw [hresult, ← hrun.2]
    exact ⟨zone_step_nil scanner hzone, rfl⟩

/-- The lines of printed messages, after the empty line that a printed text begins with. -/
def printedLines (scanner : Scanner) (ms : List Message) : List (List Char) :=
  lines (joinWith "\n\n" (ms.map scanner.render)).toList

/-- The printed lines are read message by message: each is read with the empty line after it. -/
theorem result_run_printedLines_cons (scan : Scan) (m : Message) (ms : List Message) :
    (scanner.run scan (scanner.printedLines (m :: ms))).result =
      (scanner.run (scanner.run scan (endedLines (scanner.render m).toList ++ [[]]))
        (scanner.printedLines ms)).result := by
  cases ms with
  | nil =>
    -- no line follows the last message, and an empty line there would make no difference
    show (scanner.run scan (lines (scanner.render m).toList)).result = _
    rw [result_run_lines, run_append]
    exact (result_step_nil _).symm
  | cons n ms =>
    have htext : (joinWith "\n\n" ((m :: n :: ms).map scanner.render)).toList =
        (scanner.render m).toList ++ '\n' :: '\n' ::
          (joinWith "\n\n" ((n :: ms).map scanner.render)).toList := by
      simp [joinWith]
    rw [printedLines, htext, endedLines_ended, List.append_cons, run_append]
    rfl

theorem parse_print_eq (ms : List Message) :
    scanner.parse (scanner.print ms) role =
      (scanner.run (.start role) (scanner.printedLines ms)).result := by
  have htext : (scanner.print ms).toList =
      [] ++ '\n' :: (joinWith "\n\n" (ms.map scanner.render)).toList := by
    simp [print]
  have hstart : scanner.run (.start role) [[]] = .start role := rfl
  rw [parse_eq, htext, lines_append_newline, run_append]
  show (scanner.run (scanner.run (.start role) [[]]) _).result = _
  rw [hstart]
  rfl

/-- Messages whose printed forms read back alone read back together, after whatever was read before
with no zone open. -/
theorem result_run_printedLines {ms : List Message}
    (h : ∀ m ∈ ms, scanner.readsBack (scanner.render m) m.role m.text = true)
    (hz : scan.zone = none) :
    (scanner.run scan (scanner.printedLines ms)).result =
      scan.result ++ ms.map fun m => .ofText m.role (trimBlank m.text) := by
  induction ms generalizing scan with
  | nil => simp [printedLines, joinWith, lines, linesOfPieces]
  | cons m ms ih =>
    obtain ⟨hzone, hresult⟩ := run_renderText (h m (List.mem_cons_self ..)) hz
    have hrest := ih (fun n hn => h n (List.mem_cons_of_mem _ hn)) hzone
    rw [result_run_printedLines_cons, render, hrest, hresult, List.append_assoc]
    rfl

/-- A printed conversation of messages that each read back alone reads back: the same messages in
the same order, with their texts trimmed. -/
theorem parse_print {ms : List Message}
    (h : ∀ m ∈ ms, scanner.readsBack (scanner.render m) m.role m.text = true) (role : Role) :
    scanner.parse (scanner.print ms) role =
      ms.map fun m => .ofText m.role (trimBlank m.text) := by
  rw [parse_print_eq, result_run_printedLines h rfl]
  rfl

/-- A block, a message on one line, an empty message and a text in brackets. -/
theorem parse_print_mixed :
    let ms : List Message :=
      [.user " hello\n", .continuation "resp_1", .ofText .clear "",
        .assistant "see\nmodel: literal"]
    (∀ m ∈ ms, ({} : Scanner).readsBack (({} : Scanner).render m) m.role m.text = true) ∧
      ({} : Scanner).parse (({} : Scanner).print ms) .user =
        [.user "hello", .continuation "resp_1", .ofText .clear "",
          .assistant "see\nmodel: literal"] := by
  intro ms
  have h : ∀ m ∈ ms, ({} : Scanner).readsBack (({} : Scanner).render m) m.role m.text = true := by
    decide +kernel
  exact ⟨h, (parse_print h .user).trans (by decide +kernel)⟩

end Colloquy.Markup.Scanner
