import Colloquy.Proofs.Markup.Enclosed

/-!
# Colloquy — printing what was read

A conversation that was read and printed is read again as it was exactly if each of its
messages keeps its text when it is printed (`Scanner.keepsText`). Brackets are the last
form the printer turns to, and it does not test them: they fail for texts that end them
early and for texts with a carriage return at the end of a line.

* `Scanner.readsBack_render` — a message that keeps its text reads back alone.
* `Scanner.keepsText_of_result` — messages that read back together keep their texts.
* `Scanner.parse_print_parse_iff` — the exact condition.
-/

namespace Colloquy.Markup.Scanner

open Text

variable {scanner : Scanner} {role : Role} {scan : Scan}

-- ---------------------------------------------------------------------------
-- One message
-- ---------------------------------------------------------------------------

/-- A plain form of the message reads back, or its text holds in brackets. -/
def keepsText (scanner : Scanner) (m : Message) : Bool :=
  m.text.isEmpty ||
    (m.role.printsInline && !m.text.toList.contains '\n' &&
      scanner.readsBack (inlineForm m.role m.text) m.role m.text) ||
    scanner.readsBack (blockForm m.role m.text) m.role m.text ||
    holdsInBrackets m.text.toList

theorem readsBack_empty (h : scanner.HasHeader role) :
    scanner.readsBack (role.tag ++ ":") role "" = true := by
  have hnl : '\n' ∉ role.tag.toList ++ [':'] := by
    simp [h.newline_not_mem]
  rw [readsBack_iff, String.toList_append]
  show (scanner.run (.start .user) (endedLines (role.tag.toList ++ [':']) ++ [[]])).zone = none ∧
    (scanner.run (.start .user) (endedLines (role.tag.toList ++ [':']) ++ [[]])).result = _
  rw [endedLines_of_not_mem hnl, dropReturn_append (by simp)]
  show (scanner.run (.start .user) ((role.tag.toList ++ [':']) :: [[]])).zone = none ∧
    (scanner.run (.start .user) ((role.tag.toList ++ [':']) :: [[]])).result = _
  rw [run_start_blockLine h]
  exact ⟨rfl, rfl⟩

/-- The printed form of a message that keeps its text reads back. -/
theorem readsBack_render {m : Message} (h : scanner.HasHeader m.role)
    (hkeeps : scanner.keepsText m = true) :
    scanner.readsBack (scanner.render m) m.role m.text = true := by
  unfold render renderText renderBlock
  by_cases hempty : m.text.isEmpty = true
  · rw [if_pos hempty, String.isEmpty_iff.mp hempty]
    exact readsBack_empty h
  · rw [if_neg hempty]
    split
    · next hinline =>
      rw [Bool.and_eq_true] at hinline
      exact hinline.2
    · next hinline =>
      split
      · next hblock => exact hblock
      · next hblock =>
        rw [Bool.not_eq_true] at hempty hinline hblock
        rw [keepsText, hempty, hinline, hblock, Bool.or_self, Bool.or_self, Bool.false_or] at hkeeps
        exact readsBack_bracketForm h hkeeps

/-- A message that does not keep its text is printed in brackets, and its text does not hold in
them. -/
theorem render_of_not_keepsText {m : Message} (h : scanner.keepsText m = false) :
    m.text ≠ "" ∧ scanner.render m = bracketForm m.role m.text ∧
      holdsInBrackets m.text.toList = false := by
  unfold keepsText at h
  simp only [Bool.or_eq_false_iff] at h
  obtain ⟨⟨⟨hempty, hinline⟩, hblock⟩, hholds⟩ := h
  refine ⟨fun hm => ?_, ?_, hholds⟩
  · rw [hm] at hempty
    exact absurd hempty (by decide)
  · rw [render, renderText, hempty, hinline, renderBlock, hblock]
    rfl

-- ---------------------------------------------------------------------------
-- Conversations
-- ---------------------------------------------------------------------------

/-- Printed messages end the block before them: what was read before stays. -/
theorem result_prefix_run_printedLines {ms : List Message}
    (h : ∀ m ∈ ms, scanner.HasHeader m.role) (hz : scan.zone = none) :
    scan.result <+: (scanner.run scan (scanner.printedLines ms)).result := by
  cases ms with
  | nil => exact List.prefix_rfl
  | cons m ms =>
    have hm := h m (List.mem_cons_self ..)
    rw [result_run_printedLines_cons, render, ← run_append]
    rcases endedLines_renderText hm m.text with ⟨more, hlines⟩ | ⟨rest, hlines, he⟩
    · rw [hlines, List.cons_append, List.cons_append, run_cons]
      exact result_prefix_step_header (by rw [hz]; exact hm.effect_blockLine) _
    · rw [hlines, List.singleton_append, List.cons_append, run_cons]
      exact result_prefix_step_header (by rw [hz]; exact he) _

/-- A message that is printed in brackets and read back among others keeps its text in them. -/
theorem holdsInBrackets_of_conversation {m : Message} {ms : List Message} (hm : scanner.Reads m)
    (hms : ∀ n ∈ ms, scanner.Reads n) (hne : m.text ≠ "")
    (hform : scanner.render m = bracketForm m.role m.text) (hz : scan.zone = none)
    (hresult : (scanner.run scan (scanner.printedLines (m :: ms))).result =
      scan.result ++ m :: ms) : holdsInBrackets m.text.toList = true := by
  have hne' : m.text.toList ≠ [] := by simpa using hne
  rw [result_run_printedLines_cons, hform, endedLines_bracketForm hm.hasHeader, List.cons_append,
    List.cons_append, List.cons_append, run_bracketForm hm.hasHeader hz, run_after,
    Scan.result_after, ← run_append, List.append_assoc, List.append_assoc] at hresult
  have hread : (scanner.run (bracketed m.role)
      (endedLines m.text.toList ++ closeBracket :: [] :: scanner.printedLines ms)).result =
      .ofText m.role (String.ofList m.text.toList) :: ms := by
    rw [String.ofList_toList, ← hm.eq_ofText]
    exact List.append_cancel_left hresult
  have hback :
      scanner.ReadFromBrackets m.role m.text.toList ([] :: scanner.printedLines ms) ms := by
    refine ⟨hread, fun hzone => ?_⟩
    -- the empty line changes nothing, and the next message starts with a header
    have hbegins := result_prefix_run_printedLines (fun n hn => (hms n hn).hasHeader)
      (zone_step_nil scanner hzone)
    rw [result_step_nil] at hbegins
    rw [List.append_cons, run_append, run_cons] at hread
    rwa [hread] at hbegins
  exact hback.holdsInBrackets hne'

/-- Messages as they are read that are printed and read back together keep their texts. -/
theorem keepsText_of_result {ms : List Message} (hms : ∀ m ∈ ms, scanner.Reads m)
    (hz : scan.zone = none)
    (hresult : (scanner.run scan (scanner.printedLines ms)).result = scan.result ++ ms) :
    ∀ m ∈ ms, scanner.keepsText m = true := by
  induction ms generalizing scan with
  | nil => simp
  | cons m ms ih =>
    rw [List.forall_mem_cons] at hms
    have hkeeps : scanner.keepsText m = true := by
      by_contra hnot
      rw [Bool.not_eq_true] at hnot
      obtain ⟨hne, hform, hholds⟩ := render_of_not_keepsText hnot
      rw [holdsInBrackets_of_conversation hms.1 hms.2 hne hform hz hresult] at hholds
      exact absurd hholds (by simp)
    rw [List.forall_mem_cons]
    refine ⟨hkeeps, ?_⟩
    -- the first message was read back, and the others were read after it
    obtain ⟨hzone, hfirst⟩ := run_renderText (readsBack_render hms.1.hasHeader hkeeps) hz
    rw [hms.1.trimmed, ← hms.1.eq_ofText] at hfirst
    refine ih hms.2 hzone ?_
    rw [hfirst, List.append_assoc]
    rw [result_run_printedLines_cons] at hresult
    exact hresult

/-- What was read is read again from its printed form exactly if all its messages keep their texts
in print. -/
theorem parse_print_parse_iff (scanner : Scanner) (text : String) :
    scanner.parse (scanner.print (scanner.parse text .user)) .user = scanner.parse text .user ↔
      ∀ m ∈ scanner.parse text .user, scanner.keepsText m = true := by
  have hreads : ∀ m ∈ scanner.parse text .user, scanner.Reads m :=
    fun m hm => reads_of_mem_parse hasHeader_user hm
  generalize scanner.parse text .user = ms at hreads
  rw [parse_print_eq]
  refine ⟨fun h => keepsText_of_result hreads rfl h, fun h => ?_⟩
  have hback : ∀ m ∈ ms, scanner.readsBack (scanner.render m) m.role m.text = true :=
    fun m hm => readsBack_render (hreads m hm).hasHeader (h m hm)
  have hself : (ms.map fun m => Message.ofText m.role (trimBlank m.text)) = ms := by
    conv_rhs => rw [← List.map_id ms]
    refine List.map_congr_left fun m hm => ?_
    rw [(hreads m hm).trimmed]
    exact (hreads m hm).eq_ofText.symm
  rw [result_run_printedLines hback rfl, hself]
  rfl

/-- A text in brackets on the line of its header is printed in brackets of its own, which its own
closing ones end. -/
theorem parse_print_parse_ne :
    ({} : Scanner).parse (({} : Scanner).print (({} : Scanner).parse "user: [[a]]" .user)) .user ≠
      ({} : Scanner).parse "user: [[a]]" .user := by
  decide +kernel

end Colloquy.Markup.Scanner
