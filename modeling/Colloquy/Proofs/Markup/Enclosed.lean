import Colloquy.Proofs.Markup.Brackets

/-!
# Colloquy — texts read from double brackets

A text that was printed in brackets and comes back as it was, in whatever conversation,
holds in brackets (`Scanner.ReadFromBrackets.holdsInBrackets`). If a line of it ends the
brackets, the lines after it are read outside of them, and what they may be is found
step by step: the line is blank but for its brackets, for these are missing from what
is read; no header follows it, for the text would end there; no mark of zones
follows it, for the first would be read one line too early; so the lines are read as
they are, and comparing lengths shows that none is changed.
-/

namespace Colloquy.Markup

open Text

-- ---------------------------------------------------------------------------
-- Lines that end brackets
-- ---------------------------------------------------------------------------

theorem infix_of_closesBracket {line : List Char} (h : closesBracket line = true) :
    closeBracket <:+: line := by
  obtain ⟨a, b, -, -, hline⟩ := exists_eq_append_trim line
  have hsuffix : closeBracket <:+ trim line := List.isSuffixOf_iff_suffix.mp h
  rw [hline]
  exact hsuffix.isInfix.trans ⟨a, b, rfl⟩

theorem length_of_closesBracket {line : List Char} (h : closesBracket line = true) :
    2 ≤ line.length :=
  (infix_of_closesBracket h).length_le

theorem not_allBlank_of_closesBracket {line : List Char} (h : closesBracket line = true) :
    allBlank line = false := by
  have hmem : ']' ∈ line := (infix_of_closesBracket h).subset (by decide)
  rw [Bool.eq_false_iff]
  intro hb
  exact absurd (allBlank_iff.mp hb _ hmem) (by decide)

/-- The first closing brackets that a line loses change it. -/
theorem trim_removeFirst_closeBracket {line : List Char} (h : closesBracket line = true) :
    trim (removeFirst closeBracket line) ≠ trim line := by
  intro heq
  have hcount := count_removeFirst (infix_of_closesBracket h) ']'
  rw [← count_trim (by decide), heq, count_trim (by decide)] at hcount
  exact absurd hcount (by simp [closeBracket])

theorem all_closeBracket_of_cons_eq {line : List Char} {rest : List (List Char)}
    (h : line :: rest = rest ++ [closeBracket]) :
    (line :: rest).all (· == closeBracket) = true := by
  induction rest generalizing line with
  | nil => simpa using h
  | cons l rest ih =>
    rw [List.cons_append, List.cons.injEq] at h
    have hrest := ih h.2
    rw [List.all_cons, hrest, Bool.and_true, h.1]
    rw [List.all_cons, Bool.and_eq_true] at hrest
    exact hrest.1

/-- The first line of a text that ends brackets, between the lines before and after it. -/
structure EndsAt (text : List Char) (kept : List (List Char)) (line : List Char)
    (rest : List (List Char)) : Prop where
  lines_eq : endedLines text = kept ++ line :: rest
  kept_open : ∀ l ∈ kept, closesBracket l = false
  closes : closesBracket line = true

namespace EndsAt

variable {text line : List Char} {kept rest : List (List Char)}

theorem newline_not_mem (h : EndsAt text kept line rest) :
    ∀ l ∈ kept ++ line :: (rest ++ [closeBracket]), '\n' ∉ l := by
  intro l hl
  have hmem : l ∈ endedLines text ++ [closeBracket] := by
    rw [h.lines_eq, List.append_assoc, List.cons_append]
    exact hl
  rcases List.mem_append.mp hmem with hl | hl
  · exact not_mem_of_mem_endedLines hl
  · rw [List.mem_singleton.mp hl]
    decide

theorem newline_not_mem_rest (h : EndsAt text kept line rest) :
    ∀ l ∈ rest ++ [closeBracket], '\n' ∉ l :=
  fun l hl => h.newline_not_mem l (List.mem_append_right _ (List.mem_cons_of_mem _ hl))

theorem nonblankLines_eq (h : EndsAt text kept line rest) :
    nonblankLines text =
      kept.flatMap nonblankLines ++ trim line :: rest.flatMap nonblankLines := by
  rw [← flatMap_nonblankLines_endedLines, h.lines_eq, List.flatMap_append, List.flatMap_cons,
    nonblankLines_of_not_mem (h.newline_not_mem line (by simp)),
    nonblankLine_of_not_allBlank (not_allBlank_of_closesBracket h.closes)]
  rfl

theorem lines_append (h : EndsAt text kept line rest) (more : List (List Char)) :
    endedLines text ++ closeBracket :: more =
      kept ++ [line] ++ (rest ++ [closeBracket] ++ more) := by
  rw [h.lines_eq]
  simp

/-- Moved up by a line, the lines are no longer than before. -/
theorem length_moved_le (h : EndsAt text kept line rest) :
    (unlines (kept ++ (rest ++ [closeBracket]))).length ≤ (unlines (endedLines text)).length := by
  have htwo := length_of_closesBracket h.closes
  rw [h.lines_eq]
  simp only [unlines_append, unlines_cons, unlines_nil, List.length_append, List.length_cons,
    closeBracket, List.length_nil]
  omega

end EndsAt

theorem exists_endsAt (text : List Char) :
    (∀ l ∈ endedLines text, closesBracket l = false) ∨
      ∃ kept line rest, EndsAt text kept line rest ∧
        ((endedLines text).dropWhile fun line => !closesBracket line) = line :: rest := by
  have hsplit := List.takeWhile_append_dropWhile (p := fun line => !closesBracket line)
    (l := endedLines text)
  have hkept : ∀ l ∈ (endedLines text).takeWhile fun line => !closesBracket line,
      closesBracket l = false := by
    intro l hl
    simpa using List.mem_takeWhile_imp hl
  cases hdrop : (endedLines text).dropWhile fun line => !closesBracket line with
  | nil =>
    rw [hdrop, List.append_nil] at hsplit
    rw [hsplit] at hkept
    exact Or.inl hkept
  | cons line rest =>
    rw [hdrop] at hsplit
    have hhead := List.head?_dropWhile_not (fun line => !closesBracket line) (endedLines text)
    rw [hdrop] at hhead
    exact Or.inr ⟨_, line, rest, ⟨hsplit.symm, hkept, by simpa using hhead⟩, rfl⟩

namespace Scanner

variable {scanner : Scanner} {role : Role} {text : List Char} {ms : List Message}
  {ls more out : List (List Char)} {zone : Option Zone}

-- ---------------------------------------------------------------------------
-- What flows from brackets
-- ---------------------------------------------------------------------------

theorem ofText_inj {text text' : List Char}
    (h : Message.ofText role (String.ofList text) = .ofText role (String.ofList text')) :
    text = text' := by
  simpa [Message.ofText, Message.text, Content.asText] using
    congrArg (fun m : Message => m.text.toList) h

/-- What flows from brackets into the content begins the text that is read. -/
theorem nonblankLines_prefix_of_flows (h : scanner.Flows (some .bracket) ls zone out)
    (hresult : (scanner.run (bracketed role) (ls ++ more)).result =
      .ofText role (String.ofList text) :: ms) :
    out.flatMap nonblankLines <+: nonblankLines text := by
  have hrun := Flows.run_eq (bracketed role) h
  rw [run_append, hrun] at hresult
  obtain ⟨text', rest, hread, hbegins⟩ := exists_text_of_explicit scanner
    { bracketed role with zone := zone, content := joinLines [] out } rfl more
  rw [show (bracketed role).content = [] from rfl, hread] at hresult
  obtain ⟨hmsg, -⟩ := List.cons.inj hresult
  rwa [ofText_inj hmsg, nonblankLines_joinLines, nonblankLines_nil, List.nil_append] at hbegins

/-- What flows from brackets into the content is the text that is read, if the message ends
there. -/
theorem text_eq_of_flows (h : scanner.Flows (some .bracket) ls zone out)
    (hbegins : (scanner.run (bracketed role) ls).result <+:
      .ofText role (String.ofList text) :: ms) : text = trim (joinLines [] out) := by
  have hrun := Flows.run_eq (bracketed role) h
  have hresult : (scanner.run (bracketed role) ls).result =
      [.ofText role (String.ofList (trim (joinLines [] out)))] := by
    rw [hrun]
    simp [Scan.result, Scan.pending, bracketed]
  rw [hresult, List.cons_prefix_cons] at hbegins
  exact (ofText_inj hbegins.1).symm

theorem text_eq_of_flows_header {header rest : List Char} {role' : Role}
    (h : scanner.Flows (some .bracket) ls zone out)
    (he : scanner.effect zone header = .header role' rest)
    (hresult : (scanner.run (bracketed role) (ls ++ header :: more)).result =
      .ofText role (String.ofList text) :: ms) : text = trim (joinLines [] out) := by
  have hrun := Flows.run_eq (bracketed role) h
  have hbegins : (scanner.run (bracketed role) ls).result <+:
      .ofText role (String.ofList text) :: ms := by
    rw [← hresult, run_append, run_cons]
    exact result_prefix_step_header (by rw [hrun]; exact he) more
  exact text_eq_of_flows h hbegins

/-- A text that is read as a part of lines no longer than its own has these lines, as they are. -/
theorem splitOn_eq_of_sublist (hne : text ≠ []) (htext : text = trim (joinLines [] out))
    (hnl : ∀ l ∈ ls, '\n' ∉ l) (hsub : (unlines out).Sublist (unlines ls))
    (hlen : (unlines ls).length ≤ (unlines (endedLines text)).length) :
    text.splitOn '\n' = ls ∧ text.splitOn '\n' = endedLines text := by
  have hpart := hsub.length_le
  have hended := (endedLines_sublist text).length_le
  rw [List.length_cons] at hended
  -- nothing was trimmed, so the part is all of the lines
  have hout : unlines out = '\n' :: text :=
    unlines_eq_of_trim_joinLines hne htext.symm (by omega)
  have hall : unlines out = unlines ls := by
    refine hsub.eq_of_length_le ?_
    rw [hout, List.length_cons]
    omega
  have hlines : unlines (endedLines text) = '\n' :: text := by
    refine (endedLines_sublist text).eq_of_length_le ?_
    rw [← hall, hout] at hlen
    exact hlen
  exact ⟨splitOn_of_unlines_eq hnl (hall.symm.trans hout),
    splitOn_of_unlines_eq (fun l hl => not_mem_of_mem_endedLines hl) hlines⟩

-- ---------------------------------------------------------------------------
-- What follows the end of the brackets
-- ---------------------------------------------------------------------------

/-- A text, printed in brackets and followed by more lines, is read as it was, and the other
messages after it. If the brackets leave no zone open, the message ends with them. -/
structure ReadFromBrackets (scanner : Scanner) (role : Role) (text : List Char)
    (more : List (List Char)) (ms : List Message) : Prop where
  result_eq : (scanner.run (bracketed role) (endedLines text ++ closeBracket :: more)).result =
    .ofText role (String.ofList text) :: ms
  ends : (scanner.run (bracketed role) (endedLines text ++ [closeBracket])).zone = none →
    (scanner.run (bracketed role) (endedLines text ++ [closeBracket])).result <+:
      .ofText role (String.ofList text) :: ms

theorem effect_closing {line : List Char} (h : closesBracket line = true) :
    scanner.effect (some .bracket) line = .unlessBlank none (removeFirst closeBracket line) :=
  if_pos h

theorem flows_to_end {kept rest : List (List Char)} {line : List Char}
    (h : EndsAt text kept line rest) (hb : allBlank (removeFirst closeBracket line) = true) :
    scanner.Flows (some .bracket) (kept ++ [line]) none kept := by
  have hclosing : scanner.effect (some .bracket) line = .nothing none := by
    rw [effect_closing h.closes, LineEffect.unlessBlank, if_pos hb]
  have hflow := (flows_brackets scanner h.kept_open).append (.nothing hclosing (.nil none))
  rwa [List.append_nil] at hflow

/-- Closing brackets end the brackets that lines without marks of zones left open. -/
theorem zone_of_flows_concat {rest : List (List Char)}
    (h : scanner.Flows none (rest ++ [closeBracket]) zone out)
    (hm : ∀ l ∈ rest, hasZoneMark l = false) : zone = none := by
  obtain ⟨mid, out₁, out₂, h₁, h₂, -⟩ := h.exists_of_append
  rcases h₁.atMostBrackets (Or.inl rfl) hm with rfl | rfl
  · cases h₂ with
    | content he h =>
      obtain ⟨rfl, -⟩ := LineEffect.content.inj (effect_none_closeBracket.symm.trans he)
      cases h
      rfl
    | nothing he h => exact absurd (effect_none_closeBracket.symm.trans he) (by simp)
  · cases h₂ with
    | content he h => exact absurd (effect_closeBracket.symm.trans he) (by simp)
    | nothing he h =>
      obtain rfl := LineEffect.nothing.inj (effect_closeBracket.symm.trans he)
      cases h
      rfl

namespace ReadFromBrackets

variable {kept rest : List (List Char)} {line : List Char}

/-- The line that ends the brackets is blank but for the closing ones: without them it would not be
the line of the text that it must be. -/
theorem allBlank_of_endsAt (h : scanner.ReadFromBrackets role text more ms)
    (hends : EndsAt text kept line rest) : allBlank (removeFirst closeBracket line) = true := by
  by_contra hb
  rw [Bool.not_eq_true] at hb
  have hclosing : scanner.effect (some .bracket) line =
      .content none (removeFirst closeBracket line) := by
    rw [effect_closing hends.closes, LineEffect.unlessBlank, hb]
    rfl
  have hflow : scanner.Flows (some .bracket) (kept ++ [line]) none
      (kept ++ [removeFirst closeBracket line]) :=
    (flows_brackets scanner hends.kept_open).append (.content hclosing (.nil none))
  have hresult := h.result_eq
  rw [hends.lines_append] at hresult
  have hbegins := nonblankLines_prefix_of_flows hflow hresult
  -- both have the line after the lines that were kept
  have hnl : '\n' ∉ removeFirst closeBracket line := fun hm =>
    hends.newline_not_mem line (by simp) ((removeFirst_sublist _ _).subset hm)
  rw [hends.nonblankLines_eq, List.flatMap_append, List.prefix_append_right_inj,
    List.flatMap_singleton, nonblankLines_of_not_mem hnl, nonblankLine_of_not_allBlank hb,
    List.cons_prefix_cons] at hbegins
  exact trim_removeFirst_closeBracket hends.closes hbegins.1

/-- No line after the end of the brackets is a header: the message would end there, with too few
lines. -/
theorem exists_flow (h : scanner.ReadFromBrackets role text more ms)
    (hends : EndsAt text kept line rest) :
    ∃ zone out, scanner.Flows none (rest ++ [closeBracket]) zone out := by
  rcases exists_flows scanner none (rest ++ [closeBracket]) with hflow |
    ⟨before, header, after, zone, out, role', rest', hsplit, hbefore, he⟩
  · exact hflow
  exfalso
  have hflow := (flows_to_end hends (h.allBlank_of_endsAt hends)).append hbefore
  have hresult := h.result_eq
  rw [hends.lines_append, hsplit, List.append_assoc before, ← List.append_assoc] at hresult
  have htext := text_eq_of_flows_header hflow he hresult
  have hnl : ∀ l ∈ before ++ header :: after, '\n' ∉ l := by
    rw [← hsplit]
    exact hends.newline_not_mem_rest
  -- count the lines that are not blank, in the text that is read and in the text
  have hread : (nonblankLines text).length =
      (kept.flatMap nonblankLines).length + (out.flatMap nonblankLines).length := by
    rw [htext, nonblankLines_trim, nonblankLines_joinLines, nonblankLines_nil, List.nil_append,
      List.flatMap_append, List.length_append]
  have hout := hbefore.length_nonblankLines_le fun l hl => hnl l (List.mem_append_left _ hl)
  have hheader : (nonblankLines header).length = 1 := by
    rw [nonblankLines_of_not_mem (hnl header (by simp)),
      nonblankLine_of_not_allBlank (not_allBlank_of_header he)]
    rfl
  have hclose : (nonblankLines closeBracket).length = 1 := by decide
  have hrest := congrArg (fun ls => (ls.flatMap nonblankLines).length) hsplit
  rw [hends.nonblankLines_eq] at hread
  simp only [List.flatMap_append, List.flatMap_cons, List.flatMap_nil, List.append_nil,
    List.length_append, List.length_cons] at hread hrest
  omega

/-- The lines after the end of the brackets have no marks of zones: they follow closing brackets in
the text, and the text that is read has them earlier. -/
theorem not_hasZoneMark (h : scanner.ReadFromBrackets role text more ms)
    (hends : EndsAt text kept line rest)
    (hrest : scanner.Flows none (rest ++ [closeBracket]) zone out) :
    ∀ l ∈ rest ++ [closeBracket], hasZoneMark l = false := by
  have hb := h.allBlank_of_endsAt hends
  have hflow := (flows_to_end hends hb).append hrest
  have hresult := h.result_eq
  rw [hends.lines_append, ← List.append_assoc] at hresult
  have hbegins := nonblankLines_prefix_of_flows hflow hresult
  rw [hends.nonblankLines_eq, List.flatMap_append, List.prefix_append_right_inj] at hbegins
  have hmark : hasZoneMark (trim line) = false := by
    rw [hasZoneMark_trim, Bool.eq_false_iff]
    intro hm
    rw [not_allBlank_of_hasZoneMark (Stripped.closing.hasZoneMark hm)] at hb
    exact absurd hb (by simp)
  refine hrest.not_hasZoneMark_of_prefix hends.newline_not_mem_rest
    (List.cons_ne_nil (trim line) []) ?_ ?_
  · rwa [List.forall_mem_singleton]
  · rw [List.flatMap_append, ← List.append_assoc]
    exact hbegins.trans (List.prefix_append ..)

/-- A text that comes back although a line of it ends the brackets has no line that ends in a
carriage return, and its lines from that line on are the closing brackets that they move up to. -/
theorem splitOn_eq (h : scanner.ReadFromBrackets role text more ms) (hne : text ≠ [])
    (hends : EndsAt text kept line rest) :
    text.splitOn '\n' = endedLines text ∧ line :: rest = rest ++ [closeBracket] := by
  obtain ⟨zone, out, hrest⟩ := h.exists_flow hends
  have hm := h.not_hasZoneMark hends hrest
  obtain rfl := zone_of_flows_concat hrest fun l hl => hm l (List.mem_append_left _ hl)
  have hflow := (flows_to_end hends (h.allBlank_of_endsAt hends)).append hrest
  have hbegins := h.ends
  rw [hends.lines_append, List.append_nil] at hbegins
  have htext := text_eq_of_flows hflow (hbegins (by rw [Flows.run_eq (bracketed role) hflow]))
  have hsub : (unlines (kept ++ out)).Sublist (unlines (kept ++ (rest ++ [closeBracket]))) := by
    rw [unlines_append, unlines_append]
    exact (hrest.unlines_sublist hm).append_left _
  have hnl : ∀ l ∈ kept ++ (rest ++ [closeBracket]), '\n' ∉ l := by
    refine fun l hl => hends.newline_not_mem l ?_
    rcases List.mem_append.mp hl with hl | hl
    · exact List.mem_append_left _ hl
    · exact List.mem_append_right _ (List.mem_cons_of_mem _ hl)
  -- what is read is a part of the lines, which are no longer than the text
  obtain ⟨hmoved, hpieces⟩ := splitOn_eq_of_sublist hne htext hnl hsub hends.length_moved_le
  refine ⟨hpieces, ?_⟩
  rw [hpieces, hends.lines_eq] at hmoved
  exact List.append_cancel_left hmoved

/-- A text no line of which ends brackets is read as its lines. -/
theorem splitOn_eq_of_forall (h : scanner.ReadFromBrackets role text more ms) (hne : text ≠ [])
    (hopen : ∀ l ∈ endedLines text, closesBracket l = false) :
    text.splitOn '\n' = endedLines text := by
  have hflow : scanner.Flows (some .bracket) (endedLines text ++ [closeBracket]) none
      (endedLines text ++ []) :=
    (flows_brackets scanner hopen).append (.nothing effect_closeBracket (.nil none))
  rw [List.append_nil] at hflow
  have htext := text_eq_of_flows hflow (h.ends (by rw [Flows.run_eq (bracketed role) hflow]))
  exact (splitOn_eq_of_sublist hne htext (fun l hl => not_mem_of_mem_endedLines hl)
    (List.Sublist.refl _) (Nat.le_refl _)).1

/-- A text that comes back from brackets holds in them. -/
theorem holdsInBrackets (h : scanner.ReadFromBrackets role text more ms) (hne : text ≠ []) :
    Markup.holdsInBrackets text = true := by
  have hholds (hpieces : text.splitOn '\n' = endedLines text)
      (hclose : ((endedLines text).dropWhile fun line => !closesBracket line).all
        (· == closeBracket) = true) : Markup.holdsInBrackets text = true := by
    rw [Markup.holdsInBrackets, Bool.and_eq_true, hpieces]
    refine ⟨?_, hclose⟩
    rw [← hpieces]
    exact endedLines_eq_splitOn_iff.mp hpieces.symm
  rcases exists_endsAt text with hopen | ⟨kept, line, rest, hends, hdrop⟩
  · refine hholds (h.splitOn_eq_of_forall hne hopen) ?_
    rw [List.dropWhile_eq_nil_iff.mpr fun l hl => by rw [hopen l hl]; rfl]
    rfl
  · obtain ⟨hpieces, hmoved⟩ := h.splitOn_eq hne hends
    refine hholds hpieces ?_
    rw [hdrop]
    exact all_closeBracket_of_cons_eq hmoved

end ReadFromBrackets

end Scanner

end Colloquy.Markup
