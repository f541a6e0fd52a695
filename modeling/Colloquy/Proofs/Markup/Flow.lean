import Colloquy.Proofs.Markup.Ending

/-!
# Colloquy — lines between headers

Lines that no header interrupts flow into the content of one block. A run of lines is
a flow, or a flow up to a first header (`Scanner.exists_flows`), and what a flow adds to
the content is known line by line (`Scanner.Flows.run_eq`). Whatever follows, the
lines of a block that a header opened begin its message
(`Scanner.exists_text_of_explicit`).
-/

namespace Colloquy.Markup

open Text

-- ---------------------------------------------------------------------------
-- Contents of lines
-- ---------------------------------------------------------------------------

/-- A content with lines added. -/
def joinLines (content : List Char) (ls : List (List Char)) : List Char :=
  ls.foldl joinLine content

theorem joinLines_of_ne_nil {content : List Char} (h : content ≠ []) (ls : List (List Char)) :
    joinLines content ls = content ++ unlines ls := by
  induction ls generalizing content with
  | nil => simp [joinLines, unlines]
  | cons l ls ih =>
    have hjoin : joinLine content l = content ++ '\n' :: l := by
      rw [joinLine, if_neg (by simpa using h)]
    show joinLines (joinLine content l) ls = _
    rw [hjoin, ih (by simp), unlines_cons, List.append_assoc, List.cons_append]

/-- Lines make the content of their text, without empty lines at its start. -/
theorem exists_blank_joinLines (l : List Char) (ls : List (List Char)) :
    ∃ a, allBlank a = true ∧ unlines (l :: ls) = '\n' :: (a ++ joinLines [] (l :: ls)) := by
  -- as long as lines are empty the content is, and a line feed is lost
  induction ls generalizing l with
  | nil => exact ⟨[], rfl, by simp [unlines, joinLines, joinLine]⟩
  | cons k ls ih =>
    cases l with
    | nil =>
      obtain ⟨a, ha, heq⟩ := ih k
      refine ⟨'\n' :: a, allBlank_cons rfl ha, ?_⟩
      rw [unlines_cons, heq]
      rfl
    | cons c l =>
      refine ⟨[], rfl, ?_⟩
      show _ = '\n' :: ([] ++ joinLines (c :: l) (k :: ls))
      rw [joinLines_of_ne_nil (by simp), unlines_cons]
      rfl

/-- The content that all lines of a text make is the text, up to blanks at its ends. -/
theorem trim_joinLines_splitOn (s : List Char) : trim (joinLines [] (s.splitOn '\n')) = trim s := by
  obtain ⟨l, ls, hls⟩ := List.exists_cons_of_ne_nil (List.splitOn_ne_nil '\n' s)
  obtain ⟨a, ha, hs⟩ := exists_blank_joinLines l ls
  rw [← hls, unlines_splitOn, List.cons.injEq] at hs
  conv_rhs => rw [hs.2, trim_append_left ha]

/-- A text as long as the lines whose content it is, is these lines and nothing was trimmed. -/
theorem unlines_eq_of_trim_joinLines {ls : List (List Char)} {text : List Char}
    (hne : text ≠ []) (ht : trim (joinLines [] ls) = text)
    (hlen : (unlines ls).length ≤ text.length + 1) : unlines ls = '\n' :: text := by
  cases ls with
  | nil => exact absurd ht.symm hne
  | cons l ls =>
    obtain ⟨a, -, heq⟩ := exists_blank_joinLines l ls
    have hle := length_trim_le (joinLines [] (l :: ls))
    rw [heq, List.length_cons, List.length_append] at hlen
    rw [ht] at hle
    have ha : a = [] := List.eq_nil_of_length_eq_zero (by omega)
    have hself : trim (joinLines [] (l :: ls)) = joinLines [] (l :: ls) :=
      trim_eq_self_of_length_le (by rw [ht]; omega)
    rw [heq, ha, List.nil_append, ← hself, ht]

theorem nonblankLines_joinLine (content line : List Char) :
    nonblankLines (joinLine content line) = nonblankLines content ++ nonblankLines line := by
  unfold joinLine
  split
  · next h => rw [List.isEmpty_iff.mp h, nonblankLines_nil, List.nil_append]
  · exact nonblankLines_append_newline content line

theorem nonblankLines_joinLines (content : List Char) (ls : List (List Char)) :
    nonblankLines (joinLines content ls) = nonblankLines content ++ ls.flatMap nonblankLines := by
  induction ls generalizing content with
  | nil => simp [joinLines]
  | cons l ls ih =>
    show nonblankLines (joinLines (joinLine content l) ls) = _
    rw [ih, nonblankLines_joinLine, List.append_assoc, List.flatMap_cons]

-- ---------------------------------------------------------------------------
-- Flows
-- ---------------------------------------------------------------------------

namespace Scanner

variable {scanner : Scanner}

/-- Lines without a header among them, from an open zone or none to another, and the lines they add
to the content. -/
inductive Flows (scanner : Scanner) :
    Option Zone → List (List Char) → Option Zone → List (List Char) → Prop
  | nil (zone : Option Zone) : Flows scanner zone [] zone []
  | content {zone zone' zone'' line line' ls out}
      (he : scanner.effect zone line = .content zone' line')
      (h : Flows scanner zone' ls zone'' out) :
      Flows scanner zone (line :: ls) zone'' (line' :: out)
  | nothing {zone zone' zone'' line ls out}
      (he : scanner.effect zone line = .nothing zone')
      (h : Flows scanner zone' ls zone'' out) :
      Flows scanner zone (line :: ls) zone'' out

namespace Flows

theorem run_eq {zone : Option Zone} {ls out : List (List Char)} (scan : Scan)
    (h : scanner.Flows scan.zone ls zone out) :
    scanner.run scan ls =
      { scan with zone := zone, content := joinLines scan.content out } := by
  generalize hz : scan.zone = start at h
  induction h generalizing scan with
  | nil => rw [← hz]; rfl
  | content he h ih =>
    rw [run_cons, step_eq_apply, hz, he, ih _ rfl]
    rfl
  | nothing he h ih =>
    rw [run_cons, step_eq_apply, hz, he, ih _ rfl]
    rfl

theorem append {zone mid zone' : Option Zone} {ls ks out out' : List (List Char)}
    (h : scanner.Flows zone ls mid out) (h' : scanner.Flows mid ks zone' out') :
    scanner.Flows zone (ls ++ ks) zone' (out ++ out') := by
  induction h with
  | nil => exact h'
  | content he h ih => exact .content he (ih h')
  | nothing he h ih => exact .nothing he (ih h')

theorem exists_of_append {zone zone' : Option Zone} {ls ks out : List (List Char)}
    (h : scanner.Flows zone (ls ++ ks) zone' out) :
    ∃ mid out₁ out₂, scanner.Flows zone ls mid out₁ ∧ scanner.Flows mid ks zone' out₂ ∧
      out = out₁ ++ out₂ := by
  induction ls generalizing zone out with
  | nil => exact ⟨zone, [], out, .nil zone, h, rfl⟩
  | cons l ls ih =>
    cases h with
    | content he h =>
      obtain ⟨mid, out₁, out₂, h₁, h₂, rfl⟩ := ih h
      exact ⟨mid, _, out₂, .content he h₁, h₂, rfl⟩
    | nothing he h =>
      obtain ⟨mid, out₁, out₂, h₁, h₂, rfl⟩ := ih h
      exact ⟨mid, out₁, out₂, .nothing he h₁, h₂, rfl⟩

end Flows

/-- Lines flow, or they flow up to a first header. -/
theorem exists_flows (scanner : Scanner) (zone : Option Zone) (ls : List (List Char)) :
    (∃ zone' out, scanner.Flows zone ls zone' out) ∨
      ∃ before line after zone' out role rest, ls = before ++ line :: after ∧
        scanner.Flows zone before zone' out ∧ scanner.effect zone' line = .header role rest := by
  induction ls generalizing zone with
  | nil => exact Or.inl ⟨zone, [], .nil zone⟩
  | cons l ls ih =>
    -- the first header is this line, or the first after it
    cases he : scanner.effect zone l with
    | header role rest => exact Or.inr ⟨[], l, ls, zone, [], role, rest, rfl, .nil zone, he⟩
    | content zone₁ l' =>
      rcases ih zone₁ with ⟨zone', out, h⟩ |
        ⟨before, line, after, zone', out, role, rest, rfl, h, hr⟩
      · exact Or.inl ⟨zone', l' :: out, .content he h⟩
      · exact Or.inr
          ⟨l :: before, line, after, zone', l' :: out, role, rest, rfl, .content he h, hr⟩
    | nothing zone₁ =>
      rcases ih zone₁ with ⟨zone', out, h⟩ |
        ⟨before, line, after, zone', out, role, rest, rfl, h, hr⟩
      · exact Or.inl ⟨zone', out, .nothing he h⟩
      · exact Or.inr ⟨l :: before, line, after, zone', out, role, rest, rfl, .nothing he h, hr⟩

-- ---------------------------------------------------------------------------
-- The message of a block
-- ---------------------------------------------------------------------------

/-- A header line ends the open block, and the messages so far stay. -/
theorem result_prefix_step_header {scan : Scan} {line rest : List Char} {role : Role}
    (he : scanner.effect scan.zone line = .header role rest) (ls : List (List Char)) :
    scan.result <+: (scanner.run (scanner.step scan line) ls).result := by
  have hstep : scan.result <+: (scanner.step scan line).messages := by
    rw [step_eq_apply, he, LineEffect.apply, stepHeader_eq]
    split
    · exact List.prefix_rfl
    · exact List.prefix_append ..
  exact hstep.trans (messages_prefix_result _ _)

/-- The content of a block that a header opened begins the text of its message, whatever lines
follow. -/
theorem exists_text_of_explicit (scanner : Scanner) (scan : Scan) (hexp : scan.explicit = true)
    (ls : List (List Char)) :
    ∃ text rest, (scanner.run scan ls).result =
        scan.messages ++ .ofText scan.role (String.ofList text) :: rest ∧
      nonblankLines scan.content <+: nonblankLines text := by
  have hpending {scan : Scan} (hexp : scan.explicit = true) :
      scan.result = scan.messages ++ [.ofText scan.role (String.ofList (trim scan.content))] := by
    rw [Scan.result, Scan.pending, hexp, Bool.or_true, if_pos rfl]
  induction ls generalizing scan with
  | nil =>
    refine ⟨trim scan.content, [], hpending hexp, ?_⟩
    rw [nonblankLines_trim]
  | cons l ls ih =>
    rw [run_cons]
    -- a header ends the block as it is, and any other line can only add to it
    cases he : scanner.effect scan.zone l with
    | header role rest =>
      obtain ⟨more, hmore⟩ := result_prefix_step_header he ls
      refine ⟨trim scan.content, more, ?_, ?_⟩
      · rw [← hmore, hpending hexp, List.append_assoc]
        rfl
      · rw [nonblankLines_trim]
    | content zone l' =>
      rw [step_eq_apply, he, LineEffect.apply, Scan.append_eq]
      obtain ⟨text, rest, hresult, hbegins⟩ :=
        ih { scan with zone := zone, content := joinLine scan.content l' } hexp
      refine ⟨text, rest, hresult, (?_ : _ <+: _).trans hbegins⟩
      rw [nonblankLines_joinLine]
      exact List.prefix_append ..
    | nothing zone =>
      rw [step_eq_apply, he, LineEffect.apply]
      exact ih { scan with zone := zone } hexp

end Scanner

end Colloquy.Markup
