import Colloquy.Proofs.Markup.Flow

/-!
# Colloquy — what lines add to the content

A line adds itself to the content, or what is left of it without double brackets, or
the tag that stands for a line around a command's output (`Scanner.content_cases`). So
blank lines add none that are not (`Scanner.allBlank_of_content`), a line with a mark
of zones adds one with a mark (`Scanner.hasZoneMark_of_content`), and lines without
marks lose at most brackets (`Scanner.Flows.unlines_sublist`).
-/

namespace Colloquy.Markup

open Text

-- ---------------------------------------------------------------------------
-- Lines without brackets
-- ---------------------------------------------------------------------------

/-- A line, or what is left of it without double brackets that it opens or closes. -/
inductive Stripped (line : List Char) : List Char → Prop
  | same : Stripped line line
  | opening : Stripped line (removeFirst openBracket line)
  | closing : Stripped line (removeFirst closeBracket line)
  | both : Stripped line (removeFirst closeBracket (removeFirst openBracket line))

namespace Stripped

variable {line line' : List Char}

theorem sublist (h : Stripped line line') : line'.Sublist line := by
  cases h with
  | same => exact List.Sublist.refl _
  | opening => exact removeFirst_sublist _ _
  | closing => exact removeFirst_sublist _ _
  | both => exact (removeFirst_sublist _ _).trans (removeFirst_sublist _ _)

theorem hasZoneMark (h : Stripped line line') (hm : Markup.hasZoneMark line = true) :
    Markup.hasZoneMark line' = true := by
  have hopen : Markup.hasZoneMark openBracket = false := by decide
  have hclose : Markup.hasZoneMark closeBracket = false := by decide
  cases h with
  | same => exact hm
  | opening => exact hasZoneMark_removeFirst hopen hm
  | closing => exact hasZoneMark_removeFirst hclose hm
  | both => exact hasZoneMark_removeFirst hclose (hasZoneMark_removeFirst hopen hm)

theorem allBlank (h : Stripped line line') (hb : Text.allBlank line = true) :
    Text.allBlank line' = true := by
  rw [allBlank_iff] at hb ⊢
  exact fun c hc => hb c (h.sublist.subset hc)

end Stripped

-- ---------------------------------------------------------------------------
-- Lines around a command's output
-- ---------------------------------------------------------------------------

theorem commandOpen?_subset {t command : List Char} (h : commandOpen? t = some command) :
    command ⊆ t := by
  induction t generalizing command with
  | nil => simp [commandOpen?] at h
  | cons c t ih =>
    rw [commandOpen?] at h
    split at h
    · next found hfound =>
      rw [← Option.some.inj h]
      exact List.Subset.trans (ih hfound) (List.subset_cons_self c t)
    · split at h
      · next after hafter =>
        obtain ⟨⟨before, rest⟩, hcut, rfl⟩ := Option.map_eq_some_iff.mp h
        unfold Text.dropStart? at hafter
        split at hafter
        · rw [← Option.some.inj hafter] at hcut
          intro d hd
          refine List.mem_of_mem_drop (i := commandMark.length) ?_
          rw [eq_of_cut? hcut, List.append_assoc]
          exact List.mem_append_left _ hd
        · simp at hafter
      · simp at h

theorem hasZoneMark_of_commandOpen? {line command : List Char}
    (h : commandOpen? (trim line) = some command) : hasZoneMark line = true := by
  rw [← hasZoneMark_trim]
  exact hasZoneMark_iff.mpr ⟨'-', (mark_infix_of_commandOpen? h).subset (by decide), rfl⟩

theorem hasZoneMark_of_closesCommand {line : List Char} (h : closesCommand (trim line) = true) :
    hasZoneMark line = true := by
  unfold closesCommand at h
  split at h
  · next before after hcut =>
    rw [← hasZoneMark_trim, eq_of_cut? hcut]
    refine hasZoneMark_iff.mpr ⟨'-', ?_, rfl⟩
    simp
  · simp at h

theorem hasZoneMark_commandTag (command : List Char) : hasZoneMark (commandTag command) = true :=
  hasZoneMark_iff.mpr
    ⟨'<', List.mem_append_left _ (List.mem_append_left _ (by decide)), rfl⟩

theorem newline_not_mem_commandTag {command : List Char} (h : '\n' ∉ command) :
    '\n' ∉ commandTag command := by
  have hstart : '\n' ∉ "<cmd_output cmd=\"".toList := by decide
  have hend : '\n' ∉ "\">".toList := by decide
  unfold commandTag
  intro hm
  rcases List.mem_append.mp hm with hm | hm
  · rcases List.mem_append.mp hm with hm | hm
    · exact hstart hm
    · exact h hm
  · exact hend hm

theorem hasZoneMark_of_mem_nonblankLine {l line : List Char} (h : l ∈ nonblankLine line) :
    hasZoneMark l = hasZoneMark line := by
  unfold nonblankLine at h
  split at h
  · simp at h
  · rw [List.mem_singleton.mp h, hasZoneMark_trim]

-- ---------------------------------------------------------------------------
-- Contents and effects
-- ---------------------------------------------------------------------------

/-- The effects that a line may have. -/
inductive LineEffect.IsOf (line : List Char) : LineEffect → Prop
  | header (role : Role) (rest : List Char) : IsOf line (.header role rest)
  | content (zone : Option Zone) {line' : List Char} (h : Stripped line line') :
      IsOf line (.content zone line')
  | nothing (zone : Option Zone) {line' : List Char} (h : Stripped line line')
      (hb : allBlank line' = true) : IsOf line (.nothing zone)
  | commandOpen {command : List Char} (h : commandOpen? (trim line) = some command) :
      IsOf line (.content (some .command) (commandTag command))
  | commandEnd (h : closesCommand (trim line) = true) : IsOf line (.content none commandEndTag)

theorem LineEffect.IsOf.unlessBlank (zone : Option Zone) {line line' : List Char}
    (h : Stripped line line') : LineEffect.IsOf line (.unlessBlank zone line') := by
  unfold LineEffect.unlessBlank
  split
  · next hb => exact .nothing zone h hb
  · exact .content zone h

theorem Zone.isOf_effect (zone : Zone) (line : List Char) : (zone.effect line).IsOf line := by
  cases zone with
  | fence => exact .content _ .same
  | bracket =>
    rw [Zone.effect]
    split
    · exact .unlessBlank _ .closing
    · exact .content _ .same
  | command =>
    rw [Zone.effect]
    split
    · next h => exact .commandEnd h
    · exact .content _ .same
  | element stack =>
    rw [Zone.effect]
    split
    · exact .content _ .same
    · exact .content _ .same

theorem isOf_bracketEffect (line : List Char) : (bracketEffect line).IsOf line := by
  unfold bracketEffect
  split
  · exact .unlessBlank _ .both
  · exact .unlessBlank _ .opening

theorem isOf_elementEffect (line name after : List Char) :
    (elementEffect line name after).IsOf line := by
  unfold elementEffect
  split
  · exact .content _ .same
  · split
    · exact .content _ .same
    · exact .content _ .same

namespace Scanner

variable {scanner : Scanner} {zone? zone : Option Zone} {line line' : List Char}

theorem isOf_plainEffect (line : List Char) : (scanner.plainEffect line).IsOf line := by
  unfold plainEffect
  split
  · split
    · exact .header _ _
    · exact .content _ .same
  · exact .content _ .same

theorem isOf_effect (zone? : Option Zone) (line : List Char) :
    (scanner.effect zone? line).IsOf line := by
  cases zone? with
  | some zone => exact zone.isOf_effect line
  | none =>
    rw [effect, outsideEffect]
    split
    · exact .unlessBlank _ .same
    · split
      · exact isOf_bracketEffect line
      · split
        · next command h => exact .commandOpen h
        · split
          · exact isOf_elementEffect line _ _
          · exact isOf_plainEffect line

/-- What a line adds to the content. -/
theorem content_cases (h : scanner.effect zone? line = .content zone line') :
    Stripped line line' ∨
      (∃ command, commandOpen? (trim line) = some command ∧ line' = commandTag command) ∨
      (closesCommand (trim line) = true ∧ line' = commandEndTag) := by
  have hof := scanner.isOf_effect zone? line
  rw [h] at hof
  cases hof with
  | content _ hs => exact Or.inl hs
  | commandOpen hc => exact Or.inr (Or.inl ⟨_, hc, rfl⟩)
  | commandEnd hc => exact Or.inr (Or.inr ⟨hc, rfl⟩)

/-- A line that adds nothing is blank, at least without its brackets. -/
theorem nothing_cases (h : scanner.effect zone? line = .nothing zone) :
    ∃ line', Stripped line line' ∧ allBlank line' = true := by
  have hof := scanner.isOf_effect zone? line
  rw [h] at hof
  cases hof with
  | nothing _ hs hb => exact ⟨_, hs, hb⟩

theorem newline_not_mem_of_content (h : scanner.effect zone? line = .content zone line')
    (hnl : '\n' ∉ line) : '\n' ∉ line' := by
  rcases content_cases h with hs | ⟨command, hc, rfl⟩ | ⟨-, rfl⟩
  · exact fun hm => hnl (hs.sublist.subset hm)
  · exact newline_not_mem_commandTag fun hm => hnl (mem_of_mem_trim (commandOpen?_subset hc hm))
  · decide

theorem hasZoneMark_of_content (h : scanner.effect zone? line = .content zone line')
    (hm : hasZoneMark line = true) : hasZoneMark line' = true := by
  rcases content_cases h with hs | ⟨command, -, rfl⟩ | ⟨-, rfl⟩
  · exact hs.hasZoneMark hm
  · exact hasZoneMark_commandTag command
  · rfl

theorem not_hasZoneMark_of_nothing (h : scanner.effect zone? line = .nothing zone) :
    hasZoneMark line = false := by
  obtain ⟨line', hs, hb⟩ := nothing_cases h
  rw [Bool.eq_false_iff]
  intro hm
  rw [not_allBlank_of_hasZoneMark (hs.hasZoneMark hm)] at hb
  exact absurd hb (by simp)

theorem allBlank_of_content (h : scanner.effect zone? line = .content zone line')
    (hb : allBlank line = true) : allBlank line' = true := by
  rcases content_cases h with hs | ⟨command, hc, -⟩ | ⟨hc, -⟩
  · exact hs.allBlank hb
  · rw [not_allBlank_of_hasZoneMark (hasZoneMark_of_commandOpen? hc)] at hb
    exact absurd hb (by simp)
  · rw [not_allBlank_of_hasZoneMark (hasZoneMark_of_closesCommand hc)] at hb
    exact absurd hb (by simp)

/-- A line without marks of zones adds what is left of it without brackets. -/
theorem stripped_of_content (h : scanner.effect zone? line = .content zone line')
    (hm : hasZoneMark line = false) : Stripped line line' := by
  rcases content_cases h with hs | ⟨command, hc, -⟩ | ⟨hc, -⟩
  · exact hs
  · rw [hasZoneMark_of_commandOpen? hc] at hm
    exact absurd hm (by simp)
  · rw [hasZoneMark_of_closesCommand hc] at hm
    exact absurd hm (by simp)

end Scanner

-- ---------------------------------------------------------------------------
-- Lines without marks of zones
-- ---------------------------------------------------------------------------

/-- No zone is open, or brackets are. -/
def AtMostBrackets (zone? : Option Zone) : Prop :=
  zone? = none ∨ zone? = some .bracket

/-- The zone that is open after a line with this effect. -/
def LineEffect.zone? : LineEffect → Option Zone
  | .header _ _ => none
  | .content zone _ => zone
  | .nothing zone => zone

theorem LineEffect.zone?_unlessBlank (zone : Option Zone) (line : List Char) :
    (LineEffect.unlessBlank zone line).zone? = zone := by
  unfold LineEffect.unlessBlank
  split <;> rfl

namespace Scanner

variable {scanner : Scanner} {zone? : Option Zone} {line : List Char}

/-- A line without marks of zones opens at most brackets. -/
theorem atMostBrackets_effect (scanner : Scanner) (hz : AtMostBrackets zone?)
    (hm : hasZoneMark line = false) :
    AtMostBrackets (scanner.effect zone? line).zone? := by
  rcases hz with rfl | rfl
  · obtain ⟨hfence, hcommand, helement⟩ := outside_shapes_of_not_hasZoneMark hm
    rw [effect, outsideEffect, hfence, hcommand, helement]
    simp only [Bool.false_eq_true, if_false]
    split
    · unfold bracketEffect
      split
      · exact Or.inl (LineEffect.zone?_unlessBlank ..)
      · exact Or.inr (LineEffect.zone?_unlessBlank ..)
    · refine Or.inl ?_
      unfold plainEffect
      split
      · split <;> rfl
      · rfl
  · rw [effect, Zone.effect]
    split
    · exact Or.inl (LineEffect.zone?_unlessBlank ..)
    · exact Or.inr rfl

theorem not_hasZoneMark_append {u : List (List Char)} (hum : ∀ l ∈ u, hasZoneMark l = false)
    (hm : hasZoneMark line = false) : ∀ l ∈ u ++ nonblankLine line, hasZoneMark l = false := by
  intro l hl
  rcases List.mem_append.mp hl with hl | hl
  · exact hum l hl
  · rw [hasZoneMark_of_mem_nonblankLine hl, hm]

/-- A line that is added where a line without a mark of zones is due has no mark, and the line
itself becomes due after those before it. -/
theorem exists_shift_of_content {zone : Option Zone} {line' : List Char}
    {u rest more : List (List Char)} (he : scanner.effect zone? line = .content zone line')
    (hu : u ≠ []) (hum : ∀ l ∈ u, hasZoneMark l = false)
    (hp : nonblankLine line' ++ rest <+: u ++ (nonblankLine line ++ more)) :
    hasZoneMark line = false ∧ ∃ u', u' ≠ [] ∧ (∀ l ∈ u', hasZoneMark l = false) ∧
      rest <+: u' ++ more := by
  obtain ⟨w, u, rfl⟩ := List.exists_cons_of_ne_nil hu
  have hmark : hasZoneMark line = false := by
    rw [Bool.eq_false_iff]
    intro hm
    have hm' := hasZoneMark_of_content he hm
    rw [nonblankLine_of_not_allBlank (not_allBlank_of_hasZoneMark hm'), List.singleton_append,
      List.cons_append, List.cons_prefix_cons] at hp
    have hw := hum w (List.mem_cons_self ..)
    rw [← hp.1, hasZoneMark_trim, hm'] at hw
    exact absurd hw (by simp)
  refine ⟨hmark, ?_⟩
  cases hb : allBlank line' with
  | true =>
    rw [nonblankLine_of_allBlank hb, List.nil_append, ← List.append_assoc] at hp
    exact ⟨w :: u ++ nonblankLine line, by simp, not_hasZoneMark_append hum hmark, hp⟩
  | false =>
    -- the line that was due is taken, and the line itself is not blank
    have hb' : allBlank line = false := by
      rw [Bool.eq_false_iff]
      intro hblank
      rw [allBlank_of_content he hblank] at hb
      exact absurd hb (by simp)
    rw [nonblankLine_of_not_allBlank hb, List.singleton_append, List.cons_append,
      List.cons_prefix_cons, ← List.append_assoc] at hp
    refine ⟨u ++ nonblankLine line, ?_, ?_, hp.2⟩
    · rw [nonblankLine_of_not_allBlank hb']
      simp
    · exact not_hasZoneMark_append (fun l hl => hum l (List.mem_cons_of_mem _ hl)) hmark

namespace Flows

variable {zone : Option Zone} {ls out : List (List Char)}

theorem atMostBrackets (h : scanner.Flows zone? ls zone out) (hz : AtMostBrackets zone?)
    (hm : ∀ l ∈ ls, hasZoneMark l = false) : AtMostBrackets zone := by
  induction h with
  | nil => exact hz
  | content he h ih =>
    have hzone := atMostBrackets_effect scanner hz (hm _ (List.mem_cons_self ..))
    rw [he] at hzone
    exact ih hzone fun l hl => hm l (List.mem_cons_of_mem _ hl)
  | nothing he h ih =>
    have hzone := atMostBrackets_effect scanner hz (hm _ (List.mem_cons_self ..))
    rw [he] at hzone
    exact ih hzone fun l hl => hm l (List.mem_cons_of_mem _ hl)

/-- Lines without marks of zones add no more than themselves to the content. -/
theorem unlines_sublist (h : scanner.Flows zone? ls zone out)
    (hm : ∀ l ∈ ls, hasZoneMark l = false) : (unlines out).Sublist (unlines ls) := by
  induction h with
  | nil => exact List.Sublist.refl _
  | content he h ih =>
    have hs := stripped_of_content he (hm _ (List.mem_cons_self ..))
    have hrest := ih fun l hl => hm l (List.mem_cons_of_mem _ hl)
    rw [unlines_cons, unlines_cons]
    exact (hs.sublist.append hrest).cons_cons '\n'
  | nothing he h ih =>
    have hrest := ih fun l hl => hm l (List.mem_cons_of_mem _ hl)
    rw [unlines_cons]
    exact (hrest.trans (List.sublist_append_right _ _)).cons '\n'

/-- A flow adds no more lines that are not blank than it has. -/
theorem length_nonblankLines_le (h : scanner.Flows zone? ls zone out)
    (hnl : ∀ l ∈ ls, '\n' ∉ l) :
    (out.flatMap nonblankLines).length ≤ (ls.flatMap nonblankLines).length := by
  induction h with
  | nil => exact le_rfl
  | @content _ _ _ line line' _ _ he h ih =>
    have hline : '\n' ∉ line := hnl _ (List.mem_cons_self ..)
    have hrest := ih fun l hl => hnl l (List.mem_cons_of_mem _ hl)
    rw [List.flatMap_cons, List.flatMap_cons, List.length_append, List.length_append,
      nonblankLines_of_not_mem hline,
      nonblankLines_of_not_mem (newline_not_mem_of_content he hline)]
    have hle : (nonblankLine line').length ≤ (nonblankLine line).length := by
      cases hb : allBlank line with
      | true => rw [nonblankLine_of_allBlank (allBlank_of_content he hb)]; exact Nat.zero_le _
      | false =>
        rw [nonblankLine_of_not_allBlank hb]
        exact length_nonblankLine_le line'
    omega
  | nothing he h ih =>
    have hrest := ih fun l hl => hnl l (List.mem_cons_of_mem _ hl)
    rw [List.flatMap_cons, List.length_append]
    omega

/-- Where a flow adds to the content no more than its own lines, shifted behind lines without marks
of zones, these have no marks either. -/
theorem not_hasZoneMark_of_prefix (h : scanner.Flows zone? ls zone out)
    (hnl : ∀ l ∈ ls, '\n' ∉ l) {u : List (List Char)} (hu : u ≠ [])
    (hum : ∀ l ∈ u, hasZoneMark l = false)
    (hp : out.flatMap nonblankLines <+: u ++ ls.flatMap nonblankLines) :
    ∀ l ∈ ls, hasZoneMark l = false := by
  -- the lines before are what is still due: each line takes at most one from it and adds itself
  induction h generalizing u with
  | nil => simp
  | @content _ _ _ line line' ls out he h ih =>
    have hline : '\n' ∉ line := hnl _ (List.mem_cons_self ..)
    rw [List.flatMap_cons, List.flatMap_cons, nonblankLines_of_not_mem hline,
      nonblankLines_of_not_mem (newline_not_mem_of_content he hline)] at hp
    obtain ⟨hmark, u', hu', hum', hp'⟩ := exists_shift_of_content he hu hum hp
    rw [List.forall_mem_cons]
    exact ⟨hmark, ih (fun l hl => hnl l (List.mem_cons_of_mem _ hl)) hu' hum' hp'⟩
  | @nothing _ _ _ line ls out he h ih =>
    have hline : '\n' ∉ line := hnl _ (List.mem_cons_self ..)
    have hmark := not_hasZoneMark_of_nothing he
    rw [List.flatMap_cons, nonblankLines_of_not_mem hline, ← List.append_assoc] at hp
    rw [List.forall_mem_cons]
    refine ⟨hmark, ih (fun l hl => hnl l (List.mem_cons_of_mem _ hl)) (by simp [hu]) ?_ hp⟩
    exact not_hasZoneMark_append hum hmark

end Flows

end Scanner

end Colloquy.Markup
