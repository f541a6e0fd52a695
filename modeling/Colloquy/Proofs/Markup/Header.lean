import Colloquy.Proofs.Markup.Ending

/-!
# Colloquy — roles that have headers

A role has headers if its tag is made of tag characters, is recognised and stands for
it. Its header line is read as such wherever no zone is open
(`Scanner.HasHeader.effect_blockLine`, `Scanner.HasHeader.effect_inlineLine`), and all
messages of a text have such roles and trimmed texts (`Scanner.reads_of_mem_parse`).
-/

namespace Colloquy.Markup

open Text

-- ---------------------------------------------------------------------------
-- Tags
-- ---------------------------------------------------------------------------

theorem tag_ofTag (tag : String) : (Role.ofTag tag).tag = tag := by
  unfold Role.ofTag
  cases h : Role.known.find? fun role => role.tag == tag with
  | none => rfl
  | some role => simpa using List.find?_some h

namespace Scanner

variable {scanner : Scanner}

/-- A line made of the role's tag and a colon is a header of the role. -/
structure HasHeader (scanner : Scanner) (role : Role) : Prop where
  nonempty : role.tag.toList ≠ []
  tagChars : ∀ c ∈ role.tag.toList, isTagChar c = true
  recognised : scanner.recognises role.tag = true
  ofTag_tag : Role.ofTag role.tag = role

theorem hasHeader_ofTag {tag : List Char} (hne : tag ≠ []) (htag : ∀ c ∈ tag, isTagChar c = true)
    (hrec : scanner.recognises (String.ofList tag) = true) :
    scanner.HasHeader (Role.ofTag (String.ofList tag)) where
  nonempty := by rwa [tag_ofTag, String.toList_ofList]
  tagChars := by rwa [tag_ofTag, String.toList_ofList]
  recognised := by rwa [tag_ofTag]
  ofTag_tag := by rw [tag_ofTag]

/-- Every role with a meaning of its own has headers. -/
theorem hasHeader_of_isKnown {role : Role} (h : role.isKnown = true) :
    scanner.HasHeader role := by
  have hmem : role ∈ Role.known := by
    cases role <;> first | decide | simp [Role.isKnown] at h
  have htags : (Role.known.all fun role =>
      !role.tag.toList.isEmpty && role.tag.toList.all isTagChar) = true := by
    decide +kernel
  have hofTag : (Role.known.all fun role => Role.ofTag role.tag == role) = true := by
    decide +kernel
  have htag := List.all_eq_true.mp htags role hmem
  rw [Bool.and_eq_true, Bool.not_eq_true', List.isEmpty_eq_false_iff, List.all_eq_true] at htag
  have hof := List.all_eq_true.mp hofTag role hmem
  refine ⟨htag.1, htag.2, ?_, beq_iff_eq.mp hof⟩
  rw [recognises, Bool.or_eq_true, List.any_eq_true]
  exact Or.inl ⟨role, hmem, by simp⟩

theorem hasHeader_user : scanner.HasHeader .user := hasHeader_of_isKnown rfl

-- ---------------------------------------------------------------------------
-- Header lines
-- ---------------------------------------------------------------------------

namespace HasHeader

variable {role : Role}

theorem header? (h : scanner.HasHeader role) (rest : List Char) :
    Markup.header? (role.tag.toList ++ ':' :: rest) = some (role.tag.toList, rest) :=
  header?_eq_some_iff.mpr ⟨rfl, h.nonempty, h.tagChars⟩

theorem newline_not_mem (h : scanner.HasHeader role) : '\n' ∉ role.tag.toList :=
  fun hm => absurd (h.tagChars _ hm) (by decide)

/-- A line that starts with the role's tag and a colon is its header, unless it opens a command's
output. -/
theorem effect_headerLine (h : scanner.HasHeader role) (rest : List Char)
    (hc : commandOpen? (trim (role.tag.toList ++ ':' :: rest)) = none) :
    scanner.effect none (role.tag.toList ++ ':' :: rest) = .header role rest := by
  obtain ⟨c, r, hline, htag⟩ := exists_cons_of_header? (h.header? rest)
  obtain ⟨hfence, hbracket, helement⟩ := outside_shapes_of_tagChar htag r
  rw [← hline] at hfence hbracket helement
  have hplain : scanner.plainEffect (role.tag.toList ++ ':' :: rest) = .header role rest := by
    unfold plainEffect
    rw [h.header? rest]
    simp only [String.ofList_toList, h.recognised, if_true, h.ofTag_tag]
  rw [effect, outsideEffect, hfence, hbracket, hc, helement]
  exact hplain

/-- A line of the role's tag and a colon alone is its header. -/
theorem effect_blockLine (h : scanner.HasHeader role) :
    scanner.effect none (role.tag.toList ++ [':']) = .header role [] := by
  refine h.effect_headerLine [] (commandOpen?_eq_none_of_not_mem fun hm => ?_)
  rcases List.mem_append.mp (mem_of_mem_trim hm) with htag | hcolon
  · exact absurd (h.tagChars _ htag) (by decide)
  · exact absurd hcolon (by decide)

/-- A header line with a text is a header, or opens a command's output. -/
theorem effect_inlineLine (h : scanner.HasHeader role) (rest : List Char) :
    scanner.effect none (role.tag.toList ++ ':' :: rest) = .header role rest ∨
      ∃ command, scanner.effect none (role.tag.toList ++ ':' :: rest) =
        .content (some .command) (commandTag command) := by
  cases hc : commandOpen? (trim (role.tag.toList ++ ':' :: rest)) with
  | none => exact Or.inl (h.effect_headerLine rest hc)
  | some command =>
    obtain ⟨c, r, hline, htag⟩ := exists_cons_of_header? (h.header? rest)
    obtain ⟨hfence, hbracket, -⟩ := outside_shapes_of_tagChar htag r
    rw [← hline] at hfence hbracket
    refine Or.inr ⟨command, ?_⟩
    rw [effect, outsideEffect, hfence, hbracket, hc]
    rfl

end HasHeader

-- ---------------------------------------------------------------------------
-- Messages of a text
-- ---------------------------------------------------------------------------

/-- A message with a role of which something is known, and a trimmed text. -/
structure ReadsAs (R : Role → Prop) (m : Message) : Prop where
  role : R m.role
  eq_ofText : m = .ofText m.role m.text
  trimmed : trimBlank m.text = m.text

/-- A message as it is read: with a role that has headers, and a trimmed text. -/
def Reads (scanner : Scanner) (m : Message) : Prop :=
  ReadsAs scanner.HasHeader m

theorem Reads.hasHeader {m : Message} (h : scanner.Reads m) : scanner.HasHeader m.role :=
  ReadsAs.role h

theorem readsAs_ofText {R : Role → Prop} {role : Role} (h : R role) (content : List Char) :
    ReadsAs R (.ofText role (String.ofList (trim content))) where
  role := h
  eq_ofText := rfl
  trimmed := by
    show String.ofList (trim (String.ofList (trim content)).toList) = String.ofList (trim content)
    rw [String.toList_ofList, trim_trim]

theorem unlessBlank_ne_header (zone : Option Zone) (line : List Char) (role : Role)
    (rest : List Char) : LineEffect.unlessBlank zone line ≠ .header role rest := by
  unfold LineEffect.unlessBlank
  split <;> simp

/-- Only a header line outside zones is a header. -/
theorem header?_of_effect {zone? : Option Zone} {line rest : List Char} {role : Role}
    (h : scanner.effect zone? line = .header role rest) :
    zone? = none ∧ ∃ tag, Markup.header? line = some (tag, rest) ∧
      scanner.recognises (String.ofList tag) = true ∧ Role.ofTag (String.ofList tag) = role := by
  unfold effect at h
  split at h
  · next zone =>
    unfold Zone.effect at h
    split at h
    · simp at h
    · split at h
      · exact absurd h (unlessBlank_ne_header _ _ _ _)
      · simp at h
    · split at h <;> simp at h
    · split at h <;> simp at h
  -- outside zones a line is a header only if no other shape comes first
  · refine ⟨rfl, ?_⟩
    unfold outsideEffect at h
    split at h
    · exact absurd h (unlessBlank_ne_header _ _ _ _)
    · split at h
      · unfold bracketEffect at h
        split at h
        · exact absurd h (unlessBlank_ne_header _ _ _ _)
        · exact absurd h (unlessBlank_ne_header _ _ _ _)
      · split at h
        · simp at h
        · split at h
          · unfold elementEffect at h
            split at h
            · simp at h
            · split at h <;> simp at h
          · unfold plainEffect at h
            split at h
            · next tag rest' hheader =>
              split at h
              · next hrec =>
                rw [LineEffect.header.injEq] at h
                exact ⟨tag, h.2 ▸ hheader, hrec, h.1⟩
              · simp at h
            · simp at h

/-- While a zone is open no message ends and no block begins. -/
theorem step_of_zone_ne_none (scanner : Scanner) {scan : Scan} (hz : scan.zone ≠ none)
    (line : List Char) :
    (scanner.step scan line).messages = scan.messages ∧
      (scanner.step scan line).explicit = scan.explicit := by
  rw [step_eq_apply]
  cases he : scanner.effect scan.zone line with
  | header role rest => exact absurd (header?_of_effect he).1 hz
  | content zone line' => exact ⟨rfl, rfl⟩
  | nothing zone => exact ⟨rfl, rfl⟩

/-- A header line is read as one where no zone is open, and only there. -/
theorem step_eq_stepHeader_iff {scan : Scan} {line rest : List Char} {role : Role}
    (he : scanner.effect none line = .header role rest) :
    scanner.step scan line = stepHeader scan role rest ↔ scan.zone = none := by
  constructor
  · intro hstep
    by_contra hz
    -- a header adds a message, or else it begins a block where none was begun
    obtain ⟨hmessages, hexplicit⟩ := scanner.step_of_zone_ne_none hz line
    rw [hstep, stepHeader_eq] at hmessages hexplicit
    split at hmessages
    · next hinline =>
      rw [if_pos hinline] at hexplicit
      have hpending : scan.pending = [] := List.append_right_eq_self.mp hmessages
      rw [Scan.pending, ← hexplicit] at hpending
      simp at hpending
    · have hlength := congrArg List.length hmessages
      simp only [Scan.result, List.length_append, List.length_singleton] at hlength
      omega
  · intro hz
    rw [step_eq_apply, hz, he]
    rfl

/-- A header line is not blank. -/
theorem not_allBlank_of_header {zone? : Option Zone} {line rest : List Char} {role : Role}
    (h : scanner.effect zone? line = .header role rest) : allBlank line = false := by
  obtain ⟨-, tag, hheader, -, -⟩ := header?_of_effect h
  obtain ⟨c, r, rfl, hc⟩ := exists_cons_of_header? hheader
  rw [Bool.eq_false_iff]
  intro hb
  have hblank := allBlank_iff.mp hb c (List.mem_cons_self ..)
  rw [not_isBlank_of_isTagChar hc] at hblank
  exact absurd hblank (by simp)

theorem hasHeader_of_effect {zone? : Option Zone} {line rest : List Char} {role : Role}
    (h : scanner.effect zone? line = .header role rest) : scanner.HasHeader role := by
  obtain ⟨-, tag, hheader, hrec, rfl⟩ := header?_of_effect h
  obtain ⟨-, hne, htag⟩ := header?_eq_some_iff.mp hheader
  exact hasHeader_ofTag hne htag hrec

/-- All messages of what was read have trimmed texts and roles of which something is known, and so
will the open block. -/
def ReadsAll (R : Role → Prop) (scan : Scan) : Prop :=
  R scan.role ∧ ∀ m ∈ scan.messages, ReadsAs R m

section

variable {R : Role → Prop} {scan : Scan}

theorem ReadsAll.result (h : ReadsAll R scan) : ∀ m ∈ scan.result, ReadsAs R m := by
  intro m hm
  rcases List.mem_append.mp hm with hm | hm
  · exact h.2 m hm
  · unfold Scan.pending at hm
    split at hm
    · rw [List.mem_singleton] at hm
      rw [hm]
      exact readsAs_ofText h.1 _
    · simp at hm

theorem ReadsAll.step (huser : R .user) (hheader : ∀ role, scanner.HasHeader role → R role)
    (h : ReadsAll R scan) (line : List Char) : ReadsAll R (scanner.step scan line) := by
  rw [step_eq_apply]
  cases he : scanner.effect scan.zone line with
  | header role rest =>
    have hrole := hheader role (hasHeader_of_effect he)
    -- after a header with a text the role is that of before, or the user's
    rw [LineEffect.apply, stepHeader_eq]
    split
    · exact ⟨hrole, h.result⟩
    · refine ⟨?_, fun m hm => ?_⟩
      · show R (Option.getD _ _)
        split
        · exact huser
        · exact h.1
      · rcases List.mem_append.mp hm with hm | hm
        · exact h.result m hm
        · rw [List.mem_singleton] at hm
          rw [hm]
          exact readsAs_ofText hrole rest
  | content zone line => exact h
  | nothing zone => exact h

/-- What holds of the role before the first header, of the user and of every role with headers,
holds of the role of every message. -/
theorem ReadsAll.run (huser : R .user) (hheader : ∀ role, scanner.HasHeader role → R role)
    (h : ReadsAll R scan) (lines : List (List Char)) : ReadsAll R (scanner.run scan lines) := by
  induction lines generalizing scan with
  | nil => exact h
  | cons line lines ih => exact ih (h.step huser hheader line)

theorem readsAs_of_mem_parse (huser : R .user) (hheader : ∀ role, scanner.HasHeader role → R role)
    {role : Role} (h : R role) {text : String} {m : Message} (hm : m ∈ scanner.parse text role) :
    ReadsAs R m := by
  rw [parse_eq] at hm
  have hstart : ReadsAll R (.start role) := ⟨h, by simp [Scan.start]⟩
  exact (hstart.run huser hheader _).result m hm

end

/-- The messages of a text have roles with headers and trimmed texts, if the role of the lines
before the first header has headers. -/
theorem reads_of_mem_parse {role : Role} (h : scanner.HasHeader role) {text : String} {m : Message}
    (hm : m ∈ scanner.parse text role) : scanner.Reads m :=
  readsAs_of_mem_parse hasHeader_user (fun _ hrole => hrole) h hm

end Scanner

end Colloquy.Markup
