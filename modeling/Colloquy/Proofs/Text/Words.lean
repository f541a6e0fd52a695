import Colloquy.Proofs.Text.Trim
import Colloquy.Text.Words

/-!
# Colloquy — laws of words

A word can be written in parts: characters that mean themselves, and texts in single or in
double quotes. Words that are written so, with blanks between them, are read back as they
are, be they empty or full of quotes and blanks (`words_of_spells`). In general a scan never
makes up a character (`WordScan.count_chars_foldl_le`), and one that loses no double quote
and no backslash keeps no single quote (`WordScan.count_apostrophe_foldl`).

* `Segment`, `Spelling` — a part of a written word, and a written word.
* `Spells` — a text in which words are written with blanks between them.
* `WordScan.Retains` — a scan that keeps a character wherever it stands in a text.
-/

namespace Colloquy

/-- A character that means itself outside quotes: no blank, no quote and no backslash. -/
def isOrdinary (c : Char) : Bool :=
  !isBlank c && c != '\x27' && c != '\x22' && c != '\\'

theorem isOrdinary_iff {c : Char} :
    isOrdinary c = true ↔ isBlank c = false ∧ c ≠ '\x27' ∧ c ≠ '\x22' ∧ c ≠ '\\' := by
  simp [isOrdinary, and_assoc]

-- ---------------------------------------------------------------------------
-- Written words
-- ---------------------------------------------------------------------------

/-- A part of a written word. -/
inductive Segment where
  | bare (run : List Char)
  | single (text : List Char)
  | double (text : List Char)
  deriving DecidableEq, Repr

namespace Segment

/-- A character as it is written in double quotes. -/
def escaped (c : Char) : List Char :=
  if c = '\x22' ∨ c = '\\' then ['\\', c] else [c]

/-- What the part stands for. -/
def text : Segment → List Char
  | .bare run => run
  | .single text => text
  | .double text => text

def written : Segment → List Char
  | .bare run => run
  | .single text => '\x27' :: text ++ ['\x27']
  | .double text => '\x22' :: text.flatMap escaped ++ ['\x22']

/-- Nothing in the part ends it early. -/
def IsLawful : Segment → Prop
  | .bare run => run ≠ [] ∧ run.all isOrdinary = true
  | .single text => '\x27' ∉ text
  | .double _ => True

instance : DecidablePred IsLawful
  | .bare run => inferInstanceAs (Decidable (run ≠ [] ∧ run.all isOrdinary = true))
  | .single text => inferInstanceAs (Decidable ('\x27' ∉ text))
  | .double _ => inferInstanceAs (Decidable True)

end Segment

/-- A word that is written in one part or several. -/
structure Spelling where
  segments : List Segment
  ne_nil : segments ≠ []
  lawful : ∀ segment ∈ segments, segment.IsLawful

namespace Spelling

/-- The word that is written. -/
def text (s : Spelling) : List Char := s.segments.flatMap Segment.text

def written (s : Spelling) : List Char := s.segments.flatMap Segment.written

end Spelling

/-- In the text the words are written one after another, with blanks between them. -/
inductive Spells : List Spelling → List Char → Prop
  | nil : Spells [] []
  | last (s : Spelling) : Spells [s] s.written
  | cons (s : Spelling) {next : Spelling} {rest : List Spelling} {gap text : List Char}
      (hgap : gap ≠ []) (hblank : Text.allBlank gap = true) (others : Spells (next :: rest) text) :
      Spells (s :: next :: rest) (s.written ++ gap ++ text)

-- ---------------------------------------------------------------------------
-- Reading a written word
-- ---------------------------------------------------------------------------

theorem words_ofList (text : List Char) :
    words (String.ofList text) =
      ((Text.trim text).foldl WordScan.step {}).finishWord.words := by
  rw [words, String.toList_ofList]

namespace WordScan

variable {scan : WordScan} {c : Char} {text : List Char}

/-- The scan after characters that a word is made of. -/
def read (scan : WordScan) (text : List Char) : WordScan :=
  { scan with current := scan.current ++ text, inWord := true }

theorem read_read (scan : WordScan) (text more : List Char) :
    (scan.read text).read more = scan.read (text ++ more) := by
  simp [read]

theorem step_ordinary (hmode : scan.mode = .plain) (hc : isOrdinary c = true) :
    scan.step c = scan.read [c] := by
  obtain ⟨hblank, hsingle, hdouble, hescape⟩ := isOrdinary_iff.mp hc
  simp [step, hmode, hblank, hsingle, hdouble, hescape, emit, go, read]

theorem foldl_step_ordinary (hmode : scan.mode = .plain) (hin : scan.inWord = true)
    (htext : ∀ c ∈ text, isOrdinary c = true) : text.foldl step scan = scan.read text := by
  induction text generalizing scan with
  | nil =>
    rw [List.foldl_nil, read, List.append_nil, ← hin]
  | cons c text ih =>
    obtain ⟨hc, htext⟩ := List.forall_mem_cons.mp htext
    rw [List.foldl_cons, step_ordinary hmode hc, @ih (scan.read [c]) hmode rfl htext,
      read_read, List.singleton_append]

theorem foldl_step_single (hmode : scan.mode = .single) (htext : '\x27' ∉ text) :
    text.foldl step scan = { scan with current := scan.current ++ text } := by
  induction text generalizing scan with
  | nil => rw [List.foldl_nil, List.append_nil]
  | cons c text ih =>
    rw [List.mem_cons, not_or] at htext
    have hstep : scan.step c = scan.emit c := by
      simp [step, hmode, Ne.symm htext.1]
    rw [List.foldl_cons, hstep, @ih (scan.emit c) hmode htext.2]
    simp [emit]

theorem foldl_step_escaped (hmode : scan.mode = .double) (hin : scan.inWord = true) (c : Char) :
    (Segment.escaped c).foldl step scan = scan.emit c := by
  rw [Segment.escaped]
  split
  · obtain ⟨words, current, inWord, mode⟩ := scan
    obtain rfl : mode = .double := hmode
    obtain rfl : inWord = true := hin
    rfl
  · next hc =>
    rw [not_or] at hc
    simp [step, hmode, hc.1, hc.2]

theorem foldl_step_double (hmode : scan.mode = .double) (hin : scan.inWord = true)
    (text : List Char) :
    (text.flatMap Segment.escaped).foldl step scan =
      { scan with current := scan.current ++ text } := by
  induction text generalizing scan with
  | nil => rw [List.flatMap_nil, List.foldl_nil, List.append_nil]
  | cons c text ih =>
    rw [List.flatMap_cons, List.foldl_append, foldl_step_escaped hmode hin,
      @ih (scan.emit c) hmode hin]
    simp [emit]

theorem foldl_step_segment (hmode : scan.mode = .plain) {segment : Segment}
    (h : segment.IsLawful) : segment.written.foldl step scan = scan.read segment.text := by
  cases segment with
  | bare run =>
    obtain ⟨hne, hrun⟩ := h
    obtain ⟨c, rest, rfl⟩ := List.exists_cons_of_ne_nil hne
    obtain ⟨hc, hrest⟩ := List.forall_mem_cons.mp (List.all_eq_true.mp hrun)
    have hread : (scan.read [c]).mode = .plain := hmode
    rw [Segment.written, List.foldl_cons, step_ordinary hmode hc,
      foldl_step_ordinary hread rfl hrest, read_read]
    rfl
  | single text =>
    have hopen : scan.step '\x27' = scan.go .single := by simp [step, hmode]
    rw [Segment.written, List.cons_append, List.foldl_cons, hopen, List.foldl_append,
      foldl_step_single rfl h]
    simp [step, go, read, hmode, Segment.text]
  | double text =>
    have hopen : scan.step '\x22' = scan.go .double := by simp [step, hmode]
    rw [Segment.written, List.cons_append, List.foldl_cons, hopen, List.foldl_append,
      foldl_step_double rfl rfl]
    simp [step, go, read, hmode, Segment.text]

/-- A written word is read as it is, whatever it is made of. -/
theorem foldl_step_spelling (hmode : scan.mode = .plain) (s : Spelling) :
    s.written.foldl step scan = scan.read s.text := by
  obtain ⟨segments, hne, hlawful⟩ := s
  show (segments.flatMap Segment.written).foldl step scan =
    scan.read (segments.flatMap Segment.text)
  induction segments generalizing scan with
  | nil => exact absurd rfl hne
  | cons segment rest ih =>
    obtain ⟨hsegment, hrest⟩ := List.forall_mem_cons.mp hlawful
    rw [List.flatMap_cons, List.flatMap_cons, List.foldl_append,
      foldl_step_segment hmode hsegment]
    by_cases hnil : rest = []
    · subst hnil
      rw [List.flatMap_nil, List.flatMap_nil, List.foldl_nil, List.append_nil]
    · rw [@ih (scan.read segment.text) hmode hnil hrest, read_read]

theorem step_blank (hmode : scan.mode = .plain) (hc : isBlank c = true) :
    scan.step c = scan.finishWord := by
  have hne : ∀ d, isBlank d = false → c ≠ d := by
    rintro d hd rfl
    exact Bool.false_ne_true (hd.symm.trans hc)
  simp [step, hmode, hc, hne '\\' rfl, hne '\x27' rfl, hne '\x22' rfl]

theorem mode_finishWord (scan : WordScan) : scan.finishWord.mode = scan.mode := by
  rw [finishWord]
  split <;> rfl

/-- Blanks end the word before them. -/
theorem foldl_step_blanks (hmode : scan.mode = .plain) {gap : List Char} (hgap : gap ≠ [])
    (hblank : Text.allBlank gap = true) : gap.foldl step scan = scan.finishWord := by
  induction gap generalizing scan with
  | nil => exact absurd rfl hgap
  | cons c gap ih =>
    rw [Text.allBlank_iff, List.forall_mem_cons] at hblank
    rw [List.foldl_cons, step_blank hmode hblank.1]
    by_cases hnil : gap = []
    · rw [hnil, List.foldl_nil]
    · have hmode' : scan.finishWord.mode = .plain := (mode_finishWord scan).trans hmode
      have hdone : scan.finishWord.finishWord = scan.finishWord := by
        by_cases hin : scan.inWord = true <;> simp [finishWord, hin]
      rw [ih hmode' hnil (Text.allBlank_iff.mpr hblank.2), hdone]

end WordScan

namespace Spells

open WordScan

variable {spellings : List Spelling} {text : List Char}

/-- The words of the text are read one after another. -/
theorem words_foldl (h : Spells spellings text) (done : List String) :
    ((text.foldl step { words := done }).finishWord).words =
      done ++ spellings.map fun s => String.ofList s.text := by
  induction h generalizing done with
  | nil => exact (List.append_nil _).symm
  | last s =>
    rw [foldl_step_spelling rfl]
    rfl
  | @cons s next rest gap text hgap hblank others ih =>
    rw [List.foldl_append, List.foldl_append, foldl_step_spelling rfl,
      foldl_step_blanks rfl hgap hblank]
    have hnext : (WordScan.read { words := done } s.text).finishWord =
        { words := done ++ [String.ofList s.text] } := rfl
    rw [hnext, ih, List.map_cons, List.append_assoc]
    rfl

end Spells

-- ---------------------------------------------------------------------------
-- The ends of written words
-- ---------------------------------------------------------------------------

theorem Segment.IsLawful.isTrimmed {segment : Segment} (h : segment.IsLawful) :
    segment.written ≠ [] ∧ Text.IsTrimmed segment.written := by
  cases segment with
  | bare run =>
    have hrun := List.all_eq_true.mp h.2
    refine ⟨h.1, fun c hc => ?_, fun c hc => ?_⟩
    · exact (isOrdinary_iff.mp (hrun c (List.mem_of_mem_head? hc))).1
    · exact (isOrdinary_iff.mp (hrun c (List.mem_of_mem_getLast? hc))).1
  | single text => exact ⟨List.cons_ne_nil _ _, Text.isTrimmed_of_ends rfl rfl text⟩
  | double text => exact ⟨List.cons_ne_nil _ _, Text.isTrimmed_of_ends rfl rfl _⟩

theorem Spelling.isTrimmed_written (s : Spelling) :
    s.written ≠ [] ∧ Text.IsTrimmed s.written := by
  obtain ⟨segments, hne, hlawful⟩ := s
  show segments.flatMap Segment.written ≠ [] ∧ Text.IsTrimmed (segments.flatMap Segment.written)
  induction segments with
  | nil => exact absurd rfl hne
  | cons segment rest ih =>
    obtain ⟨hsegment, hrest⟩ := List.forall_mem_cons.mp hlawful
    obtain ⟨hwritten, htrimmed⟩ := hsegment.isTrimmed
    rw [List.flatMap_cons]
    by_cases hnil : rest = []
    · rw [hnil, List.flatMap_nil, List.append_nil]
      exact ⟨hwritten, htrimmed⟩
    · obtain ⟨hothers, hends⟩ := ih hnil hrest
      refine ⟨List.append_ne_nil_of_left_ne_nil hwritten _, ?_⟩
      have happend := htrimmed.append hends hwritten hothers []
      rwa [List.append_nil] at happend

/-- The text of words starts and ends in no blank. -/
theorem Spells.isTrimmed {spellings : List Spelling} {text : List Char}
    (h : Spells spellings text) :
    (spellings ≠ [] → text ≠ []) ∧ Text.IsTrimmed text := by
  induction h with
  | nil => exact ⟨fun hne => absurd rfl hne, nofun, nofun⟩
  | last s => exact ⟨fun _ => s.isTrimmed_written.1, s.isTrimmed_written.2⟩
  | @cons s next rest gap text hgap hblank others ih =>
    obtain ⟨hwritten, htrimmed⟩ := s.isTrimmed_written
    refine ⟨fun _ => ?_, htrimmed.append ih.2 hwritten (ih.1 (List.cons_ne_nil _ _)) gap⟩
    rw [List.append_assoc]
    exact List.append_ne_nil_of_left_ne_nil hwritten _

/-- Words that are set apart by single spaces. -/
theorem spells_spaced (first : Spelling) (others : List Spelling) :
    Spells (first :: others) (first.written ++ others.flatMap fun s => ' ' :: s.written) := by
  induction others generalizing first with
  | nil =>
    rw [List.flatMap_nil, List.append_nil]
    exact .last first
  | cons next rest ih =>
    have hspace : Text.allBlank [' '] = true := by decide
    have hcons := Spells.cons first (List.cons_ne_nil _ _) hspace (ih next)
    rwa [List.append_assoc] at hcons

/-- Words that are written in parts, with blanks between them, are the words of the text. -/
theorem words_of_spells {spellings : List Spelling} {text : List Char}
    (h : Spells spellings text) :
    words (String.ofList text) = spellings.map fun s => String.ofList s.text := by
  rw [words_ofList, h.isTrimmed.2.trim_eq]
  exact h.words_foldl []

/-- A word with quotes, blanks and a backslash, an empty one, and one over two lines. -/
theorem words_of_spells_quoted :
    let say : Spelling :=
      ⟨[.bare "say=".toList, .double "a \x22b\\".toList, .single "it, \x22".toList],
        by decide, by decide +kernel⟩
    let nothing : Spelling := ⟨[.single []], by decide, by decide⟩
    let lines : Spelling :=
      ⟨[.double "one\n".toList, .bare "two".toList], by decide, by decide +kernel⟩
    let text := "say=\x22a \\\x22b\\\\\x22\x27it, \x22\x27 \t\x27\x27\n\x22one\n\x22two"
    Spells [say, nothing, lines] text.toList ∧
      words text = ["say=a \x22b\\it, \x22", "", "one\ntwo"] := by
  intro say nothing lines text
  have htext : text.toList =
      say.written ++ " \t".toList ++ (nothing.written ++ "\n".toList ++ lines.written) := by
    decide +kernel
  have h : Spells [say, nothing, lines] text.toList := by
    rw [htext]
    exact .cons say (by decide) (by decide) (.cons nothing (by decide) (by decide) (.last lines))
  have hwords := words_of_spells h
  rw [String.ofList_toList] at hwords
  exact ⟨h, hwords⟩

-- ---------------------------------------------------------------------------
-- What a scan loses
-- ---------------------------------------------------------------------------

namespace WordScan

variable {scan : WordScan} {c d : Char} {text more : List Char}

/-- The characters of the words that were read, and of the one that is being read. -/
def chars (scan : WordScan) : List Char :=
  scan.words.flatMap String.toList ++ scan.current

theorem chars_read (scan : WordScan) (text : List Char) :
    (scan.read text).chars = scan.chars ++ text :=
  (List.append_assoc ..).symm

theorem chars_emit (scan : WordScan) (c : Char) : (scan.emit c).chars = scan.chars ++ [c] :=
  (List.append_assoc ..).symm

theorem chars_finishWord (scan : WordScan) : scan.finishWord.chars = scan.chars := by
  rw [finishWord]
  split
  · simp [chars]
  · rfl

/-- The words that were read hold no more than was read. -/
theorem count_words_le (scan : WordScan) (c : Char) :
    (scan.finishWord.words.flatMap String.toList).count c ≤ scan.chars.count c := by
  rw [← chars_finishWord, chars, List.count_append]
  exact Nat.le_add_right _ _

/-- A character changes how the next ones are taken, becomes part of a word, or ends one. -/
theorem step_cases (scan : WordScan) (c : Char) :
    (∃ inWord mode, scan.step c = { scan with inWord := inWord, mode := mode }) ∨
      (∃ inWord mode, scan.step c = { scan.emit c with inWord := inWord, mode := mode }) ∨
      scan.step c = scan.finishWord := by
  unfold step
  split
  · exact Or.inr (Or.inl ⟨_, _, rfl⟩)
  · exact Or.inr (Or.inl ⟨_, _, rfl⟩)
  · split
    · exact Or.inl ⟨_, _, rfl⟩
    · exact Or.inr (Or.inl ⟨_, _, rfl⟩)
  · split_ifs
    · exact Or.inl ⟨_, _, rfl⟩
    · exact Or.inl ⟨_, _, rfl⟩
    · exact Or.inr (Or.inl ⟨_, _, rfl⟩)
  · split_ifs
    · exact Or.inl ⟨_, _, rfl⟩
    · exact Or.inl ⟨_, _, rfl⟩
    · exact Or.inl ⟨_, _, rfl⟩
    · exact Or.inr (Or.inr rfl)
    · exact Or.inr (Or.inl ⟨_, _, rfl⟩)

theorem prefix_words_finishWord (scan : WordScan) : scan.words <+: scan.finishWord.words := by
  rw [finishWord]
  split
  · exact List.prefix_append _ _
  · exact List.prefix_rfl

/-- What was read stays. -/
theorem prefix_words_foldl (scan : WordScan) (text : List Char) :
    scan.words <+: (text.foldl step scan).words := by
  induction text generalizing scan with
  | nil => exact List.prefix_rfl
  | cons c text ih =>
    refine List.IsPrefix.trans ?_ (ih (scan.step c))
    rcases step_cases scan c with ⟨_, _, hstep⟩ | ⟨_, _, hstep⟩ | hstep
    · exact hstep ▸ List.prefix_rfl
    · exact hstep ▸ List.prefix_rfl
    · exact hstep ▸ prefix_words_finishWord scan

/-- A character becomes part of a word, or is lost. -/
theorem chars_step (scan : WordScan) (c : Char) :
    (scan.step c).chars = scan.chars ∨ (scan.step c).chars = scan.chars ++ [c] := by
  rcases step_cases scan c with ⟨_, _, hstep⟩ | ⟨_, _, hstep⟩ | hstep
  · rw [hstep]
    exact Or.inl rfl
  · rw [hstep]
    exact Or.inr (chars_emit scan c)
  · rw [hstep]
    exact Or.inl (chars_finishWord scan)

/-- No character is made up. -/
theorem count_chars_foldl_le (scan : WordScan) (c : Char) (text : List Char) :
    (text.foldl step scan).chars.count c ≤ scan.chars.count c + text.count c := by
  induction text generalizing scan with
  | nil => exact Nat.le_refl _
  | cons d text ih =>
    have hrest := ih (scan.step d)
    rw [List.foldl_cons, List.count_cons]
    rcases chars_step scan d with hstep | hstep
    · rw [hstep] at hrest
      omega
    · rw [hstep, List.count_append, List.count_singleton] at hrest
      omega

/-- The character becomes part of a word wherever it stands in the text. -/
def Retains (scan : WordScan) (c : Char) (text : List Char) : Prop :=
  (text.foldl step scan).chars.count c = scan.chars.count c + text.count c

theorem retains_append_iff :
    scan.Retains c (text ++ more) ↔
      scan.Retains c text ∧ (text.foldl step scan).Retains c more := by
  have htext := count_chars_foldl_le scan c text
  have hmore := count_chars_foldl_le (text.foldl step scan) c more
  rw [Retains, Retains, Retains, List.foldl_append, List.count_append]
  omega

theorem retains_cons_iff :
    scan.Retains c (d :: text) ↔ scan.Retains c [d] ∧ (scan.step d).Retains c text :=
  @retains_append_iff scan c [d] text

theorem not_retains_of_chars_step (h : (scan.step c).chars = scan.chars) :
    ¬ scan.Retains c [c] := by
  rw [Retains, List.foldl_cons, List.foldl_nil, h, List.count_singleton_self]
  omega

theorem ne_of_retains (hmode : scan.mode = .plain) (hdouble : scan.Retains '\x22' [c])
    (hescape : scan.Retains '\\' [c]) : c ≠ '\x22' ∧ c ≠ '\\' := by
  constructor
  · rintro rfl
    refine not_retains_of_chars_step ?_ hdouble
    simp [step, hmode, go, chars]
  · rintro rfl
    refine not_retains_of_chars_step ?_ hescape
    simp [step, hmode, go, chars]

theorem count_apostrophe_step (hmode : scan.mode = .plain ∨ scan.mode = .single)
    (hdouble : scan.Retains '\x22' [c]) (hescape : scan.Retains '\\' [c]) :
    ((scan.step c).mode = .plain ∨ (scan.step c).mode = .single) ∧
      (scan.step c).chars.count '\x27' = scan.chars.count '\x27' := by
  have hadd : c ≠ '\x27' → (scan.chars ++ [c]).count '\x27' = scan.chars.count '\x27' := by
    intro hc
    rw [List.count_append, List.count_singleton, if_neg (by simpa using hc), Nat.add_zero]
  rcases hmode with hmode | hmode
  · obtain ⟨hc₁, hc₂⟩ := ne_of_retains hmode hdouble hescape
    by_cases hquote : c = '\x27'
    · subst hquote
      simp [step, hmode, go, chars]
    by_cases hblank : isBlank c = true
    · rw [step_blank hmode hblank, chars_finishWord, mode_finishWord]
      exact ⟨Or.inl hmode, rfl⟩
    · have hordinary : isOrdinary c = true :=
        isOrdinary_iff.mpr ⟨Bool.not_eq_true _ ▸ hblank, hquote, hc₁, hc₂⟩
      rw [step_ordinary hmode hordinary, chars_read]
      exact ⟨Or.inl hmode, hadd hquote⟩
  · by_cases hquote : c = '\x27'
    · subst hquote
      simp [step, hmode, chars]
    · have hemit : scan.step c = scan.emit c := by simp [step, hmode, hquote]
      rw [hemit, chars_emit]
      exact ⟨Or.inr hmode, hadd hquote⟩

/-- Where no double quote and no backslash is lost, no single quote is kept. -/
theorem count_apostrophe_foldl (hmode : scan.mode = .plain ∨ scan.mode = .single)
    (hdouble : scan.Retains '\x22' text) (hescape : scan.Retains '\\' text) :
    (text.foldl step scan).chars.count '\x27' = scan.chars.count '\x27' := by
  induction text generalizing scan with
  | nil => rfl
  | cons c text ih =>
    obtain ⟨hdouble₁, hdouble⟩ := retains_cons_iff.mp hdouble
    obtain ⟨hescape₁, hescape⟩ := retains_cons_iff.mp hescape
    obtain ⟨hmode, hcount⟩ := count_apostrophe_step hmode hdouble₁ hescape₁
    rw [List.foldl_cons, ih hmode hdouble hescape, hcount]

/-- Outside quotes no quote and no backslash can be kept. -/
theorem forall_isOrdinary_of_retains (hmode : scan.mode = .plain)
    (hdouble : scan.Retains '\x22' text) (hescape : scan.Retains '\\' text)
    (hsingle : '\x27' ∉ text) (hblank : ∀ c ∈ text, isBlank c = false) :
    ∀ c ∈ text, isOrdinary c = true := by
  induction text generalizing scan with
  | nil => exact List.forall_mem_nil _
  | cons c text ih =>
    obtain ⟨hdouble₁, hdouble⟩ := retains_cons_iff.mp hdouble
    obtain ⟨hescape₁, hescape⟩ := retains_cons_iff.mp hescape
    obtain ⟨hc₁, hc₂⟩ := ne_of_retains hmode hdouble₁ hescape₁
    rw [List.mem_cons, not_or] at hsingle
    rw [List.forall_mem_cons] at hblank ⊢
    have hc : isOrdinary c = true :=
      isOrdinary_iff.mpr ⟨hblank.1, Ne.symm hsingle.1, hc₁, hc₂⟩
    rw [step_ordinary hmode hc] at hdouble hescape
    exact ⟨hc, @ih (scan.read [c]) hmode hdouble hescape hsingle.2 hblank.2⟩

end WordScan

end Colloquy
