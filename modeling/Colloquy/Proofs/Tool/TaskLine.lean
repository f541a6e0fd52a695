import Colloquy.Conversation
import Colloquy.Proofs.Json.Fields
import Colloquy.Proofs.Text.Cut
import Colloquy.Proofs.Text.Words
import Colloquy.Tool.Workflow
import Mathlib.Data.List.Flatten
import Mathlib.Data.List.Nodup
import Mathlib.Data.List.Perm.Subperm

/-!
# Colloquy — task lines

A conversation writes a task as a line: the workflow, the task, and each input with its
value, which is put in single quotes if it holds a blank. Read as words again, the line
names the workflow and the task whatever the values are. The inputs are those that were
written if and only if every value fits: one with a blank has no single quote, and one
without has no quote and no backslash (`TaskLine.parse_taskLine_iff`).

That values must fit is seen by counting. A line has no more characters of each kind than
its words and the quotes around values need, so words that hold all values leave no double
quote and no backslash to be lost, and then every single quote is lost.
-/

namespace Colloquy

/-- A name that can stand in a line as it is. -/
def IsBareName (name : String) : Prop :=
  name.toList ≠ [] ∧ name.toList.all isOrdinary = true

instance : DecidablePred IsBareName := fun name =>
  inferInstanceAs (Decidable (name.toList ≠ [] ∧ name.toList.all isOrdinary = true))

/-- Inputs under distinct names that can stand before an equals sign. -/
structure AreTaskInputs (inputs : List (String × String)) : Prop where
  bare : ∀ input ∈ inputs, IsBareName input.1
  unsplit : ∀ input ∈ inputs, '=' ∉ input.1.toList
  distinct : (inputs.map Prod.fst).Nodup

/-- A value with a blank, which is written in single quotes, has none of them itself. A value
without blanks, which is written as it is, has no quote and no backslash. -/
def fitsLine (value : String) : Bool :=
  if hasBlank value then !value.toList.contains '\x27' else value.toList.all isOrdinary

namespace IsBareName

variable {name : String}

theorem isOrdinary_of_mem (h : IsBareName name) {c : Char} (hc : c ∈ name.toList) :
    isOrdinary c = true :=
  List.all_eq_true.mp h.2 c hc

/-- A name is written in one part. -/
def spelling (h : IsBareName name) : Spelling :=
  ⟨[.bare name.toList], List.cons_ne_nil _ _, by
    simp only [List.forall_mem_cons, List.not_mem_nil, false_implies, implies_true, and_true]
    exact h⟩

theorem written_spelling (h : IsBareName name) : h.spelling.written = name.toList :=
  List.append_nil _

theorem text_spelling (h : IsBareName name) : h.spelling.text = name.toList :=
  List.append_nil _

theorem isTrimmed (h : IsBareName name) : Text.IsTrimmed name.toList := by
  have hwritten := h.spelling.isTrimmed_written.2
  rwa [h.written_spelling] at hwritten

theorem foldl_step (h : IsBareName name) {scan : WordScan} (hmode : scan.mode = .plain) :
    name.toList.foldl WordScan.step scan = scan.read name.toList := by
  have hread := WordScan.foldl_step_spelling hmode h.spelling
  rwa [h.written_spelling, h.text_spelling] at hread

end IsBareName

namespace TaskLine

variable {workflow task name : String} {input : String × String}
  {inputs : List (String × String)} {c : Char}

-- ---------------------------------------------------------------------------
-- The line
-- ---------------------------------------------------------------------------

/-- A value as it stands in a line. -/
def valueChars (value : String) : List Char :=
  if hasBlank value then '\x27' :: value.toList ++ ['\x27'] else value.toList

/-- An input with its value, as one word. -/
def inputWord (input : String × String) : String := input.1 ++ "=" ++ input.2

theorem toList_inputText (input : String × String) :
    (Conversation.inputText input).toList =
      ' ' :: (input.1.toList ++ '=' :: valueChars input.2) := by
  rw [Conversation.inputText, valueChars]
  split <;> simp [String.toList_append]

theorem toList_inputWord (input : String × String) :
    (inputWord input).toList = input.1.toList ++ '=' :: input.2.toList := by
  simp [inputWord, String.toList_append]

/-- The inputs as they stand in a line. -/
def written (inputs : List (String × String)) : List Char :=
  inputs.flatMap fun input => (Conversation.inputText input).toList

theorem written_cons (input : String × String) (rest : List (String × String)) :
    written (input :: rest) = (Conversation.inputText input).toList ++ written rest :=
  List.flatMap_cons

theorem toList_taskLine (workflow task : String) (inputs : List (String × String)) :
    (Conversation.taskLine workflow task inputs).toList =
      workflow.toList ++ ' ' :: task.toList ++ written inputs := by
  have hfold : ∀ line : String,
      (inputs.foldl (fun line input => line ++ Conversation.inputText input) line).toList =
        line.toList ++ written inputs := by
    induction inputs with
    | nil => exact fun line => (List.append_nil _).symm
    | cons input rest ih =>
      intro line
      rw [List.foldl_cons, ih, String.toList_append, written_cons, List.append_assoc]
  rw [Conversation.taskLine, hfold]
  simp [String.toList_append]

theorem hasBlank_eq_false_iff {value : String} :
    hasBlank value = false ↔ ∀ c ∈ value.toList, isBlank c = false := by
  simp [hasBlank]

-- ---------------------------------------------------------------------------
-- Values that fit
-- ---------------------------------------------------------------------------

theorem exists_spelling (hname : IsBareName input.1) (hfits : fitsLine input.2 = true) :
    ∃ s : Spelling, (Conversation.inputText input).toList = ' ' :: s.written ∧
      s.text = (inputWord input).toList := by
  rw [toList_inputText, toList_inputWord, valueChars]
  rw [fitsLine] at hfits
  by_cases hblank : hasBlank input.2 = true
  · rw [if_pos hblank] at hfits ⊢
    have hsingle : '\x27' ∉ input.2.toList := by simpa using hfits
    have hbare : (input.1.toList ++ ['=']).all isOrdinary = true := by
      rw [List.all_append, hname.2]
      rfl
    refine ⟨⟨[.bare (input.1.toList ++ ['=']), .single input.2.toList], List.cons_ne_nil _ _,
      ?_⟩, ?_, ?_⟩
    · simp only [List.forall_mem_cons, List.not_mem_nil, false_implies, implies_true, and_true]
      exact ⟨⟨by simp, hbare⟩, hsingle⟩
    · simp [Spelling.written, Segment.written]
    · simp [Spelling.text, Segment.text]
  · rw [if_neg hblank] at hfits ⊢
    have hbare : (input.1.toList ++ '=' :: input.2.toList).all isOrdinary = true := by
      rw [List.all_append, List.all_cons, hname.2, hfits]
      rfl
    refine ⟨⟨[.bare (input.1.toList ++ '=' :: input.2.toList)], List.cons_ne_nil _ _, ?_⟩, ?_, ?_⟩
    · simp only [List.forall_mem_cons, List.not_mem_nil, false_implies, implies_true, and_true]
      exact ⟨by simp, hbare⟩
    · simp [Spelling.written, Segment.written]
    · simp [Spelling.text, Segment.text]

theorem exists_spellings (hnames : ∀ input ∈ inputs, IsBareName input.1)
    (hfits : ∀ input ∈ inputs, fitsLine input.2 = true) :
    ∃ spellings : List Spelling,
      written inputs = (spellings.flatMap fun s => ' ' :: s.written) ∧
      (spellings.map fun s => String.ofList s.text) = inputs.map inputWord := by
  induction inputs with
  | nil => exact ⟨[], rfl, rfl⟩
  | cons input rest ih =>
    obtain ⟨hname, hnames⟩ := List.forall_mem_cons.mp hnames
    obtain ⟨hfit, hfits⟩ := List.forall_mem_cons.mp hfits
    obtain ⟨s, hwritten, htext⟩ := exists_spelling hname hfit
    obtain ⟨spellings, hothers, hwords⟩ := ih hnames hfits
    refine ⟨s :: spellings, ?_, ?_⟩
    · rw [written_cons, List.flatMap_cons, hwritten, hothers]
    · rw [List.map_cons, List.map_cons, htext, String.ofList_toList, hwords]

/-- Where all values fit, the words are the names and the inputs. -/
theorem words_taskLine_of_fits (hworkflow : IsBareName workflow) (htask : IsBareName task)
    (hnames : ∀ input ∈ inputs, IsBareName input.1)
    (hfits : ∀ input ∈ inputs, fitsLine input.2 = true) :
    words (Conversation.taskLine workflow task inputs) =
      workflow :: task :: inputs.map inputWord := by
  obtain ⟨spellings, hwritten, hwords⟩ := exists_spellings hnames hfits
  have hspells := spells_spaced hworkflow.spelling (htask.spelling :: spellings)
  have hline : (Conversation.taskLine workflow task inputs).toList =
      hworkflow.spelling.written ++
        (htask.spelling :: spellings).flatMap fun s => ' ' :: s.written := by
    rw [toList_taskLine, hwritten, List.flatMap_cons, IsBareName.written_spelling,
      IsBareName.written_spelling, List.append_assoc, List.cons_append]
  rw [← hline] at hspells
  have hread := hspells.words_foldl []
  rw [← hspells.isTrimmed.2.trim_eq, ← words_ofList, String.ofList_toList] at hread
  rw [hread, List.map_cons, List.map_cons, hwords, IsBareName.text_spelling,
    IsBareName.text_spelling, String.ofList_toList, String.ofList_toList]
  rfl

theorem splitOnce?_eq_some_iff_inputWord {word key value : String} :
    splitOnce? word '=' = some (key, value) ↔ word = inputWord (key, value) ∧ '=' ∉ key.toList := by
  rw [splitOnce?_eq_some_iff, ← String.toList_inj, toList_inputWord]

theorem splitOnce?_inputWord (h : '=' ∉ input.1.toList) :
    splitOnce? (inputWord input) '=' = some input :=
  splitOnce?_eq_some_iff_inputWord.mpr ⟨rfl, h⟩

/-- Of the words that give the key a value, the last gives it this one. -/
def GivesLast (ws : List String) (key value : String) : Prop :=
  ∃ before after, ws = before ++ inputWord (key, value) :: after ∧ '=' ∉ key.toList ∧
    ∀ word ∈ after, ∀ other, word ≠ inputWord (key, other)

theorem givesLast_concat_iff {ws : List String} {word key value : String} :
    GivesLast (ws ++ [word]) key value ↔
      (word = inputWord (key, value) ∧ '=' ∉ key.toList) ∨
        (∀ other, word ≠ inputWord (key, other)) ∧ GivesLast ws key value := by
  constructor
  · rintro ⟨before, after, hws, hkey, hafter⟩
    rcases List.eq_nil_or_concat after with rfl | ⟨after, last, rfl⟩
    · obtain ⟨-, hword⟩ := List.append_inj' hws rfl
      exact Or.inl ⟨(List.cons.inj hword).1, hkey⟩
    · rw [List.concat_eq_append, ← List.cons_append, ← List.append_assoc] at hws
      obtain ⟨rfl, hlast⟩ := List.append_inj' hws rfl
      obtain rfl := (List.cons.inj hlast).1
      rw [List.concat_eq_append, List.forall_mem_append] at hafter
      exact Or.inr ⟨hafter.2 word (List.mem_singleton_self _), before, after, rfl, hkey, hafter.1⟩
  · rintro (⟨rfl, hkey⟩ | ⟨hword, before, after, rfl, hkey, hafter⟩)
    · exact ⟨ws, [], rfl, hkey, List.forall_mem_nil _⟩
    · refine ⟨before, after ++ [word], by simp, hkey, List.forall_mem_append.mpr ⟨hafter, ?_⟩⟩
      exact List.forall_mem_singleton.mpr hword

theorem get?_fieldsOfWords_concat (ws : List String) (word key : String) :
    Fields.get? key (fieldsOfWords (ws ++ [word])) =
      match splitOnce? word '=' with
      | some (k, value) =>
        if key = k then some (.str value) else Fields.get? key (fieldsOfWords ws)
      | none => Fields.get? key (fieldsOfWords ws) := by
  rw [fieldsOfWords, List.filterMap_append, Fields.ofList_append, List.filterMap_cons]
  cases splitOnce? word '=' with
  | none => rfl
  | some parts => exact Fields.get?_insert key parts.1 (.str parts.2) _

/-- A key has the value that the last of the words for it gives. -/
theorem get?_fieldsOfWords_eq_some_iff {ws : List String} {key : String} {v : Json} :
    Fields.get? key (fieldsOfWords ws) = some v ↔
      ∃ value, GivesLast ws key value ∧ v = .str value := by
  induction ws using List.reverseRecOn with
  | nil => simp [fieldsOfWords, Fields.ofList, Fields.get?, GivesLast]
  | append_singleton ws word ih =>
    rw [get?_fieldsOfWords_concat]
    simp only [givesLast_concat_iff]
    have hword : ∀ other, '=' ∉ key.toList → word = inputWord (key, other) →
        splitOnce? word '=' = some (key, other) := fun other hkey heq =>
      splitOnce?_eq_some_iff_inputWord.mpr ⟨heq, hkey⟩
    have hkeep : (∀ other, splitOnce? word '=' ≠ some (key, other)) →
        (Fields.get? key (fieldsOfWords ws) = some v ↔
          ∃ value, ((word = inputWord (key, value) ∧ '=' ∉ key.toList) ∨
            (∀ other, word ≠ inputWord (key, other)) ∧ GivesLast ws key value) ∧
            v = .str value) := by
      intro hsplit
      rw [ih]
      constructor
      · rintro ⟨value, hgives, rfl⟩
        obtain ⟨-, -, -, hkey, -⟩ := id hgives
        exact ⟨value, Or.inr ⟨fun other heq => hsplit other (hword other hkey heq), hgives⟩, rfl⟩
      · rintro ⟨value, (⟨heq, hkey⟩ | ⟨-, hgives⟩), rfl⟩
        · exact absurd (hword value hkey heq) (hsplit value)
        · exact ⟨value, hgives, rfl⟩
    cases hsplit : splitOnce? word '=' with
    | none => exact hkeep fun other heq => by simp [hsplit] at heq
    | some parts =>
      obtain ⟨k, given⟩ := parts
      show (if key = k then some (Json.str given) else _) = some v ↔ _
      split
      · next hkey =>
        subst hkey
        obtain ⟨rfl, hkey⟩ := splitOnce?_eq_some_iff_inputWord.mp hsplit
        constructor
        · intro h
          exact ⟨given, Or.inl ⟨rfl, hkey⟩, (Option.some.inj h).symm⟩
        · rintro ⟨value, (⟨heq, -⟩ | ⟨hother, -⟩), rfl⟩
          · have hsame := hsplit.symm.trans (hword value hkey heq)
            rw [(Prod.mk.inj (Option.some.inj hsame)).2]
          · exact absurd rfl (hother given)
      · next hkey =>
        exact hkeep fun other heq => by
          rw [hsplit] at heq
          exact hkey (Prod.mk.inj (Option.some.inj heq)).1.symm

/-- Inputs as the fields that they are read as. -/
def inputFields (inputs : List (String × String)) : Fields :=
  .ofList (inputs.map fun input => (input.1, .str input.2))

theorem fieldsOfWords_inputWords (h : ∀ input ∈ inputs, '=' ∉ input.1.toList) :
    fieldsOfWords (inputs.map inputWord) = inputFields inputs := by
  rw [fieldsOfWords, inputFields, List.filterMap_map]
  congr 1
  rw [← List.filterMap_eq_map]
  refine List.filterMap_congr fun input hinput => ?_
  rw [Function.comp_apply, splitOnce?_inputWord (h input hinput)]
  rfl

-- ---------------------------------------------------------------------------
-- Reading any line
-- ---------------------------------------------------------------------------

/-- The scan that has read the workflow and the task. -/
def named (workflow task : String) : WordScan :=
  { words := [workflow], current := task.toList, inWord := true }

theorem foldl_step_names (hworkflow : IsBareName workflow) (htask : IsBareName task) :
    (workflow.toList ++ ' ' :: task.toList).foldl WordScan.step {} = named workflow task := by
  have hplain : ({} : WordScan).mode = .plain := rfl
  have hread : (({} : WordScan).read workflow.toList).mode = .plain := rfl
  have hspace : ((({} : WordScan).read workflow.toList).step ' ') = { words := [workflow] } := by
    rw [WordScan.step_blank hread (by decide)]
    show ({ words := [String.ofList workflow.toList] } : WordScan) = _
    rw [String.ofList_toList]
  rw [List.foldl_append, hworkflow.foldl_step hplain, List.foldl_cons, hspace, htask.foldl_step rfl]
  rfl

theorem isTrimmed_valueChars (value : String) : Text.IsTrimmed ('=' :: valueChars value) := by
  have hequals : isBlank '=' = false := by decide
  rw [valueChars]
  split
  · exact Text.isTrimmed_of_ends hequals rfl _
  · next hblank =>
    refine ⟨by simpa using hequals, fun c hc => ?_⟩
    rcases List.mem_cons.mp (List.mem_of_mem_getLast? hc) with rfl | hmem
    · exact hequals
    · exact hasBlank_eq_false_iff.mp (Bool.not_eq_true _ ▸ hblank) c hmem

/-- A line starts with the workflow, and ends with the task or a value. -/
theorem isTrimmed_taskLine (hworkflow : IsBareName workflow) (htask : IsBareName task)
    (inputs : List (String × String)) :
    Text.IsTrimmed (Conversation.taskLine workflow task inputs).toList := by
  rw [toList_taskLine]
  rcases List.eq_nil_or_concat inputs with rfl | ⟨before, last, rfl⟩
  · have htrimmed := hworkflow.isTrimmed.append htask.isTrimmed hworkflow.1 htask.1 [' ']
    rw [written, List.flatMap_nil, List.append_nil]
    rwa [List.append_assoc, List.singleton_append] at htrimmed
  · have htrimmed := hworkflow.isTrimmed.append (isTrimmed_valueChars last.2) hworkflow.1
      (List.cons_ne_nil _ _) (' ' :: task.toList ++ written before ++ ' ' :: last.1.toList)
    rw [written] at htrimmed
    rw [written, List.concat_eq_append, List.flatMap_append, List.flatMap_singleton,
      toList_inputText]
    simpa using htrimmed

/-- The scan that has read the line. -/
def scanned (workflow task : String) (inputs : List (String × String)) : WordScan :=
  (written inputs).foldl WordScan.step (named workflow task)

theorem words_taskLine (hworkflow : IsBareName workflow) (htask : IsBareName task)
    (inputs : List (String × String)) :
    words (Conversation.taskLine workflow task inputs) =
      (scanned workflow task inputs).finishWord.words := by
  have hwords := words_ofList (Conversation.taskLine workflow task inputs).toList
  rw [String.ofList_toList, (isTrimmed_taskLine hworkflow htask inputs).trim_eq, toList_taskLine,
    List.foldl_append, foldl_step_names hworkflow htask] at hwords
  exact hwords

/-- The workflow and the task are read in any case. -/
theorem exists_words_taskLine (hworkflow : IsBareName workflow) (htask : IsBareName task)
    (inputs : List (String × String)) :
    ∃ rest, words (Conversation.taskLine workflow task inputs) = workflow :: task :: rest := by
  have hnamed : (named workflow task).finishWord = { words := [workflow, task] } := by
    show ({ words := [workflow, String.ofList task.toList] } : WordScan) = _
    rw [String.ofList_toList]
  rw [words_taskLine hworkflow htask, scanned]
  cases inputs with
  | nil => exact ⟨[], congrArg WordScan.words hnamed⟩
  | cons input others =>
    rw [written_cons, toList_inputText, List.cons_append, List.foldl_cons,
      WordScan.step_blank rfl (by decide), hnamed]
    obtain ⟨rest, hrest⟩ := (WordScan.prefix_words_foldl { words := [workflow, task] } _).trans
      (WordScan.prefix_words_finishWord _)
    exact ⟨rest, hrest.symm⟩

-- ---------------------------------------------------------------------------
-- Counting
-- ---------------------------------------------------------------------------

/-- All values, one after another. -/
def values (inputs : List (String × String)) : List Char :=
  inputs.flatMap fun input => input.2.toList

theorem count_eq_zero_of_isBareName (hname : IsBareName name) (hc : isOrdinary c = false) :
    name.toList.count c = 0 :=
  List.count_eq_zero_of_not_mem fun hmem => Bool.false_ne_true (hc.symm.trans (hname.isOrdinary_of_mem hmem))

/-- Of quotes and backslashes, only the quotes around values are added to the values. -/
theorem count_inputText (hname : IsBareName input.1) (hc : isOrdinary c = false)
    (hspace : c ≠ ' ') (hquote : c ≠ '\x27') :
    (Conversation.inputText input).toList.count c = input.2.toList.count c := by
  have hequals : c ≠ '=' := by
    rintro rfl
    exact absurd hc (by decide)
  have hvalue : (valueChars input.2).count c = input.2.toList.count c := by
    rw [valueChars]
    split
    · simp [Ne.symm hquote]
    · rfl
  rw [toList_inputText, List.count_cons_of_ne (Ne.symm hspace), List.count_append,
    List.count_cons_of_ne (Ne.symm hequals), hvalue, count_eq_zero_of_isBareName hname hc,
    Nat.zero_add]

theorem count_written (hnames : ∀ input ∈ inputs, IsBareName input.1)
    (hc : isOrdinary c = false) (hspace : c ≠ ' ') (hquote : c ≠ '\x27') :
    (written inputs).count c = (values inputs).count c := by
  induction inputs with
  | nil => rfl
  | cons input rest ih =>
    obtain ⟨hname, hnames⟩ := List.forall_mem_cons.mp hnames
    rw [values, List.flatMap_cons, written_cons, List.count_append, List.count_append,
      count_inputText hname hc hspace hquote, ih hnames, values]

theorem count_values_le_inputWords (inputs : List (String × String)) (c : Char) :
    (values inputs).count c ≤ ((inputs.map inputWord).flatMap String.toList).count c := by
  induction inputs with
  | nil => exact Nat.le_refl _
  | cons input rest ih =>
    have hword : input.2.toList.count c ≤ (inputWord input).toList.count c := by
      rw [toList_inputWord, List.count_append, List.count_cons]
      omega
    rw [values] at ih
    rw [values, List.flatMap_cons, List.map_cons, List.flatMap_cons, List.count_append,
      List.count_append]
    omega

/-- Distinct words that stand in a list have no more characters than all of it. -/
theorem count_flatMap_le {some all : List String} (hnodup : some.Nodup)
    (h : ∀ word ∈ some, word ∈ all) (c : Char) :
    (some.flatMap String.toList).count c ≤ (all.flatMap String.toList).count c := by
  obtain ⟨part, hperm, hsub⟩ := hnodup.subperm h
  rw [← (hperm.flatMap_right String.toList).count_eq c]
  exact (hsub.flatMap String.toList).count_le c

theorem nodup_inputWords (hinputs : AreTaskInputs inputs) : (inputs.map inputWord).Nodup := by
  refine List.Nodup.of_map (fun word => (splitOnce? word '=').map Prod.fst) ?_
  have hkeys : (inputs.map inputWord).map (fun word => (splitOnce? word '=').map Prod.fst) =
      (inputs.map Prod.fst).map some := by
    rw [List.map_map, List.map_map]
    refine List.map_congr_left fun input hinput => ?_
    rw [Function.comp_apply, splitOnce?_inputWord (hinputs.unsplit input hinput)]
    rfl
  rw [hkeys]
  exact hinputs.distinct.map fun _ _ => Option.some.inj

/-- Words that are read as the inputs hold each of them. -/
theorem inputWord_mem_of_fieldsOfWords (hinputs : AreTaskInputs inputs) {rest : List String}
    (h : fieldsOfWords rest = inputFields inputs) : ∀ input ∈ inputs, inputWord input ∈ rest := by
  intro input hinput
  have hkeys : ((inputs.map fun input => (input.1, Json.str input.2)).map Prod.fst).Nodup := by
    rw [List.map_map]
    exact hinputs.distinct
  have hget : Fields.get? input.1 (fieldsOfWords rest) = some (.str input.2) := by
    rw [h]
    exact Fields.get?_ofList_of_mem hkeys (List.mem_map_of_mem hinput)
  obtain ⟨value, ⟨before, after, rfl, -, -⟩, hvalue⟩ := get?_fieldsOfWords_eq_some_iff.mp hget
  rw [← Json.str.inj hvalue]
  exact List.mem_append_right _ List.mem_cons_self

/-- Words that are read as the inputs hold all values. -/
theorem count_values_le_scanned (hworkflow : IsBareName workflow) (htask : IsBareName task)
    (hinputs : AreTaskInputs inputs) {rest : List String}
    (hwords : words (Conversation.taskLine workflow task inputs) = workflow :: task :: rest)
    (hfields : fieldsOfWords rest = inputFields inputs) (c : Char) :
    (values inputs).count c ≤ (scanned workflow task inputs).chars.count c := by
  have hread := WordScan.count_words_le (scanned workflow task inputs) c
  rw [← words_taskLine hworkflow htask, hwords, List.flatMap_cons, List.flatMap_cons,
    List.count_append, List.count_append] at hread
  have hvalues := count_values_le_inputWords inputs c
  have hinputWords := count_flatMap_le (nodup_inputWords hinputs)
    (List.forall_mem_map.mpr (inputWord_mem_of_fieldsOfWords hinputs hfields)) c
  omega

theorem count_chars_named (hworkflow : IsBareName workflow) (htask : IsBareName task)
    (hc : isOrdinary c = false) : (named workflow task).chars.count c = 0 := by
  show (workflow.toList ++ [] ++ task.toList).count c = 0
  rw [List.append_nil, List.count_append, count_eq_zero_of_isBareName hworkflow hc,
    count_eq_zero_of_isBareName htask hc]

/-- A scan that has all values in the end has lost no double quote and no backslash. -/
theorem retains_written (hworkflow : IsBareName workflow) (htask : IsBareName task)
    (hnames : ∀ input ∈ inputs, IsBareName input.1)
    (hleast : (values inputs).count c ≤ (scanned workflow task inputs).chars.count c)
    (hc : isOrdinary c = false) (hspace : c ≠ ' ') (hquote : c ≠ '\x27') :
    (named workflow task).Retains c (written inputs) := by
  have hline := count_written hnames hc hspace hquote
  have hmost := WordScan.count_chars_foldl_le (named workflow task) c (written inputs)
  have hstart := count_chars_named hworkflow htask hc
  rw [scanned] at hleast
  rw [WordScan.Retains]
  omega

-- ---------------------------------------------------------------------------
-- Inputs that are read back
-- ---------------------------------------------------------------------------

/-- A value without single quotes fits if its text loses no double quote and no backslash. -/
theorem fitsLine_of_retains {scan : WordScan} (hmode : scan.mode = .plain)
    (hname : IsBareName input.1) (hsingle : '\x27' ∉ input.2.toList)
    (hdouble : scan.Retains '\x22' (Conversation.inputText input).toList)
    (hescape : scan.Retains '\\' (Conversation.inputText input).toList) :
    fitsLine input.2 = true := by
  rw [fitsLine]
  split
  · simpa using hsingle
  · next hblank =>
    have hshown : (Conversation.inputText input).toList =
        ' ' :: (input.1.toList ++ '=' :: input.2.toList) := by
      rw [toList_inputText, valueChars, if_neg hblank]
    have hspace : scan.step ' ' = scan.finishWord := WordScan.step_blank hmode (by decide)
    have hplain : scan.finishWord.mode = .plain := (WordScan.mode_finishWord scan).trans hmode
    rw [hshown, WordScan.retains_cons_iff, hspace] at hdouble hescape
    have hkey : ∀ c ∈ input.1.toList, isBlank c = false ∧ c ≠ '\x27' := fun c hc =>
      (isOrdinary_iff.mp (hname.isOrdinary_of_mem hc)).imp_right And.left
    have hvalue := hasBlank_eq_false_iff.mp (Bool.not_eq_true _ ▸ hblank)
    have hquote : '\x27' ∉ input.1.toList ++ '=' :: input.2.toList := by
      simp only [List.mem_append, List.mem_cons, not_or]
      exact ⟨fun hc => (hkey _ hc).2 rfl, by decide, hsingle⟩
    have hordinary := WordScan.forall_isOrdinary_of_retains hplain hdouble.2 hescape.2 hquote
      (List.forall_mem_append.mpr
        ⟨fun c hc => (hkey c hc).1, List.forall_mem_cons.mpr ⟨by decide, hvalue⟩⟩)
    exact List.all_eq_true.mpr
      (List.forall_mem_cons.mp (List.forall_mem_append.mp hordinary).2).2

/-- After a value that fits, the next input is read as the first was. -/
theorem mode_foldl_step_inputText {scan : WordScan} (hmode : scan.mode = .plain)
    (hname : IsBareName input.1) (hfits : fitsLine input.2 = true) :
    ((Conversation.inputText input).toList.foldl WordScan.step scan).mode = .plain := by
  obtain ⟨s, hwritten, -⟩ := exists_spelling hname hfits
  have hplain : scan.finishWord.mode = .plain := (WordScan.mode_finishWord scan).trans hmode
  rw [hwritten, List.foldl_cons, WordScan.step_blank hmode (by decide),
    WordScan.foldl_step_spelling hplain]
  exact hplain

theorem forall_fitsLine_of_retains {scan : WordScan} (hmode : scan.mode = .plain)
    (hnames : ∀ input ∈ inputs, IsBareName input.1)
    (hsingle : ∀ input ∈ inputs, '\x27' ∉ input.2.toList)
    (hdouble : scan.Retains '\x22' (written inputs))
    (hescape : scan.Retains '\\' (written inputs)) :
    ∀ input ∈ inputs, fitsLine input.2 = true := by
  induction inputs generalizing scan with
  | nil => exact List.forall_mem_nil _
  | cons input rest ih =>
    obtain ⟨hname, hnames⟩ := List.forall_mem_cons.mp hnames
    obtain ⟨hquote, hsingle⟩ := List.forall_mem_cons.mp hsingle
    rw [written_cons, WordScan.retains_append_iff] at hdouble hescape
    have hfits := fitsLine_of_retains hmode hname hquote hdouble.1 hescape.1
    exact List.forall_mem_cons.mpr
      ⟨hfits, ih (mode_foldl_step_inputText hmode hname hfits) hnames hsingle hdouble.2 hescape.2⟩

theorem forall_fitsLine_of_fieldsOfWords (hworkflow : IsBareName workflow)
    (htask : IsBareName task) (hinputs : AreTaskInputs inputs) {rest : List String}
    (hwords : words (Conversation.taskLine workflow task inputs) = workflow :: task :: rest)
    (hfields : fieldsOfWords rest = inputFields inputs) :
    ∀ input ∈ inputs, fitsLine input.2 = true := by
  have hkept := count_values_le_scanned hworkflow htask hinputs hwords hfields
  have hdouble := retains_written hworkflow htask hinputs.bare (hkept '\x22') (by decide)
    (by decide) (by decide)
  have hescape := retains_written hworkflow htask hinputs.bare (hkept '\\') (by decide)
    (by decide) (by decide)
  -- all single quotes are lost, so the values have none
  have hsingle : (values inputs).count '\x27' = 0 := by
    have hleast := hkept '\x27'
    rwa [scanned, WordScan.count_apostrophe_foldl (Or.inl rfl) hdouble hescape,
      count_chars_named hworkflow htask (by decide), Nat.le_zero] at hleast
  refine forall_fitsLine_of_retains rfl hinputs.bare (fun input hinput hmem => ?_) hdouble hescape
  exact List.count_eq_zero.mp hsingle (List.mem_flatMap.mpr ⟨input, hinput, hmem⟩)

/-- The line that a conversation writes is read as the workflow and the task it names, and
as its inputs if and only if all values fit. -/
theorem parse_taskLine_iff (c : Conversation) (role : Role) (hworkflow : IsBareName workflow)
    (htask : IsBareName task) (hinputs : AreTaskInputs inputs) :
    ∃ m fields,
      (c.taskDirective role workflow task inputs).messages = c.messages ++ [m] ∧
        m.role = role ∧
        parse m.text = .ok ⟨workflow, task, fields⟩ ∧
        (fields = inputFields inputs ↔ ∀ input ∈ inputs, fitsLine input.2 = true) := by
  obtain ⟨rest, hwords⟩ := exists_words_taskLine hworkflow htask inputs
  refine ⟨.ofText role (Conversation.taskLine workflow task inputs), fieldsOfWords rest, rfl, rfl,
    ?_, ?_, fun hfits => ?_⟩
  · show parse (Conversation.taskLine workflow task inputs) = _
    rw [parse, hwords]
  · exact forall_fitsLine_of_fieldsOfWords hworkflow htask hinputs hwords
  · have hall := words_taskLine_of_fits hworkflow htask hinputs.bare hfits
    obtain rfl : rest = inputs.map inputWord := by simpa [hwords] using hall
    exact fieldsOfWords_inputWords hinputs.unsplit

/-- A value with blanks, double quotes and a backslash, an empty one, and an equation. -/
theorem parse_taskLine_iff_translate :
    let inputs := [("text", "say \x22hi\x22 \\"), ("lang", ""), ("style", "a=b"), ("note", " ")]
    AreTaskInputs inputs ∧
      ∃ m, (({} : Conversation).taskDirective .inlineTask "Translate" "translate" inputs).messages =
          [m] ∧
        parse m.text = .ok ⟨"Translate", "translate", inputFields inputs⟩ := by
  intro inputs
  have hinputs : AreTaskInputs inputs := ⟨by decide +kernel, by decide +kernel, by decide⟩
  obtain ⟨m, fields, hmessages, -, hparse, hfields⟩ :=
    parse_taskLine_iff {} .inlineTask (show IsBareName "Translate" by decide +kernel)
      (show IsBareName "translate" by decide +kernel) hinputs
  rw [hfields.mpr (by decide +kernel)] at hparse
  exact ⟨hinputs, m, hmessages, hparse⟩

/-- A single quote in a value ends the quotes around it: the rest of the value is lost. -/
theorem parse_taskLine_apostrophe :
    AreTaskInputs [("text", "it\x27s me")] ∧
      Conversation.taskLine "Translate" "translate" [("text", "it\x27s me")] =
        "Translate translate text=\x27it\x27s me\x27" ∧
      parse "Translate translate text=\x27it\x27s me\x27" =
        .ok ⟨"Translate", "translate", inputFields [("text", "its")]⟩ ∧
      inputFields [("text", "its")] ≠ inputFields [("text", "it\x27s me")] := by
  refine ⟨⟨by decide +kernel, by decide +kernel, by decide⟩, by decide +kernel, ?_, ?_⟩
  · decide +kernel
  · decide

end TaskLine

end Colloquy
