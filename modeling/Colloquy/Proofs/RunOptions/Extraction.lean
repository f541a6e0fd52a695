import Colloquy.Proofs.Act
import Colloquy.Proofs.RunOptions.Lookup
import Colloquy.RunOptions.Extraction
import Mathlib.Data.List.Forall2

/-!
# Colloquy — laws of option extraction

To the extraction a message is one of three things (`Reading`): a message that is kept,
an option, or a marker of a handle. What it is depends on the message alone, so a list
of messages is extracted by reading each and taking the readings in, in order
(`Extraction.foldlM_step_eq_ok_iff`), and extraction fails only for a message that
cannot be read.

* `withoutOptions`, `Extraction.kept_foldlM_step` — the messages that are kept.
* `extractMessages_marker` — the last marker determines the handle and the place from
  which a conversation goes on.
-/

namespace Colloquy

/-- What a message is to the extraction. -/
inductive Reading where
  | keep (m : Message)
  /-- An option, which is sticky or transient. -/
  | set (isSticky : Bool) (key : String) (value : Json)
  /-- A marker of a handle, from which the conversation goes on. -/
  | marker (handle : String)

namespace Reading

/-- What a message is, if the option that it sets can be read. -/
def ofMessage (search : FileSearch) (files : FileTree) (origin? : Option String) (m : Message) :
    Except Error Reading :=
  match m.role with
  | .previousResponseId => .ok (.marker m.trimmedText)
  | .endpoint | .model | .backend | .agent => .ok (.set true m.role.tag (.str m.trimmedText))
  | .persist => .ok (.set false "persist" (optionValue m.trimmedText))
  | .option => (splitOption m).map fun o => .set false o.1 o.2
  | .stickyOption => (splitOption m).map fun o => .set true o.1 o.2
  | .format => (loadFormat search files origin? m).map fun format => .set false "format" format
  | _ => .ok (.keep m)

def kept? : Reading → Option Message
  | .keep m => some m
  | _ => none

end Reading

/-- A message is kept, or is a marker, or sets the option that its role or its text names. -/
theorem Reading.ofMessage_cases {search : FileSearch} {files : FileTree} {origin? : Option String}
    {m : Message} {reading : Reading} (h : ofMessage search files origin? m = .ok reading) :
    (m.role.isOption = false ∧ reading = .keep m) ∨
      (m.role = .previousResponseId ∧ reading = .marker m.trimmedText) ∨
      (m.role.isOption = true ∧ m.role ≠ .previousResponseId ∧
        ∃ isSticky key value, reading = .set isSticky key value ∧
          (key = m.role.tag ∨
            (m.role = .option ∨ m.role = .stickyOption) ∧ splitOption m = .ok (key, value))) := by
  obtain ⟨role, content⟩ := m
  unfold ofMessage at h
  cases role with
  | previousResponseId =>
    obtain rfl := Except.ok.inj h
    exact Or.inr (Or.inl ⟨rfl, rfl⟩)
  | endpoint | model | backend | agent | persist =>
    obtain rfl := Except.ok.inj h
    exact Or.inr (Or.inr ⟨rfl, nofun, _, _, _, rfl, Or.inl rfl⟩)
  | option =>
    obtain ⟨⟨key, value⟩, hsplit, rfl⟩ := exists_of_map_eq_ok h
    exact Or.inr (Or.inr ⟨rfl, nofun, _, _, _, rfl, Or.inr ⟨Or.inl rfl, hsplit⟩⟩)
  | stickyOption =>
    obtain ⟨⟨key, value⟩, hsplit, rfl⟩ := exists_of_map_eq_ok h
    exact Or.inr (Or.inr ⟨rfl, nofun, _, _, _, rfl, Or.inr ⟨Or.inr rfl, hsplit⟩⟩)
  | format =>
    obtain ⟨format, -, rfl⟩ := exists_of_map_eq_ok h
    exact Or.inr (Or.inr ⟨rfl, nofun, _, _, _, rfl, Or.inl rfl⟩)
  | _ =>
    obtain rfl := Except.ok.inj h
    exact Or.inl ⟨rfl, rfl⟩

theorem Reading.ofMessage_marker {search : FileSearch} {files : FileTree}
    {origin? : Option String} {m : Message} (h : m.role = .previousResponseId) :
    ofMessage search files origin? m = .ok (.marker m.trimmedText) := by
  unfold ofMessage
  rw [h]

/-- The messages that set no option. -/
def withoutOptions (messages : List Message) : List Message :=
  messages.filter fun m => !m.role.isOption

namespace Extraction

variable {search : FileSearch} {files : FileTree} {origin? : Option String}

/-- Take in what was read. -/
def take (x : Extraction) : Reading → Extraction
  | .keep m =>
    { x with kept := x.kept ++ [m], transient := if m.role = .assistant then [] else x.transient }
  | .set true key value => { x with sticky := x.sticky.insert key value }
  | .set false key value => { x with transient := x.transient.insert key value }
  | .marker handle =>
    { x with
      sticky := x.sticky.insert "previous_response_id" (.str handle)
      resumeAfter := some x.kept.length }

-- ---------------------------------------------------------------------------
-- Steps
-- ---------------------------------------------------------------------------

theorem step_eq (x : Extraction) (m : Message) :
    step search files origin? x m = (Reading.ofMessage search files origin? m).map x.take := by
  obtain ⟨role, content⟩ := m
  unfold step Reading.ofMessage
  cases role with
  | option => cases splitOption ⟨.option, content⟩ <;> rfl
  | stickyOption => cases splitOption ⟨.stickyOption, content⟩ <;> rfl
  | format => cases loadFormat search files origin? ⟨.format, content⟩ <;> rfl
  | _ => rfl

/-- Each message is read so. -/
def ReadsAs (search : FileSearch) (files : FileTree) (origin? : Option String) :
    List Message → List Reading → Prop :=
  List.Forall₂ fun m reading => Reading.ofMessage search files origin? m = .ok reading

/-- Messages are extracted if each can be read, by taking in the readings in order. -/
theorem foldlM_step_eq_ok_iff {messages : List Message} {x y : Extraction} :
    messages.foldlM (step search files origin?) x = .ok y ↔
      ∃ readings, ReadsAs search files origin? messages readings ∧ readings.foldl take x = y := by
  induction messages generalizing x with
  | nil =>
    constructor
    · intro h
      exact ⟨[], .nil, Except.ok.inj h⟩
    · rintro ⟨readings, hreads, rfl⟩
      cases hreads
      rfl
  | cons m messages ih =>
    rw [List.foldlM_cons, step_eq]
    cases hread : Reading.ofMessage search files origin? m with
    | error e =>
      constructor
      · intro h
        exact absurd h nofun
      · rintro ⟨readings, hreads, -⟩
        cases hreads with
        | cons hread' _ => exact absurd (hread.symm.trans hread') nofun
    | ok reading =>
      refine ih.trans ?_
      constructor
      · rintro ⟨readings, hreads, hy⟩
        exact ⟨reading :: readings, .cons hread hreads, hy⟩
      · rintro ⟨readings, hreads, hy⟩
        cases hreads with
        | cons hread' hreads =>
          obtain rfl := Except.ok.inj (hread.symm.trans hread')
          exact ⟨_, hreads, hy⟩

/-- Messages are not extracted if one cannot be read after all before it were. -/
theorem foldlM_step_eq_error_iff {messages : List Message} {x : Extraction} {e : Error} :
    messages.foldlM (step search files origin?) x = .error e ↔
      ∃ before m after readings, messages = before ++ m :: after ∧
        ReadsAs search files origin? before readings ∧
        Reading.ofMessage search files origin? m = .error e := by
  induction messages generalizing x with
  | nil =>
    constructor
    · intro h
      exact absurd h nofun
    · rintro ⟨before, m, after, _, hmessages, -⟩
      exact absurd hmessages.symm (by simp)
  | cons m messages ih =>
    rw [List.foldlM_cons, step_eq]
    cases hread : Reading.ofMessage search files origin? m with
    | error e' =>
      constructor
      · intro h
        obtain rfl : e' = e := Except.error.inj h
        exact ⟨[], m, messages, [], rfl, .nil, hread⟩
      · rintro ⟨before, m', after, readings, hmessages, hreads, hread'⟩
        cases before with
        | nil =>
          obtain ⟨rfl, -⟩ := List.cons.inj hmessages
          exact congrArg Except.error (Except.error.inj (hread.symm.trans hread'))
        | cons first before =>
          obtain ⟨rfl, -⟩ := List.cons.inj hmessages
          cases hreads with
          | cons hfirst _ => exact absurd (hread.symm.trans hfirst) nofun
    | ok reading =>
      refine ih.trans ?_
      constructor
      · rintro ⟨before, m', after, readings, rfl, hreads, hread'⟩
        exact ⟨m :: before, m', after, reading :: readings, rfl, .cons hread hreads, hread'⟩
      · rintro ⟨before, m', after, readings, hmessages, hreads, hread'⟩
        cases before with
        | nil =>
          obtain ⟨rfl, -⟩ := List.cons.inj hmessages
          exact absurd (hread.symm.trans hread') nofun
        | cons first before =>
          obtain ⟨rfl, hrest⟩ := List.cons.inj hmessages
          cases hreads with
          | cons _ hreads => exact ⟨before, m', after, _, hrest, hreads, hread'⟩

theorem exists_of_foldlM_step_append {messages others : List Message} {x z : Extraction}
    (h : (messages ++ others).foldlM (step search files origin?) x = .ok z) :
    ∃ y, messages.foldlM (step search files origin?) x = .ok y ∧
      others.foldlM (step search files origin?) y = .ok z := by
  rw [List.foldlM_append] at h
  cases hfold : messages.foldlM (step search files origin?) x with
  | error e =>
    rw [hfold] at h
    exact absurd h nofun
  | ok y =>
    rw [hfold] at h
    exact ⟨y, rfl, h⟩

theorem ReadsAs.exists_message {messages : List Message} {readings : List Reading}
    (h : ReadsAs search files origin? messages readings) {reading : Reading}
    (hmem : reading ∈ readings) :
    ∃ m ∈ messages, Reading.ofMessage search files origin? m = .ok reading := by
  induction h with
  | nil => exact absurd hmem (List.not_mem_nil)
  | cons hread _ ih =>
    rcases List.mem_cons.mp hmem with rfl | hmem
    · exact ⟨_, List.mem_cons_self, hread⟩
    · obtain ⟨m, hm, hread'⟩ := ih hmem
      exact ⟨m, List.mem_cons_of_mem _ hm, hread'⟩

-- ---------------------------------------------------------------------------
-- Messages that are kept
-- ---------------------------------------------------------------------------

theorem kept?_of_ofMessage {m : Message} {reading : Reading}
    (h : Reading.ofMessage search files origin? m = .ok reading) :
    reading.kept? = if m.role.isOption then none else some m := by
  rcases Reading.ofMessage_cases h with ⟨hrole, rfl⟩ | ⟨hrole, rfl⟩ | ⟨hrole, -, _, _, _, rfl, -⟩
  · rw [hrole]
    rfl
  · rw [hrole]
    rfl
  · rw [hrole]
    rfl

theorem ReadsAs.filterMap_kept? {messages : List Message} {readings : List Reading}
    (h : ReadsAs search files origin? messages readings) :
    readings.filterMap Reading.kept? = withoutOptions messages := by
  induction h with
  | nil => rfl
  | @cons m reading _ _ hread _ ih =>
    rw [List.filterMap_cons, kept?_of_ofMessage hread, withoutOptions, List.filter_cons]
    cases m.role.isOption with
    | true => simpa [withoutOptions] using ih
    | false => simpa [withoutOptions] using ih

theorem kept_foldl_take (readings : List Reading) (x : Extraction) :
    (readings.foldl take x).kept = x.kept ++ readings.filterMap Reading.kept? := by
  induction readings generalizing x with
  | nil => exact (List.append_nil x.kept).symm
  | cons reading readings ih =>
    rw [List.foldl_cons, ih, List.filterMap_cons]
    cases reading with
    | keep m => simp [take, Reading.kept?]
    | set isSticky key value => cases isSticky <;> rfl
    | marker handle => rfl

theorem kept_foldlM_step {messages : List Message} {x y : Extraction}
    (h : messages.foldlM (step search files origin?) x = .ok y) :
    y.kept = x.kept ++ withoutOptions messages := by
  obtain ⟨readings, hreads, rfl⟩ := foldlM_step_eq_ok_iff.mp h
  rw [kept_foldl_take, hreads.filterMap_kept?]

-- ---------------------------------------------------------------------------
-- The handle and its place
-- ---------------------------------------------------------------------------

/-- Transient options are only those that were set or were there. -/
theorem contains_transient_foldl_take {key : String} {readings : List Reading} {x : Extraction}
    (hset : ∀ value, .set false key value ∉ readings)
    (hx : Fields.contains key x.transient = false) :
    Fields.contains key (readings.foldl take x).transient = false := by
  induction readings generalizing x with
  | nil => exact hx
  | cons reading readings ih =>
    apply ih (fun value hmem => hset value (List.mem_cons_of_mem _ hmem))
    cases reading with
    | keep m =>
      dsimp only [take]
      split
      · rfl
      · exact hx
    | marker handle => exact hx
    | set isSticky written value =>
      cases isSticky with
      | true => exact hx
      | false =>
        have hne : key ≠ written := by
          rintro rfl
          exact hset value List.mem_cons_self
        show Fields.contains key (Fields.insert written value x.transient) = false
        rw [Fields.contains, Fields.get?_insert, if_neg hne]
        exact hx

/-- The place of a marker stays until another marker. -/
theorem resumeAfter_foldl_take {readings : List Reading} (x : Extraction)
    (hmarker : ∀ handle, .marker handle ∉ readings) :
    (readings.foldl take x).resumeAfter = x.resumeAfter := by
  induction readings generalizing x with
  | nil => rfl
  | cons reading readings ih =>
    rw [List.foldl_cons, ih (x.take reading) fun handle hmem =>
      hmarker handle (List.mem_cons_of_mem _ hmem)]
    cases reading with
    | keep m => rfl
    | marker handle => exact absurd List.mem_cons_self (hmarker handle)
    | set isSticky written value => cases isSticky <;> rfl

/-- A handle stays until another marker or a sticky option of its name. -/
theorem handle_foldl_take {readings : List Reading} (x : Extraction)
    (hset : ∀ value, .set true "previous_response_id" value ∉ readings)
    (hmarker : ∀ handle, .marker handle ∉ readings) :
    (readings.foldl take x).sticky.get? "previous_response_id" =
      x.sticky.get? "previous_response_id" := by
  induction readings generalizing x with
  | nil => rfl
  | cons reading readings ih =>
    have hrest := ih (x.take reading) (fun value hmem => hset value (List.mem_cons_of_mem _ hmem))
      (fun handle hmem => hmarker handle (List.mem_cons_of_mem _ hmem))
    rw [List.foldl_cons, hrest]
    cases reading with
    | keep m => rfl
    | marker handle => exact absurd List.mem_cons_self (hmarker handle)
    | set isSticky written value =>
      cases isSticky with
      | false => rfl
      | true =>
        have hne : "previous_response_id" ≠ written := by
          rintro rfl
          exact hset value List.mem_cons_self
        show Fields.get? _ (Fields.insert written value x.sticky) = _
        rw [Fields.get?_insert, if_neg hne]

end Extraction

-- ---------------------------------------------------------------------------
-- The last marker
-- ---------------------------------------------------------------------------

theorem Role.tag_ne_of_isOption {role : Role} (h : role.isOption = true)
    (hne : role ≠ .previousResponseId) : role.tag ≠ "previous_response_id" := by
  cases role with
  | previousResponseId => exact absurd rfl hne
  | option | stickyOption | format | endpoint | model | backend | agent | persist => decide
  | _ => exact absurd h Bool.false_ne_true

/-- The message is no marker, but sets the handle as an option. -/
def Message.SetsHandle (m : Message) : Prop :=
  (m.role = .option ∨ m.role = .stickyOption) ∧
    ∃ value, splitOption m = .ok ("previous_response_id", value)

section

variable {search : FileSearch} {files : FileTree} {origin? : Option String}

theorem Extraction.ReadsAs.not_set_handle {messages : List Message} {readings : List Reading}
    (h : ReadsAs search files origin? messages readings) (hsets : ∀ m ∈ messages, ¬ m.SetsHandle)
    (isSticky : Bool) (value : Json) : .set isSticky "previous_response_id" value ∉ readings := by
  intro hmem
  obtain ⟨m, hm, hread⟩ := h.exists_message hmem
  rcases Reading.ofMessage_cases hread with
    ⟨-, hkeep⟩ | ⟨-, hmarker⟩ | ⟨hrole, hne, _, _, _, hset, hkey⟩
  · exact absurd hkeep nofun
  · exact absurd hmarker nofun
  · cases hset
    rcases hkey with htag | ⟨hoption, hsplit⟩
    · exact Role.tag_ne_of_isOption hrole hne htag.symm
    · exact hsets m hm ⟨hoption, value, hsplit⟩

theorem Extraction.ReadsAs.not_marker {messages : List Message} {readings : List Reading}
    (h : ReadsAs search files origin? messages readings)
    (hroles : ∀ m ∈ messages, m.role ≠ .previousResponseId) (handle : String) :
    .marker handle ∉ readings := by
  intro hmem
  obtain ⟨m, hm, hread⟩ := h.exists_message hmem
  rcases Reading.ofMessage_cases hread with ⟨-, hkeep⟩ | ⟨hrole, -⟩ | ⟨-, -, _, _, _, hset, -⟩
  · exact absurd hkeep nofun
  · exact hroles m hm hrole
  · exact absurd hset nofun

theorem extractMessages_eq_ok_iff {messages kept : List Message} {options : RunOptions} :
    extractMessages search files messages origin? = .ok (kept, options) ↔
      ∃ x, messages.foldlM (Extraction.step search files origin?) {} = .ok x ∧
        x.kept = kept ∧ x.options = options := by
  unfold extractMessages
  cases messages.foldlM (Extraction.step search files origin?) {} with
  | error e => exact ⟨nofun, nofun⟩
  | ok x =>
    constructor
    · intro h
      obtain ⟨hkept, hoptions⟩ := Prod.mk.inj (Except.ok.inj h)
      exact ⟨x, rfl, hkept, hoptions⟩
    · rintro ⟨y, hy, rfl, rfl⟩
      obtain rfl := Except.ok.inj hy
      rfl

theorem extractMessages_eq_error_iff {messages : List Message} {e : Error} :
    extractMessages search files messages origin? = .error e ↔
      messages.foldlM (Extraction.step search files origin?) {} = .error e := by
  unfold extractMessages
  cases messages.foldlM (Extraction.step search files origin?) {} with
  | error e' =>
    constructor
    · intro h
      exact congrArg Except.error (Except.error.inj h)
    · intro h
      exact congrArg Except.error (Except.error.inj h)
  | ok x => exact ⟨nofun, nofun⟩

theorem exists_of_extractMessages_eq_error {messages : List Message} {e : Error}
    (h : extractMessages search files messages origin? = .error e) :
    ∃ m ∈ messages, Reading.ofMessage search files origin? m = .error e := by
  obtain ⟨before, m, after, _, rfl, -, hread⟩ :=
    Extraction.foldlM_step_eq_error_iff.mp (extractMessages_eq_error_iff.mp h)
  exact ⟨m, List.mem_append_right before List.mem_cons_self, hread⟩

/-- The place from which a conversation goes on is where the last marker stood among the messages
that are kept. -/
theorem extractMessages_resumeAfter {before after kept : List Message} {marker : Message}
    {options : RunOptions} (hmarker : marker.role = .previousResponseId)
    (hlast : ∀ m ∈ after, m.role ≠ .previousResponseId)
    (h : extractMessages search files (before ++ marker :: after) origin? = .ok (kept, options)) :
    options.resumeAfter = some (withoutOptions before).length := by
  obtain ⟨z, hz, rfl, rfl⟩ := extractMessages_eq_ok_iff.mp h
  obtain ⟨x, hx, hrest⟩ := Extraction.exists_of_foldlM_step_append hz
  obtain ⟨readings, hreads, rfl⟩ := Extraction.foldlM_step_eq_ok_iff.mp hrest
  cases hreads with
  | @cons _ reading _ readings hread hreads =>
    obtain rfl : .marker marker.trimmedText = reading :=
      Except.ok.inj ((Reading.ofMessage_marker hmarker).symm.trans hread)
    have hplace := Extraction.resumeAfter_foldl_take (x.take (.marker marker.trimmedText))
      (Extraction.ReadsAs.not_marker hreads hlast)
    refine hplace.trans ?_
    show some x.kept.length = _
    rw [Extraction.kept_foldlM_step hx]
    rfl

/-- If no option sets the handle, it is that of the last marker, and the conversation goes on from
the place where the marker stood. -/
theorem extractMessages_marker {before after kept : List Message} {marker : Message}
    {options : RunOptions} (hmarker : marker.role = .previousResponseId)
    (hlast : ∀ m ∈ after, m.role ≠ .previousResponseId)
    (hsets : ∀ m ∈ before ++ marker :: after, ¬ m.SetsHandle)
    (h : extractMessages search files (before ++ marker :: after) origin? = .ok (kept, options)) :
    kept = withoutOptions before ++ withoutOptions after ∧
      options.get? "previous_response_id" = some (.str marker.trimmedText) ∧
      options.resumeAfter = some (withoutOptions before).length := by
  have hplace := extractMessages_resumeAfter hmarker hlast h
  obtain ⟨z, hz, rfl, rfl⟩ := extractMessages_eq_ok_iff.mp h
  obtain ⟨x, hx, hrest⟩ := Extraction.exists_of_foldlM_step_append hz
  obtain ⟨readings, hreads, rfl⟩ := Extraction.foldlM_step_eq_ok_iff.mp hrest
  cases hreads with
  | @cons _ reading _ readings hread hreads =>
    have hnone : Fields.contains "previous_response_id" x.transient = false := by
      obtain ⟨earlier, hearlier, rfl⟩ := Extraction.foldlM_step_eq_ok_iff.mp hx
      have hunset := hearlier.not_set_handle fun m hm => hsets m (List.mem_append_left _ hm)
      exact Extraction.contains_transient_foldl_take (hunset false) rfl
    obtain rfl : .marker marker.trimmedText = reading :=
      Except.ok.inj ((Reading.ofMessage_marker hmarker).symm.trans hread)
    have hunset := Extraction.ReadsAs.not_set_handle hreads fun m hm =>
      hsets m (List.mem_append_right _ (List.mem_cons_of_mem marker hm))
    refine ⟨?_, ?_, hplace⟩
    · rw [Extraction.kept_foldlM_step hz]
      simp [withoutOptions, hmarker, Role.isOption]
    · have htransient := Extraction.contains_transient_foldl_take
        (x := x.take (.marker marker.trimmedText)) (hunset false) hnone
      have hhandle := Extraction.handle_foldl_take (x.take (.marker marker.trimmedText))
        (hunset true) (Extraction.ReadsAs.not_marker hreads hlast)
      refine (Fields.get?_insertAll_of_not_contains htransient _).trans ?_
      refine hhandle.trans ?_
      exact (Fields.get?_insert _ _ _ _).trans (if_pos rfl)

end

end Colloquy
