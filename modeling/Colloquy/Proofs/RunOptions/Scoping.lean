import Colloquy.Proofs.Directive.Filter
import Colloquy.Proofs.RunOptions.Partition

/-!
# Colloquy — which setting of an option counts

A message sets an option for the rest of the conversation (`stickySetting?`) or until the
next message of the assistant (`transientSetting?`). Of all settings of an option the last
transient one that was not forgotten counts, then the last sticky one, and then the default
of the caller. Transient settings that are forgotten could as well not be there
(`extractMessages_scopes`).

* `withoutForgotten` — a conversation without the settings that are forgotten.
-/

namespace Colloquy

/-- Roles of options that are forgotten at the next message of the assistant. -/
def Role.isTransientOption : Role → Bool
  | .option | .persist | .format => true
  | _ => false

/-- The option that a message sets for the rest of the conversation. -/
def stickySetting? (m : Message) : Option (String × Json) :=
  match m.role with
  | .endpoint | .model | .backend | .agent | .previousResponseId =>
    some (m.role.tag, .str m.trimmedText)
  | .stickyOption => (splitOption m).toOption
  | _ => none

/-- The option that a message sets until the next message of the assistant. -/
def transientSetting? (search : FileSearch) (files : FileTree) (origin? : Option String)
    (m : Message) : Option (String × Json) :=
  match m.role with
  | .option => (splitOption m).toOption
  | .persist => some ("persist", optionValue m.trimmedText)
  | .format => (loadFormat search files origin? m).toOption.map fun format => ("format", format)
  | _ => none

/-- The value that the last setting of a key gives to it. -/
def lastSetting? (key : String) (settings : List (String × Json)) : Option Json :=
  Fields.get? key settings.reverse

/-- The messages without those that set a transient option before a message of the assistant. -/
def withoutForgotten : List Message → List Message
  | [] => []
  | m :: rest =>
    if m.role.isTransientOption && rest.any fun later => later.role == .assistant then
      withoutForgotten rest
    else m :: withoutForgotten rest

namespace Extraction

variable {search : FileSearch} {files : FileTree} {origin? : Option String}

-- ---------------------------------------------------------------------------
-- What is set
-- ---------------------------------------------------------------------------

/-- A message puts its settings over those before it, and the assistant forgets the transient
ones. -/
theorem step_settings {x y : Extraction} {m : Message}
    (h : step search files origin? x m = .ok y) :
    y.sticky = x.sticky.insertAll (stickySetting? m).toList ∧
      y.transient =
        if m.role = .assistant then []
        else x.transient.insertAll (transientSetting? search files origin? m).toList := by
  obtain ⟨role, content⟩ := m
  rw [step_eq] at h
  obtain ⟨reading, hread, rfl⟩ := exists_of_map_eq_ok h
  unfold Reading.ofMessage at hread
  cases role with
  | option | stickyOption =>
    obtain ⟨o, hsplit, rfl⟩ := exists_of_map_eq_ok hread
    simp [take, stickySetting?, transientSetting?, hsplit, Except.toOption, Fields.insertAll]
  | format =>
    obtain ⟨v, hload, rfl⟩ := exists_of_map_eq_ok hread
    simp [take, stickySetting?, transientSetting?, hload, Except.toOption, Fields.insertAll]
  | _ =>
    obtain rfl := Except.ok.inj hread
    simp [take, stickySetting?, transientSetting?, Fields.insertAll, Role.tag]

theorem exists_of_foldlM_step_cons {x y : Extraction} {m : Message} {rest : List Message}
    (h : (m :: rest).foldlM (step search files origin?) x = .ok y) :
    ∃ x', step search files origin? x m = .ok x' ∧
      rest.foldlM (step search files origin?) x' = .ok y := by
  rw [List.foldlM_cons] at h
  exact exists_of_bind_eq_ok h

theorem sticky_foldlM_step {messages : List Message} {x y : Extraction}
    (h : messages.foldlM (step search files origin?) x = .ok y) :
    y.sticky = x.sticky.insertAll (messages.filterMap stickySetting?) := by
  induction messages generalizing x with
  | nil =>
    obtain rfl := Except.ok.inj h
    rfl
  | cons m rest ih =>
    obtain ⟨x', hstep, hrest⟩ := exists_of_foldlM_step_cons h
    rw [ih hrest, (step_settings hstep).1, List.filterMap_cons]
    cases stickySetting? m <;> rfl

/-- After the last message of the assistant transient options are put over nothing. -/
theorem transient_foldlM_step {messages : List Message} {x y : Extraction}
    (h : messages.foldlM (step search files origin?) x = .ok y) :
    y.transient =
      match afterLast? .assistant messages with
      | some after => .ofList (after.filterMap (transientSetting? search files origin?))
      | none =>
        x.transient.insertAll (messages.filterMap (transientSetting? search files origin?)) := by
  induction messages generalizing x with
  | nil =>
    obtain rfl := Except.ok.inj h
    rfl
  | cons m rest ih =>
    obtain ⟨x', hstep, hrest⟩ := exists_of_foldlM_step_cons h
    rw [ih hrest, afterLast?]
    cases afterLast? .assistant rest with
    | some after => rfl
    | none =>
      show x'.transient.insertAll _ = _
      rw [(step_settings hstep).2]
      by_cases hrole : m.role = .assistant
      · rw [if_pos hrole, if_pos hrole]
        rfl
      · rw [if_neg hrole, if_neg hrole]
        show _ = x.transient.insertAll _
        rw [List.filterMap_cons]
        cases transientSetting? search files origin? m <;> rfl

theorem get?_ofList_eq_lastSetting? (key : String) (settings : List (String × Json)) :
    Fields.get? key (.ofList settings) = lastSetting? key settings :=
  Fields.get?_ofList key settings

theorem get?_options {messages : List Message} {x : Extraction}
    (h : messages.foldlM (step search files origin?) {} = .ok x) (key : String) :
    x.options.get? key =
      (lastSetting? key ((clear .assistant messages).filterMap
          (transientSetting? search files origin?))).or
        (lastSetting? key (messages.filterMap stickySetting?)) := by
  have hsticky : x.sticky = .ofList (messages.filterMap stickySetting?) := sticky_foldlM_step h
  have htransient : x.transient = .ofList ((clear .assistant messages).filterMap
      (transientSetting? search files origin?)) := by
    rw [transient_foldlM_step h, clear]
    cases afterLast? .assistant messages <;> rfl
  show Fields.get? key (x.sticky.insertAll x.transient) = _
  rw [hsticky, htransient, Fields.get?_insertAll_of_ascending (Fields.ascending_ofList _),
    get?_ofList_eq_lastSetting?, get?_ofList_eq_lastSetting?]

-- ---------------------------------------------------------------------------
-- What is forgotten
-- ---------------------------------------------------------------------------

/-- What is set for now changes nothing else of what is gathered. -/
theorem exists_take_forget (x : Extraction) (transient : Fields) (reading : Reading) :
    ∃ transient', ({ x with transient } : Extraction).take reading =
      { x.take reading with transient := transient' } := by
  cases reading with
  | keep m => exact ⟨_, rfl⟩
  | marker handle => exact ⟨_, rfl⟩
  | set isSticky key value => cases isSticky <;> exact ⟨_, rfl⟩

/-- Before a message of the assistant it makes no difference what is set for now. -/
theorem foldlM_step_forget {messages : List Message}
    (h : ∃ m ∈ messages, m.role = .assistant) (x : Extraction) (transient : Fields) :
    messages.foldlM (step search files origin?) { x with transient } =
      messages.foldlM (step search files origin?) x := by
  induction messages generalizing x transient with
  | nil =>
    obtain ⟨m, hm, -⟩ := h
    exact absurd hm List.not_mem_nil
  | cons m rest ih =>
    rw [List.foldlM_cons, List.foldlM_cons]
    by_cases hrole : m.role = .assistant
    · have hkept : m.role.isOption = false := by rw [hrole]; rfl
      rw [step_of_not_isOption hkept, step_of_not_isOption hkept, if_pos hrole, if_pos hrole]
    · have hrest : ∃ m ∈ rest, m.role = .assistant := by
        obtain ⟨later, hlater, hassistant⟩ := h
        rcases List.mem_cons.mp hlater with rfl | hlater
        · exact absurd hassistant hrole
        · exact ⟨later, hlater, hassistant⟩
      rw [step_eq, step_eq]
      cases Reading.ofMessage search files origin? m with
      | error e => rfl
      | ok reading =>
        obtain ⟨transient', htake⟩ := exists_take_forget x transient reading
        show rest.foldlM (step search files origin?) (take { x with transient } reading) =
          rest.foldlM (step search files origin?) (x.take reading)
        rw [htake]
        exact ih hrest _ _

theorem exists_transient_of_step {x y : Extraction} {m : Message}
    (hrole : m.role.isTransientOption = true) (h : step search files origin? x m = .ok y) :
    ∃ transient, y = { x with transient } := by
  obtain ⟨role, content⟩ := m
  rw [step_eq] at h
  obtain ⟨reading, hread, rfl⟩ := exists_of_map_eq_ok h
  unfold Reading.ofMessage at hread
  cases role with
  | option | format =>
    obtain ⟨o, -, rfl⟩ := exists_of_map_eq_ok hread
    exact ⟨_, rfl⟩
  | persist =>
    obtain rfl := Except.ok.inj hread
    exact ⟨_, rfl⟩
  | _ => exact absurd hrole Bool.false_ne_true

/-- What is gathered is the same without the settings that are forgotten. -/
theorem foldlM_step_withoutForgotten {messages : List Message} {x y : Extraction}
    (h : messages.foldlM (step search files origin?) x = .ok y) :
    (withoutForgotten messages).foldlM (step search files origin?) x = .ok y := by
  induction messages generalizing x with
  | nil => exact h
  | cons m rest ih =>
    obtain ⟨x', hstep, hrest⟩ := exists_of_foldlM_step_cons h
    rw [withoutForgotten]
    split
    · next hforgotten =>
      obtain ⟨hrole, hany⟩ := Bool.and_eq_true_iff.mp hforgotten
      obtain ⟨transient, rfl⟩ := exists_transient_of_step hrole hstep
      have hassistant : ∃ m ∈ rest, m.role = .assistant := by simpa using hany
      rw [foldlM_step_forget hassistant] at hrest
      exact ih hrest
    · rw [List.foldlM_cons, hstep]
      exact ih hrest

end Extraction

variable {search : FileSearch} {files : FileTree} {origin? : Option String}

theorem extractMessages_withoutForgotten {messages kept : List Message} {options : RunOptions}
    (h : extractMessages search files messages origin? = .ok (kept, options)) :
    extractMessages search files (withoutForgotten messages) origin? = .ok (kept, options) := by
  obtain ⟨x, hx, hkept, hoptions⟩ := extractMessages_eq_ok_iff.mp h
  exact extractMessages_eq_ok_iff.mpr
    ⟨x, Extraction.foldlM_step_withoutForgotten hx, hkept, hoptions⟩

/-- Over the defaults of the caller the last sticky setting of an option counts, and over that the
last transient one after the last message of the assistant. So all options are the same in
conversations that differ in forgotten settings alone. -/
theorem extractMessages_scopes {messages kept : List Message} {options : RunOptions}
    (h : extractMessages search files messages origin? = .ok (kept, options)) :
    (∀ (defaults : RunOptions) (key : String),
      (options.mergeDefaults defaults).get? key =
        ((lastSetting? key ((clear .assistant messages).filterMap
            (transientSetting? search files origin?))).or
          (lastSetting? key (messages.filterMap stickySetting?))).or (defaults.get? key)) ∧
    ∀ (others kept' : List Message) (options' : RunOptions),
      extractMessages search files others origin? = .ok (kept', options') →
      withoutForgotten others = withoutForgotten messages → options' = options := by
  constructor
  · intro defaults key
    obtain ⟨x, hx, -, rfl⟩ := extractMessages_eq_ok_iff.mp h
    have hmerged : (x.options.mergeDefaults defaults).get? key =
        (x.options.get? key).or (defaults.get? key) :=
      Fields.get?_insertNewAll key x.options.values defaults.values
    rw [hmerged, Extraction.get?_options hx]
  · intro others kept' options' hothers hsame
    have hleft := extractMessages_withoutForgotten hothers
    have hright := extractMessages_withoutForgotten h
    rw [hsame, hright] at hleft
    exact (Prod.mk.inj (Except.ok.inj hleft)).2.symm

/-- An option that is set in both ways and has a default: the transient setting before the
assistant's message is forgotten, the one after it counts. -/
theorem extractMessages_scopes_layers :
    let messages : List Message :=
      [.ofText .stickyOption "tone plain", .ofText .option "tone dry", .ofText .option "pace slow",
        .assistant "done", .ofText .option "tone warm", .ofText .model "tiny", .user "again"]
    let others : List Message :=
      [.ofText .stickyOption "tone plain", .ofText .option "pace quick", .assistant "done",
        .ofText .option "tone warm", .ofText .model "tiny", .user "again"]
    let options : RunOptions := { values := [("model", .str "tiny"), ("tone", .str "warm")] }
    let defaults : RunOptions := { values := [("model", .str "large"), ("pace", .str "fast")] }
    extractMessages {} .empty messages none =
        .ok ([.assistant "done", .user "again"], options) ∧
      ((options.mergeDefaults defaults).get? "tone" = some (.str "warm") ∧
        (options.mergeDefaults defaults).get? "model" = some (.str "tiny") ∧
        (options.mergeDefaults defaults).get? "pace" = some (.str "fast")) ∧
      withoutForgotten others = withoutForgotten messages ∧
      ∀ kept' options', extractMessages {} .empty others none = .ok (kept', options') →
        options' = options := by
  intro messages others options defaults
  have hextract : extractMessages {} .empty messages none =
      .ok ([.assistant "done", .user "again"], options) := by decide +kernel
  have hsticky : messages.filterMap stickySetting? =
      [("tone", .str "plain"), ("model", .str "tiny")] := by decide +kernel
  have htransient : (clear .assistant messages).filterMap
      (transientSetting? {} .empty none) = [("tone", .str "warm")] := by decide +kernel
  have hsame : withoutForgotten others = withoutForgotten messages := by decide +kernel
  obtain ⟨hscopes, halike⟩ := extractMessages_scopes hextract
  rw [hsticky, htransient] at hscopes
  have heffective : (options.mergeDefaults defaults).get? "tone" = some (.str "warm") ∧
      (options.mergeDefaults defaults).get? "model" = some (.str "tiny") ∧
      (options.mergeDefaults defaults).get? "pace" = some (.str "fast") := by
    rw [hscopes, hscopes, hscopes]
    decide +kernel
  exact ⟨hextract, heffective, hsame, fun kept' options' h => halike others kept' options' h hsame⟩

end Colloquy
