import Colloquy.Proofs.RunOptions.Scoping

/-!
# Colloquy — what markers change

Of all that extraction gathers, the markers of responses change the handle and the place
from which the conversation goes on (`Extraction.AgreesButHandle`). A conversation is
extracted in lockstep with the same conversation without its markers, so it fails for the
same message or keeps the same messages (`extractMessages_purge`).
-/

namespace Colloquy

namespace Extraction

variable {search : FileSearch} {files : FileTree} {origin? : Option String}

/-- The same was gathered, but for the handle and the place. -/
structure AgreesButHandle (x y : Extraction) : Prop where
  kept_eq : x.kept = y.kept
  transient_eq : x.transient = y.transient
  sticky_eq : ∀ key, key ≠ "previous_response_id" → x.sticky.get? key = y.sticky.get? key

namespace AgreesButHandle

variable {x y : Extraction}

theorem refl (x : Extraction) : x.AgreesButHandle x :=
  ⟨rfl, rfl, fun _ _ => rfl⟩

theorem take (h : x.AgreesButHandle y) (reading : Reading) :
    (x.take reading).AgreesButHandle (y.take reading) := by
  obtain ⟨hkept, htransient, hsticky⟩ := h
  have hinsert : ∀ (written : String) (value : Json) (key : String),
      key ≠ "previous_response_id" →
      (x.sticky.insert written value).get? key = (y.sticky.insert written value).get? key := by
    intro written value key hkey
    rw [Fields.get?_insert, Fields.get?_insert, hsticky key hkey]
  cases reading with
  | keep m =>
    refine ⟨congrArg (· ++ [m]) hkept, ?_, hsticky⟩
    show ite _ _ x.transient = ite _ _ y.transient
    rw [htransient]
  | marker handle => exact ⟨hkept, htransient, hinsert _ _⟩
  | set isSticky written value =>
    cases isSticky with
    | true => exact ⟨hkept, htransient, hinsert written value⟩
    | false => exact ⟨hkept, congrArg (Fields.insert written value) htransient, hsticky⟩

theorem take_marker (h : x.AgreesButHandle y) (handle : String) :
    (x.take (.marker handle)).AgreesButHandle y where
  kept_eq := h.kept_eq
  transient_eq := h.transient_eq
  sticky_eq key hkey := by
    show Fields.get? key (Fields.insert _ _ x.sticky) = _
    rw [Fields.get?_insert, if_neg hkey]
    exact h.sticky_eq key hkey

end AgreesButHandle

/-- Without markers the same messages cannot be read, and the same is gathered but for the handle
and the place. -/
theorem foldlM_step_purge {messages : List Message} {x y : Extraction}
    (h : x.AgreesButHandle y) :
    (∀ e, messages.foldlM (step search files origin?) x = .error e ↔
      (purge messages).foldlM (step search files origin?) y = .error e) ∧
    ∀ x', messages.foldlM (step search files origin?) x = .ok x' →
      ∃ y', (purge messages).foldlM (step search files origin?) y = .ok y' ∧
        x'.AgreesButHandle y' := by
  induction messages generalizing x y with
  | nil =>
    refine ⟨fun e => iff_of_false nofun nofun, fun x' hx => ⟨y, rfl, ?_⟩⟩
    obtain rfl := Except.ok.inj hx
    exact h
  | cons m rest ih =>
    rw [List.foldlM_cons, step_eq]
    by_cases hrole : m.role = .previousResponseId
    -- a marker moves the extraction that sees it, and the other one waits
    · rw [purge_cons_of_marker hrole, Reading.ofMessage_marker hrole]
      exact ih (h.take_marker m.trimmedText)
    · rw [purge_cons_of_ne hrole, List.foldlM_cons, step_eq]
      cases Reading.ofMessage search files origin? m with
      | error e' => exact ⟨fun e => Iff.rfl, nofun⟩
      | ok reading => exact ih (h.take reading)

theorem ascending_options {messages : List Message} {x : Extraction}
    (h : messages.foldlM (step search files origin?) {} = .ok x) :
    Fields.Ascending x.options.values := by
  have hsticky : x.sticky = .ofList (messages.filterMap stickySetting?) := sticky_foldlM_step h
  show Fields.Ascending (x.sticky.insertAll x.transient)
  rw [hsticky]
  exact Fields.ascending_insertAll (Fields.ascending_ofList _) x.transient

end Extraction

namespace RunOptions

/-- The options with another place from which the conversation goes on. -/
def withPlace (o : RunOptions) (place : Option Nat) : RunOptions :=
  { o with resumeAfter := place }

/-- Options that agree but for the handle and the place are the same without the handle at one
place, whatever their defaults. -/
theorem remove_mergeDefaults_withPlace {o other : RunOptions} (ho : Fields.Ascending o.values)
    (hother : Fields.Ascending other.values)
    (h : ∀ key, key ≠ "previous_response_id" → o.get? key = other.get? key)
    (defaults : RunOptions) :
    ((other.withPlace o.resumeAfter).mergeDefaults defaults).remove "previous_response_id" =
      (o.mergeDefaults defaults).remove "previous_response_id" := by
  have hvalues : ((other.mergeDefaults defaults).remove "previous_response_id").values =
      ((o.mergeDefaults defaults).remove "previous_response_id").values := by
    apply Fields.eq_of_get?_eq
      (Fields.ascending_erase (Fields.ascending_insertNewAll hother _) _)
      (Fields.ascending_erase (Fields.ascending_insertNewAll ho _) _)
    intro key
    rw [Fields.get?_erase, Fields.get?_erase]
    split
    · rfl
    · next hkey =>
      have hget : Fields.get? key other.values = Fields.get? key o.values := (h key hkey).symm
      rw [Fields.get?_insertNewAll, Fields.get?_insertNewAll, hget]
  exact congrArg (RunOptions.mk · o.resumeAfter) hvalues

end RunOptions

variable {search : FileSearch} {files : FileTree} {origin? : Option String}

/-- Without markers extraction fails for the same message. -/
theorem extractMessages_purge_eq_error_iff {messages : List Message} {e : Error} :
    extractMessages search files messages origin? = .error e ↔
      extractMessages search files (purge messages) origin? = .error e := by
  rw [extractMessages_eq_error_iff, extractMessages_eq_error_iff]
  exact (Extraction.foldlM_step_purge (Extraction.AgreesButHandle.refl {})).1 e

/-- Without markers extraction keeps the same messages, and takes out the same options but for the
handle and the place, of which there is none. -/
theorem extractMessages_purge {messages kept : List Message} {options : RunOptions}
    (h : extractMessages search files messages origin? = .ok (kept, options)) :
    ∃ others, extractMessages search files (purge messages) origin? = .ok (kept, others) ∧
      others.resumeAfter = none ∧
      ∀ defaults,
        ((others.withPlace options.resumeAfter).mergeDefaults defaults).remove
            "previous_response_id" =
          (options.mergeDefaults defaults).remove "previous_response_id" := by
  obtain ⟨x, hx, rfl, rfl⟩ := extractMessages_eq_ok_iff.mp h
  obtain ⟨y, hy, hagrees⟩ :=
    (Extraction.foldlM_step_purge (Extraction.AgreesButHandle.refl {})).2 x hx
  have hpurged : extractMessages search files (purge messages) origin? = .ok (x.kept, y.options) :=
    extractMessages_eq_ok_iff.mpr ⟨y, hy, hagrees.kept_eq.symm, rfl⟩
  refine ⟨y.options, hpurged, ?_, fun defaults => ?_⟩
  · apply extractMessages_resumeAfter_eq_none _ hpurged
    intro m hm
    exact (mem_purge_iff.mp hm).2
  · apply RunOptions.remove_mergeDefaults_withPlace (Extraction.ascending_options hx)
      (Extraction.ascending_options hy)
    intro key hkey
    show Fields.get? key (x.sticky.insertAll x.transient) =
      Fields.get? key (y.sticky.insertAll y.transient)
    rw [Fields.get?_insertAll, Fields.get?_insertAll, hagrees.transient_eq,
      hagrees.sticky_eq key hkey]

end Colloquy
