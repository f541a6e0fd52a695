import Colloquy.Proofs.RunOptions.Extraction

/-!
# Colloquy — extraction as a partition

Extraction takes out the messages with the role of an option and keeps all others as they
are. The place from which the conversation goes on is a place among those that are kept.
What is kept holds no option, so taking the options out of it again changes nothing
(`extractMessages_partitions`).
-/

namespace Colloquy

variable {search : FileSearch} {files : FileTree} {origin? : Option String}

theorem mem_withoutOptions_iff {messages : List Message} {m : Message} :
    m ∈ withoutOptions messages ↔ m ∈ messages ∧ m.role.isOption = false := by
  simp [withoutOptions]

/-- A message that sets no option is kept, and forgets transient options if it is the assistant's. -/
theorem Extraction.step_of_not_isOption {m : Message} (h : m.role.isOption = false)
    (x : Extraction) :
    step search files origin? x m =
      .ok { x with
        kept := x.kept ++ [m]
        transient := if m.role = .assistant then [] else x.transient } := by
  have hread : Reading.ofMessage search files origin? m = .ok (.keep m) := by
    obtain ⟨role, content⟩ := m
    cases role with
    | option | stickyOption | format | endpoint | model | backend | agent | persist
    | previousResponseId => exact absurd h.symm Bool.false_ne_true
    | _ => rfl
  rw [step_eq, hread]
  rfl

/-- Messages that set no option are all kept. -/
theorem Extraction.foldlM_step_of_forall {messages : List Message}
    (h : ∀ m ∈ messages, m.role.isOption = false) {x : Extraction} (hx : x.transient = []) :
    messages.foldlM (step search files origin?) x =
      .ok { x with kept := x.kept ++ messages } := by
  induction messages generalizing x with
  | nil =>
    rw [List.append_nil]
    rfl
  | cons m rest ih =>
    obtain ⟨hm, hrest⟩ := List.forall_mem_cons.mp h
    have hstep : step search files origin? x m = .ok { x with kept := x.kept ++ [m] } := by
      rw [step_of_not_isOption hm, hx, ite_self, ← hx]
    rw [List.foldlM_cons, hstep]
    show rest.foldlM (step search files origin?) { x with kept := x.kept ++ [m] } = _
    have hkept : x.kept ++ m :: rest = x.kept ++ [m] ++ rest := by
      rw [List.append_assoc, List.singleton_append]
    rw [hkept]
    exact ih hrest hx

/-- There is nothing to take out of messages that set no option. -/
theorem extractMessages_of_forall {messages : List Message}
    (h : ∀ m ∈ messages, m.role.isOption = false) :
    extractMessages search files messages origin? = .ok (messages, {}) :=
  extractMessages_eq_ok_iff.mpr ⟨_, Extraction.foldlM_step_of_forall h rfl, rfl, rfl⟩

/-- Without a marker there is no place from which a conversation goes on. -/
theorem extractMessages_resumeAfter_eq_none {messages kept : List Message} {options : RunOptions}
    (hroles : ∀ m ∈ messages, m.role ≠ .previousResponseId)
    (h : extractMessages search files messages origin? = .ok (kept, options)) :
    options.resumeAfter = none := by
  obtain ⟨x, hx, -, rfl⟩ := extractMessages_eq_ok_iff.mp h
  obtain ⟨readings, hreads, rfl⟩ := Extraction.foldlM_step_eq_ok_iff.mp hx
  exact Extraction.resumeAfter_foldl_take {} (Extraction.ReadsAs.not_marker hreads hroles)

theorem extractMessages_kept {messages kept : List Message} {options : RunOptions}
    (h : extractMessages search files messages origin? = .ok (kept, options)) :
    kept = withoutOptions messages := by
  obtain ⟨x, hx, rfl, -⟩ := extractMessages_eq_ok_iff.mp h
  exact Extraction.kept_foldlM_step hx

/-- Messages are parted into those that are kept and those that set options. -/
structure IsPartition (messages kept : List Message) (options : RunOptions) : Prop where
  /-- The messages with no option's role are kept, as they are and in their order. -/
  kept_eq : kept = messages.filter fun m => !m.role.isOption
  resumeAfter_eq_none : (∀ m ∈ messages, m.role ≠ .previousResponseId) →
    options.resumeAfter = none
  /-- The place counts the kept messages that stood before the last marker. -/
  resumeAfter_eq_some : ∀ before marker after, messages = before ++ marker :: after →
    marker.role = .previousResponseId → (∀ m ∈ after, m.role ≠ .previousResponseId) →
    options.resumeAfter = some (before.filter fun m => !m.role.isOption).length

/-- The messages with the role of an option are taken out and all others are kept, and of what is
kept nothing is taken out again. -/
theorem extractMessages_partitions {messages kept : List Message} {options : RunOptions}
    (h : extractMessages search files messages origin? = .ok (kept, options)) :
    IsPartition messages kept options ∧
      ∀ search files origin?, extractMessages search files kept origin? = .ok (kept, {}) := by
  obtain rfl := extractMessages_kept h
  constructor
  · refine ⟨rfl, fun hroles => extractMessages_resumeAfter_eq_none hroles h, ?_⟩
    rintro before marker after rfl hmarker hlast
    exact extractMessages_resumeAfter hmarker hlast h
  · intro search files origin?
    apply extractMessages_of_forall
    intro m hm
    exact (mem_withoutOptions_iff.mp hm).2

/-- Two markers among options of several kinds: the place is counted without any of them. -/
theorem extractMessages_partitions_twice :
    let messages : List Message :=
      [.ofText .model "tiny", .user "one", .continuation "resp_1", .ofText .option "tone dry",
        .assistant "two", .ofText .stickyOption "seed 7", .continuation "resp_2", .user "three",
        .ofText .format "json"]
    let kept : List Message := [.user "one", .assistant "two", .user "three"]
    ∃ options, extractMessages {} .empty messages none = .ok (kept, options) ∧
      options.resumeAfter = some 2 ∧
      extractMessages {} .empty kept none = .ok (kept, {}) := by
  intro messages kept
  have hextract : extractMessages {} .empty messages none = .ok (kept, _) := rfl
  obtain ⟨hpartition, hagain⟩ := extractMessages_partitions hextract
  refine ⟨_, hextract, ?_, hagain ..⟩
  exact hpartition.resumeAfter_eq_some
    [.ofText .model "tiny", .user "one", .continuation "resp_1", .ofText .option "tone dry",
      .assistant "two", .ofText .stickyOption "seed 7"]
    (.continuation "resp_2") [.user "three", .ofText .format "json"] rfl rfl (by decide)

end Colloquy
