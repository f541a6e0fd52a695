import Colloquy.Proofs.Directive.Expansion
import Colloquy.Proofs.Directive.Filter
import Colloquy.Proofs.Directive.Passes
import Colloquy.Rehearsal.Engine
import Mathlib.Control.Monad.Basic

/-!
# Colloquy — settled messages

Resolving leaves no directive, however deep the chat in which it stood, since each pass
takes its own directives out and makes only such that a later pass takes out
(`Resolver.settled_of_pipeline`, `Resolver.resolveMessages_leaves_no_directive`). Messages
that say nothing are left only where an executed task told nothing, and images and documents
have the paths to which references led.

* `Role.isDirective` — the roles that resolving takes out.
* `Resolver.Settled` — what holds of a message that is left.
-/

namespace Colloquy

/-- Roles of directives that resolving takes out. -/
def Role.isDirective : Role → Bool
  | .clear | .skip | .import_ | .continue_ | .last | .file | .directory | .task | .inlineTask
  | .execTask | .job | .inlineJob => true
  | _ => false

/-- Roles of directives for whole files. -/
def Role.isFileDirective : Role → Bool
  | .file | .directory => true
  | _ => false

/-- Every directive is of the filters, or of one of the passes after them. -/
theorem Role.isDirective_eq (role : Role) :
    role.isDirective = (role == .clear || role == .skip || role.isImportDirective ||
      role.isTaskDirective || role.isJobDirective || role.isFileDirective) := by
  cases role <;> rfl

theorem Role.not_pass_of_not_directive {role : Role} (h : role.isDirective = false) :
    role.isImportDirective = false ∧ role.isTaskDirective = false ∧
      role.isJobDirective = false ∧ role.isFileDirective = false := by
  rw [isDirective_eq] at h
  simp only [Bool.or_eq_false_iff] at h
  obtain ⟨⟨⟨⟨-, himport⟩, htask⟩, hjob⟩, hfile⟩ := h
  exact ⟨himport, htask, hjob, hfile⟩

/-- A message that says something, or the one that is left of an executed task which tells nothing.
-/
def Message.Speaks (m : Message) : Prop :=
  survives .skip m = true ∨ m = .user ""

namespace Message

theorem speaks_of_not_isEmpty {m : Message} (hrole : m.role ≠ .skip) (h : m.isEmpty = false) :
    m.Speaks :=
  Or.inl (survives_of_not_isEmpty hrole h)

theorem speaks_user (text : String) : (user text).Speaks := by
  cases h : text.isEmpty with
  | true =>
    rw [String.isEmpty_iff.mp h]
    exact Or.inr rfl
  | false => exact speaks_of_not_isEmpty nofun h

end Message

namespace Resolver

variable {σ : Type} {r : Resolver σ}

/-- Messages that name files are directives for whole files, images and documents. -/
theorem namesFiles_eq_false_iff {role : Role} :
    namesFiles role = false ↔ role.isFileDirective = false ∧ ¬ (role = .pdf ∨ role = .image) := by
  cases role <;> simp [namesFiles, Role.isFileDirective]

/-- A message is settled: it is no directive, and says something or is what is left of an executed
task, and if it is an image or a document, its text is what a reference led to. -/
structure Settled (r : Resolver σ) (origin? : Option String) (m : Message) : Prop where
  role : m.role.isDirective = false
  speaks : m.Speaks
  media : (m.role = .pdf ∨ m.role = .image) →
    ∃ reference path, r.Refers origin? reference path ∧ m = .ofText m.role path

/-- A message is no directive and speaks, unless it is a directive of a later pass. -/
def Awaits (later : Role → Bool) (m : Message) : Prop :=
  later m.role = true ∨ (m.role.isDirective = false ∧ m.Speaks)

-- ---------------------------------------------------------------------------
-- Passes
-- ---------------------------------------------------------------------------

/-- Directives that are left by imports. -/
def afterImporting (role : Role) : Bool :=
  role.isTaskDirective || role.isJobDirective || role.isFileDirective

/-- Directives that are left by tasks. -/
def afterTasks (role : Role) : Bool :=
  role.isJobDirective || role.isFileDirective

theorem isEmpty_jobExchange (job : Job σ) (text : String) :
    ∀ m ∈ jobExchange job text, m.role.isDirective = false ∧ m.isEmpty = false := by
  intro m hm
  rcases List.mem_cons.mp hm with rfl | hm
  · exact ⟨rfl, rfl⟩
  · obtain rfl := List.mem_singleton.mp hm
    exact ⟨rfl, rfl⟩

theorem Refers.path_ne_empty {origin? : Option String} {reference path : String}
    (h : r.Refers origin? reference path) : path.isEmpty = false := by
  rcases h with ⟨hremote, rfl⟩ | ⟨-, hfind⟩
  · cases hempty : path.isEmpty with
    | false => rfl
    | true =>
      rw [String.isEmpty_iff.mp hempty] at hremote
      exact absurd hremote (by decide)
  · obtain ⟨here, node, hlocated⟩ :=
      FileTree.exists_locate_of_hasPath (FileSearch.hasPath_of_find hfind)
    cases hempty : path.isEmpty with
    | false => rfl
    | true =>
      simp [FileTree.locate, FileTree.place, hempty] at hlocated

theorem FailsOnly.settled_of_afterImports {E : Failure → Prop} (h : r.FailsOnly E)
    {origin? : Option String} {messages : List Message}
    (hmessages : ∀ m ∈ messages, Awaits afterImporting m) :
    Act.Ensures (fun left => ∀ m ∈ left, r.Settled origin? m) E
      (r.afterImports origin? messages) := by
  have htasks : Act.Ensures (fun left => ∀ m ∈ left, Awaits afterTasks m) E (r.tasks messages) := by
    refine h.ensures_tasks (fun m hm hrole => ?_) (fun text => ?_) (fun _ => Or.inl rfl)
      fun _ => Or.inl rfl
    · refine (hmessages m hm).imp_left fun hlater => ?_
      simpa [afterImporting, afterTasks, hrole] using hlater
    · exact Or.inr ⟨rfl, Message.speaks_user text⟩
  refine htasks.bind fun made hmade => ?_
  have hjobs : Act.Ensures (fun left => ∀ m ∈ left, Awaits Role.isFileDirective m) E
      (r.jobs made) := by
    refine h.ensures_jobs (fun m hm hrole => ?_) (fun job text m hm => ?_) fun _ => Or.inl rfl
    · refine (hmade m hm).imp_left fun hlater => ?_
      simpa [afterTasks, hrole] using hlater
    · obtain ⟨hdirective, hempty⟩ := isEmpty_jobExchange job text m hm
      refine Or.inr ⟨hdirective, Message.speaks_of_not_isEmpty ?_ hempty⟩
      rintro hskip
      rw [hskip] at hdirective
      exact absurd hdirective nofun
  refine hjobs.bind fun joined hjoined => ?_
  refine h.ensures_fileContents (fun m hm hrole => ?_) (fun name content => ?_)
    fun m hm hrole path hrefers => ?_
  · obtain ⟨hfile, hmedia⟩ := namesFiles_eq_false_iff.mp hrole
    rcases hjoined m hm with hlater | ⟨hdirective, hspeaks⟩
    · exact absurd (hfile.symm.trans hlater) (by decide)
    · exact ⟨hdirective, hspeaks, fun h => absurd h hmedia⟩
  · refine ⟨rfl, Message.speaks_user _, fun hmedia => absurd hmedia ?_⟩
    exact (namesFiles_eq_false_iff.mp rfl).2
  · refine ⟨?_, Message.speaks_of_not_isEmpty ?_ hrefers.path_ne_empty,
      fun _ => ⟨_, path, hrefers, rfl⟩⟩
    · rcases hrole with hrole | hrole <;> simp [Message.ofText, hrole, Role.isDirective]
    · rcases hrole with hrole | hrole <;> simp [Message.ofText, hrole]

-- ---------------------------------------------------------------------------
-- Resolving
-- ---------------------------------------------------------------------------

theorem Settled.awaits {origin? : Option String} {m : Message} (h : r.Settled origin? m)
    (later : Role → Bool) : Awaits later m :=
  Or.inr ⟨h.role, h.speaks⟩

/-- Messages that are cleaned are no directives of the passes before imports, so if they are none of
imports they are settled or directives of a later pass. -/
theorem awaits_of_mem_clean {messages : List Message} {m : Message}
    (h : m ∈ clean .skip (clear .clear messages)) (hrole : m.role.isImportDirective = false) :
    Awaits afterImporting m := by
  obtain ⟨hmem, hsurvives⟩ := mem_clean_iff.mp h
  have hclear := role_ne_of_mem_clear m hmem
  have hskip := role_ne_of_survives hsurvives
  by_cases hlater : afterImporting m.role = true
  · exact Or.inl hlater
  · refine Or.inr ⟨?_, Or.inl hsurvives⟩
    simp only [afterImporting, Bool.not_eq_true, Bool.or_eq_false_iff] at hlater
    simp [Role.isDirective_eq, hclear, hskip, hrole, hlater]

/-- Whatever is imported was resolved, so it is settled. -/
theorem Imports.awaits {chain : List Place} {origin? : Option String} {messages out : List Message}
    {w w' : World σ} {es : List Expansion} {result : Except Failure (List Message)}
    (h : r.Imports chain origin? messages w es result w') (hresult : result = .ok out)
    (hmessages : ∀ m ∈ messages, m.role.isImportDirective = false → Awaits afterImporting m) :
    ∀ m ∈ out, Awaits afterImporting m := by
  induction h generalizing out with
  | nil =>
    obtain rfl := Except.ok.inj hresult
    exact List.forall_mem_nil _
  | other hrole _ ih =>
    obtain ⟨hm, hrest⟩ := List.forall_mem_cons.mp hmessages
    obtain ⟨others, rfl, rfl⟩ := exists_of_map_eq_ok hresult
    exact List.forall_mem_cons.mpr ⟨hm hrole, ih rfl hrest⟩
  | missing | cycle | unreadable | stuck => exact absurd hresult nofun
  | spliced _ _ hafter _ ih ihrest =>
    obtain ⟨-, hrest⟩ := List.forall_mem_cons.mp hmessages
    obtain ⟨others, rfl, rfl⟩ := exists_of_map_eq_ok hresult
    obtain ⟨inner, rfl, hafter⟩ := Act.exists_of_perform_ofFailable_bind hafter
    have hinner := ih rfl fun m hm => awaits_of_mem_clean hm
    have hsettled := (r.failsOnly_true.settled_of_afterImports hinner).of_ok hafter
    exact List.forall_mem_append.mpr
      ⟨fun m hm => (hsettled m hm).awaits _, ihrest rfl hrest⟩

/-- All messages that resolving leaves are settled. -/
theorem settled_of_pipeline {chain : List Place} {origin? : Option String}
    {messages out : List Message} {w w' : World σ}
    (h : (r.pipeline chain origin? messages).perform w = (.ok out, w')) :
    ∀ m ∈ out, r.Settled origin? m := by
  obtain ⟨es, inner, w₁, himports, hafter⟩ := exists_imports_of_pipeline h
  have hinner := himports.awaits rfl fun m hm => awaits_of_mem_clean hm
  exact (r.failsOnly_true.settled_of_afterImports hinner).of_ok hafter

/-- The text of a settled image or document is a reference to the web or an existing path. -/
theorem Settled.hasPath {origin? : Option String} {m : Message} (h : r.Settled origin? m)
    (hmedia : m.role = .pdf ∨ m.role = .image) (hlocal : isRemote m.text = false) :
    r.files.hasPath m.text = true := by
  obtain ⟨reference, path, hrefers, hm⟩ := h.media hmedia
  have htext : m.text = path := congrArg Message.text hm
  rw [htext] at hlocal ⊢
  rcases hrefers with ⟨hremote, rfl⟩ | ⟨-, hfind⟩
  · exact absurd (hlocal.symm.trans hremote) Bool.false_ne_true
  · exact FileSearch.hasPath_of_find hfind

/-- Resolving leaves no directive, wherever among nested chats it stood, and the text of every image
and document that is left is a reference to the web or an existing path. -/
theorem resolveMessages_leaves_no_directive (r : Resolver σ) (messages : List Message)
    (origin? : Option String) (w w' : World σ) (out : List Message)
    (h : (r.resolveMessages messages origin?).perform w = (.ok out, w')) :
    ∀ m ∈ out,
      m.role ∉ ([.clear, .skip, .import_, .continue_, .last, .task, .inlineTask, .execTask, .job,
        .inlineJob, .file, .directory] : List Role) ∧
      ((m.role = .pdf ∨ m.role = .image) → isRemote m.text = false →
        r.files.hasPath m.text = true) := by
  intro m hm
  have hsettled := settled_of_pipeline h m hm
  refine ⟨fun hrole => ?_, hsettled.hasPath⟩
  have hdirective : m.role.isDirective = true := by
    revert hrole
    cases m.role <;> simp [Role.isDirective]
  exact absurd (hsettled.role.symm.trans hdirective) Bool.false_ne_true

/-- A resolver on a stage, with a chat that names another one and an image beside it, and a workflow
whose task leaves its result in a file. -/
def harbour : Resolver Stage where
  files :=
    { root :=
        .dir
          [("crew",
            .dir
              [("pirate.chat", .file "import: log.chat\nimage: flag.png".toUTF8),
               ("log.chat",
                .file "user: old\nclear:\nskip: aside\ninline_task: Parrot repeat".toUTF8),
               ("flag.png", .file "".toUTF8)]),
           ("notes", .dir [("words.txt", .file "ahoy".toUTF8)])]
      base := [] }
  workflows? :=
    some (ScriptedEngine.act
      { workflows :=
          [("Parrot",
            { name := "Parrot"
              tasks := [("repeat", { path? := some "notes/words.txt" })] })] })

/-- Two chats deep, a task becomes a job, the job a file and the file its content, and the image
beside the first chat has a path. -/
theorem resolveMessages_leaves_no_directive_nested :
    let messages : List Message :=
      [.ofText .import_ "crew/pirate.chat", .ofText .image "https://example.com/map.png",
        .ofText .directory "notes", .user "And then?"]
    let out : List Message :=
      [fileMessage "notes/words.txt" "ahoy", .ofText .image "crew/flag.png",
        .ofText .image "https://example.com/map.png", fileMessage "notes/words.txt" "ahoy",
        .user "And then?"]
    ∃ w', (harbour.resolveMessages messages none).perform (.start {}) = (.ok out, w') ∧
      .ofText .image "crew/flag.png" ∈ out ∧ isRemote "crew/flag.png" = false ∧
      harbour.files.hasPath "crew/flag.png" = true := by
  intro messages out
  have hlogChat : harbour.Enters [["crew", "pirate.chat"]] (some "crew/pirate.chat")
      (.ofText .import_ "log.chat") "crew/log.chat" ["crew", "log.chat"]
      [.user "old", .ofText .clear "", .ofText .skip "aside",
        .ofText .inlineTask "Parrot repeat"] :=
    ⟨⟨rfl, rfl, _, rfl⟩, by decide, _, rfl, rfl⟩
  obtain ⟨w₁, htask⟩ : ∃ w₁, (Act.ofFailable (.ok [.ofText .inlineTask "Parrot repeat"]) >>=
      harbour.afterImports (some "crew/log.chat")).perform (.start {}) =
        (.ok [fileMessage "notes/words.txt" "ahoy"], w₁) :=
    Act.exists_perform_eq (by decide +kernel)
  have hcrewChat : harbour.Enters [] none (.ofText .import_ "crew/pirate.chat")
      "crew/pirate.chat" ["crew", "pirate.chat"]
      [.ofText .import_ "log.chat", .ofText .image "flag.png"] :=
    ⟨⟨rfl, rfl, _, rfl⟩, List.not_mem_nil, _, rfl, rfl⟩
  have hcrew : harbour.Imports [["crew", "pirate.chat"]] (some "crew/pirate.chat")
      [.ofText .import_ "log.chat", .ofText .image "flag.png"] (.start {})
      [.node "log.chat" ["crew", "log.chat"] []]
      (.ok [fileMessage "notes/words.txt" "ahoy", .ofText .image "flag.png"]) w₁ :=
    .spliced hlogChat (.other_ok rfl (.nil _ _ _)) htask (.other_ok rfl (.nil _ _ _))
  have hflag : (Act.ofFailable
        (.ok [fileMessage "notes/words.txt" "ahoy", .ofText .image "flag.png"]) >>=
      harbour.afterImports (some "crew/pirate.chat")).perform w₁ =
        (.ok [fileMessage "notes/words.txt" "ahoy", .ofText .image "crew/flag.png"], w₁) := rfl
  -- sorting does not compute, so that the directory is read by the law for one file
  have hwords : harbour.files.filesBelow "notes" = [("notes/words.txt", "ahoy".toUTF8)] :=
    List.mergeSort_singleton _
  have hnotes : harbour.fileDirective none (.ofText .directory "notes") =
      .ok [fileMessage "notes/words.txt" "ahoy"] := by
    show Except.ok (textFiles (harbour.files.filesBelow "notes")) = _
    rw [hwords]
    rfl
  have hfiles : (harbour.fileContents none
      [fileMessage "notes/words.txt" "ahoy", .ofText .image "crew/flag.png",
        .ofText .image "https://example.com/map.png", .ofText .directory "notes",
        .user "And then?"]).perform w₁ = (.ok out, w₁) := by
    simp only [fileContents, eachMessage, hnotes]
    rfl
  have h : (harbour.resolveMessages messages none).perform (.start {}) = (.ok out, w₁) :=
    Resolves.perform_eq ⟨_, _,
      .spliced hcrewChat hcrew hflag
        (.other_ok rfl (.other_ok rfl (.other_ok rfl (.nil _ _ _)))), hfiles⟩
  have hmem : .ofText .image "crew/flag.png" ∈ out := by decide
  have hlocal : isRemote "crew/flag.png" = false := by decide
  exact ⟨w₁, h, hmem, hlocal,
    (harbour.resolveMessages_leaves_no_directive messages none _ _ out h _ hmem).2 (Or.inr rfl)
      hlocal⟩

end Resolver

end Colloquy
