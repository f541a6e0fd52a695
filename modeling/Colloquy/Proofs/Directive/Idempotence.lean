import Colloquy.Proofs.Directive.Settled
import Colloquy.Rehearsal.Engine
import Mathlib.Data.List.Forall2

/-!
# Colloquy — resolving again

Messages that are no directives of earlier passes are taken through these as they are, so
resolving them again cleans them once more and reads references of images and documents
once more (`Resolver.perform_pipeline_of_settled`). The result of resolving is left as it is
exactly if neither changes anything: no message of it is empty, as that of an executed task
is which tells nothing, and every path in it leads to itself
(`Resolver.resolveMessages_again_iff`).
-/

namespace Colloquy.Resolver

variable {σ : Type} {r : Resolver σ} {origin? : Option String} {messages : List Message}

-- ---------------------------------------------------------------------------
-- Passes without their directives
-- ---------------------------------------------------------------------------

theorem eachMessage_of_forall {f : Message → Act σ (List Message)}
    (h : ∀ m ∈ messages, f m = pure [m]) : eachMessage f messages = pure messages := by
  induction messages with
  | nil => rfl
  | cons m rest ih =>
    obtain ⟨hm, hrest⟩ := List.forall_mem_cons.mp h
    simp [eachMessage, hm, ih hrest]

theorem importsWith_of_forall {chain : List Place} {nested : Nested r chain}
    (h : ∀ m ∈ messages, m.role.isImportDirective = false) :
    r.importsWith origin? chain nested messages = pure messages := by
  induction messages with
  | nil => rfl
  | cons m rest ih =>
    obtain ⟨hm, hrest⟩ := List.forall_mem_cons.mp h
    simp [importsWith, hm, ih hrest]

theorem makeJobs_of_forall (h : ∀ m ∈ messages, m.role.isTaskDirective = false) :
    r.makeJobs messages = pure (messages, []) := by
  induction messages with
  | nil => rfl
  | cons m rest ih =>
    obtain ⟨hm, hrest⟩ := List.forall_mem_cons.mp h
    simp [makeJobs, hm, ih hrest]

theorem tasks_of_forall (h : ∀ m ∈ messages, m.role.isTaskDirective = false) :
    r.tasks messages = pure messages := by
  simp [tasks, makeJobs_of_forall h, startJobs]

theorem jobs_of_forall (h : ∀ m ∈ messages, m.role.isJobDirective = false) :
    r.jobs messages = pure messages :=
  eachMessage_of_forall fun m hm => by simp [jobDirective, h m hm]

/-- Messages that are no directives are cleaned, and the files that they name are read. -/
theorem pipeline_of_forall (r : Resolver σ) (chain : List Place) (origin? : Option String)
    (h : ∀ m ∈ messages, m.role.isDirective = false) :
    r.pipeline chain origin? messages = r.fileContents origin? (clean .skip messages) := by
  have hclear : clear .clear messages = messages := by
    refine clear_of_forall_ne fun m hm hrole => ?_
    have hm := h m hm
    rw [hrole] at hm
    exact absurd hm nofun
  have hpass := fun m (hm : m ∈ clean .skip messages) =>
    Role.not_pass_of_not_directive (h m (mem_clean_iff.mp hm).1)
  rw [pipeline_eq, hclear, importsWith_of_forall fun m hm => (hpass m hm).1]
  simp [afterImports, tasks_of_forall fun m hm => (hpass m hm).2.1,
    jobs_of_forall fun m hm => (hpass m hm).2.2.1]

-- ---------------------------------------------------------------------------
-- Files of settled messages
-- ---------------------------------------------------------------------------

/-- What a message becomes that names no whole file: itself, unless a reference leads to a path. -/
def Rereads (r : Resolver σ) (origin? : Option String) (m made : Message) : Prop :=
  (namesFiles m.role = false ∧ made = m) ∨
    ((m.role = .pdf ∨ m.role = .image) ∧
      ∃ path, r.Refers origin? m.trimmedText path ∧ made = .ofText m.role path)

theorem fileDirective_eq_ok_iff {m : Message} (h : m.role.isDirective = false)
    {made : List Message} :
    r.fileDirective origin? m = .ok made ↔ ∃ x, r.Rereads origin? m x ∧ made = [x] := by
  constructor
  · intro hmade
    rcases r.fileDirective_cases origin? m with ⟨other, hother, hbecomes⟩ | ⟨e, he, -⟩
    · obtain rfl := Except.ok.inj (hmade.symm.trans hother)
      cases hbecomes with
      | kept hrole => exact ⟨m, Or.inl ⟨hrole, rfl⟩, rfl⟩
      | file hrole => simp [hrole, Role.isDirective] at h
      | directory hrole => simp [hrole, Role.isDirective] at h
      | media hrole hrefers => exact ⟨_, Or.inr ⟨hrole, _, hrefers, rfl⟩, rfl⟩
    · exact absurd (hmade.symm.trans he) (by simp)
  · rintro ⟨x, ⟨hrole, rfl⟩ | ⟨hrole, path, hrefers, rfl⟩, rfl⟩
    · exact fileDirective_of_kept hrole r origin?
    · exact fileDirective_of_refers hrole hrefers

/-- Files are read from first to last and change no world. -/
theorem perform_fileContents_eq_ok_iff (h : ∀ m ∈ messages, m.role.isDirective = false)
    {w w' : World σ} {out : List Message} :
    (r.fileContents origin? messages).perform w = (.ok out, w') ↔
      w' = w ∧ List.Forall₂ (r.Rereads origin?) messages out := by
  unfold fileContents
  induction messages generalizing out w w' with
  | nil => simp [eachMessage, eq_comm, and_comm]
  | cons m rest ih =>
    obtain ⟨hm, hrest⟩ := List.forall_mem_cons.mp h
    simp only [eachMessage, Act.perform_bind_eq_ok_iff, Act.perform_ofExcept_eq_ok_iff,
      fileDirective_eq_ok_iff hm, ih hrest, Act.perform_pure, List.forall₂_cons_left_iff]
    constructor
    · rintro ⟨_, _, ⟨⟨x, hx, rfl⟩, rfl⟩, others, _, ⟨rfl, hothers⟩, heq⟩
      obtain ⟨hout, rfl⟩ := Prod.mk.inj heq
      exact ⟨rfl, x, others, hx, hothers, (Except.ok.inj hout).symm⟩
    · rintro ⟨rfl, x, others, hx, hothers, rfl⟩
      exact ⟨_, _, ⟨⟨x, hx, rfl⟩, rfl⟩, others, _, ⟨rfl, hothers⟩, rfl⟩

/-- Resolving messages again that are no directives. -/
theorem perform_pipeline_of_forall {chain : List Place}
    (h : ∀ m ∈ messages, m.role.isDirective = false) {w w' : World σ} {out : List Message} :
    (r.pipeline chain origin? messages).perform w = (.ok out, w') ↔
      w' = w ∧ List.Forall₂ (r.Rereads origin?) (clean .skip messages) out := by
  rw [pipeline_of_forall r chain origin? h]
  exact perform_fileContents_eq_ok_iff fun m hm => h m (mem_clean_iff.mp hm).1

-- ---------------------------------------------------------------------------
-- Resolving what was resolved
-- ---------------------------------------------------------------------------

/-- A settled message becomes itself, unless its path leads elsewhere or nowhere. -/
theorem Settled.rereads_self_iff {m : Message} (h : r.Settled origin? m) :
    r.Rereads origin? m m ↔
      ((m.role = .pdf ∨ m.role = .image) → r.Refers origin? m.trimmedText m.text) := by
  by_cases hmedia : m.role = .pdf ∨ m.role = .image
  · obtain ⟨-, path, -, hm⟩ := h.media hmedia
    have htext : m.text = path := congrArg Message.text hm
    constructor
    · rintro (⟨hrole, -⟩ | ⟨-, other, hrefers, hother⟩)
      · exact absurd hmedia (namesFiles_eq_false_iff.mp hrole).2
      · rw [congrArg Message.text hother]
        exact fun _ => hrefers
    · intro hrefers
      exact Or.inr ⟨hmedia, m.text, hrefers hmedia, hm.trans (congrArg _ htext.symm)⟩
  · obtain ⟨-, -, -, hfile⟩ := Role.not_pass_of_not_directive h.role
    have hkept : namesFiles m.role = false := namesFiles_eq_false_iff.mpr ⟨hfile, hmedia⟩
    exact iff_of_true (Or.inl ⟨hkept, rfl⟩) fun hrole => absurd hrole hmedia

theorem find?_of_hasPath {path : String} (hempty : path.isEmpty = false)
    (htrim : trimBlank path = path) (hpath : r.files.hasPath path = true) :
    r.find? path origin? = some path := by
  simp [find?, FileSearch.find, htrim, hempty, hpath]

/-- A path without blanks at its ends leads to itself. -/
theorem Refers.refers_self {reference path : String} (h : r.Refers origin? reference path)
    (htrim : trimBlank path = path) : r.Refers origin? path path := by
  cases hremote : isRemote path with
  | true => exact Or.inl ⟨hremote, rfl⟩
  | false =>
    have hempty := h.path_ne_empty
    rcases h with ⟨hreference, rfl⟩ | ⟨-, hfind⟩
    · exact absurd (hremote.symm.trans hreference) nofun
    · have hpath : r.files.hasPath path = true := FileSearch.hasPath_of_find hfind
      exact Or.inr ⟨hremote, find?_of_hasPath hempty htrim hpath⟩

theorem Settled.refers_of_trim {m : Message} (h : r.Settled origin? m)
    (hmedia : m.role = .pdf ∨ m.role = .image) (htrim : trimBlank m.text = m.text) :
    r.Refers origin? m.trimmedText m.text := by
  obtain ⟨reference, path, hrefers, hm⟩ := h.media hmedia
  obtain rfl : m.text = path := congrArg Message.text hm
  rw [Message.trimmedText, htrim]
  exact hrefers.refers_self htrim

/-- Settled messages are left as they are if none is dropped and each becomes itself. -/
theorem forall₂_rereads_clean_iff (h : ∀ m ∈ messages, r.Settled origin? m) :
    List.Forall₂ (r.Rereads origin?) (clean .skip messages) messages ↔
      (∀ m ∈ messages, survives .skip m = true) ∧
        ∀ m ∈ messages, (m.role = .pdf ∨ m.role = .image) →
          r.Refers origin? m.trimmedText m.text := by
  have hself : List.Forall₂ (r.Rereads origin?) messages messages ↔
      ∀ m ∈ messages, (m.role = .pdf ∨ m.role = .image) →
        r.Refers origin? m.trimmedText m.text :=
    List.forall₂_same.trans (forall₂_congr fun m hm => (h m hm).rereads_self_iff)
  constructor
  · intro hrereads
    -- messages are reread one by one, so as many are left as were not dropped
    have hsurvive := List.length_filter_eq_length_iff.mp hrereads.length_eq
    rw [clean, List.filter_eq_self.mpr hsurvive] at hrereads
    exact ⟨hsurvive, hself.mp hrereads⟩
  · rintro ⟨hsurvive, hrefers⟩
    rw [clean, List.filter_eq_self.mpr hsurvive]
    exact hself.mpr hrefers

/-- Resolving the result of resolving gives it again, and in the same world, exactly if no message
of it is dropped as one that says nothing and every path in it leads to itself. What may be dropped
is the message that is left of an executed task which tells nothing; only a path with blanks at its
ends may lead elsewhere. -/
theorem resolveMessages_again_iff (r : Resolver σ) (messages : List Message)
    (origin? : Option String) (w w' : World σ) (out : List Message)
    (h : (r.resolveMessages messages origin?).perform w = (.ok out, w')) :
    (∀ m ∈ out, survives .skip m = true ∨ m = .user "") ∧
      (∀ m ∈ out, (m.role = .pdf ∨ m.role = .image) → trimBlank m.text = m.text →
        r.Refers origin? m.trimmedText m.text) ∧
      ∀ w₁ w₂, (r.resolveMessages out origin?).perform w₁ = (.ok out, w₂) ↔
        w₂ = w₁ ∧ (∀ m ∈ out, survives .skip m = true) ∧
          ∀ m ∈ out, (m.role = .pdf ∨ m.role = .image) →
            r.Refers origin? m.trimmedText m.text := by
  have hsettled := settled_of_pipeline h
  refine ⟨fun m hm => (hsettled m hm).speaks, fun m hm => (hsettled m hm).refers_of_trim,
    fun w₁ w₂ => ?_⟩
  rw [← forall₂_rereads_clean_iff hsettled]
  exact perform_pipeline_of_forall fun m hm => (hsettled m hm).role

-- ---------------------------------------------------------------------------
-- A chat with an image, and a task that tells nothing
-- ---------------------------------------------------------------------------

/-- A resolver on a stage, with a chat in a directory beside an image, an image in a directory whose
name begins with a blank, and a workflow whose task tells nothing. -/
def pirates : Resolver Stage where
  files :=
    { root :=
        .dir
          [("crew",
            .dir
              [("pirate.chat", .file "system: You are a pirate.\nimage: flag.png".toUTF8),
               ("flag.png", .file "".toUTF8)]),
           (" loot", .dir [("map.png", .file "".toUTF8)])]
      base := [] }
  workflows? :=
    some (ScriptedEngine.act
      { workflows :=
          [("Parrot",
            { name := "Parrot"
              tasks := [("listen", { plan := { behavior := .give .null } })] })] })

/-- A world before anything is asked of the engine. -/
def quietWorld : World Stage := { invented := 0, outer := {} }

/-- A chat is imported together with its image, and resolving the result changes nothing. -/
theorem resolveMessages_again_iff_pirate :
    let out : List Message :=
      [.system "You are a pirate.", .ofText .image "crew/flag.png", .user "ahoy"]
    (pirates.resolveMessages [.ofText .import_ "crew/pirate.chat", .user "ahoy"] none).perform
        quietWorld = (.ok out, quietWorld) ∧
      ∀ w, (pirates.resolveMessages out none).perform w = (.ok out, w) := by
  intro out
  have henters : pirates.Enters [] none (.ofText .import_ "crew/pirate.chat") "crew/pirate.chat"
      ["crew", "pirate.chat"] [.system "You are a pirate.", .ofText .image "flag.png"] :=
    ⟨⟨rfl, rfl, _, rfl⟩, List.not_mem_nil, _, rfl, rfl⟩
  have hinner : pirates.Imports [["crew", "pirate.chat"]] (some "crew/pirate.chat")
      [.system "You are a pirate.", .ofText .image "flag.png"] quietWorld []
      (.ok [.system "You are a pirate.", .ofText .image "flag.png"]) quietWorld :=
    .other_ok rfl (.other_ok rfl (.nil _ _ _))
  have hafter : (Act.ofFailable
      (.ok [.system "You are a pirate.", .ofText .image "flag.png"]) >>=
        pirates.afterImports (some "crew/pirate.chat")).perform quietWorld =
      (.ok [.system "You are a pirate.", .ofText .image "crew/flag.png"], quietWorld) := rfl
  have hresolves : pirates.Resolves [] none
      [.ofText .import_ "crew/pirate.chat", .user "ahoy"] quietWorld
      [.node "crew/pirate.chat" ["crew", "pirate.chat"] []] (.ok out) quietWorld :=
    ⟨.ok out, quietWorld, .spliced henters hinner hafter (.other_ok rfl (.nil _ _ _)), rfl⟩
  have h : (pirates.resolveMessages [.ofText .import_ "crew/pirate.chat", .user "ahoy"]
      none).perform quietWorld = (.ok out, quietWorld) := hresolves.perform_eq
  refine ⟨h, fun w => ?_⟩
  refine ((resolveMessages_again_iff pirates _ none _ _ out h).2.2 w w).mpr ⟨rfl, by decide, ?_⟩
  intro m hm hmedia
  have hmem : m = .system "You are a pirate." ∨ m = .ofText .image "crew/flag.png" ∨
      m = .user "ahoy" := by simpa [out] using hm
  rcases hmem with rfl | rfl | rfl
  · exact absurd hmedia (by decide)
  · exact Or.inr ⟨rfl, rfl⟩
  · exact absurd hmedia (by decide)

/-- A task that is executed tells nothing, and the message that is left of it is dropped when the
result is resolved again. A path with a blank in front is found, and not again. -/
theorem resolveMessages_again_ne :
    (∃ w,
      (pirates.resolveMessages [.ofText .execTask "Parrot listen"] none).perform quietWorld =
        (.ok [.user ""], w) ∧
      (pirates.resolveMessages [.user ""] none).perform w = (.ok [], w)) ∧
    (pirates.resolveMessages [.ofText .image "map.png"] (some " loot/main.chat")).perform
        quietWorld = (.ok [.ofText .image " loot/map.png"], quietWorld) ∧
      (pirates.resolveMessages [.ofText .image " loot/map.png"] (some " loot/main.chat")).perform
        quietWorld = (.error (.error (.notFound "File" "loot/map.png")), quietWorld) := by
  obtain ⟨w, hexec⟩ : ∃ w, (Act.ofFailable (.ok [.ofText .execTask "Parrot listen"]) >>=
      pirates.afterImports none).perform quietWorld = (.ok [.user ""], w) :=
    Act.exists_perform_eq (by decide +kernel)
  have hloot : (Act.ofFailable (.ok [.ofText .image "map.png"]) >>=
      pirates.afterImports (some " loot/main.chat")).perform quietWorld =
        (.ok [.ofText .image " loot/map.png"], quietWorld) := rfl
  have hagain : (Act.ofFailable (.ok [.ofText .image " loot/map.png"]) >>=
      pirates.afterImports (some " loot/main.chat")).perform quietWorld =
        (.error (.error (.notFound "File" "loot/map.png")), quietWorld) := rfl
  refine ⟨⟨w, ?_, ?_⟩, ?_, ?_⟩
  · exact Resolves.perform_eq ⟨_, _, .other_ok rfl (.nil _ _ _), hexec⟩
  · exact Resolves.perform_eq ⟨_, _, .nil _ _ w, rfl⟩
  · exact Resolves.perform_eq ⟨_, _, .other_ok rfl (.nil _ _ _), hloot⟩
  · exact Resolves.perform_eq ⟨_, _, .other_ok rfl (.nil _ _ _), hagain⟩

end Colloquy.Resolver
