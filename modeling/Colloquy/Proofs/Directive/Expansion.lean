import Colloquy.Directive.Import
import Colloquy.Proofs.Act

/-!
# Colloquy — expansions of imports

Resolving messages goes into the chats that they name, and into those that these name in
turn. What it goes into is a finite tree (`Expansion`), and one relation follows it through
the tree (`Resolver.Imports`, `Resolver.Resolves`): each rule is one way in which a directive
ends, and none of them bounds the depth. Every list of messages has such a tree
(`Resolver.exists_resolves`), since the chats that are being expanded stand at different
places of the file tree, and the tree tells what the messages become
(`Resolver.Resolves.perform_eq`).
-/

namespace Colloquy

/-- A directive that named a chat: its reference, the place of the chat, and the directives that
were met while that chat was expanded. -/
inductive Expansion where
  | node (reference : String) (place : Place) (inner : List Expansion)

-- ---------------------------------------------------------------------------
-- What references lead to
-- ---------------------------------------------------------------------------

theorem FileTree.exists_locate_of_hasPath {files : FileTree} {path : String}
    (h : files.hasPath path = true) : ∃ here node, files.locate path = .found (here, node) := by
  unfold hasPath at h
  split at h
  · next found hfound => exact ⟨found.1, found.2, hfound⟩
  · simp at h

/-- A path that is found leads to something. -/
theorem FileSearch.hasPath_of_find {search : FileSearch} {files : FileTree}
    {reference path : String} {origin? : Option String}
    (h : search.find files reference origin? = some path) : files.hasPath path = true := by
  unfold find at h
  simp only at h
  split at h
  · simp at h
  · split at h
    · next hpath =>
      rw [← Option.some.inj h]
      exact hpath
    · split at h
      · next hnearby =>
        rw [← Option.some.inj h]
        split at hnearby
        · simp at hnearby
        · exact List.find?_some hnearby
      · unfold registered? at h
        split at h
        · exact (Option.filter_eq_some_iff.mp h).2
        · simp at h

namespace Resolver

variable {σ : Type}

/-- The directive names a chat: a path leads to its place. -/
structure Names (r : Resolver σ) (origin? : Option String) (m : Message) (path : String)
    (here : Place) : Prop where
  directive : m.role.isImportDirective = true
  find : r.find? m.trimmedText origin? = some path
  located : ∃ node, r.files.locate path = .found (here, node)

/-- The messages of a chat that a directive takes. -/
def excerpt (r : Resolver σ) (m : Message) (text : String) : List Message :=
  selectImported m.role (r.scanner.parse text .user)

/-- The directive goes into a chat that is not being expanded yet, and reads these messages. -/
structure Enters (r : Resolver σ) (chain : List Place) (origin? : Option String) (m : Message)
    (path : String) (here : Place) (chosen : List Message) : Prop
    extends r.Names origin? m path here where
  off : here ∉ chain
  reads : ∃ text, r.files.readText path = .ok text ∧ chosen = r.excerpt m text

theorem exists_names {r : Resolver σ} {origin? : Option String} {m : Message} {path : String}
    (hrole : m.role.isImportDirective = true) (hfind : r.find? m.trimmedText origin? = some path) :
    ∃ here, r.Names origin? m path here := by
  obtain ⟨here, node, hlocated⟩ :=
    FileTree.exists_locate_of_hasPath (FileSearch.hasPath_of_find hfind)
  exact ⟨here, hrole, hfind, node, hlocated⟩

theorem Names.mem_places {r : Resolver σ} {origin? : Option String} {m : Message} {path : String}
    {here : Place} (h : r.Names origin? m path here) : here ∈ r.files.places := by
  obtain ⟨node, hlocated⟩ := h.located
  exact FileTree.mem_places_of_locate hlocated

-- ---------------------------------------------------------------------------
-- One directive
-- ---------------------------------------------------------------------------

section

variable {r : Resolver σ} {chain : List Place} {origin? : Option String} {m : Message}
  {path : String} {here : Place}

theorem importDirective_of_missing (nested : Nested r chain)
    (hfind : r.find? m.trimmedText origin? = none) :
    r.importDirective origin? chain nested m = Act.fail (.notFound "Import" m.trimmedText) := by
  unfold importDirective
  simp only [hfind]

theorem Names.importDirective_of_mem (h : r.Names origin? m path here) (nested : Nested r chain)
    (hon : here ∈ chain) :
    r.importDirective origin? chain nested m = Act.fail (.importCycle m.trimmedText) := by
  obtain ⟨node, hlocated⟩ := h.located
  unfold importDirective
  simp only [h.find]
  split
  · next other _ hother =>
    obtain ⟨rfl, -⟩ := Prod.mk.inj (Access.found.inj (hother.symm.trans hlocated))
    exact dif_pos hon
  · next hother => exact absurd hlocated (hother here node)

theorem Names.importDirective_of_not_mem (h : r.Names origin? m path here)
    (nested : Nested r chain) (hoff : here ∉ chain) :
    r.importDirective origin? chain nested m =
      Act.ofExcept (r.files.readText path) >>= fun text =>
        nested here h.mem_places hoff (r.excerpt m text) path := by
  obtain ⟨node, hlocated⟩ := h.located
  unfold importDirective
  simp only [h.find]
  split
  · next other _ hother =>
    obtain ⟨rfl, -⟩ := Prod.mk.inj (Access.found.inj (hother.symm.trans hlocated))
    exact dif_neg hoff
  · next hother => exact absurd hlocated (hother here node)

end

-- ---------------------------------------------------------------------------
-- Expansions
-- ---------------------------------------------------------------------------

/-- The imports of messages are followed from a world to another, while the chats of a chain are
being expanded. A directive that leads nowhere, back to a chat of the chain, or to a chat that
cannot be read or resolved ends this. -/
inductive Imports (r : Resolver σ) :
    List Place → Option String → List Message → World σ → List Expansion →
      Except Failure (List Message) → World σ → Prop
  | nil (chain : List Place) (origin? : Option String) (w : World σ) :
      Imports r chain origin? [] w [] (.ok []) w
  | other {chain : List Place} {origin? : Option String} {m : Message} {rest : List Message}
      {w w' : World σ} {es : List Expansion} {result : Except Failure (List Message)}
      (h : m.role.isImportDirective = false)
      (hrest : Imports r chain origin? rest w es result w') :
      Imports r chain origin? (m :: rest) w es (result.map ([m] ++ ·)) w'
  | missing {chain : List Place} {origin? : Option String} {m : Message} {rest : List Message}
      {w : World σ} (h : m.role.isImportDirective = true)
      (hfind : r.find? m.trimmedText origin? = none) :
      Imports r chain origin? (m :: rest) w []
        (.error (.error (.notFound "Import" m.trimmedText))) w
  | cycle {chain : List Place} {origin? : Option String} {m : Message} {rest : List Message}
      {path : String} {here : Place} {w : World σ} (h : r.Names origin? m path here)
      (hon : here ∈ chain) :
      Imports r chain origin? (m :: rest) w [.node m.trimmedText here []]
        (.error (.error (.importCycle m.trimmedText))) w
  | unreadable {chain : List Place} {origin? : Option String} {m : Message} {rest : List Message}
      {path : String} {here : Place} {w : World σ} {e : Error} (h : r.Names origin? m path here)
      (hoff : here ∉ chain) (hread : r.files.readText path = .error e) :
      Imports r chain origin? (m :: rest) w [.node m.trimmedText here []] (.error (.error e)) w
  | stuck {chain : List Place} {origin? : Option String} {m : Message}
      {rest chosen : List Message} {path : String} {here : Place} {w w₁ w' : World σ}
      {inner : List Expansion} {imported : Except Failure (List Message)} {f : Failure}
      (h : r.Enters chain origin? m path here chosen)
      (hinner : Imports r (here :: chain) (some path) (clean .skip (clear .clear chosen)) w inner
        imported w₁)
      (hafter : (Act.ofFailable imported >>= r.afterImports (some path)).perform w₁ =
        (.error f, w')) :
      Imports r chain origin? (m :: rest) w [.node m.trimmedText here inner] (.error f) w'
  | spliced {chain : List Place} {origin? : Option String} {m : Message}
      {rest chosen spliced : List Message} {path : String} {here : Place} {w w₁ w₂ w' : World σ}
      {inner es : List Expansion} {imported result : Except Failure (List Message)}
      (h : r.Enters chain origin? m path here chosen)
      (hinner : Imports r (here :: chain) (some path) (clean .skip (clear .clear chosen)) w inner
        imported w₁)
      (hafter : (Act.ofFailable imported >>= r.afterImports (some path)).perform w₁ =
        (.ok spliced, w₂))
      (hrest : Imports r chain origin? rest w₂ es result w') :
      Imports r chain origin? (m :: rest) w (.node m.trimmedText here inner :: es)
        (result.map (spliced ++ ·)) w'

theorem Imports.other_ok {r : Resolver σ} {chain : List Place} {origin? : Option String}
    {m : Message} {rest out : List Message} {w w' : World σ} {es : List Expansion}
    (h : m.role.isImportDirective = false)
    (hrest : r.Imports chain origin? rest w es (.ok out) w') :
    r.Imports chain origin? (m :: rest) w es (.ok (m :: out)) w' :=
  (Imports.other h hrest :)

/-- Messages are resolved from a world to another, while the chats of a chain are being expanded. -/
def Resolves (r : Resolver σ) (chain : List Place) (origin? : Option String)
    (messages : List Message) (w : World σ) (es : List Expansion)
    (result : Except Failure (List Message)) (w' : World σ) : Prop :=
  ∃ imported w₁,
    r.Imports chain origin? (clean .skip (clear .clear messages)) w es imported w₁ ∧
      (Act.ofFailable imported >>= r.afterImports origin?).perform w₁ = (result, w')

-- ---------------------------------------------------------------------------
-- Every list of messages has an expansion
-- ---------------------------------------------------------------------------

/-- How the chats that are named are resolved in turn. -/
def nestedPipeline (r : Resolver σ) (chain : List Place) : Nested r chain :=
  fun here _ _ chosen path => r.pipeline (here :: chain) (some path) chosen

theorem pipeline_eq (r : Resolver σ) (chain : List Place) (origin? : Option String)
    (messages : List Message) :
    r.pipeline chain origin? messages =
      r.importsWith origin? chain (r.nestedPipeline chain) (clean .skip (clear .clear messages)) >>=
        r.afterImports origin? := by
  rw [pipeline]
  rfl

theorem perform_importsWith_other (r : Resolver σ) (origin? : Option String) (chain : List Place)
    (nested : Nested r chain) {m : Message} (h : m.role.isImportDirective = false)
    (rest : List Message) (w : World σ) :
    (r.importsWith origin? chain nested (m :: rest)).perform w =
      (((r.importsWith origin? chain nested rest).perform w).1.map ([m] ++ ·),
        ((r.importsWith origin? chain nested rest).perform w).2) := by
  rw [importsWith, h]
  exact Act.perform_bind_pure _ ([m] ++ ·) w

theorem perform_importsWith_directive (r : Resolver σ) (origin? : Option String)
    (chain : List Place) (nested : Nested r chain) {m : Message}
    (h : m.role.isImportDirective = true) (rest : List Message) (w : World σ) :
    (r.importsWith origin? chain nested (m :: rest)).perform w =
      match (r.importDirective origin? chain nested m).perform w with
      | (.ok here, w₁) =>
        (((r.importsWith origin? chain nested rest).perform w₁).1.map (here ++ ·),
          ((r.importsWith origin? chain nested rest).perform w₁).2)
      | (.error f, w₁) => (.error f, w₁) := by
  rw [importsWith, h, if_pos rfl, Act.perform_bind]
  rcases (r.importDirective origin? chain nested m).perform w with ⟨f | here, w₁⟩
  · rfl
  · exact Act.perform_bind_pure _ (here ++ ·) w₁

theorem perform_pipeline_of_imports {r : Resolver σ} {chain : List Place}
    {origin? : Option String} {messages : List Message} {w w₁ : World σ}
    {imported : Except Failure (List Message)}
    (h : (r.importsWith origin? chain (r.nestedPipeline chain)
      (clean .skip (clear .clear messages))).perform w = (imported, w₁)) :
    (r.pipeline chain origin? messages).perform w =
      (Act.ofFailable imported >>= r.afterImports origin?).perform w₁ := by
  rw [pipeline_eq, Act.perform_bind, Act.perform_bind, h]
  cases imported <;> rfl

/-- A chat that is entered is resolved in turn, while it is being expanded. -/
theorem Enters.importDirective_eq {r : Resolver σ} {chain : List Place} {origin? : Option String}
    {m : Message} {path : String} {here : Place} {chosen : List Message}
    (h : r.Enters chain origin? m path here chosen) :
    r.importDirective origin? chain (r.nestedPipeline chain) m =
      r.pipeline (here :: chain) (some path) chosen := by
  obtain ⟨text, hread, rfl⟩ := h.reads
  rw [h.importDirective_of_not_mem _ h.off, hread]
  rfl

theorem exists_resolves_of_imports {r : Resolver σ} {chain : List Place}
    (himports : ∀ origin? messages w, ∃ es,
      r.Imports chain origin? messages w es
        ((r.importsWith origin? chain (r.nestedPipeline chain) messages).perform w).1
        ((r.importsWith origin? chain (r.nestedPipeline chain) messages).perform w).2)
    (origin? : Option String) (messages : List Message) (w : World σ) :
    ∃ es, r.Resolves chain origin? messages w es
      ((r.pipeline chain origin? messages).perform w).1
      ((r.pipeline chain origin? messages).perform w).2 := by
  obtain ⟨es, h⟩ := himports origin? (clean .skip (clear .clear messages)) w
  exact ⟨es, _, _, h, (perform_pipeline_of_imports rfl).symm⟩

theorem exists_imports (r : Resolver σ) (chain : List Place) (origin? : Option String)
    (messages : List Message) (w : World σ) :
    ∃ es, r.Imports chain origin? messages w es
      ((r.importsWith origin? chain (r.nestedPipeline chain) messages).perform w).1
      ((r.importsWith origin? chain (r.nestedPipeline chain) messages).perform w).2 := by
  -- the chain grows at each chat that is entered, so fewer places are off it; within a chat the
  -- messages are followed one after another
  induction hn : (placesOff r.files chain).length using Nat.strongRecOn
    generalizing chain origin? messages w with
  | ind n ih =>
  induction messages generalizing w with
  | nil => exact ⟨[], .nil chain origin? w⟩
  | cons m rest ihrest =>
    cases hrole : m.role.isImportDirective with
    | false =>
      obtain ⟨es, hrest⟩ := ihrest w
      rw [perform_importsWith_other r origin? chain _ hrole]
      exact ⟨es, .other hrole hrest⟩
    | true =>
      rw [perform_importsWith_directive r origin? chain _ hrole]
      cases hfind : r.find? m.trimmedText origin? with
      | none =>
        rw [importDirective_of_missing _ hfind]
        exact ⟨[], .missing hrole hfind⟩
      | some path =>
        obtain ⟨here, h⟩ := exists_names hrole hfind
        by_cases hon : here ∈ chain
        · rw [h.importDirective_of_mem _ hon]
          exact ⟨_, .cycle h hon⟩
        · cases hread : r.files.readText path with
          | error e =>
            rw [h.importDirective_of_not_mem _ hon, hread]
            exact ⟨_, .unreadable h hon hread⟩
          | ok text =>
            have henters : r.Enters chain origin? m path here (r.excerpt m text) :=
              ⟨h, hon, text, hread, rfl⟩
            have hlt := length_placesOff_cons_lt h.mem_places hon
            obtain ⟨inner, imported, w₁, hinner, hafter⟩ :=
              exists_resolves_of_imports
                (fun origin? messages w => ih _ (hn ▸ hlt) _ origin? messages w rfl)
                (some path) (r.excerpt m text) w
            rw [henters.importDirective_eq]
            rcases hpipeline :
              (r.pipeline (here :: chain) (some path) (r.excerpt m text)).perform w with
              ⟨f | spliced, w₂⟩
            · rw [hpipeline] at hafter
              exact ⟨_, .stuck henters hinner hafter⟩
            · rw [hpipeline] at hafter
              obtain ⟨es, hrest⟩ := ihrest w₂
              exact ⟨_, .spliced henters hinner hafter hrest⟩

/-- Resolving messages goes through a finite expansion. -/
theorem exists_resolves (r : Resolver σ) (chain : List Place) (origin? : Option String)
    (messages : List Message) (w : World σ) :
    ∃ es, r.Resolves chain origin? messages w es
      ((r.pipeline chain origin? messages).perform w).1
      ((r.pipeline chain origin? messages).perform w).2 :=
  exists_resolves_of_imports (r.exists_imports chain) origin? messages w

/-- When resolving succeeds, so do the imports and then the passes after them. -/
theorem exists_imports_of_pipeline {r : Resolver σ} {chain : List Place}
    {origin? : Option String} {messages out : List Message} {w w' : World σ}
    (h : (r.pipeline chain origin? messages).perform w = (.ok out, w')) :
    ∃ es imported w₁,
      r.Imports chain origin? (clean .skip (clear .clear messages)) w es (.ok imported) w₁ ∧
        (r.afterImports origin? imported).perform w₁ = (.ok out, w') := by
  obtain ⟨es, result, w₁, himports, hafter⟩ := r.exists_resolves chain origin? messages w
  rw [h] at hafter
  obtain ⟨imported, rfl, hafter⟩ := Act.exists_of_perform_ofFailable_bind hafter
  exact ⟨es, imported, w₁, himports, hafter⟩

/-- An expansion determines what the imports become, and the world. -/
theorem Imports.perform_eq {r : Resolver σ} {chain : List Place} {origin? : Option String}
    {messages : List Message} {w w' : World σ} {es : List Expansion}
    {result : Except Failure (List Message)}
    (h : r.Imports chain origin? messages w es result w') :
    (r.importsWith origin? chain (r.nestedPipeline chain) messages).perform w = (result, w') := by
  induction h with
  | nil => rfl
  | other hrole _ ih => rw [perform_importsWith_other r _ _ _ hrole, ih]
  | missing hrole hfind =>
    rw [perform_importsWith_directive r _ _ _ hrole, importDirective_of_missing _ hfind]
    rfl
  | cycle h hon =>
    rw [perform_importsWith_directive r _ _ _ h.directive, h.importDirective_of_mem _ hon]
    rfl
  | unreadable h hoff hread =>
    rw [perform_importsWith_directive r _ _ _ h.directive, h.importDirective_of_not_mem _ hoff,
      hread]
    rfl
  | stuck h _ hafter ih =>
    rw [perform_importsWith_directive r _ _ _ h.directive, h.importDirective_eq,
      perform_pipeline_of_imports ih, hafter]
  | spliced h _ hafter _ ih ihrest =>
    rw [perform_importsWith_directive r _ _ _ h.directive, h.importDirective_eq,
      perform_pipeline_of_imports ih, hafter]
    dsimp only
    rw [ihrest]

theorem Resolves.perform_eq {r : Resolver σ} {chain : List Place} {origin? : Option String}
    {messages : List Message} {w w' : World σ} {es : List Expansion}
    {result : Except Failure (List Message)}
    (h : r.Resolves chain origin? messages w es result w') :
    (r.pipeline chain origin? messages).perform w = (result, w') := by
  obtain ⟨imported, w₁, himports, hafter⟩ := h
  rw [perform_pipeline_of_imports himports.perform_eq, hafter]

end Resolver

end Colloquy
