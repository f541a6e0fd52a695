import Colloquy.Proofs.Directive.Expansion
import Colloquy.Proofs.Directive.Passes
import Mathlib.Data.List.Nodup
import Mathlib.Data.List.Perm.Subperm

/-!
# Colloquy — import cycles

Following imports ends, however the chats import each other. It ends in an import cycle
exactly if it meets a directive that leads to a chat which is still being expanded, be it
an ancestor in the expansion or the chat that the messages come from
(`Resolver.resolveMessages_importCycle_iff`). A chat that was expanded before, next to the
directive or on another branch, is no cycle.

* `Expansion.Meets` — a directive of an expansion, with the chats that are being expanded.
-/

namespace Colloquy

/-- The failure is no import cycle. -/
def Failure.NoCycle (f : Failure) : Prop :=
  ∀ reference, f ≠ .error (.importCycle reference)

namespace Expansion

/-- A directive is met that leads to a place, while the chats at some places are being expanded, the
innermost first. -/
inductive Meets : List Expansion → List Place → String → Place → Prop
  | here {es inner : List Expansion} {reference : String} {place : Place}
      (h : .node reference place inner ∈ es) : Meets es [] reference place
  | within {es inner : List Expansion} {outer reference : String} {around place : Place}
      {ancestors : List Place} (h : .node outer around inner ∈ es)
      (hmeets : Meets inner ancestors reference place) :
      Meets es (ancestors ++ [around]) reference place

variable {e : Expansion} {es inner : List Expansion} {ancestors : List Place}
  {outer reference : String} {around place : Place}

theorem not_meets_nil : ¬ Meets [] ancestors reference place := by
  intro h
  cases h with
  | here h | within h _ => simp at h

theorem meets_cons_iff :
    Meets (e :: es) ancestors reference place ↔
      Meets [e] ancestors reference place ∨ Meets es ancestors reference place := by
  constructor
  · intro h
    cases h with
    | here h =>
      rcases List.mem_cons.mp h with rfl | h
      · exact Or.inl (.here (List.mem_singleton_self _))
      · exact Or.inr (.here h)
    | within h hmeets =>
      rcases List.mem_cons.mp h with rfl | h
      · exact Or.inl (.within (List.mem_singleton_self _) hmeets)
      · exact Or.inr (.within h hmeets)
  · rintro (h | h)
    · cases h with
      | here h => exact .here (List.mem_cons.mpr (Or.inl (List.mem_singleton.mp h)))
      | within h hmeets =>
        exact .within (List.mem_cons.mpr (Or.inl (List.mem_singleton.mp h))) hmeets
    · cases h with
      | here h => exact .here (List.mem_cons_of_mem _ h)
      | within h hmeets => exact .within (List.mem_cons_of_mem _ h) hmeets

theorem meets_node_iff :
    Meets [.node outer around inner] ancestors reference place ↔
      (ancestors = [] ∧ reference = outer ∧ place = around) ∨
        ∃ nearer, ancestors = nearer ++ [around] ∧ Meets inner nearer reference place := by
  constructor
  · intro h
    cases h with
    | here h =>
      obtain ⟨rfl, rfl, rfl⟩ := Expansion.node.inj (List.mem_singleton.mp h)
      exact Or.inl ⟨rfl, rfl, rfl⟩
    | within h hmeets =>
      obtain ⟨rfl, rfl, rfl⟩ := Expansion.node.inj (List.mem_singleton.mp h)
      exact Or.inr ⟨_, rfl, hmeets⟩
  · rintro (⟨rfl, rfl, rfl⟩ | ⟨nearer, rfl, hmeets⟩)
    · exact .here (List.mem_singleton_self _)
    · exact .within (List.mem_singleton_self _) hmeets

/-- A directive is met that leads to a chat which is being expanded. -/
def Closes (es : List Expansion) (chain : List Place) (reference : String) : Prop :=
  ∃ ancestors place, Meets es ancestors reference place ∧ place ∈ ancestors ++ chain

variable {chain : List Place}

theorem not_closes_nil : ¬ Closes [] chain reference := by
  rintro ⟨_, _, hmeets, -⟩
  exact not_meets_nil hmeets

theorem closes_cons_iff :
    Closes (e :: es) chain reference ↔ Closes [e] chain reference ∨ Closes es chain reference := by
  constructor
  · rintro ⟨ancestors, place, hmeets, hmem⟩
    exact (meets_cons_iff.mp hmeets).imp (fun h => ⟨ancestors, place, h, hmem⟩)
      fun h => ⟨ancestors, place, h, hmem⟩
  · rintro (⟨ancestors, place, hmeets, hmem⟩ | ⟨ancestors, place, hmeets, hmem⟩)
    · exact ⟨ancestors, place, meets_cons_iff.mpr (Or.inl hmeets), hmem⟩
    · exact ⟨ancestors, place, meets_cons_iff.mpr (Or.inr hmeets), hmem⟩

/-- An expansion closes a cycle where it starts, or further inside, where its own chat is being
expanded too. -/
theorem closes_node_iff :
    Closes [.node outer around inner] chain reference ↔
      (reference = outer ∧ around ∈ chain) ∨ Closes inner (around :: chain) reference := by
  constructor
  · rintro ⟨ancestors, place, hmeets, hmem⟩
    rcases meets_node_iff.mp hmeets with ⟨rfl, rfl, rfl⟩ | ⟨nearer, rfl, hinner⟩
    · exact Or.inl ⟨rfl, hmem⟩
    · exact Or.inr ⟨nearer, place, hinner, by simpa using hmem⟩
  · rintro (⟨rfl, hmem⟩ | ⟨nearer, place, hinner, hmem⟩)
    · exact ⟨[], around, meets_node_iff.mpr (Or.inl ⟨rfl, rfl, rfl⟩), hmem⟩
    · exact ⟨nearer ++ [around], place, meets_node_iff.mpr (Or.inr ⟨nearer, rfl, hinner⟩),
        by simpa using hmem⟩

end Expansion

namespace Resolver

variable {σ : Type} {r : Resolver σ}

-- ---------------------------------------------------------------------------
-- Failures that are no cycles
-- ---------------------------------------------------------------------------

theorem noCycle_notFound (kind reference : String) :
    Failure.NoCycle (.error (.notFound kind reference)) := by
  intro other h
  injection h with h
  injection h with _ hreason
  -- the two reasons end in different letters
  have hlast := congrArg (fun s => s.toList.getLast?) hreason
  simp at hlast

theorem Complains.noCycle {f : Failure} (h : Complains f) : f.NoCycle := by
  cases h with
  | directive | configuration | io | fault => nofun
  | notFound kind reference => exact noCycle_notFound kind reference

theorem FailsOnly.failsOnly_afterImports {E : Failure → Prop} (h : r.FailsOnly E)
    (origin? : Option String) (messages : List Message) :
    Act.FailsOnly E (r.afterImports origin? messages) := by
  have hall : ∀ out : List Message, (∀ m ∈ out, True) → True := fun _ _ => trivial
  refine (h.ensures_tasks (P := fun _ => True) (fun _ _ _ => trivial) (fun _ => trivial)
    (fun _ => trivial) fun _ => trivial).bind fun left _ => ?_
  refine (h.ensures_jobs (P := fun _ => True) (fun _ _ _ => trivial) (fun _ _ _ _ => trivial)
    fun _ => trivial).bind fun left _ => ?_
  exact (h.ensures_fileContents (P := fun _ => True) (fun _ _ _ => trivial)
    (fun _ _ => trivial) fun _ _ _ _ _ => trivial).imp hall

-- ---------------------------------------------------------------------------
-- Cycles of imports
-- ---------------------------------------------------------------------------

/-- The collaborators of the resolver report no import cycle. -/
def ReportsNoCycle (r : Resolver σ) : Prop :=
  ∀ engine ∈ r.workflows?, engine.FailsOnly Failure.NoCycle

theorem ReportsNoCycle.failsOnly (h : r.ReportsNoCycle) : r.FailsOnly Failure.NoCycle :=
  ⟨fun _ hf => hf.noCycle, h⟩

/-- Where resolving a chat ends in a cycle, its imports ended in it. -/
theorem ReportsNoCycle.afterImports_importCycle_iff (h : r.ReportsNoCycle)
    {origin? : Option String} {imported result : Except Failure (List Message)} {w w' : World σ}
    (hafter : (Act.ofFailable imported >>= r.afterImports origin?).perform w = (result, w'))
    (reference : String) :
    result = .error (.error (.importCycle reference)) ↔
      imported = .error (.error (.importCycle reference)) := by
  cases imported with
  | error f =>
    obtain ⟨rfl, -⟩ := Prod.mk.inj hafter
    exact ⟨fun hf => congrArg _ (Except.error.inj hf), fun hf => congrArg _ (Except.error.inj hf)⟩
  | ok messages =>
    refine ⟨fun hresult => ?_, nofun⟩
    rw [hresult] at hafter
    have hno := (h.failsOnly.failsOnly_afterImports origin? messages).of_error hafter
    exact absurd rfl (hno reference)

/-- Following imports ends in a cycle exactly where the expansion closes one. -/
theorem Imports.importCycle_iff (hreports : r.ReportsNoCycle) {chain : List Place}
    {origin? : Option String} {messages : List Message} {w w' : World σ} {es : List Expansion}
    {result : Except Failure (List Message)}
    (h : r.Imports chain origin? messages w es result w') (reference : String) :
    result = .error (.error (.importCycle reference)) ↔
      Expansion.Closes es chain reference := by
  induction h with
  | nil => exact ⟨nofun, fun h => absurd h Expansion.not_closes_nil⟩
  | other _ _ ih => exact map_eq_error_iff.trans ih
  | missing _ _ =>
    refine ⟨fun h => ?_, fun h => absurd h Expansion.not_closes_nil⟩
    exact absurd (Except.error.inj h) (noCycle_notFound _ _ reference)
  | cycle _ hon =>
    rw [Expansion.closes_node_iff]
    refine ⟨fun h => ?_, ?_⟩
    · injection h with h
      injection h with h
      injection h with h _
      exact Or.inl ⟨h.symm, hon⟩
    · rintro (⟨rfl, -⟩ | h)
      · rfl
      · exact absurd h Expansion.not_closes_nil
  | unreadable _ hoff hread =>
    rw [Expansion.closes_node_iff]
    refine ⟨fun h => ?_, ?_⟩
    · exact absurd (Except.error.inj h) ((complains_of_readText hread).noCycle reference)
    · rintro (⟨-, hon⟩ | h)
      · exact absurd hon hoff
      · exact absurd h Expansion.not_closes_nil
  | stuck h _ hafter ih =>
    rw [Expansion.closes_node_iff, hreports.afterImports_importCycle_iff hafter reference, ih]
    exact ⟨Or.inr, fun h' => h'.resolve_left fun hon => h.off hon.2⟩
  | spliced h _ hafter _ ih ihrest =>
    have hinner := (hreports.afterImports_importCycle_iff hafter reference).trans ih
    rw [Expansion.closes_cons_iff, Expansion.closes_node_iff, ← hinner, map_eq_error_iff, ihrest]
    refine ⟨Or.inr, ?_⟩
    rintro ((hon | hspliced) | hrest)
    · exact absurd hon.2 h.off
    · exact absurd hspliced nofun
    · exact hrest

/-- A directive leads to a place of the tree, and the chats that are being expanded while it is met
stand at different ones. -/
structure Apart (r : Resolver σ) (chain ancestors : List Place) (place : Place) : Prop where
  mem_places : place ∈ r.files.places
  subset_places : ancestors ⊆ r.files.places
  nodup : (ancestors ++ chain).Nodup

theorem Enters.apart {chain : List Place} {origin? : Option String} {m : Message} {path : String}
    {here : Place} {chosen : List Message} (h : r.Enters chain origin? m path here chosen)
    (hnodup : chain.Nodup) {inner : List Expansion} {outer reference : String} {place : Place}
    {ancestors : List Place}
    (hinner : ∀ {nearer}, Expansion.Meets inner nearer reference place → (here :: chain).Nodup →
      r.Apart (here :: chain) nearer place)
    (hmeets : Expansion.Meets [.node outer here inner] ancestors reference place) :
    r.Apart chain ancestors place := by
  rcases Expansion.meets_node_iff.mp hmeets with
    ⟨rfl, -, rfl⟩ | ⟨nearer, rfl, hnearest⟩
  · exact ⟨h.mem_places, List.nil_subset _, hnodup⟩
  · have hnearer := hinner hnearest (List.nodup_cons.mpr ⟨h.off, hnodup⟩)
    refine ⟨hnearer.mem_places, ?_, ?_⟩
    · exact List.append_subset.mpr
        ⟨hnearer.subset_places, List.cons_subset.mpr ⟨h.mem_places, List.nil_subset _⟩⟩
    · rw [List.append_assoc]
      exact hnearer.nodup

theorem Imports.apart {chain : List Place} {origin? : Option String} {messages : List Message}
    {w w' : World σ} {es : List Expansion} {result : Except Failure (List Message)}
    (h : r.Imports chain origin? messages w es result w') (hnodup : chain.Nodup)
    {ancestors : List Place} {reference : String} {place : Place}
    (hmeets : Expansion.Meets es ancestors reference place) : r.Apart chain ancestors place := by
  induction h generalizing ancestors with
  | nil => exact absurd hmeets Expansion.not_meets_nil
  | other _ _ ih => exact ih hnodup hmeets
  | missing _ _ => exact absurd hmeets Expansion.not_meets_nil
  | cycle h _ | unreadable h _ _ =>
    rcases Expansion.meets_node_iff.mp hmeets with ⟨rfl, -, rfl⟩ | ⟨_, -, hinner⟩
    · exact ⟨h.mem_places, List.nil_subset _, hnodup⟩
    · exact absurd hinner Expansion.not_meets_nil
  | stuck h _ _ ih => exact h.apart hnodup (fun hinner hinnerNodup => ih hinnerNodup hinner) hmeets
  | spliced h _ _ _ ih ihrest =>
    rcases Expansion.meets_cons_iff.mp hmeets with hmeets | hmeets
    · exact h.apart hnodup (fun hinner hinnerNodup => ih hinnerNodup hinner) hmeets
    · exact ihrest hnodup hmeets

/-- So an expansion is no deeper than there are places in the tree. -/
theorem Apart.length_le {chain ancestors : List Place} {place : Place}
    (h : r.Apart chain ancestors place) : ancestors.length ≤ r.files.places.length :=
  (List.subperm_of_subset (List.nodup_append.mp h.nodup).1 h.subset_places).length_le

theorem nodup_originChain (r : Resolver σ) (origin? : Option String) :
    (r.originChain origin?).Nodup := by
  unfold originChain
  split
  · split
    · exact List.nodup_singleton _
    · exact List.nodup_nil
  · exact List.nodup_nil

/-- Resolving messages goes through a finite expansion, whose depth is bounded by the places of the
file tree, and ends in an import cycle exactly if a directive of the expansion leads to a chat that
is being expanded when it is met, or to the one that the messages come from. -/
theorem resolveMessages_importCycle_iff (r : Resolver σ) (hreports : r.ReportsNoCycle)
    (messages : List Message) (origin? : Option String) (w : World σ) :
    (∃ es result w', r.Resolves (r.originChain origin?) origin? messages w es result w') ∧
      ∀ es result w', r.Resolves (r.originChain origin?) origin? messages w es result w' →
        (r.resolveMessages messages origin?).perform w = (result, w') ∧
        (∀ ancestors reference place, Expansion.Meets es ancestors reference place →
          r.Apart (r.originChain origin?) ancestors place ∧
            ancestors.length ≤ r.files.places.length) ∧
        ∀ reference, result = .error (.error (.importCycle reference)) ↔
          Expansion.Closes es (r.originChain origin?) reference := by
  obtain ⟨es, hes⟩ := r.exists_resolves (r.originChain origin?) origin? messages w
  refine ⟨⟨es, _, _, hes⟩, fun es result w' h => ⟨h.perform_eq,
    fun ancestors reference place hmeets => ?_, fun reference => ?_⟩⟩
  · obtain ⟨imported, w₁, himports, -⟩ := h
    have hapart := himports.apart (r.nodup_originChain origin?) hmeets
    exact ⟨hapart, hapart.length_le⟩
  · obtain ⟨imported, w₁, himports, hafter⟩ := h
    rw [hreports.afterImports_importCycle_iff hafter, himports.importCycle_iff hreports]

-- ---------------------------------------------------------------------------
-- A chat that is named twice, and a ring of chats
-- ---------------------------------------------------------------------------

/-- An engine that has no workflows. -/
def idleEngine : WorkflowEngine Unit where
  workflow := fun name => Act.fail (.notFound "Workflow" name)
  loadJob := fun path => Act.fail (.notFound "Job" path)
  produce := fun _ => pure ()

/-- Files with a chat that imports another, and two chats that import each other. -/
def ringFiles : FileTree where
  root :=
    .dir
      [("hello.chat", .file "user: hello".toUTF8),
       ("outer.chat", .file "import: hello.chat".toUTF8),
       ("ring",
        .dir
          [("one.chat", .file "import: two.chat".toUTF8),
           ("two.chat", .file "last: ../ring/./one.chat".toUTF8)])]
  base := []

def ringResolver : Resolver Unit where
  files := ringFiles
  workflows? := some idleEngine

theorem reportsNoCycle_ringResolver : ringResolver.ReportsNoCycle := by
  intro engine hengine
  obtain rfl := Option.some.inj hengine
  exact ⟨fun name => Act.ensures_fail (noCycle_notFound _ name),
    fun path => Act.ensures_fail (noCycle_notFound _ path), fun _ => Act.ensures_pure trivial⟩

/-- A chat is imported three times, twice next to each other and once through another chat, and no
cycle is reported; one is where a chat reaches itself by another spelling of its path. -/
theorem resolveMessages_importCycle_iff_ring :
    ringResolver.ReportsNoCycle ∧
    (∃ es,
      ringResolver.Resolves [] none
        [.ofText .import_ "hello.chat", .ofText .import_ "outer.chat",
         .ofText .import_ "hello.chat"]
        (.start ()) es (.ok [.user "hello", .user "hello", .user "hello"]) (.start ()) ∧
      Expansion.Meets es [] "hello.chat" ["hello.chat"] ∧
      Expansion.Meets es [["outer.chat"]] "hello.chat" ["hello.chat"] ∧
      ∀ reference, ¬ Expansion.Closes es [] reference) ∧
    (∃ es,
      ringResolver.Resolves [] none [.ofText .continue_ "ring/one.chat"] (.start ()) es
        (.error (.error (.importCycle "../ring/./one.chat"))) (.start ()) ∧
      Expansion.Closes es [] "../ring/./one.chat") := by
  have hreports := reportsNoCycle_ringResolver
  have hafter : ∀ origin? w, (Act.ofFailable (.ok [.user "hello"]) >>=
      ringResolver.afterImports origin?).perform w = (.ok [.user "hello"], w) := fun _ _ => rfl
  have hhello : ∀ chain origin? rest w es out, ["hello.chat"] ∉ chain →
      ringResolver.find? "hello.chat" origin? = some "hello.chat" →
      ringResolver.Imports chain origin? rest w es (.ok out) w →
      ringResolver.Imports chain origin? (.ofText .import_ "hello.chat" :: rest) w
        (.node "hello.chat" ["hello.chat"] [] :: es) (.ok (.user "hello" :: out)) w := by
    intro chain origin? rest w es out hoff hfind hrest
    have henters : ringResolver.Enters chain origin? (.ofText .import_ "hello.chat") "hello.chat"
        ["hello.chat"] [.user "hello"] := ⟨⟨rfl, hfind, _, rfl⟩, hoff, _, rfl, rfl⟩
    exact .spliced henters (.other_ok rfl (.nil _ _ w)) (hafter _ w) hrest
  have houter : ringResolver.Enters [] none (.ofText .import_ "outer.chat") "outer.chat"
      ["outer.chat"] [.ofText .import_ "hello.chat"] :=
    ⟨⟨rfl, rfl, _, rfl⟩, List.not_mem_nil, _, rfl, rfl⟩
  have hone : ringResolver.Enters [] none (.ofText .continue_ "ring/one.chat") "ring/one.chat"
      ["ring", "one.chat"] [.ofText .import_ "two.chat"] :=
    ⟨⟨rfl, rfl, _, rfl⟩, List.not_mem_nil, _, rfl, rfl⟩
  have htwo : ringResolver.Enters [["ring", "one.chat"]] (some "ring/one.chat")
      (.ofText .import_ "two.chat") "ring/two.chat" ["ring", "two.chat"]
      [.ofText .last "../ring/./one.chat"] :=
    ⟨⟨rfl, rfl, _, rfl⟩, by decide, _, rfl, rfl⟩
  have hback : ringResolver.Names (some "ring/two.chat") (.ofText .last "../ring/./one.chat")
      "../ring/./one.chat" ["ring", "one.chat"] := ⟨rfl, rfl, _, rfl⟩
  have hthrice : ringResolver.Resolves (ringResolver.originChain none) none
      [.ofText .import_ "hello.chat", .ofText .import_ "outer.chat", .ofText .import_ "hello.chat"]
      (.start ())
      [.node "hello.chat" ["hello.chat"] [],
       .node "outer.chat" ["outer.chat"] [.node "hello.chat" ["hello.chat"] []],
       .node "hello.chat" ["hello.chat"] []]
      (.ok [.user "hello", .user "hello", .user "hello"]) (.start ()) :=
    ⟨_, _, hhello _ _ _ _ _ _ (by decide) rfl
      (.spliced houter (hhello _ _ _ _ _ _ (by decide) rfl (.nil _ _ _)) (hafter _ _)
        (hhello _ _ _ _ _ _ (by decide) rfl (.nil _ _ _))), rfl⟩
  have hring : ringResolver.Resolves (ringResolver.originChain none) none
      [.ofText .continue_ "ring/one.chat"] (.start ())
      [.node "ring/one.chat" ["ring", "one.chat"]
        [.node "two.chat" ["ring", "two.chat"]
          [.node "../ring/./one.chat" ["ring", "one.chat"] []]]]
      (.error (.error (.importCycle "../ring/./one.chat"))) (.start ()) :=
    ⟨_, _, .stuck hone (.stuck htwo (.cycle hback (by decide)) rfl) rfl, rfl⟩
  have hiff := resolveMessages_importCycle_iff ringResolver hreports
  refine ⟨hreports, ⟨_, hthrice, .here List.mem_cons_self, ?_, fun reference => ?_⟩,
    ⟨_, hring, ?_⟩⟩
  · exact .within (List.mem_cons_of_mem _ List.mem_cons_self) (.here List.mem_cons_self)
  · exact fun hcloses => absurd ((((hiff _ _ _).2 _ _ _ hthrice).2.2 reference).mpr hcloses) nofun
  · exact (((hiff _ _ _).2 _ _ _ hring).2.2 _).mp rfl

end Resolver

end Colloquy
