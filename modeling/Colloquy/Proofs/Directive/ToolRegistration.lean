import Colloquy.Directive.ToolRegistration
import Colloquy.Proofs.Act
import Colloquy.Proofs.Tool.Catalogue

/-!
# Colloquy — laws of tool registration

Registering tools takes the tool directives out of the messages and leaves all others, in
their order (`Resolver.ensures_registerTools`). Tools are gathered in two sets, each with
a directive of its own that clears it. What a directive names counts only if its set is
not cleared later, so directives that are cancelled in this way could as well not be there
(`Resolver.registerTools_clears`).

* `Resolver.toolsOf` — the tools that a message names.
* `Resolver.Lists` — what the messages of a list name, one after another.
* `ToolSet`, `Listing.standing` — the two sets, and the tools that stand in them.
* `withoutCancelled` — a conversation without the directives that are cancelled.
-/

namespace Colloquy

/-- The messages that are no tool directives. -/
def withoutToolDirectives (messages : List Message) : List Message :=
  messages.filter fun m => !m.role.isToolDirective

namespace Resolver

variable {σ : Type}

theorem ensures_register (r : Resolver σ) (g : Registration σ) (m : Message) :
    Act.Ensures (fun g' => g'.kept = g.kept ++ withoutToolDirectives [m]) (fun _ => True)
      (r.register g m) := by
  obtain ⟨role, content⟩ := m
  unfold register
  cases role with
  | tool | mcp | kb | association =>
    exact (Act.ensures_true _).bind fun _ _ => Act.ensures_pure (List.append_nil _).symm
  | clearTools | clearAssociations => exact Act.ensures_pure (List.append_nil _).symm
  | _ => exact Act.ensures_pure rfl

theorem ensures_registerAll (r : Resolver σ) (g : Registration σ) (messages : List Message) :
    Act.Ensures (fun g' => g'.kept = g.kept ++ withoutToolDirectives messages) (fun _ => True)
      (r.registerAll g messages) := by
  induction messages generalizing g with
  | nil => exact Act.ensures_pure (List.append_nil _).symm
  | cons m rest ih =>
    refine (r.ensures_register g m).bind fun g₁ hg₁ => (ih g₁).imp fun g₂ hg₂ => ?_
    rw [hg₂, hg₁, List.append_assoc, withoutToolDirectives, withoutToolDirectives,
      ← List.filter_append]
    rfl

/-- All messages but the tool directives are left. -/
theorem ensures_registerTools (r : Resolver σ) (messages : List Message)
    (catalogue : Catalogue σ) :
    Act.Ensures (fun left => left.1 = withoutToolDirectives messages) (fun _ => True)
      (r.registerTools messages catalogue) :=
  (r.ensures_registerAll {} messages).bind fun _ hg => Act.ensures_pure hg

end Resolver

-- ---------------------------------------------------------------------------
-- The two sets
-- ---------------------------------------------------------------------------

/-- The sets in which tools are gathered. -/
inductive ToolSet where
  | general
  | associations
  deriving DecidableEq, Repr

/-- The role of the directives that clear a set. -/
def ToolSet.clearing : ToolSet → Role
  | .general => .clearTools
  | .associations => .clearAssociations

/-- The set into which the tools of a directive go. -/
def Role.toolSet? : Role → Option ToolSet
  | .tool | .mcp | .kb => some .general
  | .association => some .associations
  | _ => none

/-- The set is cleared by one of the messages. -/
def ToolSet.isClearedIn (set : ToolSet) (messages : List Message) : Bool :=
  messages.any fun m => m.role == set.clearing

theorem toolSet?_clearing (set : ToolSet) : set.clearing.toolSet? = none := by
  cases set <;> rfl

/-- The message names tools for a set that is cleared later. -/
def isCancelledBy (m : Message) (later : List Message) : Bool :=
  m.role.toolSet?.any fun set => set.isClearedIn later

/-- The directives that are cancelled. -/
def cancelled : List Message → List Message
  | [] => []
  | m :: later => if isCancelledBy m later then m :: cancelled later else cancelled later

/-- The messages without the directives that are cancelled. -/
def withoutCancelled : List Message → List Message
  | [] => []
  | m :: later =>
    if isCancelledBy m later then withoutCancelled later else m :: withoutCancelled later

/-- A message that is cancelled names tools, so it clears nothing. -/
theorem role_ne_clearing_of_isCancelledBy {m : Message} {later : List Message}
    (h : isCancelledBy m later = true) (set : ToolSet) : m.role ≠ set.clearing := by
  intro hrole
  rw [isCancelledBy, hrole, toolSet?_clearing] at h
  exact absurd h (by simp)

theorem isClearedIn_withoutCancelled (set : ToolSet) (messages : List Message) :
    set.isClearedIn (withoutCancelled messages) = set.isClearedIn messages := by
  induction messages with
  | nil => rfl
  | cons m later ih =>
    rw [withoutCancelled]
    split
    · next h =>
      have hrole : (m.role == set.clearing) = false :=
        beq_false_of_ne (role_ne_clearing_of_isCancelledBy h set)
      rw [ih, ToolSet.isClearedIn, ToolSet.isClearedIn, List.any_cons, hrole, Bool.false_or]
    · exact congrArg (m.role == set.clearing || ·) ih

theorem withoutToolDirectives_withoutCancelled (messages : List Message) :
    withoutToolDirectives (withoutCancelled messages) = withoutToolDirectives messages := by
  induction messages with
  | nil => rfl
  | cons m later ih =>
    have hcons : ∀ rest, withoutToolDirectives (m :: rest) =
        withoutToolDirectives [m] ++ withoutToolDirectives rest := fun rest =>
      List.filter_append [m] rest
    rw [withoutCancelled, hcons later]
    split
    · next h =>
      have hm : withoutToolDirectives [m] = [] := by
        obtain ⟨role, content⟩ := m
        cases role <;> first | rfl | exact absurd h (by simp [isCancelledBy, Role.toolSet?])
      rw [ih, hm, List.nil_append]
    · rw [hcons, ih]

-- ---------------------------------------------------------------------------
-- What messages name
-- ---------------------------------------------------------------------------

/-- A message, and the tools that it named. -/
structure Listing (σ : Type) where
  message : Message
  tools : List (Tool σ)

/-- The tools of the directives for a set that stand after it was cleared last. -/
def Listing.standing {σ : Type} (set : ToolSet) : List (Listing σ) → List (Tool σ)
  | [] => []
  | l :: later =>
    if l.message.role.toolSet? = some set ∧ set.isClearedIn (later.map Listing.message) = false
    then l.tools ++ standing set later
    else standing set later

namespace Registration

variable {σ : Type}

/-- What has been gathered in a set. -/
def gathered (g : Registration σ) : ToolSet → Catalogue σ
  | .general => g.tools
  | .associations => g.associations

/-- Take in a message with the tools that it named. -/
def take (g : Registration σ) (l : Listing σ) : Registration σ :=
  match l.message.role with
  | .tool | .mcp | .kb => { g with tools := g.tools.extend l.tools }
  | .association => { g with associations := g.associations.extend l.tools }
  | .clearTools => { g with tools := {} }
  | .clearAssociations => { g with associations := {} }
  | _ => { g with kept := g.kept ++ [l.message] }

theorem gathered_take (g : Registration σ) (l : Listing σ) (set : ToolSet) :
    (g.take l).gathered set =
      if l.message.role = set.clearing then {}
      else if l.message.role.toolSet? = some set then (g.gathered set).extend l.tools
      else g.gathered set := by
  obtain ⟨⟨role, content⟩, tools⟩ := l
  cases role <;> cases set <;> rfl

/-- A set that is cleared holds what stands after that, and otherwise what it held and what
stands. -/
theorem gathered_foldl_take (g : Registration σ) (listings : List (Listing σ)) (set : ToolSet) :
    (listings.foldl take g).gathered set =
      if set.isClearedIn (listings.map Listing.message) then
        .ofList (Listing.standing set listings)
      else (g.gathered set).extend (Listing.standing set listings) := by
  induction listings generalizing g with
  | nil => rfl
  | cons l later ih =>
    have hany : set.isClearedIn ((l :: later).map Listing.message) =
        (l.message.role == set.clearing || set.isClearedIn (later.map Listing.message)) := rfl
    rw [List.foldl_cons, ih, hany, Listing.standing, gathered_take]
    cases hlater : set.isClearedIn (later.map Listing.message) with
    | true => simp
    | false =>
      by_cases hclears : l.message.role = set.clearing
      · simp [hclears, toolSet?_clearing, Catalogue.ofList]
      · by_cases hnames : l.message.role.toolSet? = some set
        · simp [hclears, hnames, Catalogue.extend_append]
        · simp [hclears, hnames]

end Registration

/-- Whatever the act does to the first of two related worlds, they stay related. -/
def Act.Overlooks {σ α : Type} (R : World σ → World σ → Prop) (act : Act σ α) : Prop :=
  ∀ ⦃w v w' : World σ⦄ ⦃result : Except Failure α⦄, R w v → act.perform w = (result, w') → R w' v

namespace Resolver

variable {σ : Type} {r : Resolver σ} {messages kept : List Message} {listings : List (Listing σ)}
  {w w' : World σ}

/-- The tools that a message names. -/
def toolsOf (r : Resolver σ) (m : Message) : Act σ (List (Tool σ)) :=
  match m.role with
  | .tool => r.workflowDirective m
  | .mcp => r.remoteDirective m
  | .kb => r.knowledgeBaseDirective m
  | .association => r.associationDirective m
  | _ => pure []

theorem register_eq (r : Resolver σ) (g : Registration σ) (m : Message) :
    r.register g m = do return g.take ⟨m, ← r.toolsOf m⟩ := by
  obtain ⟨role, content⟩ := m
  cases role <;> rfl

/-- Messages one after another, with the tools that each named, as worlds follow one another. -/
inductive Lists (r : Resolver σ) : List Message → World σ → List (Listing σ) → World σ → Prop
  | nil {w : World σ} : Lists r [] w [] w
  | cons {m : Message} {rest : List Message} {tools : List (Tool σ)} {listings : List (Listing σ)}
      {w w₁ w' : World σ} (here : (r.toolsOf m).perform w = (.ok tools, w₁))
      (others : Lists r rest w₁ listings w') : Lists r (m :: rest) w (⟨m, tools⟩ :: listings) w'

theorem perform_registerAll_eq_ok_iff {g g' : Registration σ} :
    (r.registerAll g messages).perform w = (.ok g', w') ↔
      ∃ listings, r.Lists messages w listings w' ∧ g' = listings.foldl Registration.take g := by
  induction messages generalizing g w with
  | nil =>
    constructor
    · intro h
      obtain ⟨hg, rfl⟩ := Prod.mk.inj h
      exact ⟨[], .nil, (Except.ok.inj hg).symm⟩
    · rintro ⟨_, ⟨⟩, rfl⟩
      rfl
  | cons m rest ih =>
    rw [registerAll, register_eq, Act.perform_bind_eq_ok_iff]
    constructor
    · rintro ⟨g₁, w₁, hm, hrest⟩
      obtain ⟨tools, w₂, htools, hpure⟩ := Act.perform_bind_eq_ok_iff.mp hm
      obtain ⟨hg₁, rfl⟩ := Prod.mk.inj hpure
      obtain ⟨listings, hlists, rfl⟩ := ih.mp hrest
      exact ⟨_, .cons htools hlists, by rw [← Except.ok.inj hg₁]; rfl⟩
    · rintro ⟨_, _ | ⟨htools, hlists⟩, rfl⟩
      refine ⟨_, _, Act.perform_bind_eq_ok_iff.mpr ⟨_, _, htools, rfl⟩, ih.mpr ?_⟩
      exact ⟨_, hlists, rfl⟩

/-- Messages are not all taken in if the tools of one cannot be had after those of all before it. -/
theorem perform_registerAll_eq_error_iff {g : Registration σ} {f : Failure} :
    (r.registerAll g messages).perform w = (.error f, w') ↔
      ∃ before m after listings w₁, messages = before ++ m :: after ∧
        r.Lists before w listings w₁ ∧ (r.toolsOf m).perform w₁ = (.error f, w') := by
  induction messages generalizing g w with
  | nil =>
    constructor
    · intro h
      exact absurd (congrArg Prod.fst h) nofun
    · rintro ⟨before, m, after, _, _, hmessages, -⟩
      exact absurd hmessages.symm (by simp)
  | cons m rest ih =>
    rw [registerAll, register_eq, Act.perform_bind_eq_error_iff]
    constructor
    · rintro (hm | ⟨g₁, w₁, hm, hrest⟩)
      · rcases Act.perform_bind_eq_error_iff.mp hm with htools | ⟨_, _, _, hpure⟩
        · exact ⟨[], m, rest, [], w, rfl, .nil, htools⟩
        · exact absurd (congrArg Prod.fst hpure) nofun
      · obtain ⟨tools, w₂, htools, hpure⟩ := Act.perform_bind_eq_ok_iff.mp hm
        obtain ⟨-, rfl⟩ := Prod.mk.inj hpure
        obtain ⟨before, m', after, listings, w₃, rfl, hlists, hfails⟩ := ih.mp hrest
        exact ⟨m :: before, m', after, _, w₃, rfl, .cons htools hlists, hfails⟩
    · rintro ⟨before, m', after, listings, w₁, hmessages, hlists, hfails⟩
      cases hlists with
      | nil =>
        obtain ⟨rfl, -⟩ := List.cons.inj hmessages
        exact Or.inl (Act.perform_bind_eq_error_iff.mpr (Or.inl hfails))
      | cons here others =>
        obtain ⟨rfl, hrest⟩ := List.cons.inj hmessages
        refine Or.inr ⟨_, _, Act.perform_bind_eq_ok_iff.mpr ⟨_, _, here, rfl⟩, ih.mpr ?_⟩
        exact ⟨_, m', after, _, w₁, hrest, others, hfails⟩

theorem Lists.map_message (h : r.Lists messages w listings w') :
    listings.map Listing.message = messages := by
  induction h with
  | nil => rfl
  | cons _ _ ih => exact congrArg (_ :: ·) ih

/-- Tools are registered in the order of the two sets, each with what stands in it. -/
theorem perform_registerTools_eq_ok_iff {c c' : Catalogue σ} :
    (r.registerTools messages c).perform w = (.ok (kept, c'), w') ↔
      kept = withoutToolDirectives messages ∧ ∃ listings, r.Lists messages w listings w' ∧
        c' = (c.extend (Listing.standing .general listings)).extend
          (Listing.standing .associations listings) := by
  have hset : ∀ (c : Catalogue σ) (listings : List (Listing σ)) (set : ToolSet),
      c.extend ((listings.foldl Registration.take {}).gathered set).tools =
        c.extend (Listing.standing set listings) := by
    intro c listings set
    rw [Registration.gathered_foldl_take, ← Catalogue.extend_ofList c (Listing.standing _ _)]
    split
    · rfl
    · cases set <;> rfl
  have hextend : ∀ listings : List (Listing σ),
      (c.extend (listings.foldl Registration.take {}).tools.tools).extend
          (listings.foldl Registration.take {}).associations.tools =
        (c.extend (Listing.standing .general listings)).extend
          (Listing.standing .associations listings) := fun listings =>
    (hset _ listings .associations).trans (congrArg (Catalogue.extend · _) (hset c listings .general))
  constructor
  · intro h
    refine ⟨(r.ensures_registerTools messages c).of_ok h, ?_⟩
    obtain ⟨g, w₁, hg, hpure⟩ := Act.perform_bind_eq_ok_iff.mp h
    obtain ⟨hleft, rfl⟩ := Prod.mk.inj hpure
    obtain ⟨listings, hlists, rfl⟩ := perform_registerAll_eq_ok_iff.mp hg
    refine ⟨listings, hlists, ?_⟩
    rw [← hextend]
    exact (Prod.mk.inj (Except.ok.inj hleft)).2.symm
  · rintro ⟨rfl, listings, hlists, rfl⟩
    have hall : (r.registerAll {} messages).perform w =
        (.ok (listings.foldl Registration.take {}), w') :=
      perform_registerAll_eq_ok_iff.mpr ⟨listings, hlists, rfl⟩
    have hkept := (r.ensures_registerAll {} messages).of_ok hall
    refine Act.perform_bind_eq_ok_iff.mpr ⟨_, w', hall, ?_⟩
    rw [hextend, hkept]
    rfl

/-- Without the directives that are cancelled the same tools stand, if they are asked for in
worlds that no collaborator tells apart. -/
theorem Lists.withoutCancelled {R : World σ → World σ → Prop} {v : World σ}
    (h : r.Lists messages w listings w') (hv : R w v)
    (hcancelled : ∀ m ∈ cancelled messages, (r.toolsOf m).Overlooks R)
    (hleft : ∀ m ∈ withoutCancelled messages, (r.toolsOf m).Respects R) :
    ∃ listings' v', r.Lists (withoutCancelled messages) v listings' v' ∧
      ∀ set, Listing.standing set listings' = Listing.standing set listings := by
  induction h generalizing v with
  | nil => exact ⟨[], v, .nil, fun _ => rfl⟩
  | @cons m rest tools listings w w₁ w' here others ih =>
    have hmessages := others.map_message
    rw [cancelled] at hcancelled
    rw [Colloquy.withoutCancelled] at hleft ⊢
    cases hm : isCancelledBy m rest with
    | true =>
      rw [hm] at hcancelled hleft
      obtain ⟨hhere, hcancelled⟩ := List.forall_mem_cons.mp hcancelled
      obtain ⟨listings', v', hlists, hsame⟩ := ih (hhere hv here) hcancelled hleft
      refine ⟨listings', v', hlists, fun set => ?_⟩
      rw [hsame, Listing.standing, hmessages, if_neg]
      rintro ⟨hset, hclear⟩
      have hclear' : set.isClearedIn rest = true := by simpa [isCancelledBy, hset] using hm
      exact Bool.false_ne_true (hclear.symm.trans hclear')
    | false =>
      rw [hm] at hcancelled hleft
      obtain ⟨hhere, hleft⟩ := List.forall_mem_cons.mp hleft
      obtain ⟨v₁, here', hv₁⟩ := hhere hv here
      obtain ⟨listings', v', hlists, hsame⟩ := ih hv₁ hcancelled hleft
      refine ⟨⟨m, tools⟩ :: listings', v', .cons here' hlists, fun set => ?_⟩
      rw [Listing.standing, Listing.standing, hlists.map_message, hmessages,
        isClearedIn_withoutCancelled, hsame]

/-- All messages but the tool directives are left. The catalogue is extended by the tools that stand
after the general tools were cleared last, then by those that stand after associations were. It is
the same without the directives that are cancelled, if no collaborator answers another way without
them. -/
theorem registerTools_clears {c c' : Catalogue σ}
    (h : (r.registerTools messages c).perform w = (.ok (kept, c'), w')) :
    kept = withoutToolDirectives messages ∧
    (∃ listings, r.Lists messages w listings w' ∧
      c' = (c.extend (Listing.standing .general listings)).extend
        (Listing.standing .associations listings)) ∧
    ∀ R : World σ → World σ → Prop, R w w →
      (∀ m ∈ cancelled messages, (r.toolsOf m).Overlooks R) →
      (∀ m ∈ withoutCancelled messages, (r.toolsOf m).Respects R) →
      ∃ v', (r.registerTools (withoutCancelled messages) c).perform w = (.ok (kept, c'), v') := by
  obtain ⟨rfl, listings, hlists, rfl⟩ := perform_registerTools_eq_ok_iff.mp h
  refine ⟨rfl, ⟨listings, hlists, rfl⟩, fun R hw hcancelled hleft => ?_⟩
  obtain ⟨listings', v', hlists', hsame⟩ := hlists.withoutCancelled hw hcancelled hleft
  refine ⟨v', perform_registerTools_eq_ok_iff.mpr ⟨?_, listings', hlists', ?_⟩⟩
  · exact (withoutToolDirectives_withoutCancelled messages).symm
  · rw [hsame, hsame]

-- ---------------------------------------------------------------------------
-- Collaborators that change nothing
-- ---------------------------------------------------------------------------

/-- A resolver whose workflows have whatever task is asked for, and whose knowledge bases have
whatever database. -/
def obliging : Resolver Unit :=
  let workflow : Workflow Unit :=
    { name := "calc", taskInfo := fun task => pure ⟨task, "", []⟩, exportedTasks := pure [],
      allTasks := pure ["add", "mul"], execExports := pure [],
      job := fun _ _ _ => Act.fail (.collaborator "no jobs") }
  let kb : KnowledgeBase Unit :=
    { databases := pure [], databaseInfo := fun name => pure { name := name },
      children := fun _ _ => pure [], parents := fun _ _ => pure [],
      associationDetails := fun _ _ _ => pure [], register := fun _ _ _ => pure () }
  { files := .empty
    workflows? := some
      { workflow := fun _ => pure workflow
        loadJob := fun _ => Act.fail (.collaborator "no jobs"), produce := forkAll }
    knowledgeBases? := some { load := fun _ => pure kb, session := pure kb } }

/-- Both sets are cleared, and names are shared within the sets and between them. -/
theorem registerTools_clears_shared_names :
    let messages : List Message :=
      [.ofText .tool "calc", .ofText .association "synonyms old.tsv", .user "one",
        .ofText .clearTools "", .ofText .kb "base genes synonyms",
        .ofText .association "genes genes.tsv", .ofText .clearAssociations "",
        .ofText .tool "calc mul", .ofText .association "mul new.tsv", .user "two",
        .ofText .tool "calc genes"]
    cancelled messages =
        [.ofText .tool "calc", .ofText .association "synonyms old.tsv",
          .ofText .association "genes genes.tsv"] ∧
      ∃ c' w', (obliging.registerTools messages {}).perform (.start ()) =
          (.ok ([.user "one", .user "two"], c'), w') ∧
        c'.names = ["genes", "synonyms", "mul"] ∧
        c'.tools.map (fun tool => tool.executor.kind) =
          ["workflow", "knowledge_base", "knowledge_base"] ∧
        ∃ v', (obliging.registerTools (withoutCancelled messages) {}).perform (.start ()) =
          (.ok ([.user "one", .user "two"], c'), v') := by
  intro messages
  have hcancelled : cancelled messages =
      [.ofText .tool "calc", .ofText .association "synonyms old.tsv",
        .ofText .association "genes genes.tsv"] := by decide +kernel
  have hoverlooks : ∀ m ∈ cancelled messages, (obliging.toolsOf m).Overlooks Eq := by
    rw [hcancelled]
    simp only [List.forall_mem_cons, List.not_mem_nil, false_implies, implies_true, and_true]
    refine ⟨?_, ?_, ?_⟩ <;> exact fun _ _ _ _ hv h => (Prod.mk.inj h).2.symm.trans hv
  have hseen : ((obliging.registerTools messages {}).perform (.start ())).1.map
      (fun left => (left.1, left.2.names, left.2.tools.map fun tool => tool.executor.kind)) =
      .ok ([.user "one", .user "two"], ["genes", "synonyms", "mul"],
        ["workflow", "knowledge_base", "knowledge_base"]) := by decide +kernel
  obtain ⟨⟨kept, c'⟩, hresult, hkept⟩ := exists_of_map_eq_ok hseen
  obtain ⟨rfl, hnames⟩ := Prod.mk.inj hkept
  obtain ⟨hnames, hkinds⟩ := Prod.mk.inj hnames
  obtain ⟨w', hrun⟩ := Act.exists_perform_eq hresult
  obtain ⟨-, -, hsame⟩ := registerTools_clears hrun
  refine ⟨hcancelled, c', w', hrun, hnames, hkinds, hsame Eq rfl hoverlooks ?_⟩
  exact fun m _ w v w' result hv h => ⟨w', hv ▸ h, rfl⟩

end Resolver

end Colloquy
