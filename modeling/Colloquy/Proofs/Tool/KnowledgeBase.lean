import Colloquy.Proofs.Text.Cut
import Colloquy.Proofs.Tool.Answering
import Colloquy.Proofs.Tool.Catalogue
import Mathlib.Data.List.Nodup

/-!
# Colloquy — what tools ask a knowledge base

A tool that looks up associations, and one that tells details of them, make a query of the
arguments of a call. Which query is made is decided by the name of the tool alone
(`callKnowledgeBase_eq`): a name that ends in the suffix of details asks for details. So the
tools ask what they are for if and only if no database has such a name itself
(`knowledgeBaseTools_asks_iff`).

* `Query` — what a knowledge base is asked, and `KnowledgeBase.answer` its answer.
* `Dispatcher.Asks` — calls by a name ask a knowledge base and are told its answer.
-/

namespace Colloquy

/-- What a knowledge base is asked. -/
inductive Query where
  | children (database : String) (entities : List String)
  | parents (database : String) (entities : List String)
  | details (database : String) (associations : List String) (fields? : Option (List String))
  deriving DecidableEq, Repr

namespace Query

/-- What arguments ask of the associations of a database. -/
def lookup (database : String) (args : Arguments) : Except Error Query :=
  (args.getList "entities").map fun entities =>
    if args.getBool? "reverse" = some true then .parents database entities
    else .children database entities

/-- What arguments ask of the details of a database. -/
def tell (database : String) (args : Arguments) : Except Error Query :=
  (args.getList "associations").map fun associations =>
    .details database associations (args.getList "fields").toOption

/-- What a call by a name asks. -/
def ofCall (name : String) (args : Arguments) : Except Error Query :=
  match dropEnd? name detailsSuffix with
  | some database => tell database args
  | none => lookup name args

theorem ofCall_append (database : String) : ofCall (database ++ detailsSuffix) = tell database := by
  funext args
  rw [ofCall, dropEnd?_eq_some_iff.mpr rfl]

theorem ofCall_of_forall_ne {name : String} (h : ∀ database, name ≠ database ++ detailsSuffix) :
    ofCall name = lookup name := by
  funext args
  rw [ofCall, dropEnd?_eq_none_iff.mpr h]

end Query

variable {σ : Type}

/-- The answer to a query. -/
def KnowledgeBase.answer (kb : KnowledgeBase σ) : Query → Act σ Json
  | .children database entities => do return .strings (← kb.children database entities)
  | .parents database entities => do return .strings (← kb.parents database entities)
  | .details database associations fields? => do
    return .obj (← kb.associationDetails database associations fields?)

/-- A call is answered by what the knowledge base answers to its query. -/
theorem callKnowledgeBase_eq (kb : KnowledgeBase σ) (name : String) (args : Arguments) :
    callKnowledgeBase kb name args = Act.ofExcept (Query.ofCall name args) >>= kb.answer := by
  rw [callKnowledgeBase, Query.ofCall]
  cases dropEnd? name detailsSuffix with
  | some database =>
    exact (Act.ofExcept_map_bind (args.getList "associations")
      (fun associations => .details database associations (args.getList "fields").toOption)
      kb.answer).symm
  | none =>
    refine Eq.trans ?_ (Act.ofExcept_map_bind ..).symm
    refine congrArg (Act.ofExcept (args.getList "entities") >>= ·) (funext fun entities => ?_)
    rcases args.getBool? "reverse" with _ | _ | _ <;> rfl

namespace Dispatcher

/-- Calls by the name ask the knowledge base the query that their arguments make, and are told
its answer. Arguments that make none are told as an error. -/
def Asks (d : Dispatcher σ) (catalogue : Catalogue σ) (kb : KnowledgeBase σ) (name : String)
    (query : Arguments → Except Error Query) : Prop :=
  ∀ (call : ToolCall) (w : World σ), call.name = name →
    (d.invoke catalogue call).perform w =
      match query (.ofJson call.arguments) with
      | .ok q => (call.told ((kb.answer q).perform w).1, ((kb.answer q).perform w).2)
      | .error e => (call.told (.error (.error e)), w)

variable {d : Dispatcher σ} {catalogue : Catalogue σ} {kb : KnowledgeBase σ} {name : String}
  {tool : Tool σ}

theorem asks_ofCall (h : catalogue.get? name = some tool)
    (hexecutor : tool.executor = .knowledgeBase kb) (hdefaults : tool.defaults = []) :
    d.Asks catalogue kb name (Query.ofCall name) := by
  rintro call w rfl
  have hanswers := Answers.executor (d := d) h
  rw [hexecutor, hdefaults] at hanswers
  have hargs : (Arguments.ofJson call.arguments).withDefaults [] = .ofJson call.arguments := rfl
  have hact : (Executor.knowledgeBase kb).call call.name (.ofJson call.arguments) =
      Act.ofExcept (Query.ofCall call.name (.ofJson call.arguments)) >>= kb.answer :=
    callKnowledgeBase_eq kb call.name _
  rw [hargs, hact] at hanswers
  rw [hanswers.perform_invoke_eq_told]
  cases Query.ofCall call.name (.ofJson call.arguments) with
  | ok q => rfl
  | error e => rfl

/-- What a name asks shows in a call without arguments. -/
theorem not_asks_lookup (h : catalogue.get? name = some tool)
    (hexecutor : tool.executor = .knowledgeBase kb) (hdefaults : tool.defaults = [])
    {database : String} (hname : name = database ++ detailsSuffix) (w : World σ) :
    ¬ d.Asks catalogue kb name (Query.lookup name) := by
  intro hlookup
  have htold := asks_ofCall (d := d) h hexecutor hdefaults ⟨"", name, .null⟩ w rfl
  rw [hlookup ⟨"", name, .null⟩ w rfl, hname, Query.ofCall_append] at htold
  have hresult := Except.ok.inj (Prod.mk.inj htold).1
  exact absurd (ToolResult.mk.inj hresult).2 (by decide +kernel)

end Dispatcher

-- ---------------------------------------------------------------------------
-- The names of tools
-- ---------------------------------------------------------------------------

variable {kb : KnowledgeBase σ} {infos : List DatabaseInfo}

/-- The names of the tools for a database. -/
def toolNames (info : DatabaseInfo) : List String :=
  info.name :: if info.fields.isEmpty then [] else [info.name ++ detailsSuffix]

theorem map_name_databaseTools (kb : KnowledgeBase σ) (info : DatabaseInfo) :
    (databaseTools kb info).map Tool.name = toolNames info := by
  rw [databaseTools, toolNames, List.map_cons]
  split <;> rfl

theorem map_name_flatMap_databaseTools (kb : KnowledgeBase σ) (infos : List DatabaseInfo) :
    (infos.flatMap (databaseTools kb)).map Tool.name = infos.flatMap toolNames := by
  rw [List.map_flatMap]
  exact List.flatMap_congr fun info _ => map_name_databaseTools kb info

theorem mem_toolNames_iff {info : DatabaseInfo} {name : String} :
    name ∈ toolNames info ↔
      name = info.name ∨ info.fields ≠ [] ∧ name = info.name ++ detailsSuffix := by
  rw [toolNames, List.mem_cons]
  cases info.fields <;> simp

theorem ne_append_detailsSuffix (name : String) : name ≠ name ++ detailsSuffix := by
  intro h
  have hlength := congrArg String.length h
  simp [String.length_append, detailsSuffix] at hlength

theorem append_detailsSuffix_inj {name other : String}
    (h : name ++ detailsSuffix = other ++ detailsSuffix) : name = other := by
  exact (String.append_left_inj detailsSuffix).mp h

/-- The names of tools are distinct if and only if no database has the name of another's details
tool. -/
theorem nodup_flatMap_toolNames_iff (hnames : (infos.map DatabaseInfo.name).Nodup) :
    (infos.flatMap toolNames).Nodup ↔
      ∀ info ∈ infos, info.fields ≠ [] →
        info.name ++ detailsSuffix ∉ infos.map DatabaseInfo.name := by
  rw [List.nodup_flatMap]
  constructor
  · rintro ⟨-, hdisjoint⟩ info hinfo hfields hmem
    obtain ⟨other, hother, hname⟩ := List.mem_map.mp hmem
    have hne : info ≠ other := by
      rintro rfl
      exact ne_append_detailsSuffix _ hname
    have hsymm : Std.Symm (Function.onFun List.Disjoint toolNames) :=
      ⟨fun _ _ h _ hleft hright => h hright hleft⟩
    have hapart : List.Disjoint (toolNames info) (toolNames other) :=
      hdisjoint.forall hinfo hother hne
    exact hapart (mem_toolNames_iff.mpr (Or.inr ⟨hfields, rfl⟩))
      (mem_toolNames_iff.mpr (Or.inl hname.symm))
  · intro hfree
    refine ⟨fun info _ => ?_, (List.pairwise_map.mp hnames).imp_of_mem ?_⟩
    · rw [toolNames]
      split
      · exact List.nodup_singleton _
      · exact List.nodup_cons.mpr
          ⟨by simpa using ne_append_detailsSuffix info.name, List.nodup_singleton _⟩
    · intro info other hinfo hother hne name hname hname'
      rcases mem_toolNames_iff.mp hname with rfl | ⟨hfields, rfl⟩
      · rcases mem_toolNames_iff.mp hname' with heq | ⟨hfields, heq⟩
        · exact hne heq
        · exact hfree other hother hfields (heq ▸ List.mem_map_of_mem hinfo)
      · rcases mem_toolNames_iff.mp hname' with heq | ⟨-, heq⟩
        · exact hfree info hinfo hfields (heq ▸ List.mem_map_of_mem hother)
        · exact hne (append_detailsSuffix_inj heq)

-- ---------------------------------------------------------------------------
-- Calling the tools
-- ---------------------------------------------------------------------------

theorem perform_knowledgeBaseTools {names : List String} {w w' : World σ}
    (hinfos : (Act.forEach names kb.databaseInfo).perform w = (.ok infos, w')) :
    (knowledgeBaseTools kb (some names)).perform w =
      (.ok (infos.flatMap (databaseTools kb)), w') := by
  have htools := Act.perform_forEach_bind_pure (databaseTools kb) hinfos
  exact Act.perform_bind_eq_ok_iff.mpr
    ⟨names, w, rfl, Act.perform_bind_eq_ok_iff.mpr ⟨_, w', htools, rfl⟩⟩

theorem executor_of_mem {tool : Tool σ} (h : tool ∈ infos.flatMap (databaseTools kb)) :
    tool.executor = .knowledgeBase kb ∧ tool.defaults = [] := by
  obtain ⟨info, -, htool⟩ := List.mem_flatMap.mp h
  rw [databaseTools] at htool
  rcases List.mem_cons.mp htool with rfl | hdetails
  · exact ⟨rfl, rfl⟩
  · split at hdetails
    · exact absurd hdetails List.not_mem_nil
    · rw [List.mem_singleton.mp hdetails]
      exact ⟨rfl, rfl⟩

/-- Whatever tool has a name in the end, it runs on the knowledge base. -/
theorem exists_tool_of_mem_toolNames (kb : KnowledgeBase σ) {name : String}
    (h : name ∈ infos.flatMap toolNames) :
    ∃ tool, (Catalogue.ofList (infos.flatMap (databaseTools kb))).get? name = some tool ∧
      tool.executor = .knowledgeBase kb ∧ tool.defaults = [] := by
  rw [← map_name_flatMap_databaseTools kb] at h
  obtain ⟨tool, htool, rfl⟩ := List.mem_map.mp h
  obtain ⟨found, hfound, hget⟩ := Catalogue.exists_get?_ofList htool
  exact ⟨found, hget, executor_of_mem hfound⟩

/-- The tools for databases of distinct names, called through the catalogue of them. The tool for
details asks for details of its database. The one for associations looks up those of its database if
and only if the name of the database does not end in the suffix of details; if it does, details of
the database before the suffix are asked for. The tools all stand in the catalogue if and only if
no database has the name of the details tool of another. -/
theorem knowledgeBaseTools_asks_iff (d : Dispatcher σ) {names : List String} {w w' : World σ}
    (hnames : names.Nodup)
    (hinfos : (Act.forEach names kb.databaseInfo).perform w = (.ok infos, w'))
    (hnamed : infos.map DatabaseInfo.name = names) :
    ∃ tools, (knowledgeBaseTools kb (some names)).perform w = (.ok tools, w') ∧
      tools = infos.flatMap (databaseTools kb) ∧
      (∀ info ∈ infos,
        (info.fields ≠ [] →
          d.Asks (.ofList tools) kb (info.name ++ detailsSuffix) (Query.tell info.name)) ∧
        (d.Asks (.ofList tools) kb info.name (Query.lookup info.name) ↔
          ∀ database, info.name ≠ database ++ detailsSuffix) ∧
        ∀ database, info.name = database ++ detailsSuffix →
          d.Asks (.ofList tools) kb info.name (Query.tell database)) ∧
      ((Catalogue.ofList tools).tools = tools ↔
        ∀ info ∈ infos, info.fields ≠ [] → info.name ++ detailsSuffix ∉ names) := by
  refine ⟨_, perform_knowledgeBaseTools hinfos, rfl, fun info hinfo => ?_, ?_⟩
  · have hmem : ∀ name ∈ toolNames info, name ∈ infos.flatMap toolNames :=
      fun name hname => List.mem_flatMap.mpr ⟨info, hinfo, hname⟩
    obtain ⟨tool, hget, hexecutor, hdefaults⟩ := exists_tool_of_mem_toolNames kb
      (hmem info.name (mem_toolNames_iff.mpr (Or.inl rfl)))
    have hasks := Dispatcher.asks_ofCall (d := d) hget hexecutor hdefaults
    refine ⟨fun hfields => ?_, ⟨fun hlookup database hname => ?_, fun hfree => ?_⟩,
      fun database hname => ?_⟩
    · obtain ⟨tool, hget, hexecutor, hdefaults⟩ := exists_tool_of_mem_toolNames kb
        (hmem _ (mem_toolNames_iff.mpr (Or.inr ⟨hfields, rfl⟩)))
      rw [← Query.ofCall_append]
      exact Dispatcher.asks_ofCall hget hexecutor hdefaults
    · exact Dispatcher.not_asks_lookup hget hexecutor hdefaults hname w hlookup
    · rwa [Query.ofCall_of_forall_ne hfree] at hasks
    · rwa [hname, Query.ofCall_append, ← hname] at hasks
  · subst hnamed
    rw [Catalogue.tools_ofList_eq_iff, map_name_flatMap_databaseTools]
    exact nodup_flatMap_toolNames_iff hnames

/-- A knowledge base that answers with what it is asked. Only its rivers have a field. -/
def echoing : KnowledgeBase Unit where
  databases := pure []
  databaseInfo := fun name =>
    pure { name := name, fields := if name = "rivers" then ["length"] else [] }
  children := fun database entities => pure (database :: "children" :: entities)
  parents := fun database entities => pure (database :: "parents" :: entities)
  associationDetails := fun database associations _ =>
    pure (associations.map fun association => (association, .str database))
  register := fun _ _ _ => pure ()

/-- Two databases, one of them with a field: a look-up against the direction, and details. -/
theorem knowledgeBaseTools_asks_iff_rivers :
    ∃ tools, (knowledgeBaseTools echoing (some ["rivers", "towns"])).perform (.start ()) =
        (.ok tools, .start ()) ∧
      (Catalogue.ofList tools).tools = tools ∧
      ((({} : Dispatcher Unit).invoke (.ofList tools) ⟨"1", "towns",
          .object [("entities", .strings ["a"]), ("reverse", .bool true)]⟩).perform (.start ())).1 =
        .ok ⟨"1", "[\x22towns\x22,\x22parents\x22,\x22a\x22]"⟩ ∧
      ((({} : Dispatcher Unit).invoke (.ofList tools) ⟨"2", "rivers_association_details",
          .object [("associations", .str "a~b")]⟩).perform (.start ())).1 =
        .ok ⟨"2", "\x7b\x22a~b\x22:\x22rivers\x22\x7d"⟩ := by
  have hinfos : (Act.forEach ["rivers", "towns"] echoing.databaseInfo).perform (.start ()) =
      (.ok [{ name := "rivers", fields := ["length"] }, { name := "towns" }], .start ()) := rfl
  obtain ⟨tools, htools, -, hasks, hstand⟩ :=
    knowledgeBaseTools_asks_iff {} (by decide) hinfos rfl
  obtain ⟨⟨htell, -, -⟩, htowns⟩ := List.forall_mem_cons.mp hasks
  obtain ⟨⟨-, hlookup, -⟩, -⟩ := List.forall_mem_cons.mp htowns
  have hfree : ∀ database, "towns" ≠ database ++ detailsSuffix :=
    dropEnd?_eq_none_iff.mp (by decide +kernel)
  refine ⟨tools, htools, hstand.mpr (by decide +kernel), ?_, ?_⟩
  · rw [hlookup.mpr hfree _ _ rfl]
    decide +kernel
  · rw [htell (by decide) _ _ rfl]
    decide +kernel

/-- A database has the name of another's details tool. Its tool takes the place of the other, and
is itself not asked for associations. -/
theorem knowledgeBaseTools_misroutes :
    ["rivers", "rivers_association_details"].Nodup ∧
      ∃ tools, (knowledgeBaseTools echoing
          (some ["rivers", "rivers_association_details"])).perform (.start ()) =
          (.ok tools, .start ()) ∧
        tools.map Tool.name =
          ["rivers", "rivers_association_details", "rivers_association_details"] ∧
        (Catalogue.ofList tools).size = 2 ∧
        ((({} : Dispatcher Unit).invoke (.ofList tools) ⟨"1", "rivers_association_details",
            .object [("entities", .strings ["a"])]⟩).perform (.start ())).1 =
          .ok ⟨"1", outcomeText (.error
            (.invalidArgument "Missing list argument: associations"))⟩ ∧
        ¬ ({} : Dispatcher Unit).Asks (.ofList tools) echoing "rivers_association_details"
          (Query.lookup "rivers_association_details") := by
  have hinfos : (Act.forEach ["rivers", "rivers_association_details"]
      echoing.databaseInfo).perform (.start ()) =
      (.ok [{ name := "rivers", fields := ["length"] }, { name := "rivers_association_details" }],
        (.start ())) := rfl
  refine ⟨by decide, _, perform_knowledgeBaseTools hinfos, by decide, by decide +kernel,
    by decide +kernel, ?_⟩
  have hmem : "rivers_association_details" ∈ [{ name := "rivers", fields := ["length"] },
      ({ name := "rivers_association_details" } : DatabaseInfo)].flatMap toolNames := by
    decide +kernel
  obtain ⟨tool, hget, hexecutor, hdefaults⟩ := exists_tool_of_mem_toolNames echoing hmem
  exact Dispatcher.not_asks_lookup hget hexecutor hdefaults
    (show "rivers_association_details" = "rivers" ++ detailsSuffix by decide +kernel) (.start ())

end Colloquy
