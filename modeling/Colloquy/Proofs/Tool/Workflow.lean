import Colloquy.Proofs.Tool.Answering
import Colloquy.Proofs.Tool.Catalogue
import Colloquy.Proofs.Tool.TaskLine

/-!
# Colloquy — tasks offered as tools

A task is offered with the inputs that a list of entries names, and called with the arguments
of a call and the defaults that the list gives for others. The call makes one job, which is
executed in place or run through the engine (`taskTool_serves`).

* `IsOffered` — which inputs the entries offer.
* `ToolCall.Takes` — what a call takes for a name, from its arguments or the entries.
* `Workflow.Does` — what comes of a job.
-/

namespace Colloquy

variable {σ : Type}

-- ---------------------------------------------------------------------------
-- The inputs that are offered
-- ---------------------------------------------------------------------------

/-- An entry without an equals sign names the input, or there are no entries. -/
def IsOffered : Option (List String) → String → Prop
  | none, _ => True
  | some entries, name => name ∈ entries ∧ '=' ∉ name.toList

instance : (entries? : Option (List String)) → (name : String) → Decidable (IsOffered entries? name)
  | none, _ => inferInstanceAs (Decidable True)
  | some entries, name => inferInstanceAs (Decidable (name ∈ entries ∧ '=' ∉ name.toList))

namespace Restriction

/-- The names that entries offer are those without an equals sign, and the others give defaults. -/
theorem foldl_add (entries names : List String) (defaults : Fields) :
    entries.foldl add ⟨some names, defaults⟩ =
      ⟨some (names ++ entries.filter fun entry => '=' ∉ entry.toList),
        defaults.insertAll (entries.filterMap fun entry =>
          (splitOnce? entry '=').map fun (key, value) => (key, .str value))⟩ := by
  induction entries generalizing names defaults with
  | nil => simp [Fields.insertAll]
  | cons entry rest ih =>
    rw [List.foldl_cons, add, List.filter_cons, List.filterMap_cons]
    cases hsplit : splitOnce? entry '=' with
    | none =>
      rw [if_pos (by simpa using splitOnce?_eq_none_iff.mp hsplit)]
      show rest.foldl add ⟨some (names ++ [entry]), defaults⟩ = _
      rw [ih, List.append_assoc]
      rfl
    | some parts =>
      have hequals : '=' ∈ entry.toList := by
        rw [(splitOnce?_eq_some_iff.mp hsplit).1]
        simp
      rw [if_neg (by simpa using hequals)]
      exact ih names _

theorem ofEntries?_some (entries : List String) :
    ofEntries? (some entries) =
      ⟨some (entries.filter fun entry => '=' ∉ entry.toList), TaskLine.fieldsOfWords entries⟩ :=
  foldl_add entries [] []

theorem offers_ofEntries?_iff {entries? : Option (List String)} {input : TaskInput} :
    (ofEntries? entries?).offers input = true ↔ IsOffered entries? input.name := by
  cases entries? with
  | none => exact iff_of_true rfl trivial
  | some entries =>
    rw [ofEntries?_some, IsOffered]
    simp [offers]

end Restriction

theorem Parameters.schema_ofSchema_of_contains {fields : Fields}
    (htype : fields.contains "type" = true) (hproperties : fields.contains "properties" = true)
    (hrequired : fields.contains "required" = true) :
    (ofSchema (.obj fields)).schema = .obj fields := by
  simp [ofSchema, Json.asObj?, Fields.insertNew, htype, hproperties, hrequired]

namespace TaskInfo

variable {info : TaskInfo} {entries? : Option (List String)}

theorem mem_offered_iff {input : TaskInput} :
    input ∈ info.offered (.ofEntries? entries?) ↔
      input ∈ info.inputs ∧ IsOffered entries? input.name := by
  rw [offered, List.mem_filter, Restriction.offers_ofEntries?_iff]

theorem schema_parameters (info : TaskInfo) (r : Restriction) :
    (info.parameters r).schema =
      .object
        [("type", .str "object"),
          ("properties", .object ((info.offered r).map fun input => (input.name, input.schema))),
          ("required",
            .strings (((info.offered r).filter TaskInput.required).map TaskInput.name))] := by
  refine Parameters.schema_ofSchema_of_contains ?_ ?_ ?_ <;>
  simp [Fields.contains, Fields.get?_ofList, Fields.get?]

/-- The properties are the inputs that are offered, each with its schema. -/
theorem properties?_parameters (entries? : Option (List String))
    (hdistinct : (info.inputs.map TaskInput.name).Nodup) :
    ∃ properties, (info.parameters (.ofEntries? entries?)).properties? = some properties ∧
      ∀ key schema, Fields.get? key properties = some schema ↔
        ∃ input ∈ info.inputs, input.name = key ∧ IsOffered entries? key ∧
          input.schema = schema := by
  refine ⟨.ofList ((info.offered (.ofEntries? entries?)).map fun input =>
    (input.name, input.schema)), ?_, fun key schema => ?_⟩
  · rw [Parameters.properties?, schema_parameters, Json.field?_object]
    rfl
  · constructor
    · intro h
      rw [Fields.get?_ofList] at h
      obtain ⟨input, hinput, heq⟩ :=
        List.mem_map.mp (List.mem_reverse.mp (Fields.mem_of_get? h))
      obtain ⟨rfl, rfl⟩ := Prod.mk.inj heq
      obtain ⟨hmem, hoffered⟩ := mem_offered_iff.mp hinput
      exact ⟨input, hmem, rfl, hoffered, rfl⟩
    · rintro ⟨input, hmem, rfl, hoffered, rfl⟩
      refine Fields.get?_ofList_of_mem ?_
        (List.mem_map_of_mem (mem_offered_iff.mpr ⟨hmem, hoffered⟩))
      rw [List.map_map]
      exact (List.filter_sublist.map TaskInput.name).nodup hdistinct

theorem required_parameters (info : TaskInfo) (entries? : Option (List String)) :
    (info.parameters (.ofEntries? entries?)).required =
      (info.inputs.filter fun input => input.required ∧ IsOffered entries? input.name).map
        TaskInput.name := by
  rw [Parameters.required, schema_parameters, Json.field?_object]
  show ((((info.offered _).filter TaskInput.required).map TaskInput.name).map Json.str).filterMap
    Json.asStr? = _
  have hread : Json.asStr? ∘ Json.str = some := rfl
  rw [List.filterMap_map, hread, List.filterMap_some, offered, List.filter_filter]
  congr 1
  refine List.filter_congr fun input _ => ?_
  rw [Bool.eq_iff_iff, Bool.and_eq_true, Restriction.offers_ofEntries?_iff, decide_eq_true_iff]

end TaskInfo

-- ---------------------------------------------------------------------------
-- What a call takes
-- ---------------------------------------------------------------------------

/-- The call brings the value under the key, or it brings none and the last entry with a default for
the key has this one. -/
def ToolCall.Takes (call : ToolCall) (entries? : Option (List String)) (key : String) (v : Json) :
    Prop :=
  call.argument? key = some v ∨
    call.argument? key = none ∧
      ∃ entries ∈ entries?, ∃ value, TaskLine.GivesLast entries key value ∧ v = .str value

theorem get?_defaults_ofEntries? {entries? : Option (List String)} {key : String} {v : Json} :
    (Restriction.ofEntries? entries?).defaults.get? key = some v ↔
      ∃ entries ∈ entries?, ∃ value, TaskLine.GivesLast entries key value ∧ v = .str value := by
  cases entries? with
  | none => simp [Restriction.ofEntries?, Fields.get?]
  | some entries =>
    rw [Restriction.ofEntries?_some, TaskLine.get?_fieldsOfWords_eq_some_iff]
    simp

theorem get?_withDefaults_iff_takes (call : ToolCall) (entries? : Option (List String))
    (key : String) (v : Json) :
    ((Arguments.ofJson call.arguments).withDefaults
        (Restriction.ofEntries? entries?).defaults).get? key = some v ↔
      call.Takes entries? key v := by
  rw [Arguments.get?_withDefaults, Arguments.get?_ofJson, ToolCall.Takes,
    ← get?_defaults_ofEntries?, Option.or_eq_some_iff]

-- ---------------------------------------------------------------------------
-- Jobs
-- ---------------------------------------------------------------------------

/-- What comes of one job of a task with these inputs. The job is made, and then it is executed in
place if the task is listed for that, and run through the engine otherwise. -/
inductive Workflow.Does (w : Workflow σ) (task : String) (name? : Option String) (inputs : Fields)
    (u : World σ) : Except Failure Json × World σ → Prop
  | unmade {f : Failure} {u₁ : World σ}
      (hjob : (w.job task name? inputs).perform u = (.error f, u₁)) :
      Does w task name? inputs u (.error f, u₁)
  | unlisted {job : Job σ} {f : Failure} {u₁ u₂ : World σ}
      (hjob : (w.job task name? inputs).perform u = (.ok job, u₁))
      (hexports : w.execExports.perform u₁ = (.error f, u₂)) :
      Does w task name? inputs u (.error f, u₂)
  | executed {job : Job σ} {exports : List String} {u₁ u₂ : World σ}
      (hjob : (w.job task name? inputs).perform u = (.ok job, u₁))
      (hexports : w.execExports.perform u₁ = (.ok exports, u₂)) (hlisted : task ∈ exports) :
      Does w task name? inputs u (job.exec.perform u₂)
  | run {job : Job σ} {exports : List String} {u₁ u₂ : World σ}
      (hjob : (w.job task name? inputs).perform u = (.ok job, u₁))
      (hexports : w.execExports.perform u₁ = (.ok exports, u₂)) (hlisted : task ∉ exports) :
      Does w task name? inputs u (job.run.perform u₂)

theorem does_callWorkflow (w : Workflow σ) (task : String) (args : Arguments) (u : World σ) :
    w.Does task ((args.values.get? "jobname").bind Json.asStr?) (args.values.erase "jobname") u
      ((callWorkflow w task args).perform u) := by
  unfold callWorkflow takeJobName
  simp only [Act.perform_bind]
  rcases hjob : (w.job task ((args.values.get? "jobname").bind Json.asStr?)
    (args.values.erase "jobname")).perform u with ⟨f | job, u₁⟩
  · exact .unmade hjob
  · dsimp only
    rcases hexports : w.execExports.perform u₁ with ⟨f | exports, u₂⟩
    · exact .unlisted hjob hexports
    · by_cases hlisted : task ∈ exports
      · have hcontains : exports.contains task = true := by simpa using hlisted
        dsimp only
        rw [if_pos hcontains]
        exact .executed hjob hexports hlisted
      · have hcontains : ¬ exports.contains task = true := by simpa using hlisted
        dsimp only
        rw [if_neg hcontains]
        exact .run hjob hexports hlisted

/-- A call of a tool of the workflow makes one job, of what the call takes. -/
theorem Dispatcher.invoke_does {w : Workflow σ} (entries? : Option (List String)) {tool : Tool σ}
    (hexecutor : tool.executor = .workflow w)
    (hdefaults : tool.defaults = (Restriction.ofEntries? entries?).defaults) (d : Dispatcher σ)
    {catalogue : Catalogue σ} {call : ToolCall} (hget : catalogue.get? call.name = some tool) :
    ∃ name? inputs,
      (∀ name, name? = some name ↔ call.Takes entries? "jobname" (.str name)) ∧
      (∀ key value, Fields.get? key inputs = some value ↔
        key ≠ "jobname" ∧ call.Takes entries? key value) ∧
      ∀ u, ∃ result u', w.Does call.name name? inputs u (result, u') ∧
        (d.invoke catalogue call).perform u = (call.told result, u') := by
  have hanswers := Answers.executor (d := d) hget
  rw [hexecutor, hdefaults] at hanswers
  have htakes := get?_withDefaults_iff_takes call entries?
  generalize (Arguments.ofJson call.arguments).withDefaults
    (Restriction.ofEntries? entries?).defaults = args at hanswers htakes
  refine ⟨(args.get? "jobname").bind Json.asStr?, args.values.erase "jobname", fun name => ?_,
    fun key value => ?_, fun u => ?_⟩
  · rw [Option.bind_eq_some_iff, ← htakes]
    constructor
    · rintro ⟨v, hv, hname⟩
      cases v with
      | str text => rwa [← Option.some.inj hname]
      | null | bool | int | real | arr | obj => exact absurd hname nofun
    · exact fun h => ⟨_, h, rfl⟩
  · rw [Fields.get?_erase, ← htakes]
    split
    · next hkey => simp [hkey]
    · next hkey => simp [hkey, Arguments.get?]
  · exact ⟨_, _, does_callWorkflow w call.name args u, hanswers.perform_invoke_eq_told u⟩

/-- The tool of a task has the inputs that are offered as its properties, and requires those of them
that the task requires. A call of it makes one job of the task, with what the call takes for each
name but that of the job, and the job is executed in place or run. -/
theorem taskTool_serves {w : Workflow σ} {task : String} {info : TaskInfo} {v v' : World σ}
    (entries? : Option (List String))
    (hinfo : (w.taskInfo task).perform v = (.ok info, v'))
    (hdistinct : (info.inputs.map TaskInput.name).Nodup) :
    ∃ tool properties, (taskTool w task entries?).perform v = (.ok tool, v') ∧
      tool.name = task ∧
      tool.parameters.properties? = some properties ∧
      (∀ key schema, Fields.get? key properties = some schema ↔
        ∃ input ∈ info.inputs, input.name = key ∧ IsOffered entries? key ∧
          input.schema = schema) ∧
      tool.parameters.required =
        (info.inputs.filter fun input => input.required ∧ IsOffered entries? input.name).map
          TaskInput.name ∧
      ∀ (d : Dispatcher σ) (catalogue : Catalogue σ) (call : ToolCall),
        catalogue.get? call.name = some tool →
        ∃ name? inputs,
          (∀ name, name? = some name ↔ call.Takes entries? "jobname" (.str name)) ∧
          (∀ key value, Fields.get? key inputs = some value ↔
            key ≠ "jobname" ∧ call.Takes entries? key value) ∧
          ∀ u, ∃ result u', w.Does task name? inputs u (result, u') ∧
            (d.invoke catalogue call).perform u = (call.told result, u') := by
  obtain ⟨properties, hproperties, hoffered⟩ :=
    TaskInfo.properties?_parameters entries? hdistinct
  let tool : Tool σ :=
    { name := task, description := info.description,
      parameters := info.parameters (.ofEntries? entries?),
      defaults := (Restriction.ofEntries? entries?).defaults, executor := .workflow w }
  refine ⟨tool, properties, ?_, rfl, hproperties, hoffered, info.required_parameters entries?, ?_⟩
  · exact Act.perform_bind_eq_ok_iff.mpr ⟨info, v', hinfo, rfl⟩
  · intro d catalogue call hget
    have hname : call.name = task := by
      have hsome := List.find?_some hget
      exact (beq_iff_eq.mp hsome).symm
    have hdoes := Dispatcher.invoke_does entries? rfl rfl d hget
    rwa [hname] at hdoes

/-- A workflow that notes which jobs it makes. -/
def noting : Workflow (List (String × Option String × Fields)) where
  name := "desk"
  taskInfo := fun task => pure
    { name := task, description := ""
      inputs := [{ name := "text", type := "text", required := true },
        { name := "lang", type := "string", required := true },
        { name := "tone", type := "string" }] }
  exportedTasks := pure []
  allTasks := pure []
  execExports := pure ["detect"]
  job := fun task name? inputs => do
    Act.modifyOuter fun made => made ++ [(task, name?, inputs)]
    return { path := task, taskName := task, inputs := .obj inputs, isDone := pure true,
             errorText? := pure none, exec := pure (.str "executed"), run := pure (.str "run"),
             fork := pure (), join := pure (), output := pure "" }

/-- An input is named, another has two defaults and is brought by no call, and the job is named by a
default. -/
theorem taskTool_serves_noting :
    let entries := ["tone", "lang=es", "jobname=daily", "text", "lang=a=b"]
    let call : ToolCall := ⟨"1", "translate", .object [("text", .str "hi")]⟩
    ∃ tool, (taskTool noting "translate" (some entries)).perform (.start []) =
        (.ok tool, .start []) ∧
      tool.parameters.required = ["text"] ∧
      ∃ inputs, Fields.get? "text" inputs = some (.str "hi") ∧
        Fields.get? "lang" inputs = some (.str "a=b") ∧
        ∃ result u', noting.Does "translate" (some "daily") inputs (.start []) (result, u') ∧
          (({} : Dispatcher _).invoke (.ofList [tool]) call).perform (.start []) =
            (call.told result, u') := by
  intro entries call
  have hinfo : (noting.taskInfo "translate").perform (.start []) = (.ok _, .start []) := rfl
  obtain ⟨tool, properties, htool, hname, -, -, hrequired, hserves⟩ :=
    taskTool_serves (some entries) hinfo (by decide)
  have hget : (Catalogue.ofList [tool]).get? call.name = some tool := by
    simp [Catalogue.ofList, Catalogue.extend, Catalogue.get?_register, hname, call]
  obtain ⟨name?, inputs, hjobname, hinputs, hdoes⟩ := hserves {} (.ofList [tool]) call hget
  have htakes : ∀ key v, ((Arguments.ofJson call.arguments).withDefaults
      (Restriction.ofEntries? (some entries)).defaults).get? key = some v →
      call.Takes (some entries) key v := fun key v =>
    (get?_withDefaults_iff_takes call (some entries) key v).mp
  obtain rfl : name? = some "daily" := (hjobname "daily").mpr (htakes _ _ (by decide +kernel))
  refine ⟨tool, htool, hrequired.trans (by decide +kernel), inputs, ?_, ?_, hdoes _⟩
  · exact (hinputs "text" _).mpr ⟨by decide, htakes _ _ (by decide +kernel)⟩
  · exact (hinputs "lang" _).mpr ⟨by decide, htakes _ _ (by decide +kernel)⟩

end Colloquy
