import Colloquy.Directive.Task
import Colloquy.Proofs.Act
import Mathlib.Data.List.Forall2
import Mathlib.Data.List.Nodup

/-!
# Colloquy — tasks and jobs in their places

What is done with jobs can be recorded: making, executing, starting and awaiting them, and
reading what became of them (`JobRecord`). Tasks, and after them jobs, put what they have
found out in the places of their directives. Jobs are started once all are made, in the order
of their directives, and awaited before anything of them is read. If one cannot be made, none
is started (`Resolver.tasks_jobs_substitute`).

* `WorkflowEngine.IsRecordedIn` — an engine that keeps a record.
* `Commission` — what tasks make of a message, with what is done for it.
* `Commission.Becomes` — the messages that take its place.
-/

namespace Colloquy

-- ---------------------------------------------------------------------------
-- Records
-- ---------------------------------------------------------------------------

/-- What is done with the job of a path. -/
inductive JobEvent where
  | made (path : String)
  | executed (path : String)
  | forked (path : String)
  | joined (path : String)
  /-- It is asked whether the job is done, or for its error or its output. -/
  | read (path : String)
  deriving DecidableEq, Repr

/-- The path of a job that is made. -/
def JobEvent.madePath? : JobEvent → Option String
  | .made path => some path
  | _ => none

/-- What a world tells about jobs: what was done with them, and which is known under a path. -/
structure JobRecord (σ : Type) where
  log : World σ → List JobEvent
  known : World σ → String → Option (Job σ)

/-- The act, whether it succeeds or fails, adds events to the log, and no jobs. -/
def JobRecord.Adds {σ α : Type} (record : JobRecord σ) (events : List JobEvent)
    (act : Act σ α) : Prop :=
  ∀ ⦃w w' : World σ⦄ ⦃result : Except Failure α⦄, act.perform w = (result, w') →
    record.log w' = record.log w ++ events ∧ record.known w' = record.known w

/-- All that is done with the job is recorded. -/
structure Job.IsRecordedIn {σ : Type} (record : JobRecord σ) (job : Job σ) : Prop where
  isDone : record.Adds [.read job.path] job.isDone
  errorText : record.Adds [.read job.path] job.errorText?
  exec : record.Adds [.executed job.path] job.exec
  fork : record.Adds [.forked job.path] job.fork
  join : record.Adds [.joined job.path] job.join
  output : record.Adds [.read job.path] job.output

/-- All that the engine does with jobs is recorded. Making a job makes it known under its path, and
the job that is loaded is the one that is known. Jobs of directives are started one after another. -/
structure WorkflowEngine.IsRecordedIn {σ : Type} (record : JobRecord σ)
    (engine : WorkflowEngine σ) : Prop where
  workflow : ∀ name, record.Adds [] (engine.workflow name)
  made : ∀ {name w w₁ workflow}, (engine.workflow name).perform w = (.ok workflow, w₁) →
    ∀ {task name? inputs v v' job}, (workflow.job task name? inputs).perform v = (.ok job, v') →
      record.log v' = record.log v ++ [.made job.path] ∧
      record.known v' = (fun path => if path = job.path then some job else record.known v path) ∧
      trimBlank job.path = job.path ∧ job.IsRecordedIn record
  notMade : ∀ {name w w₁ workflow}, (engine.workflow name).perform w = (.ok workflow, w₁) →
    ∀ {task name? inputs v v' f}, (workflow.job task name? inputs).perform v = (.error f, v') →
      record.log v' = record.log v
  loadJob : ∀ path, record.Adds [] (engine.loadJob path)
  loaded : ∀ {path v v' job}, (engine.loadJob path).perform v = (.ok job, v') →
    record.known v path = some job ∧ job.path = path ∧ job.IsRecordedIn record
  produce : engine.produce = forkAll

namespace JobRecord

variable {σ α : Type} {record : JobRecord σ} {events : List JobEvent} {w w' : World σ}

theorem Adds.attempt {act : Act σ α} (h : record.Adds events act) :
    record.Adds events act.attempt := by
  intro w w' result hresult
  have hw' : (act.perform w).2 = w' := by rw [← Act.attempt_world, hresult]
  exact h (Prod.ext rfl hw' : act.perform w = ((act.perform w).1, w'))

theorem forkAll_adds {jobs : List (Job σ)} (hjobs : ∀ job ∈ jobs, job.IsRecordedIn record)
    (h : (forkAll jobs).perform w = (.ok (), w')) :
    record.log w' = record.log w ++ jobs.map (fun job => .forked job.path) ∧
      record.known w' = record.known w := by
  induction jobs generalizing w with
  | nil =>
    obtain ⟨-, rfl⟩ := Prod.mk.inj h
    exact ⟨(List.append_nil _).symm, rfl⟩
  | cons job rest ih =>
    obtain ⟨hjob, hrest⟩ := List.forall_mem_cons.mp hjobs
    obtain ⟨⟨⟩, w₁, hfork, hothers⟩ := Act.perform_bind_eq_ok_iff.mp h
    obtain ⟨hlog, hknown⟩ := hjob.fork hfork
    obtain ⟨hlogs, hknowns⟩ := ih hrest hothers
    refine ⟨?_, hknowns.trans hknown⟩
    rw [hlogs, hlog, List.append_assoc]
    rfl

end JobRecord

-- ---------------------------------------------------------------------------
-- Commissions
-- ---------------------------------------------------------------------------

/-- The user's message with the outcome of a task that was executed. -/
def outcomeMessage (task : String) : Except Error Json → Message
  | .ok v => .user (resultText v)
  | .error e => .user (tagged "error" e.message (some task))

/-- What tasks make of a message. Inline tasks and jobs become files, and others exchanges. -/
inductive Commission (σ : Type) where
  | kept (m : Message)
  | executed (task : String) (job : Job σ) (outcome : Except Error Json)
  | scheduled (inline : Bool) (job : Job σ)
  /-- The message names a job. -/
  | referred (inline : Bool) (m : Message)

/-- The role of directives that start a job. -/
def taskRole (inline : Bool) : Role := if inline then .inlineTask else .task

/-- The role of directives that await a job. -/
def jobRole (inline : Bool) : Role := if inline then .inlineJob else .job

namespace Commission

variable {σ : Type}

/-- The message that tasks leave. -/
def message : Commission σ → Message
  | .kept m => m
  | .executed task _ outcome => outcomeMessage task outcome
  | .scheduled inline job => .ofText (jobRole inline) job.path
  | .referred _ m => m

/-- The job that is to be started. -/
def jobs : Commission σ → List (Job σ)
  | .scheduled _ job => [job]
  | _ => []

/-- The path of the job that is made. -/
def paths : Commission σ → List String
  | .executed _ job _ => [job.path]
  | .scheduled _ job => [job.path]
  | _ => []

/-- What is done before any job is started. -/
def making : Commission σ → List JobEvent
  | .executed _ job _ => [.made job.path, .executed job.path]
  | .scheduled _ job => [.made job.path]
  | _ => []

def forking (c : Commission σ) : List JobEvent :=
  c.jobs.map fun job => .forked job.path

/-- A job is joined, and then what becomes an exchange is asked whether it is done, and for its output
or its error. -/
def awaitingOf (inline : Bool) (path : String) : List JobEvent :=
  if inline then [.joined path] else [.joined path, .read path, .read path]

def awaiting : Commission σ → List JobEvent
  | .scheduled inline job => awaitingOf inline job.path
  | .referred inline m => awaitingOf inline m.trimmedText
  | _ => []

/-- What takes the place of a job once it is finished, with its output or error as a text. -/
def settled (inline : Bool) (job : Job σ) (text : String) : List Message :=
  if inline then [.ofText .file job.path] else Resolver.jobExchange job text

/-- The messages that take the place of a message, where jobs are known. -/
inductive Becomes (known : String → Option (Job σ)) : Commission σ → List Message → Prop
  | kept (m : Message) : Becomes known (.kept m) [m]
  | executed (task : String) (job : Job σ) (outcome : Except Error Json) :
      Becomes known (.executed task job outcome) [outcomeMessage task outcome]
  | scheduled (inline : Bool) (job : Job σ) (text : String) :
      Becomes known (.scheduled inline job) (settled inline job text)
  | referred (inline : Bool) {m : Message} {job : Job σ} (hjob : known m.trimmedText = some job)
      (hpath : job.path = m.trimmedText) (text : String) :
      Becomes known (.referred inline m) (settled inline job text)

theorem madePath?_making (cs : List (Commission σ)) :
    (cs.flatMap making).filterMap JobEvent.madePath? = cs.flatMap paths := by
  rw [List.filterMap_flatMap]
  refine List.flatMap_congr fun c _ => ?_
  cases c <;> rfl

theorem forking_eq_map (cs : List (Commission σ)) :
    cs.flatMap forking = (cs.flatMap jobs).map fun job => .forked job.path := by
  rw [List.map_flatMap]
  rfl

theorem sublist_paths (cs : List (Commission σ)) :
    ((cs.flatMap jobs).map Job.path).Sublist (cs.flatMap paths) := by
  induction cs with
  | nil => exact List.Sublist.refl _
  | cons c rest ih =>
    have hc : (c.jobs.map Job.path).Sublist c.paths := by
      cases c with
      | scheduled inline job => exact List.Sublist.refl _
      | kept | executed | referred => exact List.nil_sublist _
    rw [List.flatMap_cons, List.flatMap_cons, List.map_append]
    exact hc.append ih

/-- Jobs of distinct paths are started once each. -/
theorem nodup_forking {cs : List (Commission σ)} (h : (cs.flatMap paths).Nodup) :
    (cs.flatMap forking).Nodup := by
  have hforked : cs.flatMap forking = ((cs.flatMap jobs).map Job.path).map .forked := by
    rw [forking_eq_map, List.map_map]
    rfl
  rw [hforked]
  exact List.Nodup.map (fun _ _ => JobEvent.forked.inj) (h.sublist (sublist_paths cs))

end Commission

namespace Resolver

variable {σ : Type} {r : Resolver σ} {record : JobRecord σ} {messages : List Message}
  {m : Message} {w w' : World σ}

-- ---------------------------------------------------------------------------
-- Making jobs
-- ---------------------------------------------------------------------------

/-- The text of a directive is read, and its workflow and job are obtained. -/
def Obtains (r : Resolver σ) (text : String) (w : World σ) (line : TaskLine) (job : Job σ)
    (w' : World σ) : Prop :=
  TaskLine.parse text = .ok line ∧
    ∃ engine ∈ r.workflows?, ∃ workflow w₁,
      (engine.workflow line.workflow).perform w = (.ok workflow, w₁) ∧
      (workflow.job line.task (takeJobName line.inputs).1 (takeJobName line.inputs).2).perform w₁ =
        (.ok job, w')

/-- What tasks make of the message, with a job that was obtained for it. -/
inductive Commissioned (r : Resolver σ) (m : Message) : Commission σ → Prop
  | kept (htask : m.role.isTaskDirective = false) (hjob : m.role.isJobDirective = false) :
      Commissioned r m (.kept m)
  | executed {w w' : World σ} {line : TaskLine} {job : Job σ} (hrole : m.role = .execTask)
      (hjob : r.Obtains m.text w line job w') (outcome : Except Error Json) :
      Commissioned r m (.executed line.task job outcome)
  | scheduled {w w' : World σ} {line : TaskLine} {job : Job σ} {inline : Bool}
      (hrole : m.role = taskRole inline) (hjob : r.Obtains m.text w line job w') :
      Commissioned r m (.scheduled inline job)
  | referred {inline : Bool} (hrole : m.role = jobRole inline) :
      Commissioned r m (.referred inline m)

/-- The engine of the resolver, if there is one, keeps the record. -/
def IsRecordedIn (record : JobRecord σ) (r : Resolver σ) : Prop :=
  ∀ engine ∈ r.workflows?, engine.IsRecordedIn record

theorem perform_engine_eq_ok_iff {engine : WorkflowEngine σ} :
    r.engine.perform w = (.ok engine, w') ↔ engine ∈ r.workflows? ∧ w' = w := by
  rw [Resolver.engine]
  cases r.workflows? with
  | none => simp [Act.ofOption]
  | some known => simp [Act.ofOption, eq_comm]

theorem makeJob_eq (r : Resolver σ) (text : String) :
    r.makeJob text = do
      let line ← Act.ofExcept (TaskLine.parse text)
      let engine ← r.engine
      let workflow ← engine.workflow line.workflow
      let job ← workflow.job line.task (takeJobName line.inputs).1 (takeJobName line.inputs).2
      return (line.task, job) := rfl

theorem perform_makeJob_eq_ok_iff {text task : String} {job : Job σ} :
    (r.makeJob text).perform w = (.ok (task, job), w') ↔
      ∃ line, task = line.task ∧ r.Obtains text w line job w' := by
  rw [makeJob_eq]
  constructor
  · intro h
    obtain ⟨line, w₁, hline, h₁⟩ := Act.perform_bind_eq_ok_iff.mp h
    obtain ⟨hparsed, rfl⟩ := Act.perform_ofExcept_eq_ok_iff.mp hline
    obtain ⟨engine, w₂, hengine, h₂⟩ := Act.perform_bind_eq_ok_iff.mp h₁
    obtain ⟨hthere, rfl⟩ := perform_engine_eq_ok_iff.mp hengine
    obtain ⟨workflow, w₃, hworkflow, h₃⟩ := Act.perform_bind_eq_ok_iff.mp h₂
    obtain ⟨made, w₄, hjob, hpure⟩ := Act.perform_bind_eq_ok_iff.mp h₃
    obtain ⟨hmade, rfl⟩ := Prod.mk.inj hpure
    obtain ⟨rfl, rfl⟩ := Prod.mk.inj (Except.ok.inj hmade)
    exact ⟨line, rfl, hparsed, engine, hthere, workflow, w₃, hworkflow, hjob⟩
  · rintro ⟨line, rfl, hline, engine, hengine, workflow, w₁, hworkflow, hjob⟩
    refine Act.perform_bind_eq_ok_iff.mpr
      ⟨line, w, Act.perform_ofExcept_eq_ok_iff.mpr ⟨hline, rfl⟩, ?_⟩
    refine Act.perform_bind_eq_ok_iff.mpr
      ⟨engine, w, perform_engine_eq_ok_iff.mpr ⟨hengine, rfl⟩, ?_⟩
    refine Act.perform_bind_eq_ok_iff.mpr ⟨workflow, w₁, hworkflow, ?_⟩
    exact Act.perform_bind_eq_ok_iff.mpr ⟨job, w', hjob, rfl⟩

/-- A job that cannot be made leaves the log as it is. -/
theorem IsRecordedIn.log_of_makeJob_eq_error (hr : r.IsRecordedIn record) {text : String}
    {f : Failure} (h : (r.makeJob text).perform w = (.error f, w')) :
    record.log w' = record.log w := by
  rw [makeJob_eq] at h
  rcases Act.perform_bind_eq_error_iff.mp h with hline | ⟨line, w₁, hline, h₁⟩
  · exact (Act.keeps_ofExcept _).eq hline
  obtain ⟨-, rfl⟩ := Act.perform_ofExcept_eq_ok_iff.mp hline
  rcases Act.perform_bind_eq_error_iff.mp h₁ with hengine | ⟨engine, w₂, hengine, h₂⟩
  · exact (Act.keeps_ofOption _ _).eq hengine
  obtain ⟨hthere, rfl⟩ := perform_engine_eq_ok_iff.mp hengine
  have hrecorded := hr engine hthere
  rcases Act.perform_bind_eq_error_iff.mp h₂ with hworkflow | ⟨workflow, w₃, hworkflow, h₃⟩
  · rw [(hrecorded.workflow _ hworkflow).1, List.append_nil]
  have hlog : record.log w₃ = record.log w₂ := by
    rw [(hrecorded.workflow _ hworkflow).1, List.append_nil]
  rcases Act.perform_bind_eq_error_iff.mp h₃ with hjob | ⟨job, w₄, -, hpure⟩
  · exact (hrecorded.notMade hworkflow hjob).trans hlog
  · exact absurd (congrArg Prod.fst hpure) nofun

/-- A job that is obtained is known from then on under its path. -/
theorem IsRecordedIn.of_obtains (hr : r.IsRecordedIn record) {text : String} {line : TaskLine}
    {job : Job σ} (h : r.Obtains text w line job w') :
    record.log w' = record.log w ++ [.made job.path] ∧
      record.known w' = (fun path => if path = job.path then some job else record.known w path) ∧
      trimBlank job.path = job.path ∧ job.IsRecordedIn record := by
  obtain ⟨-, engine, hengine, workflow, w₁, hworkflow, hjob⟩ := h
  obtain ⟨hlog, hknown⟩ := (hr engine hengine).workflow _ hworkflow
  have hmade := (hr engine hengine).made hworkflow hjob
  rwa [hknown, hlog, List.append_nil] at hmade

-- ---------------------------------------------------------------------------
-- Tasks
-- ---------------------------------------------------------------------------

theorem execInPlace_eq (task : String) (job : Job σ) :
    execInPlace task job = do return outcomeMessage task (← job.exec.attempt) := by
  unfold execInPlace
  congr 1
  funext outcome
  cases outcome <;> rfl

theorem taskDirective_of_execTask (hrole : m.role = .execTask) :
    r.taskDirective m = do
      let made ← r.makeJob m.text
      let here ← execInPlace made.1 made.2
      return (here, none) := by
  unfold taskDirective
  rw [hrole]

theorem taskDirective_of_taskRole {inline : Bool} (hrole : m.role = taskRole inline) :
    r.taskDirective m = do
      let made ← r.makeJob m.text
      return (.ofText (jobRole inline) made.2.path, some made.2) := by
  unfold taskDirective
  rw [hrole]
  cases inline <;> rfl

theorem role_of_isTaskDirective {role : Role} (h : role.isTaskDirective = true) :
    role = .execTask ∨ ∃ inline, role = taskRole inline := by
  cases role with
  | task => exact Or.inr ⟨false, rfl⟩
  | inlineTask => exact Or.inr ⟨true, rfl⟩
  | execTask => exact Or.inl rfl
  | _ => exact absurd h Bool.false_ne_true

theorem role_of_isJobDirective {role : Role} (h : role.isJobDirective = true) :
    ∃ inline, role = jobRole inline := by
  cases role with
  | job => exact ⟨false, rfl⟩
  | inlineJob => exact ⟨true, rfl⟩
  | _ => exact absurd h Bool.false_ne_true

/-- What the record tells once the jobs of commissions are made. -/
structure Carries (record : JobRecord σ) (cs : List (Commission σ)) (w w' : World σ) : Prop where
  log : record.log w' = record.log w ++ cs.flatMap Commission.making
  others : ∀ path ∉ cs.flatMap Commission.paths, record.known w' path = record.known w path
  known : (cs.flatMap Commission.paths).Nodup →
    ∀ job ∈ cs.flatMap Commission.jobs, record.known w' job.path = some job
  recorded : ∀ job ∈ cs.flatMap Commission.jobs,
    trimBlank job.path = job.path ∧ job.IsRecordedIn record

theorem Carries.append {cs cs' : List (Commission σ)} {w₁ : World σ} (h : Carries record cs w w₁)
    (h' : Carries record cs' w₁ w') : Carries record (cs ++ cs') w w' where
  log := by rw [h'.log, h.log, List.append_assoc, ← List.flatMap_append]
  others := fun path hpath => by
    rw [List.flatMap_append, List.mem_append, not_or] at hpath
    exact (h'.others path hpath.2).trans (h.others path hpath.1)
  known := fun hnodup job hjob => by
    rw [List.flatMap_append, List.nodup_append] at hnodup
    obtain ⟨hfirst, hsecond, hdisjoint⟩ := hnodup
    rw [List.flatMap_append, List.mem_append] at hjob
    rcases hjob with hjob | hjob
    · -- a job that was made before is not made again under its path
      have hpath : job.path ∈ cs.flatMap Commission.paths :=
        (Commission.sublist_paths cs).subset (List.mem_map_of_mem hjob)
      rw [h'.others _ fun hpath' => hdisjoint _ hpath _ hpath' rfl]
      exact h.known hfirst job hjob
    · exact h'.known hsecond job hjob
  recorded := by
    rw [List.flatMap_append]
    exact List.forall_mem_append.mpr ⟨h.recorded, h'.recorded⟩

theorem carries_nothing {cs : List (Commission σ)} (hmaking : cs.flatMap Commission.making = [])
    (hjobs : cs.flatMap Commission.jobs = []) : Carries record cs w w where
  log := by rw [hmaking, List.append_nil]
  others := fun _ _ => rfl
  known := by
    rw [hjobs]
    exact fun _ => List.forall_mem_nil _
  recorded := by
    rw [hjobs]
    exact List.forall_mem_nil _

theorem IsRecordedIn.commissioned_taskDirective (hr : r.IsRecordedIn record)
    (htask : m.role.isTaskDirective = true) {made : Message × Option (Job σ)}
    (h : (r.taskDirective m).perform w = (.ok made, w')) :
    ∃ c, r.Commissioned m c ∧ made.1 = c.message ∧ made.2.toList = c.jobs ∧
      Carries record [c] w w' := by
  rcases role_of_isTaskDirective htask with hrole | ⟨inline, hrole⟩
  · rw [taskDirective_of_execTask hrole] at h
    obtain ⟨⟨task, job⟩, w₁, hmake, h₁⟩ := Act.perform_bind_eq_ok_iff.mp h
    obtain ⟨line, rfl, hjob⟩ := perform_makeJob_eq_ok_iff.mp hmake
    obtain ⟨here, w₂, hexec, hpure⟩ := Act.perform_bind_eq_ok_iff.mp h₁
    rw [execInPlace_eq] at hexec
    obtain ⟨outcome, w₃, hattempt, hpure'⟩ := Act.perform_bind_eq_ok_iff.mp hexec
    obtain ⟨hhere, rfl⟩ := Prod.mk.inj hpure'
    obtain ⟨hmade, rfl⟩ := Prod.mk.inj hpure
    obtain rfl := Except.ok.inj hhere
    obtain rfl := Except.ok.inj hmade
    obtain ⟨hlog, hknown, -, hrecorded⟩ := hr.of_obtains hjob
    obtain ⟨hlog', hknown'⟩ := hrecorded.exec.attempt hattempt
    refine ⟨.executed line.task job outcome, .executed hrole hjob outcome, rfl, rfl, ?_, ?_,
      fun _ => List.forall_mem_nil _, List.forall_mem_nil _⟩
    · rw [hlog', hlog, List.append_assoc]
      rfl
    · intro path hpath
      rw [hknown', hknown]
      exact if_neg fun heq : path = job.path => hpath (heq ▸ List.mem_singleton_self _)
  · rw [taskDirective_of_taskRole hrole] at h
    obtain ⟨⟨task, job⟩, w₁, hmake, hpure⟩ := Act.perform_bind_eq_ok_iff.mp h
    obtain ⟨line, rfl, hjob⟩ := perform_makeJob_eq_ok_iff.mp hmake
    obtain ⟨hmade, rfl⟩ := Prod.mk.inj hpure
    obtain rfl := Except.ok.inj hmade
    obtain ⟨hlog, hknown, hrecorded⟩ := hr.of_obtains hjob
    refine ⟨.scheduled inline job, .scheduled hrole hjob, rfl, rfl, hlog, ?_, ?_, ?_⟩
    · intro path hpath
      rw [hknown]
      exact if_neg fun heq : path = job.path => hpath (heq ▸ List.mem_singleton_self _)
    · rintro - made hmade
      obtain rfl := List.mem_singleton.mp hmade
      rw [hknown]
      exact if_pos rfl
    · exact List.forall_mem_singleton.mpr hrecorded

/-- A message that is no task directive stays, and nothing is done for it. -/
theorem exists_commissioned_of_not_isTaskDirective (record : JobRecord σ) (w : World σ)
    (h : m.role.isTaskDirective = false) :
    ∃ c, r.Commissioned m c ∧ m = c.message ∧ [] = c.jobs ∧ Carries record [c] w w := by
  cases hjob : m.role.isJobDirective with
  | true =>
    obtain ⟨inline, hrole⟩ := role_of_isJobDirective hjob
    exact ⟨.referred inline m, .referred hrole, rfl, rfl, carries_nothing rfl rfl⟩
  | false => exact ⟨.kept m, .kept h hjob, rfl, rfl, carries_nothing rfl rfl⟩

/-- What tasks do with one message. -/
def commission (r : Resolver σ) (m : Message) : Act σ (Message × Option (Job σ)) :=
  if m.role.isTaskDirective then r.taskDirective m else pure (m, none)

theorem makeJobs_cons (r : Resolver σ) (m : Message) (rest : List Message) :
    r.makeJobs (m :: rest) = do
      let made ← r.commission m
      let others ← r.makeJobs rest
      return (made.1 :: others.1, made.2.toList ++ others.2) := by
  rw [makeJobs, commission]
  split <;> rfl

theorem IsRecordedIn.commissioned_makeJobs (hr : r.IsRecordedIn record)
    {made : List Message × List (Job σ)} (h : (r.makeJobs messages).perform w = (.ok made, w')) :
    ∃ cs, List.Forall₂ r.Commissioned messages cs ∧ made.1 = cs.map Commission.message ∧
      made.2 = cs.flatMap Commission.jobs ∧ Carries record cs w w' := by
  induction messages generalizing w made with
  | nil =>
    obtain ⟨hmade, rfl⟩ := Prod.mk.inj h
    obtain rfl := Except.ok.inj hmade
    exact ⟨[], .nil, rfl, rfl, carries_nothing rfl rfl⟩
  | cons m rest ih =>
    rw [makeJobs_cons] at h
    obtain ⟨here, w₁, hhere, h₁⟩ := Act.perform_bind_eq_ok_iff.mp h
    obtain ⟨others, w₂, hothers, hpure⟩ := Act.perform_bind_eq_ok_iff.mp h₁
    obtain ⟨hmade, rfl⟩ := Prod.mk.inj hpure
    obtain rfl := Except.ok.inj hmade
    obtain ⟨cs, hcs, hleft, hjobs, hcarries⟩ := ih hothers
    have hc : ∃ c, r.Commissioned m c ∧ here.1 = c.message ∧ here.2.toList = c.jobs ∧
        Carries record [c] w w₁ := by
      unfold commission at hhere
      split at hhere
      · next htask => exact hr.commissioned_taskDirective htask hhere
      · next htask =>
        obtain ⟨hsame, rfl⟩ := Prod.mk.inj hhere
        obtain rfl := Except.ok.inj hsame
        exact exists_commissioned_of_not_isTaskDirective record w (by simpa using htask)
    obtain ⟨c, hc, hmessage, hjob, hcarries'⟩ := hc
    refine ⟨c :: cs, .cons hc hcs, ?_, ?_, hcarries'.append hcarries⟩
    · rw [hmessage, hleft]
      rfl
    · rw [hjob, hjobs]
      rfl

-- ---------------------------------------------------------------------------
-- Tasks that fail
-- ---------------------------------------------------------------------------

/-- Between two worlds no job is started. -/
def StartsNone (record : JobRecord σ) (w w' : World σ) : Prop :=
  ∃ events, record.log w' = record.log w ++ events ∧ ∀ path, JobEvent.forked path ∉ events

theorem startsNone_of_eq (h : record.log w' = record.log w) : StartsNone record w w' :=
  ⟨[], by rw [h, List.append_nil], fun _ => List.not_mem_nil⟩

theorem StartsNone.trans {w₁ : World σ} (h : StartsNone record w w₁)
    (h' : StartsNone record w₁ w') : StartsNone record w w' := by
  obtain ⟨events, hlog, hnone⟩ := h
  obtain ⟨events', hlog', hnone'⟩ := h'
  refine ⟨events ++ events', by rw [hlog', hlog, List.append_assoc], fun path hpath => ?_⟩
  rcases List.mem_append.mp hpath with hpath | hpath
  · exact hnone path hpath
  · exact hnone' path hpath

theorem Carries.startsNone {cs : List (Commission σ)} (h : Carries record cs w w') :
    StartsNone record w w' := by
  refine ⟨_, h.log, fun path hpath => ?_⟩
  obtain ⟨c, -, hc⟩ := List.mem_flatMap.mp hpath
  cases c <;> simp [Commission.making] at hc

theorem IsRecordedIn.startsNone_of_taskDirective (hr : r.IsRecordedIn record)
    (htask : m.role.isTaskDirective = true) {f : Failure}
    (h : (r.taskDirective m).perform w = (.error f, w')) : StartsNone record w w' := by
  rcases role_of_isTaskDirective htask with hrole | ⟨inline, hrole⟩
  · rw [taskDirective_of_execTask hrole] at h
    rcases Act.perform_bind_eq_error_iff.mp h with hmake | ⟨⟨task, job⟩, w₁, hmake, h₁⟩
    · exact startsNone_of_eq (hr.log_of_makeJob_eq_error hmake)
    obtain ⟨line, rfl, hjob⟩ := perform_makeJob_eq_ok_iff.mp hmake
    obtain ⟨hlog, -, -, hrecorded⟩ := hr.of_obtains hjob
    rcases Act.perform_bind_eq_error_iff.mp h₁ with hexec | ⟨here, w₂, -, hpure⟩
    · rw [execInPlace_eq] at hexec
      rcases Act.perform_bind_eq_error_iff.mp hexec with hattempt | ⟨outcome, w₃, -, hpure⟩
      · refine ⟨[.made job.path, .executed job.path], ?_, by simp⟩
        rw [(hrecorded.exec.attempt hattempt).1, hlog, List.append_assoc]
        rfl
      · exact absurd (congrArg Prod.fst hpure) nofun
    · exact absurd (congrArg Prod.fst hpure) nofun
  · rw [taskDirective_of_taskRole hrole] at h
    rcases Act.perform_bind_eq_error_iff.mp h with hmake | ⟨made, w₁, -, hpure⟩
    · exact startsNone_of_eq (hr.log_of_makeJob_eq_error hmake)
    · exact absurd (congrArg Prod.fst hpure) nofun

theorem IsRecordedIn.startsNone_of_makeJobs (hr : r.IsRecordedIn record) {f : Failure}
    (h : (r.makeJobs messages).perform w = (.error f, w')) : StartsNone record w w' := by
  induction messages generalizing w with
  | nil => exact absurd (congrArg Prod.fst h) nofun
  | cons m rest ih =>
    rw [makeJobs_cons] at h
    rcases Act.perform_bind_eq_error_iff.mp h with hhere | ⟨here, w₁, hhere, h₁⟩
    · unfold commission at hhere
      split at hhere
      · next htask => exact hr.startsNone_of_taskDirective htask hhere
      · exact absurd (congrArg Prod.fst hhere) nofun
    have hfirst : StartsNone record w w₁ := by
      unfold commission at hhere
      split at hhere
      · next htask =>
        obtain ⟨c, -, -, -, hcarries⟩ := hr.commissioned_taskDirective htask hhere
        exact hcarries.startsNone
      · exact startsNone_of_eq (congrArg record.log (Prod.mk.inj hhere).2.symm)
    rcases Act.perform_bind_eq_error_iff.mp h₁ with hothers | ⟨others, w₂, -, hpure⟩
    · exact hfirst.trans (ih hothers)
    · exact absurd (congrArg Prod.fst hpure) nofun

/-- If all jobs are made, that of each directive is obtained once the ones before it are made. -/
theorem obtains_of_makeJobs {before after : List Message} (htask : m.role.isTaskDirective = true)
    {made : List Message × List (Job σ)}
    (h : (r.makeJobs (before ++ m :: after)).perform w = (.ok made, w')) :
    ∃ earlier w₁ line job w₂, (r.makeJobs before).perform w = (.ok earlier, w₁) ∧
      r.Obtains m.text w₁ line job w₂ := by
  induction before generalizing w made w' with
  | nil =>
    rw [List.nil_append, makeJobs_cons] at h
    obtain ⟨here, w₁, hhere, -⟩ := Act.perform_bind_eq_ok_iff.mp h
    rw [commission, if_pos htask] at hhere
    have hmake : ∃ task job w₂, (r.makeJob m.text).perform w = (.ok (task, job), w₂) := by
      obtain ⟨⟨task, job⟩, w₂, hmake, -⟩ := Act.perform_bind_eq_ok_iff.mp hhere
      exact ⟨task, job, w₂, hmake⟩
    obtain ⟨task, job, w₂, hmake⟩ := hmake
    obtain ⟨line, -, hjob⟩ := perform_makeJob_eq_ok_iff.mp hmake
    exact ⟨_, w, line, job, w₂, rfl, hjob⟩
  | cons first rest ih =>
    rw [List.cons_append, makeJobs_cons] at h
    obtain ⟨here, w₁, hhere, h₁⟩ := Act.perform_bind_eq_ok_iff.mp h
    obtain ⟨others, w₂, hothers, -⟩ := Act.perform_bind_eq_ok_iff.mp h₁
    obtain ⟨earlier, w₃, line, job, w₄, hearlier, hjob⟩ := ih hothers
    have hall : (r.makeJobs (first :: rest)).perform w =
        (.ok (here.1 :: earlier.1, here.2.toList ++ earlier.2), w₃) := by
      rw [makeJobs_cons]
      exact Act.perform_bind_eq_ok_iff.mpr
        ⟨here, w₁, hhere, Act.perform_bind_eq_ok_iff.mpr ⟨earlier, w₃, hearlier, rfl⟩⟩
    exact ⟨_, w₃, line, job, w₄, hall, hjob⟩

-- ---------------------------------------------------------------------------
-- Starting jobs
-- ---------------------------------------------------------------------------

theorem tasks_eq (r : Resolver σ) (messages : List Message) :
    r.tasks messages = do
      let made ← r.makeJobs messages
      r.startJobs made.2
      return made.1 := rfl

theorem IsRecordedIn.startJobs (hr : r.IsRecordedIn record) {jobs : List (Job σ)}
    (hjobs : ∀ job ∈ jobs, job.IsRecordedIn record)
    (h : (r.startJobs jobs).perform w = (.ok (), w')) :
    record.log w' = record.log w ++ jobs.map (fun job => .forked job.path) ∧
      record.known w' = record.known w := by
  cases jobs with
  | nil => exact JobRecord.forkAll_adds hjobs h
  | cons job rest =>
    obtain ⟨engine, w₁, hengine, hproduce⟩ := Act.perform_bind_eq_ok_iff.mp h
    obtain ⟨hthere, rfl⟩ := perform_engine_eq_ok_iff.mp hengine
    rw [(hr engine hthere).produce] at hproduce
    exact JobRecord.forkAll_adds hjobs hproduce

-- ---------------------------------------------------------------------------
-- Jobs
-- ---------------------------------------------------------------------------

theorem jobDirective_of_jobRole {inline : Bool} (hrole : m.role = jobRole inline) :
    r.jobDirective m = do
      let engine ← r.engine
      let job ← engine.loadJob m.trimmedText
      job.join
      if inline then return [.ofText .file job.path]
      else return jobExchange job (← jobText job) := by
  unfold jobDirective
  rw [hrole]
  cases inline <;> rfl

theorem jobText_adds {job : Job σ} (hjob : job.IsRecordedIn record) {text : String}
    (h : (jobText job).perform w = (.ok text, w')) :
    record.log w' = record.log w ++ [.read job.path, .read job.path] ∧
      record.known w' = record.known w := by
  obtain ⟨done, w₁, hdone, h₁⟩ := Act.perform_bind_eq_ok_iff.mp h
  obtain ⟨hlog, hknown⟩ := hjob.isDone hdone
  have hread : record.log w' = record.log w₁ ++ [.read job.path] ∧
      record.known w' = record.known w₁ := by
    cases done with
    | true => exact hjob.output h₁
    | false =>
      obtain ⟨text?, w₂, herror, hpure⟩ := Act.perform_bind_eq_ok_iff.mp h₁
      obtain ⟨-, rfl⟩ := Prod.mk.inj hpure
      exact hjob.errorText herror
  refine ⟨?_, hread.2.trans hknown⟩
  rw [hread.1, hlog, List.append_assoc]
  rfl

/-- A job directive awaits the job that is known under its path. -/
theorem IsRecordedIn.awaits (hr : r.IsRecordedIn record) {inline : Bool}
    (hrole : m.role = jobRole inline) {here : List Message}
    (h : (r.jobDirective m).perform w = (.ok here, w')) :
    ∃ job text, record.known w m.trimmedText = some job ∧ job.path = m.trimmedText ∧
      here = Commission.settled inline job text ∧
      record.log w' = record.log w ++ Commission.awaitingOf inline m.trimmedText ∧
      record.known w' = record.known w := by
  rw [jobDirective_of_jobRole hrole] at h
  obtain ⟨engine, w₁, hengine, h₁⟩ := Act.perform_bind_eq_ok_iff.mp h
  obtain ⟨hthere, rfl⟩ := perform_engine_eq_ok_iff.mp hengine
  obtain ⟨job, w₂, hload, h₂⟩ := Act.perform_bind_eq_ok_iff.mp h₁
  obtain ⟨hlog, hknown⟩ := (hr engine hthere).loadJob _ hload
  obtain ⟨hjob, hpath, hrecorded⟩ := (hr engine hthere).loaded hload
  obtain ⟨⟨⟩, w₃, hjoin, h₃⟩ := Act.perform_bind_eq_ok_iff.mp h₂
  obtain ⟨hlog', hknown'⟩ := hrecorded.join hjoin
  rw [List.append_nil] at hlog
  rw [hlog] at hlog'
  rw [hknown] at hknown'
  cases inline with
  | true =>
    obtain ⟨hhere, rfl⟩ := Prod.mk.inj h₃
    obtain rfl := Except.ok.inj hhere
    exact ⟨job, "", hjob, hpath, rfl, hpath ▸ hlog', hknown'⟩
  | false =>
    obtain ⟨text, w₄, htext, hpure⟩ := Act.perform_bind_eq_ok_iff.mp h₃
    obtain ⟨hhere, rfl⟩ := Prod.mk.inj hpure
    obtain rfl := Except.ok.inj hhere
    obtain ⟨hread, hsame⟩ := jobText_adds hrecorded htext
    refine ⟨job, text, hjob, hpath, rfl, ?_, hsame.trans hknown'⟩
    rw [hread, hlog', List.append_assoc, ← hpath]
    rfl

theorem jobDirective_of_not_isJobDirective (h : m.role.isJobDirective = false) :
    r.jobDirective m = pure [m] := by
  unfold jobDirective
  rw [h]
  rfl

/-- What jobs make of the message that a commission left. -/
theorem IsRecordedIn.becomes (hr : r.IsRecordedIn record) {c : Commission σ}
    (hc : r.Commissioned m c) (hknown : ∀ job ∈ c.jobs, record.known w job.path = some job)
    (htrim : ∀ job ∈ c.jobs, trimBlank job.path = job.path) {here : List Message}
    (h : (r.jobDirective c.message).perform w = (.ok here, w')) :
    c.Becomes (record.known w) here ∧ record.log w' = record.log w ++ c.awaiting ∧
      record.known w' = record.known w := by
  have hpure : ∀ {x : Message}, (r.jobDirective x).perform w = (.ok here, w') →
      x.role.isJobDirective = false →
      here = [x] ∧ record.log w' = record.log w ++ [] ∧ record.known w' = record.known w := by
    intro x hx hrole
    rw [jobDirective_of_not_isJobDirective hrole] at hx
    obtain ⟨hhere, rfl⟩ := Prod.mk.inj hx
    exact ⟨(Except.ok.inj hhere).symm, (List.append_nil _).symm, rfl⟩
  cases hc with
  | kept htask hjob =>
    obtain ⟨rfl, hlog, hsame⟩ := hpure h hjob
    exact ⟨.kept m, hlog, hsame⟩
  | executed hrole hjob outcome =>
    have hrole' : ∀ task, (outcomeMessage task outcome).role.isJobDirective = false := by
      cases outcome <;> exact fun _ => rfl
    obtain ⟨rfl, hlog, hsame⟩ := hpure h (hrole' _)
    exact ⟨.executed _ _ outcome, hlog, hsame⟩
  | @scheduled _ _ _ job inline hrole hjob =>
    have hmem : job ∈ (Commission.scheduled inline job).jobs := List.mem_singleton_self job
    have hpath : (Message.ofText (jobRole inline) job.path).trimmedText = job.path :=
      htrim job hmem
    obtain ⟨job', text, hjob', hpath', rfl, hlog, hsame⟩ := hr.awaits rfl h
    rw [Commission.message, hpath] at hjob' hlog
    obtain rfl := Option.some.inj ((hknown job hmem).symm.trans hjob')
    exact ⟨.scheduled inline job text, hlog, hsame⟩
  | @referred inline hrole =>
    obtain ⟨job, text, hjob, hpath, rfl, hlog, hsame⟩ := hr.awaits hrole h
    exact ⟨.referred inline hjob hpath text, hlog, hsame⟩

theorem IsRecordedIn.becomes_all (hr : r.IsRecordedIn record) {cs : List (Commission σ)}
    (hcs : List.Forall₂ r.Commissioned messages cs)
    (hknown : ∀ job ∈ cs.flatMap Commission.jobs, record.known w job.path = some job)
    (htrim : ∀ job ∈ cs.flatMap Commission.jobs, trimBlank job.path = job.path)
    {out : List Message} (h : (r.jobs (cs.map Commission.message)).perform w = (.ok out, w')) :
    ∃ places, List.Forall₂ (Commission.Becomes (record.known w)) cs places ∧
      out = places.flatten ∧ record.log w' = record.log w ++ cs.flatMap Commission.awaiting := by
  induction hcs generalizing w out with
  | nil =>
    obtain ⟨hout, rfl⟩ := Prod.mk.inj h
    obtain rfl := Except.ok.inj hout
    exact ⟨[], .nil, rfl, (List.append_nil _).symm⟩
  | @cons m c rest cs hc hcs ih =>
    rw [List.flatMap_cons] at hknown htrim
    obtain ⟨hknown₁, hknown₂⟩ := List.forall_mem_append.mp hknown
    obtain ⟨htrim₁, htrim₂⟩ := List.forall_mem_append.mp htrim
    obtain ⟨here, w₁, hhere, h₁⟩ := Act.perform_bind_eq_ok_iff.mp h
    obtain ⟨others, w₂, hothers, hpure⟩ := Act.perform_bind_eq_ok_iff.mp h₁
    obtain ⟨hout, rfl⟩ := Prod.mk.inj hpure
    obtain rfl := Except.ok.inj hout
    obtain ⟨hbecomes, hlog, hsame⟩ := hr.becomes hc hknown₁ htrim₁ hhere
    rw [← hsame] at hknown₂
    obtain ⟨places, hplaces, rfl, hlogs⟩ := ih hknown₂ htrim₂ hothers
    rw [hsame] at hplaces
    refine ⟨here :: places, .cons hbecomes hplaces, rfl, ?_⟩
    rw [hlogs, hlog, List.append_assoc, List.flatMap_cons]

-- ---------------------------------------------------------------------------
-- Both passes
-- ---------------------------------------------------------------------------

/-- Tasks, and then jobs, put what becomes of each directive in its place and keep all other
messages, provided that the jobs that are made have distinct paths. Those that are to be started are
started once each, in the order of their directives, when all are made, and every job is joined
before anything of it is read. The job of each directive is obtained, or tasks fail and none is
started. -/
theorem tasks_jobs_substitute (hr : r.IsRecordedIn record) {result : Except Failure (List Message)}
    {w₁ : World σ} (h : (r.tasks messages).perform w = (result, w₁)) :
    (∀ left out w', result = .ok left →
      ((record.log w₁).filterMap JobEvent.madePath?).Nodup →
      (r.jobs left).perform w₁ = (.ok out, w') →
      ∃ (cs : List (Commission σ)) (places : List (List Message)),
        List.Forall₂ r.Commissioned messages cs ∧
        List.Forall₂ (Commission.Becomes (record.known w₁)) cs places ∧ out = places.flatten ∧
        record.log w₁ =
          record.log w ++ cs.flatMap Commission.making ++ cs.flatMap Commission.forking ∧
        (cs.flatMap Commission.forking).Nodup ∧
        record.log w' = record.log w₁ ++ cs.flatMap Commission.awaiting) ∧
    ∀ before m after, messages = before ++ m :: after → m.role.isTaskDirective = true →
      (∃ earlier w₂ line job w₃, (r.makeJobs before).perform w = (.ok earlier, w₂) ∧
        r.Obtains m.text w₂ line job w₃) ∨
      ((∃ f, result = .error f) ∧ StartsNone record w w₁) := by
  rw [tasks_eq] at h
  constructor
  · rintro left out w' rfl hnodup hjobs
    obtain ⟨made, w₂, hmade, h₁⟩ := Act.perform_bind_eq_ok_iff.mp h
    obtain ⟨⟨⟩, w₃, hstart, hpure⟩ := Act.perform_bind_eq_ok_iff.mp h₁
    obtain ⟨hleft, rfl⟩ := Prod.mk.inj hpure
    obtain ⟨cs, hcs, hmessages, hmadeJobs, hcarries⟩ := hr.commissioned_makeJobs hmade
    rw [hmadeJobs] at hstart
    obtain ⟨hlog, hsame⟩ := hr.startJobs (fun job hjob => (hcarries.recorded job hjob).2) hstart
    rw [← Commission.forking_eq_map, hcarries.log] at hlog
    have hpaths : (cs.flatMap Commission.paths).Nodup := by
      rw [hlog, List.filterMap_append, List.filterMap_append, Commission.madePath?_making] at hnodup
      exact (List.nodup_append.mp (List.nodup_append.mp hnodup).1).2.1
    obtain rfl := Except.ok.inj hleft
    rw [hmessages] at hjobs
    have hknown : ∀ job ∈ cs.flatMap Commission.jobs, record.known w₃ job.path = some job := by
      rw [hsame]
      exact hcarries.known hpaths
    obtain ⟨places, hplaces, hout, hlog'⟩ :=
      hr.becomes_all hcs hknown (fun job hjob => (hcarries.recorded job hjob).1) hjobs
    exact ⟨cs, places, hcs, hplaces, hout, hlog, Commission.nodup_forking hpaths, hlog'⟩
  · rintro before m after rfl htask
    rcases hmade : (r.makeJobs (before ++ m :: after)).perform w with ⟨f | made, w₂⟩
    · rw [Act.perform_bind, hmade] at h
      obtain ⟨hresult, rfl⟩ := Prod.mk.inj h
      exact Or.inr ⟨⟨f, hresult.symm⟩, hr.startsNone_of_makeJobs hmade⟩
    · exact Or.inl (obtains_of_makeJobs htask hmade)

end Resolver

-- ---------------------------------------------------------------------------
-- A workshop
-- ---------------------------------------------------------------------------

/-- What an engine has done, and the jobs that it has made with their tasks and inputs, the latest
first. -/
structure Workshop where
  log : List JobEvent := []
  jobs : List (String × String × Json) := []

namespace Workshop

def note (event : JobEvent) : Act Workshop Unit :=
  Act.modifyOuter fun shop => { shop with log := shop.log ++ [event] }

/-- A job that gives its inputs. -/
def job (path task : String) (inputs : Json) : Job Workshop where
  path := path
  taskName := task
  inputs := inputs
  isDone := do
    note (.read path)
    return true
  errorText? := do
    note (.read path)
    return none
  exec := do
    note (.executed path)
    return inputs
  run := Act.fail (.collaborator "nothing is run here")
  fork := note (.forked path)
  join := note (.joined path)
  output := do
    note (.read path)
    return inputs.render

/-- The job that was made last under a path. -/
def known (shop : Workshop) (path : String) : Option (Job Workshop) :=
  (shop.jobs.lookup path).map fun made => job path made.1 made.2

def record : JobRecord Workshop := ⟨fun w => w.outer.log, fun w => w.outer.known⟩

/-- Make a job whose path is its name, or that of its task. -/
def makeJob (task : String) (name? : Option String) (inputs : Fields) :
    Act Workshop (Job Workshop) := do
  let path := name?.getD task
  if trimBlank path = path then
    Act.modifyOuter fun shop =>
      { log := shop.log ++ [.made path], jobs := (path, task, .obj inputs) :: shop.jobs }
    return job path task (.obj inputs)
  else Act.fail (.collaborator "there is no such path")

def workflow (name : String) : Workflow Workshop where
  name := name
  taskInfo := fun task => pure ⟨task, "", []⟩
  exportedTasks := pure []
  allTasks := pure []
  execExports := pure []
  job := makeJob

def engine : WorkflowEngine Workshop where
  workflow := fun name =>
    if name = "bench" then pure (workflow name) else Act.fail (.notFound "Workflow" name)
  loadJob := fun path => do
    let shop ← Act.outer
    Act.ofOption (.notFound "Job" path) (shop.known path)
  produce := forkAll

theorem isRecordedIn_job (path task : String) (inputs : Json) :
    (job path task inputs).IsRecordedIn record := by
  constructor <;>
  · intro w w' result h
    obtain ⟨-, rfl⟩ := Prod.mk.inj h
    exact ⟨rfl, rfl⟩

theorem workflow_eq_of_perform {name : String} {w w' : World Workshop}
    {made : Workflow Workshop} (h : (engine.workflow name).perform w = (.ok made, w')) :
    made = workflow name := by
  simp only [engine] at h
  split at h
  · exact (Except.ok.inj (Prod.mk.inj h).1).symm
  · exact absurd (congrArg Prod.fst h) nofun

theorem isRecordedIn_engine : engine.IsRecordedIn record where
  workflow := by
    intro name w w' result h
    simp only [engine] at h
    split at h <;>
    · obtain ⟨-, rfl⟩ := Prod.mk.inj h
      exact ⟨(List.append_nil _).symm, rfl⟩
  made := by
    intro name w w₁ made hmade task name? inputs v v' job h
    obtain rfl := workflow_eq_of_perform hmade
    simp only [workflow, makeJob] at h
    split at h
    · next hpath =>
      obtain ⟨hjob, rfl⟩ := Prod.mk.inj h
      obtain rfl := Except.ok.inj hjob
      refine ⟨rfl, ?_, hpath, isRecordedIn_job _ _ _⟩
      funext path
      show (List.lookup path (_ :: v.outer.jobs)).map _ =
        if path = name?.getD task then _ else _
      rw [List.lookup_cons]
      by_cases heq : path = name?.getD task
      · subst heq
        rw [beq_self_eq_true, if_pos rfl]
        rfl
      · rw [beq_false_of_ne heq, if_neg heq]
        rfl
    · exact absurd (congrArg Prod.fst h) nofun
  notMade := by
    intro name w w₁ made hmade task name? inputs v v' f h
    obtain rfl := workflow_eq_of_perform hmade
    simp only [workflow, makeJob] at h
    split at h
    · exact absurd (congrArg Prod.fst h) nofun
    · exact congrArg (fun x => x.2.outer.log) h.symm
  loadJob := by
    intro path w w' result h
    have hact : (Act.ofOption (.notFound "Job" path) (w.outer.known path)).perform w =
        (result, w') := h
    have hkeeps : Act.Keeps (fun w => w)
        (Act.ofOption (.notFound "Job" path) (w.outer.known path) : Act Workshop (Job Workshop)) :=
      Act.keeps_ofOption _ _
    rw [hkeeps.eq hact]
    exact ⟨(List.append_nil _).symm, rfl⟩
  loaded := by
    intro path v v' made h
    have hact : (Act.ofOption (.notFound "Job" path) (v.outer.known path)).perform v =
        (.ok made, v') := h
    cases hknown : v.outer.known path with
    | none =>
      rw [hknown] at hact
      exact absurd (congrArg Prod.fst hact) nofun
    | some job =>
      rw [hknown] at hact
      obtain rfl := Except.ok.inj (Prod.mk.inj hact).1
      obtain ⟨x, -, rfl⟩ := Option.map_eq_some_iff.mp hknown
      exact ⟨hknown, rfl, isRecordedIn_job _ _ _⟩
  produce := rfl

end Workshop

namespace Resolver

/-- Directives of all five roles, between messages that stay. -/
theorem tasks_jobs_substitute_workshop :
    let r : Resolver Workshop := { files := .empty, workflows? := some Workshop.engine }
    let messages : List Message :=
      [.ofText .job "old", .user "first", .ofText .task "bench saw jobname=s1 wood=oak",
        .ofText .execTask "bench look at=it", .ofText .inlineTask "bench plane jobname=p1",
        .ofText .inlineJob " old ", .assistant "last"]
    let left : List Message :=
      [.ofText .job "old", .user "first", .ofText .job "s1",
        .user "\x7b\x22at\x22:\x22it\x22\x7d", .ofText .inlineJob "p1",
        .ofText .inlineJob " old ", .assistant "last"]
    let out : List Message :=
      [.functionCall ⟨jobCallId "old", "sand", .null⟩,
        .functionCallOutput ⟨jobCallId "old", "null"⟩, .user "first",
        .functionCall ⟨jobCallId "s1", "saw", .object [("wood", .str "oak")]⟩,
        .functionCallOutput ⟨jobCallId "s1", "\x7b\x22wood\x22:\x22oak\x22\x7d"⟩,
        .user "\x7b\x22at\x22:\x22it\x22\x7d", .ofText .file "p1", .ofText .file "old",
        .assistant "last"]
    ∃ w₁ w', (r.tasks messages).perform (.start ⟨[], [("old", "sand", .null)]⟩) = (.ok left, w₁) ∧
      (r.jobs left).perform w₁ = (.ok out, w') ∧
      w₁.outer.log = [.made "s1", .made "look", .executed "look", .made "p1", .forked "s1",
        .forked "p1"] ∧
      ∃ (cs : List (Commission Workshop)) (places : List (List Message)),
        List.Forall₂ r.Commissioned messages cs ∧
        List.Forall₂ (Commission.Becomes w₁.outer.known) cs places ∧ out = places.flatten ∧
        w₁.outer.log = [] ++ cs.flatMap Commission.making ++ cs.flatMap Commission.forking := by
  intro r messages left out
  have hr : r.IsRecordedIn Workshop.record := by
    intro engine hengine
    obtain rfl := Option.some.inj hengine
    exact Workshop.isRecordedIn_engine
  have hleft : ((r.tasks messages).perform (.start ⟨[], [("old", "sand", .null)]⟩)).1 = .ok left := by
    decide +kernel
  obtain ⟨w₁, htasks⟩ := Act.exists_perform_eq hleft
  have hw₁ : ((r.tasks messages).perform (.start ⟨[], [("old", "sand", .null)]⟩)).2 = w₁ := by
    rw [htasks]
  have hlog : w₁.outer.log = [.made "s1", .made "look", .executed "look", .made "p1",
      .forked "s1", .forked "p1"] := by
    rw [← hw₁]
    decide +kernel
  have hout : ((r.jobs left).perform w₁).1 = .ok out := by
    rw [← hw₁]
    decide +kernel
  obtain ⟨w', hjobs⟩ := Act.exists_perform_eq hout
  have hnodup : ((Workshop.record.log w₁).filterMap JobEvent.madePath?).Nodup := by
    show (w₁.outer.log.filterMap JobEvent.madePath?).Nodup
    rw [hlog]
    decide
  obtain ⟨cs, places, hcs, hplaces, hflatten, hboth, -, -⟩ :=
    (tasks_jobs_substitute hr htasks).1 left out w' rfl hnodup hjobs
  exact ⟨w₁, w', htasks, hjobs, hlog, cs, places, hcs, hplaces, hflatten, hboth⟩

end Resolver

end Colloquy
