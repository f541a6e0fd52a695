import Colloquy.Directive.Import
import Colloquy.Proofs.Act

/-!
# Colloquy — what passes leave

The passes after imports take each message by itself. What such a pass leaves are messages
that it keeps, and messages that it makes in place of directives; what holds of both holds of
all that is left (`Resolver.ensures_tasks`, `Resolver.ensures_jobs`,
`Resolver.ensures_fileContents`). It fails with the failures of the workflow engine and with
few of its own (`Resolver.FailsOnly`).
-/

namespace Colloquy

-- ---------------------------------------------------------------------------
-- Failures of passes
-- ---------------------------------------------------------------------------

/-- What waiting for the job and taking its text fails with. -/
structure Job.FailsOnly {σ : Type} (E : Failure → Prop) (job : Job σ) : Prop where
  isDone : Act.FailsOnly E job.isDone
  errorText : Act.FailsOnly E job.errorText?
  join : Act.FailsOnly E job.join
  output : Act.FailsOnly E job.output

/-- What making jobs of the workflow fails with. -/
structure Workflow.FailsOnly {σ : Type} (E : Failure → Prop) (workflow : Workflow σ) : Prop where
  job : ∀ task name? inputs, Act.FailsOnly E (workflow.job task name? inputs)

/-- What making, starting and awaiting jobs of the engine fails with. -/
structure WorkflowEngine.FailsOnly {σ : Type} (E : Failure → Prop) (engine : WorkflowEngine σ) :
    Prop where
  workflow : ∀ name, Act.Ensures (Workflow.FailsOnly E) E (engine.workflow name)
  loadJob : ∀ path, Act.Ensures (Job.FailsOnly E) E (engine.loadJob path)
  produce : ∀ jobs, Act.FailsOnly E (engine.produce jobs)

namespace Resolver

variable {σ : Type}

/-- Failures of the passes after imports that are not of a collaborator. -/
inductive Complains : Failure → Prop
  | directive (role message : String) : Complains (.error (.directive role message))
  | configuration (message : String) : Complains (.error (.configuration message))
  | notFound (kind reference : String) : Complains (.error (.notFound kind reference))
  | io (cause : Cause) : Complains (.error (.io cause))
  | fault : Complains .fault

/-- What the passes after imports fail with. -/
structure FailsOnly (r : Resolver σ) (E : Failure → Prop) : Prop where
  own : ∀ f, Complains f → E f
  engine : ∀ engine ∈ r.workflows?, engine.FailsOnly E

theorem failsOnly_true (r : Resolver σ) : r.FailsOnly fun _ => True := by
  have hany : ∀ {α : Type} (act : Act σ α), Act.FailsOnly (fun _ => True) act := Act.ensures_true
  refine ⟨fun _ _ => trivial, fun engine _ => ⟨fun name => ?_, fun path => ?_, fun _ => hany _⟩⟩
  · exact (hany _).imp fun _ _ => ⟨fun _ _ _ => hany _⟩
  · exact (hany _).imp fun _ _ => ⟨hany _, hany _, hany _, hany _⟩

section

variable {r : Resolver σ} {E : Failure → Prop} {P : Message → Prop}

theorem FailsOnly.ensures_engine (h : r.FailsOnly E) :
    Act.Ensures (WorkflowEngine.FailsOnly E) E r.engine :=
  Act.ensures_ofOption h.engine (h.own _ (.configuration _))

/-- What is known of what a pass makes of each message is put together along the list. -/
theorem ensures_eachMessage_of {Q : Message → List Message → Prop}
    {R : List Message → List Message → Prop} (hnil : R [] [])
    (hcons : ∀ m rest here others, Q m here → R rest others → R (m :: rest) (here ++ others))
    {f : Message → Act σ (List Message)} {messages : List Message}
    (h : ∀ m ∈ messages, Act.Ensures (Q m) E (f m)) :
    Act.Ensures (R messages) E (eachMessage f messages) := by
  induction messages with
  | nil => exact Act.ensures_pure hnil
  | cons m rest ih =>
    obtain ⟨hm, hrest⟩ := List.forall_mem_cons.mp h
    refine hm.bind fun here hhere => (ih hrest).bind fun others hothers => ?_
    exact Act.ensures_pure (hcons m rest here others hhere hothers)

/-- What a pass makes of each message has the property, so all that it leaves has. -/
theorem ensures_eachMessage {f : Message → Act σ (List Message)} {messages : List Message}
    (h : ∀ m ∈ messages, Act.Ensures (fun out => ∀ x ∈ out, P x) E (f m)) :
    Act.Ensures (fun out => ∀ x ∈ out, P x) E (eachMessage f messages) :=
  ensures_eachMessage_of (R := fun _ out => ∀ x ∈ out, P x) (List.forall_mem_nil _)
    (fun _ _ _ _ hhere hothers => List.forall_mem_append.mpr ⟨hhere, hothers⟩) h

-- ---------------------------------------------------------------------------
-- Tasks
-- ---------------------------------------------------------------------------

theorem FailsOnly.ensures_makeJob (h : r.FailsOnly E) (line : String) :
    Act.FailsOnly E (r.makeJob line) := by
  unfold makeJob
  have hparse : Act.FailsOnly E (Act.ofExcept (TaskLine.parse line) : Act σ TaskLine) := by
    refine Act.ensures_ofExcept (fun _ _ => trivial) fun e he => ?_
    unfold TaskLine.parse at he
    split at he
    · simp at he
    · rw [← Except.error.inj he]
      exact h.own _ (.directive _ _)
  refine hparse.bind fun target _ => h.ensures_engine.bind fun engine hengine => ?_
  refine (hengine.workflow _).bind fun workflow hworkflow => ?_
  exact (hworkflow.job _ _ _).bind fun job _ => Act.ensures_pure trivial

/-- A task that is executed leaves a message of the user, and any other leaves a job directive. -/
theorem FailsOnly.ensures_taskDirective (h : r.FailsOnly E) (m : Message)
    (huser : ∀ text, P (.user text)) (hjob : ∀ path, P (.ofText .job path))
    (hinline : ∀ path, P (.ofText .inlineJob path)) :
    Act.Ensures (fun made => P made.1) E (r.taskDirective m) := by
  unfold taskDirective
  refine (h.ensures_makeJob _).bind fun ⟨task, job⟩ _ => ?_
  have hexec : Act.Ensures P E (execInPlace task job) := by
    refine (Act.ensures_attempt job.exec (h.own _ .fault)).bind fun outcome _ => ?_
    cases outcome with
    | ok v => exact Act.ensures_pure (huser _)
    | error e => exact Act.ensures_pure (huser _)
  dsimp only
  split
  · exact hexec.bind fun made hmade => Act.ensures_pure hmade
  · exact Act.ensures_pure (hinline _)
  · exact Act.ensures_pure (hjob _)

/-- What is known of what each message becomes is put together along the list. -/
theorem ensures_makeJobs_of {Q : Message → Message → Prop}
    {R : List Message → List Message → Prop} (hnil : R [] [])
    (hcons : ∀ m rest here others, Q m here → R rest others → R (m :: rest) (here :: others))
    {messages : List Message}
    (hkept : ∀ m ∈ messages, m.role.isTaskDirective = false → Q m m)
    (hmade : ∀ m ∈ messages, m.role.isTaskDirective = true →
      Act.Ensures (fun made => Q m made.1) E (r.taskDirective m)) :
    Act.Ensures (fun left => R messages left.1) E (r.makeJobs messages) := by
  induction messages with
  | nil => exact Act.ensures_pure hnil
  | cons m rest ih =>
    obtain ⟨hm, hrest⟩ := List.forall_mem_cons.mp hkept
    obtain ⟨hm', hrest'⟩ := List.forall_mem_cons.mp hmade
    have hothers : ∀ here job?, Q m here →
        Act.Ensures (fun left => R (m :: rest) left.1) E
          (r.makeJobs rest >>= fun x => pure (here :: x.1, Option.toList job? ++ x.2)) :=
      fun here job? hhere => (ih hrest hrest').bind fun left hleft =>
        Act.ensures_pure (hcons m rest here left.1 hhere hleft)
    rw [makeJobs]
    split
    · next hrole => exact (hm' hrole).bind fun made hmade => hothers _ _ hmade
    · next hrole =>
      exact (Act.ensures_pure (Q := fun made => Q m made.1) (hm (by simpa using hrole))).bind
        fun made hmade => hothers _ _ hmade

/-- Starting jobs changes no messages. -/
theorem FailsOnly.ensures_tasks_of (h : r.FailsOnly E) {R : List Message → Prop}
    {messages : List Message}
    (hmake : Act.Ensures (fun left => R left.1) E (r.makeJobs messages)) :
    Act.Ensures R E (r.tasks messages) := by
  refine hmake.bind fun ⟨left, jobs⟩ hleft => ?_
  have hstart : Act.FailsOnly E (r.startJobs jobs) := by
    unfold startJobs
    split
    · exact Act.ensures_pure trivial
    · exact h.ensures_engine.bind fun engine hengine => hengine.produce _
  exact hstart.bind fun _ _ => Act.ensures_pure hleft

/-- Messages that are left by tasks: those that are kept, and those that executed tasks and jobs
leave. -/
theorem FailsOnly.ensures_tasks (h : r.FailsOnly E) {messages : List Message}
    (hkept : ∀ m ∈ messages, m.role.isTaskDirective = false → P m)
    (huser : ∀ text, P (.user text)) (hjob : ∀ path, P (.ofText .job path))
    (hinline : ∀ path, P (.ofText .inlineJob path)) :
    Act.Ensures (fun left => ∀ m ∈ left, P m) E (r.tasks messages) :=
  h.ensures_tasks_of (ensures_makeJobs_of (R := fun _ left => ∀ m ∈ left, P m)
    (List.forall_mem_nil _)
    (fun _ _ _ _ hhere hothers => List.forall_mem_cons.mpr ⟨hhere, hothers⟩) hkept
    fun m _ _ => h.ensures_taskDirective m huser hjob hinline)

-- ---------------------------------------------------------------------------
-- Jobs
-- ---------------------------------------------------------------------------

theorem ensures_jobText {job : Job σ} (h : job.FailsOnly E) :
    Act.FailsOnly E (jobText job) := by
  refine h.isDone.bind fun done _ => ?_
  split
  · exact h.output
  · exact h.errorText.bind fun _ _ => Act.ensures_pure trivial

/-- Messages that are left by jobs: those that are kept, exchanges and file directives. -/
theorem FailsOnly.ensures_jobs (h : r.FailsOnly E) {messages : List Message}
    (hkept : ∀ m ∈ messages, m.role.isJobDirective = false → P m)
    (hexchange : ∀ (job : Job σ) text, ∀ m ∈ jobExchange job text, P m)
    (hfile : ∀ path, P (.ofText .file path)) :
    Act.Ensures (fun left => ∀ m ∈ left, P m) E (r.jobs messages) := by
  refine ensures_eachMessage fun m hm => ?_
  unfold jobDirective
  split
  · refine h.ensures_engine.bind fun engine hengine => ?_
    refine (hengine.loadJob _).bind fun job hjob => hjob.join.bind fun _ _ => ?_
    split
    · exact Act.ensures_pure (List.forall_mem_singleton.mpr (hfile _))
    · exact (ensures_jobText hjob).bind fun text _ => Act.ensures_pure (hexchange job text)
  · next hrole =>
    exact Act.ensures_pure (List.forall_mem_singleton.mpr (hkept m hm (by simpa using hrole)))

-- ---------------------------------------------------------------------------
-- Files
-- ---------------------------------------------------------------------------

/-- Roles whose messages name files. -/
def namesFiles : Role → Bool
  | .file | .directory | .pdf | .image => true
  | _ => false

/-- The reference of an image or a document is to the web, or leads to this path. -/
def Refers (r : Resolver σ) (origin? : Option String) (reference path : String) : Prop :=
  (isRemote reference = true ∧ path = reference) ∨
    (isRemote reference = false ∧ r.find? reference origin? = some path)

/-- What a message becomes once the files that it names are read. -/
inductive Becomes (r : Resolver σ) (origin? : Option String) (m : Message) : List Message → Prop
  | kept (h : namesFiles m.role = false) : Becomes r origin? m [m]
  | file {content : String} (h : m.role = .file) :
      Becomes r origin? m [fileMessage m.trimmedText content]
  | directory {path : String} (h : m.role = .directory) :
      Becomes r origin? m (textFiles (r.files.filesBelow path))
  | media {path : String} (h : m.role = .pdf ∨ m.role = .image)
      (hrefers : r.Refers origin? m.trimmedText path) :
      Becomes r origin? m [.ofText m.role path]

theorem complains_of_readText {files : FileTree} {path : String} {e : Error}
    (h : files.readText path = .error e) : Complains (.error e) := by
  unfold FileTree.readText at h
  split at h
  · split at h
    · simp at h
    · rw [← Except.error.inj h]
      exact .io _
  · rw [← Except.error.inj h]
    exact .io _
  · rw [← Except.error.inj h]
    exact .io _

theorem fileDirective_of_kept {m : Message} (h : namesFiles m.role = false) (r : Resolver σ)
    (origin? : Option String) : r.fileDirective origin? m = .ok [m] := by
  unfold fileDirective
  dsimp only
  split
  · next hrole => simp [hrole, namesFiles] at h
  · next hrole => simp [hrole, namesFiles] at h
  · next hrole => simp [hrole, namesFiles] at h
  · next hrole => simp [hrole, namesFiles] at h
  · rfl

theorem fileDirective_of_refers {m : Message} (h : m.role = .pdf ∨ m.role = .image)
    {r : Resolver σ} {origin? : Option String} {path : String}
    (hrefers : r.Refers origin? m.trimmedText path) :
    r.fileDirective origin? m = .ok [.ofText m.role path] := by
  rcases hrefers with ⟨hremote, rfl⟩ | ⟨hlocal, hfind⟩
  · rcases h with h | h <;> simp [fileDirective, h, hremote]
  · rcases h with h | h <;> simp [fileDirective, h, hlocal, hfind]

theorem fileDirective_of_not_refers {m : Message} (h : m.role = .pdf ∨ m.role = .image)
    {r : Resolver σ} {origin? : Option String} (hlocal : isRemote m.trimmedText = false)
    (hfind : r.find? m.trimmedText origin? = none) :
    r.fileDirective origin? m = .error (.notFound "File" m.trimmedText) := by
  rcases h with h | h <;> simp [fileDirective, h, hlocal, hfind]

theorem fileDirective_cases (r : Resolver σ) (origin? : Option String) (m : Message) :
    (∃ made, r.fileDirective origin? m = .ok made ∧ r.Becomes origin? m made) ∨
      ∃ e, r.fileDirective origin? m = .error e ∧ Complains (.error e) := by
  have hroles : namesFiles m.role = false ∨ m.role = .file ∨ m.role = .directory ∨
      (m.role = .pdf ∨ m.role = .image) := by
    cases m.role <;> simp [namesFiles]
  rcases hroles with hrole | hrole | hrole | hrole
  · exact Or.inl ⟨[m], fileDirective_of_kept hrole r origin?, .kept hrole⟩
  · cases hfind : r.find? m.trimmedText origin? with
    | none =>
      refine Or.inr ⟨.notFound "File" m.trimmedText, ?_, .notFound _ _⟩
      simp only [fileDirective, hrole, hfind]
    | some path =>
      cases hread : r.files.readText path with
      | error e =>
        refine Or.inr ⟨e, ?_, complains_of_readText hread⟩
        simp only [fileDirective, hrole, hfind, hread]
        rfl
      | ok content =>
        refine Or.inl ⟨[fileMessage m.trimmedText content], ?_, .file hrole⟩
        simp only [fileDirective, hrole, hfind, hread]
        rfl
  · cases hfind : r.find? m.trimmedText origin? with
    | none =>
      refine Or.inr ⟨.notFound "Directory" m.trimmedText, ?_, .notFound _ _⟩
      simp only [fileDirective, hrole, hfind]
    | some path =>
      refine Or.inl ⟨textFiles (r.files.filesBelow path), ?_, .directory hrole⟩
      simp only [fileDirective, hrole, hfind]
  · cases hremote : isRemote m.trimmedText with
    | true =>
      have hrefers : r.Refers origin? m.trimmedText m.trimmedText := Or.inl ⟨hremote, rfl⟩
      exact Or.inl ⟨_, fileDirective_of_refers hrole hrefers, .media hrole hrefers⟩
    | false =>
      cases hfind : r.find? m.trimmedText origin? with
      | none => exact Or.inr ⟨_, fileDirective_of_not_refers hrole hremote hfind, .notFound _ _⟩
      | some path =>
        have hrefers : r.Refers origin? m.trimmedText path := Or.inr ⟨hremote, hfind⟩
        exact Or.inl ⟨_, fileDirective_of_refers hrole hrefers, .media hrole hrefers⟩

/-- Messages that are left once files are read: those that are kept, contents of files, and images
and documents with the paths to which their references lead. -/
theorem FailsOnly.ensures_fileContents (h : r.FailsOnly E) {origin? : Option String}
    {messages : List Message}
    (hkept : ∀ m ∈ messages, namesFiles m.role = false → P m)
    (hfile : ∀ name content, P (fileMessage name content))
    (hmedia : ∀ m ∈ messages, (m.role = .pdf ∨ m.role = .image) →
      ∀ path, r.Refers origin? m.trimmedText path → P (.ofText m.role path)) :
    Act.Ensures (fun left => ∀ m ∈ left, P m) E (r.fileContents origin? messages) := by
  refine ensures_eachMessage fun m hm => ?_
  rcases r.fileDirective_cases origin? m with ⟨made, hmade, hbecomes⟩ | ⟨e, he, hcomplains⟩
  rotate_left
  · rw [he]
    exact Act.ensures_fail (h.own _ hcomplains)
  rw [hmade]
  refine Act.ensures_pure ?_
  cases hbecomes with
  | kept hrole => exact List.forall_mem_singleton.mpr (hkept m hm hrole)
  | file => exact List.forall_mem_singleton.mpr (hfile _ _)
  | directory =>
    intro x hx
    obtain ⟨⟨path, contents⟩, -, hx⟩ := List.mem_filterMap.mp hx
    obtain ⟨text, -, rfl⟩ := Option.map_eq_some_iff.mp hx
    exact hfile path text
  | media hrole hrefers => exact List.forall_mem_singleton.mpr (hmedia m hm hrole _ hrefers)

end

end Resolver

end Colloquy
