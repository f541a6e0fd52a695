import Colloquy.Rehearsal.Stage

/-!
# Colloquy — scripted workflows

A scripted engine knows its workflows by their names and jobs by their paths. Making,
running and awaiting jobs is recorded on the stage.
-/

namespace Colloquy

namespace ScriptedJob

/-- Record a step of a job. -/
def step (job : ScriptedJob) (what : String) : Act Stage Unit :=
  Stage.record [.str what, .str job.path]

/-- Do what the plan says with the inputs. -/
def work (job : ScriptedJob) (what : String) : Act Stage Json := do
  job.step what
  Act.ofExcept (job.plan.behavior.run ⟨job.inputs⟩)

def act (job : ScriptedJob) : Job Stage where
  path := job.path
  taskName := job.task
  inputs := .obj job.inputs
  isDone := pure job.plan.isDone
  errorText? := pure job.plan.errorText?
  exec := job.work "exec"
  run := job.work "run"
  fork := do
    job.step "fork"
    Stage.failWith job.plan.forkError?
  join := do
    job.step "join"
    Stage.failWith job.plan.joinError?
  output := do
    job.step "output"
    Stage.failWith job.plan.outputError?
    return job.plan.output

end ScriptedJob

structure ScriptedTask where
  description : String := ""
  inputs : List TaskInput := []
  /-- Making a job fails. -/
  jobError? : Option Error := none
  /-- The path of its jobs, if it is the same for all. -/
  path? : Option String := none
  plan : JobPlan := {}
  deriving DecidableEq, Repr

structure ScriptedWorkflow where
  name : String
  exported : List String := []
  all : List String := []
  execExports : List String := []
  tasks : List (String × ScriptedTask) := []
  deriving DecidableEq, Repr

namespace ScriptedWorkflow

/-- The task of a name. -/
def task (w : ScriptedWorkflow) (name : String) : Act Stage ScriptedTask :=
  Act.ofOption (.notFound "Task" name) (List.lookup name w.tasks)

/-- The path of a job of a task that has no path of its own. -/
def jobPath (w : ScriptedWorkflow) (task : String) (name? : Option String) : String :=
  "jobs/" ++ w.name ++ "/" ++ task ++ "/" ++ name?.getD "Default"

/-- Make a job of a task. -/
def makeJob (w : ScriptedWorkflow) (name : String) (jobName? : Option String) (inputs : Fields) :
    Act Stage (Job Stage) := do
  Stage.record [.str "job", .str w.name, .str name, .ofOption jobName?, .obj inputs]
  let task ← w.task name
  Stage.failWith task.jobError?
  let job : ScriptedJob :=
    { path := task.path?.getD (w.jobPath name jobName?), task := name, inputs := inputs,
      plan := task.plan }
  Act.modifyOuter fun stage => { stage with jobs := job :: stage.jobs }
  return job.act

def act (w : ScriptedWorkflow) : Workflow Stage where
  name := w.name
  taskInfo := fun name => do
    let task ← w.task name
    return ⟨name, task.description, task.inputs⟩
  exportedTasks := pure w.exported
  allTasks := pure w.all
  execExports := pure w.execExports
  job := w.makeJob

end ScriptedWorkflow

structure ScriptedEngine where
  workflows : List (String × ScriptedWorkflow) := []
  /-- Jobs that were made before, by the paths under which they are known. -/
  jobs : List (String × ScriptedJob) := []
  deriving DecidableEq, Repr

namespace ScriptedEngine

/-- The job of a path: the latest that was made, or one that was made before. -/
def job? (e : ScriptedEngine) (stage : Stage) (path : String) : Option ScriptedJob :=
  match stage.jobs.find? fun job => job.path == path with
  | some job => some job
  | none => List.lookup path e.jobs

def act (e : ScriptedEngine) : WorkflowEngine Stage where
  workflow := fun name => do
    Stage.record [.str "workflow", .str name]
    let w ← Act.ofOption (.notFound "Workflow" name) (List.lookup name e.workflows)
    return w.act
  loadJob := fun path => do
    Stage.record [.str "load_job", .str path]
    let job ← Act.ofOption (.notFound "Job" path) (e.job? (← Act.outer) path)
    return job.act
  produce := forkAll

end ScriptedEngine

end Colloquy
