import Colloquy.Directive.Resolver

/-!
# Colloquy — tasks and jobs

A task directive makes a job of a workflow. A task that is executed in place becomes
a message with its result; any other is started, together with the others, once all
directives have been read, and leaves a job directive. A job directive waits for its
job and becomes a tool exchange, or a file directive for the job's result.

* `Resolver.tasks` — make and start jobs.
* `Resolver.jobs` — put the results of jobs in their places.
-/

namespace Colloquy

/-- Roles of directives that make jobs. -/
def Role.isTaskDirective : Role → Bool
  | .task | .inlineTask | .execTask => true
  | _ => false

/-- Roles of directives that wait for jobs. -/
def Role.isJobDirective : Role → Bool
  | .job | .inlineJob => true
  | _ => false

/-- The text of the result of a task. -/
def resultText : Json → String
  | .str s => s
  | .null => ""
  | v => v.render

namespace Resolver

variable {σ : Type}

/-- The job of a task line, and the name of the task. -/
def makeJob (r : Resolver σ) (line : String) : Act σ (String × Job σ) := do
  let target ← Act.ofExcept (TaskLine.parse line)
  let (name?, inputs) := takeJobName target.inputs
  let engine ← r.engine
  let workflow ← engine.workflow target.workflow
  let job ← workflow.job target.task name? inputs
  return (target.task, job)

/-- Execute a job in place: its result, or its error between tags. -/
def execInPlace (task : String) (job : Job σ) : Act σ Message := do
  match ← job.exec.attempt with
  | .ok v => return .user (resultText v)
  | .error e => return .user (tagged "error" e.message (some task))

/-- What a task directive becomes, and the job that is to be started. -/
def taskDirective (r : Resolver σ) (m : Message) : Act σ (Message × Option (Job σ)) := do
  let (task, job) ← r.makeJob m.text
  match m.role with
  | .execTask => return (← execInPlace task job, none)
  | .inlineTask => return (.ofText .inlineJob job.path, some job)
  | _ => return (.ofText .job job.path, some job)

/-- Make the jobs of task directives: the messages that are left, and the jobs to be started. -/
def makeJobs (r : Resolver σ) : List Message → Act σ (List Message × List (Job σ))
  | [] => pure ([], [])
  | m :: rest => do
    let (here, job?) ←
      if m.role.isTaskDirective then r.taskDirective m else pure (m, none)
    let (others, jobs) ← makeJobs r rest
    return (here :: others, job?.toList ++ jobs)

/-- Start jobs, if there are any. -/
def startJobs (r : Resolver σ) (jobs : List (Job σ)) : Act σ Unit :=
  match jobs with
  | [] => pure ()
  | jobs => do (← r.engine).produce jobs

/-- Make and start the jobs of task directives. -/
def tasks (r : Resolver σ) (messages : List Message) : Act σ (List Message) := do
  let (left, jobs) ← r.makeJobs messages
  r.startJobs jobs
  return left

/-- The text of a joined job: its output if it is done, else its error. -/
def jobText (job : Job σ) : Act σ String := do
  if ← job.isDone then job.output else return (← job.errorText?).getD ""

/-- The tool exchange that stands for a job. -/
def jobExchange (job : Job σ) (text : String) : List Message :=
  let id := jobCallId job.path
  [.functionCall ⟨id, job.taskName, job.inputs⟩, .functionCallOutput ⟨id, text⟩]

/-- What a message becomes once its job, if it names one, is finished. -/
def jobDirective (r : Resolver σ) (m : Message) : Act σ (List Message) :=
  if m.role.isJobDirective then do
    let job ← (← r.engine).loadJob m.trimmedText
    job.join
    if m.role = .inlineJob then return [.ofText .file job.path]
    else return jobExchange job (← jobText job)
  else pure [m]

/-- Put the results of jobs in the places of their directives. -/
def jobs (r : Resolver σ) (messages : List Message) : Act σ (List Message) :=
  eachMessage r.jobDirective messages

end Resolver

end Colloquy
