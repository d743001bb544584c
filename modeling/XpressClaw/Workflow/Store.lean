import Mathlib.Data.List.Sort
import XpressClaw.Lib.Threads
import XpressClaw.Workflow.Validate

/-!
# The workflow database

The tables the workflow engine reads and writes, one row type for each, in
insertion (`rowid`) order.  Columns that hold JSON or YAML text written and read
back by the engine hold the value itself.  Identifiers the source draws with
`Uuid::new_v4` are numbers from the counter `nextId`, and `clock` is what
`Utc::now` shows, in seconds.

`log` is a history variable: no modelled function reads it.  It records the moments
the theorems speak about, each in the transaction or just before the call that it
describes.
-/

namespace XpressClaw

open Lib

/-- `workflow_instances.status`. -/
inductive InstanceStatus where
  | running
  | waiting
  | completed
  | failed
  | cancelled
  deriving DecidableEq

/-- The text of an instance status. -/
def InstanceStatus.name : InstanceStatus → String
  | .running => "running"
  | .waiting => "waiting"
  | .completed => "completed"
  | .failed => "failed"
  | .cancelled => "cancelled"

/-- An instance in one of these states can still do something. -/
def InstanceStatus.active (s : InstanceStatus) : Bool := s = .running || s = .waiting

/-- `workflow_step_executions.status`. -/
inductive ExecStatus where
  | pending
  | running
  | waiting
  | resuming
  | waitingForIdle
  | completed
  | failed
  | cancelled
  deriving DecidableEq

/-- The text of an execution status. -/
def ExecStatus.name : ExecStatus → String
  | .pending => "pending"
  | .running => "running"
  | .waiting => "waiting"
  | .resuming => "resuming"
  | .waitingForIdle => "waiting_for_idle"
  | .completed => "completed"
  | .failed => "failed"
  | .cancelled => "cancelled"

/-- An execution that has its final status. -/
def ExecStatus.terminal (s : ExecStatus) : Bool :=
  s = .completed || s = .failed || s = .cancelled

/-- `TaskStatus`. -/
inductive TaskStatus where
  | pending
  | inProgress
  | waitingForInput
  | blocked
  | completed
  | cancelled
  deriving DecidableEq

/-- `work_attempts.status`. -/
inductive AttemptStatus where
  | queued
  | preparing
  | running
  | waitingForInput
  | review
  | completed
  | failed
  | interrupted
  | cancelled
  deriving DecidableEq

/-- The text of an attempt status. -/
def AttemptStatus.name : AttemptStatus → String
  | .queued => "queued"
  | .preparing => "preparing"
  | .running => "running"
  | .waitingForInput => "waiting_for_input"
  | .review => "review"
  | .completed => "completed"
  | .failed => "failed"
  | .interrupted => "interrupted"
  | .cancelled => "cancelled"

/-- An attempt that still is a live response. -/
def AttemptStatus.live (s : AttemptStatus) : Bool :=
  s = .queued || s = .preparing || s = .running || s = .waitingForInput || s = .review

/-! ## Tasks, queue, attempts, agents, projects -/

/-- A row of `tasks`, as far as workflows read it.  `connected` says that the
platform schedules it (`connect_work`). -/
structure Task where
  id : ℕ
  title : String := ""
  description : Option String := none
  status : TaskStatus := .pending
  agentId : Option String := none
  projectId : Option String := none
  conversationId : Option String := none
  parentTaskId : Option ℕ := none
  hidden : Bool := false
  taskType : String := "normal"
  nativePlan : Bool := false
  /-- `context.origin`. -/
  origin : Option String := none
  connected : Bool := false

/-- `task_queue.status`. -/
inductive QueueStatus where
  | queued
  | running
  | done
  deriving DecidableEq

/-- A row of `task_queue`. -/
structure QueueItem where
  id : ℕ
  taskId : ℕ
  agentId : String
  status : QueueStatus := .queued
  attemptId : Option ℕ := none

/-- A row of `work_attempts`. -/
structure Attempt where
  id : ℕ
  taskId : ℕ
  status : AttemptStatus := .queued
  result : Option String := none
  errorMessage : Option String := none
  triggerMessageId : Option ℕ := none

/-- A row of `task_messages`. -/
structure TaskMessage where
  id : ℕ
  taskId : ℕ
  role : String
  content : String

/-- A row of `agents`. -/
structure Agent where
  id : String
  projectId : Option String := none

/-- A row of `projects`. -/
structure Project where
  id : String
  deletionStarted : Bool := false

/-- A row of `conversations` with its agent participants. -/
structure Conversation where
  id : String
  projectId : Option String := none
  agents : List String := []

/-- The tables of the task layer. -/
structure Work where
  tasks : List Task := []
  queue : List QueueItem := []
  attempts : List Attempt := []
  messages : List TaskMessage := []
  agents : List Agent := []
  projects : List Project := []
  conversations : List Conversation := []

namespace Work

/-- The task with the given id. -/
def task? (w : Work) (id : ℕ) : Option Task := Table.get Task.id w.tasks id

/-- The agent with the given id. -/
def agent? (w : Work) (id : String) : Option Agent := Table.get Agent.id w.agents id

/-- The conversation with the given id. -/
def conversation? (w : Work) (id : String) : Option Conversation :=
  Table.get Conversation.id w.conversations id

/-- `ensure_project_accepts_work`. -/
def projectAcceptsWork (w : Work) (id : String) : Except Err Unit :=
  match Table.get Project.id w.projects id with
  | none => .error (.projectNotFound id)
  | some p =>
      if p.deletionStarted then .error (.project
        s!"Project '{id}' is being deleted and cannot accept new work; retry the confirmed deletion or choose another Project")
      else .ok ()

/-- `task_has_active_response`. -/
def hasActiveResponse (w : Work) (task : ℕ) : Bool :=
  w.queue.any (fun q => q.taskId = task && q.status != .done) ||
    w.attempts.any fun a => a.taskId = task && a.status.live

/-- `completed_task_output`: the last thing the agent said. -/
def completedTaskOutput (w : Work) (task : ℕ) : String :=
  ((w.messages.reverse.find? fun m => m.taskId = task ∧ m.role = "assistant").map
    TaskMessage.content).getD ""

/-- The status of the newest attempt of a task. -/
def latestAttemptStatus (w : Work) (task : ℕ) : Option AttemptStatus :=
  (w.attempts.reverse.find? fun a => a.taskId = task).map Attempt.status

end Work

/-- What the engine takes from the rest of the program: whether an answer asks the
user something (`needs_user_input`), the roll-up test of a task
(`complete_if_ready`), and what cancelling a run does to its attempts. -/
structure Host extends Env where
  needsUserInput : String → Bool
  completeIfReady : ℕ → Work → Bool × Work
  cancelAttempts : Option ℕ → List ℕ → Work → Work

/-! ## Workflow rows -/

/-- A row of `workflows`, with its definition parsed.  `yamlContent` is the text of the
definition. -/
structure WorkflowRecord where
  id : ℕ
  name : String
  description : Option String := none
  yamlContent : String := ""
  definition : Definition
  version : ℕ := 1
  projectId : Option String := none
  enabled : Bool := true
  defaultForTasks : Bool := false
  revision : ℕ := 0
  lastTriggeredAt : Option String := none
  createdAt : ℕ := 0
  updatedAt : String := ""

/-- The cursor of a durable loop. -/
structure LoopState where
  parentExecutionId : ℕ
  stepId : String
  flowName : String
  stepIndex : ℕ
  items : List Json
  itemIndex : ℕ
  bodyIndex : ℕ
  asVar : String
  activeExecutionId : Option ℕ := none

/-- A row of `workflow_instances`. -/
structure Instance where
  id : ℕ
  workflowId : ℕ
  projectId : Option String := none
  conversationId : Option String := none
  sourceTaskId : Option ℕ := none
  status : InstanceStatus := .running
  currentFlow : String := "main"
  currentStepIndex : ℤ := 0
  currentExecutionId : Option ℕ := none
  triggerData : Json := .null
  variableStore : Vars := []
  loopState : Option LoopState := none
  definition : Option Definition := none
  startedAt : ℕ := 0
  errorMessage : Option String := none

/-- `CommandResult`. -/
structure CommandResult where
  exitCode : Option ℤ := none
  stdout : String := ""
  stderr : String := ""
  signal : Option String := none
  timedOut : Bool := false
  stdoutTruncated : Bool := false
  stderrTruncated : Bool := false
  deriving DecidableEq

/-- `CommandResult::passed`. -/
def CommandResult.passed (r : CommandResult) : Bool :=
  !r.timedOut && r.signal.isNone && r.exitCode = some 0

/-- `CommandResult::succeeds`. -/
def CommandResult.succeeds (r : CommandResult) (allowFailure : Bool) : Bool :=
  r.passed || (allowFailure && (r.exitCode.isSome || r.signal.isSome || r.timedOut))

/-- `CommandResult::json_output`. -/
def CommandResult.jsonOutput (env : Env) (r : CommandResult) : String :=
  env.renderJson (Json.ofFields [
    ("exit_code", match r.exitCode with
      | some c => .num c
      | none => .null),
    ("stdout", .str r.stdout), ("stderr", .str r.stderr),
    ("signal", match r.signal with
      | some s => .str s
      | none => .null),
    ("timed_out", .bool r.timedOut), ("stdout_truncated", .bool r.stdoutTruncated),
    ("stderr_truncated", .bool r.stderrTruncated), ("passed", .bool r.passed)])

/-- What a wait execution remembers (`WaitState`), less the poller's own cursors.
Times are in milliseconds. -/
structure WaitState where
  event : String
  resource : String
  agentId : String
  startedAt : ℤ
  afterCursor : Option String
  timeoutAt : Option ℤ
  deriving DecidableEq

/-- A row of `workflow_step_executions`. -/
structure Execution where
  id : ℕ
  instanceId : ℕ
  flowName : String
  stepId : String
  taskId : Option ℕ := none
  parentExecutionId : Option ℕ := none
  continuationAttemptId : Option ℕ := none
  continuationPromptMessageId : Option ℕ := none
  status : ExecStatus
  waitState : Option WaitState := none
  output : Option String := none
  startedAt : ℕ
  commandStartedAt : Option ℕ := none
  commandResult : Option CommandResult := none
  deriving DecidableEq

/-- Where the engine goes from an execution it leaves. -/
inductive Leave where
  | step (flow : String) (index : ℕ)
  | goto (target : String)
  /-- The next body step of the loop it belongs to. -/
  | loop
  /-- The instance fails. -/
  | failed
  /-- The instance is cancelled. -/
  | cancelled

/-- What the history records. -/
inductive Event where
  /-- `resolve_goto` is asked for a target. -/
  | goto (d : Definition) (flow target : String)
  /-- A lookup of the control flow found nothing. -/
  | notFound (message : String)
  /-- `update_step_status` wrote a status. -/
  | marked (exec : ℕ) (status : ExecStatus)
  /-- The engine leaves an execution. -/
  | advanced (exec : ℕ) (leave : Leave)
  /-- A parallel branch got its result. -/
  | recorded (exec : ℕ) (status : ExecStatus) (output : String)
  /-- A parallel join was claimed. -/
  | claimed (parent : ℕ)
  /-- A parallel join saved the results of its branches as these variables. -/
  | joined (parent : ℕ) (branches : List Execution) (saved : Vars)
  /-- A scheduled occurrence was claimed for an instance, on a row with this revision and
  last trigger. -/
  | scheduled (workflow revision : ℕ) (last : Option String) (inst : ℕ)
  /-- A runner got the permission to run the command of an execution. -/
  | granted (exec : ℕ)

/-- The database. -/
structure Db where
  workflows : List WorkflowRecord := []
  instances : List Instance := []
  executions : List Execution := []
  /-- `workflow_instance_agent_bindings`: instance, agent, project. -/
  bindings : List (ℕ × String × String) := []
  work : Work := {}
  nextId : ℕ := 0
  clock : ℕ := 0
  log : List Event := []

/-- The step id of the synthetic gate that waits for a source task. -/
def sourceTaskStepId : String := "__source_task__"

/-- A piece of the engine: a sequence of transactions on the database. -/
abbrev Run (α : Type) := Prog Db Err α

namespace Db

variable (db : Db)

/-- The instance with the given id. -/
def instance? (id : ℕ) : Option Instance := Table.get Instance.id db.instances id

/-- The execution with the given id. -/
def execution? (id : ℕ) : Option Execution := Table.get Execution.id db.executions id

/-- The workflow with the given id. -/
def workflow? (id : ℕ) : Option WorkflowRecord := Table.get WorkflowRecord.id db.workflows id

/-- Change one instance. -/
def setInstance (id : ℕ) (g : Instance → Instance) : Db :=
  { db with instances := Table.modify Instance.id id g db.instances }

/-- Change one execution. -/
def setExecution (id : ℕ) (g : Execution → Execution) : Db :=
  { db with executions := Table.modify Execution.id id g db.executions }

/-- Change the task layer. -/
def setWork (w : Work) : Db := { db with work := w }

/-- Record an event. -/
def note (e : Event) : Db := { db with log := db.log ++ [e] }

/-- Insert an execution under a fresh id. -/
def insertExecution (row : ℕ → ℕ → Execution) : Db :=
  { db with
    executions := db.executions ++ [row db.nextId db.clock]
    nextId := db.nextId + 1 }

@[simp] theorem log_note (e : Event) : (db.note e).log = db.log ++ [e] := rfl

@[simp] theorem execution?_note (e : Event) (id : ℕ) :
    (db.note e).execution? id = db.execution? id :=
  rfl

@[simp] theorem instance?_note (e : Event) (id : ℕ) : (db.note e).instance? id = db.instance? id :=
  rfl

@[simp] theorem log_setExecution (id : ℕ) (g : Execution → Execution) :
    (db.setExecution id g).log = db.log := rfl

@[simp] theorem instance?_setExecution (id : ℕ) (g : Execution → Execution) (i : ℕ) :
    (db.setExecution id g).instance? i = db.instance? i := rfl

@[simp] theorem log_setInstance (id : ℕ) (g : Instance → Instance) :
    (db.setInstance id g).log = db.log := rfl

@[simp] theorem execution?_setInstance (id : ℕ) (g : Instance → Instance) (x : ℕ) :
    (db.setInstance id g).execution? x = db.execution? x := rfl

theorem execution?_setExecution {id : ℕ} {g : Execution → Execution} (hg : ∀ e, (g e).id = e.id)
    (x : ℕ) : (db.setExecution id g).execution? x =
      (db.execution? x).map fun e => if x = id then g e else e :=
  Table.get_modify hg

theorem instance?_setInstance {id : ℕ} {g : Instance → Instance} (hg : ∀ i, (g i).id = i.id)
    (x : ℕ) : (db.setInstance id g).instance? x =
      (db.instance? x).map fun i => if x = id then g i else i :=
  Table.get_modify hg

/-- The executions of an instance, by start time and then `rowid`. -/
def listStepExecutions (inst : ℕ) : List Execution :=
  (db.executions.filter fun e => e.instanceId = inst).insertionSort
    fun a b => a.startedAt ≤ b.startedAt

/-- The live executions of a task in running instances, by start time and then
`rowid`; source gates come last. -/
def runningByTask (task : ℕ) : List Execution :=
  let found := (db.executions.filter fun e => e.taskId = some task &&
    (e.status = .running || e.status = .waitingForIdle) &&
    (db.instance? e.instanceId).any fun i => i.status = .running).insertionSort
      fun a b => a.startedAt ≤ b.startedAt
  found.filter (fun e => e.stepId ≠ sourceTaskStepId) ++
    found.filter fun e => e.stepId = sourceTaskStepId

/-- `get_step_attempt_count`. -/
def stepAttemptCount (inst : ℕ) (stepId : String) : ℕ :=
  (db.executions.filter fun e => e.instanceId = inst ∧ e.stepId = stepId).length

/-- `instance_durable_project_ids`. -/
def durableProjectIds (inst : ℕ) : List String :=
  let bound := (db.bindings.filter fun b => b.1 = inst).map fun b => b.2.2
  let worked := (db.executions.filter fun e => e.instanceId = inst).filterMap fun e =>
    (e.taskId.bind db.work.task?).bind Task.projectId
  ((bound ++ worked).dedup).insertionSort (· ≤ ·)

/-- A project refuses work: the error as the workflow layer reports it. -/
def workflowProject (project : String) : Except Err Unit :=
  match db.work.projectAcceptsWork project with
  | .ok _ => .ok ()
  | .error e => .error (.workflow e.text)

/-- `ensure_instance_accepts_work`. -/
def instanceAcceptsWork (inst : ℕ) : Except Err Unit :=
  match db.instance? inst with
  | none => .error (.instanceNotFound inst)
  | some i => do
      let conversationProject := (i.conversationId.bind db.work.conversation?).bind
        Conversation.projectId
      checkOption db.workflowProject i.projectId
      if conversationProject = i.projectId then .ok ()
      else checkOption db.workflowProject conversationProject
      checkAll db.workflowProject ((db.durableProjectIds inst).filter fun p =>
        some p ≠ i.projectId ∧ some p ≠ conversationProject)
      require i.status.active
        s!"workflow instance '{inst}' no longer accepts work ({i.status.name})"

/-- `ensure_step_execution_accepts_work`. -/
def executionAcceptsWork (exec : ℕ) : Except Err Unit :=
  match db.execution? exec with
  | none => .error (.workflow s!"step execution not found: {exec}")
  | some e => db.instanceAcceptsWork e.instanceId

end Db
end XpressClaw
