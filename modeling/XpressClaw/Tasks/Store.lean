import Mathlib.Data.List.Sort
import Mathlib.Data.Rat.Defs
import XpressClaw.Lib.Table

/-!
# The task database

The tables `TaskQueue`, `SessionManager` and the delegation notifications read and write,
one row type for each, in insertion (`rowid`) order.  Attempt identifiers, which the source
draws with `Uuid::new_v4`, are numbers from the counter `nextAttemptId`; `nextQueueId`,
`nextMessageId` and `nextNotificationId` are `AUTOINCREMENT` sequences, which never hand out
a number twice.  Times are milliseconds.

Prompts, message texts, titles, logical sessions and session events decide nothing here and
are left out.
-/

namespace XpressClaw.Tasks

/-! ## Rows -/

/-- `task_queue.status`. -/
inductive QueueStatus where
  | queued
  | running
  | completed
  | failed
  deriving DecidableEq

/-- `work_attempts.status`. -/
inductive AttemptStatus where
  | queued
  | preparing
  | running
  | waitingForInput
  | review
  | completed
  | failed
  | cancelled
  | interrupted
  deriving DecidableEq

namespace AttemptStatus

/-- `'completed', 'failed', 'cancelled', 'interrupted'`. -/
def terminal (s : AttemptStatus) : Bool :=
  s = .completed || s = .failed || s = .cancelled || s = .interrupted

/-- `'preparing', 'running', 'waiting_for_input', 'review'`. -/
def active (s : AttemptStatus) : Bool :=
  s = .preparing || s = .running || s = .waitingForInput || s = .review

/-- The text of a status. -/
def name : AttemptStatus → String
  | queued => "queued"
  | preparing => "preparing"
  | running => "running"
  | waitingForInput => "waiting_for_input"
  | review => "review"
  | completed => "completed"
  | failed => "failed"
  | cancelled => "cancelled"
  | interrupted => "interrupted"

end AttemptStatus

/-- `tasks.status`. -/
inductive TaskStatus where
  | pending
  | inProgress
  | waitingForInput
  | blocked
  | completed
  | cancelled
  deriving DecidableEq

/-- A row of `tasks`. -/
structure Task where
  id : String
  status : TaskStatus := .pending
  agentId : Option String := none
  projectId : Option String := none
  parentTaskId : Option String := none
  blocksParent : Bool := true
  parentReviewRequired : Bool := false
  hidden : Bool := false
  provenance : String := "durable"
  backlog : Bool := false
  startAfter : Option ℤ := none
  priority : ℤ := 0
  position : ℚ := 0
  deriving DecidableEq

/-- The task is over for good or for now. -/
def Task.closed (t : Task) : Bool := t.status = .completed || t.status = .cancelled

/-- A row of `task_dependencies`. -/
structure Dependency where
  taskId : String
  dependsOnId : String
  deriving DecidableEq

/-- A row of `projects`; `deleting` says that `deletion_started_at` is set. -/
structure Project where
  id : String
  deleting : Bool := false
  deriving DecidableEq

/-- A row of `agents`. -/
structure Agent where
  id : String
  projectId : Option String := none
  deriving DecidableEq

/-- A row of `task_queue`. -/
structure QueueItem where
  id : ℕ
  taskId : String
  agentId : String
  status : QueueStatus := .queued
  queuedAt : ℤ := 0
  startedAt : Option ℤ := none
  completedAt : Option ℤ := none
  harnessResponse : Option String := none
  attemptId : Option ℕ := none
  deriving DecidableEq

/-- A row of `work_attempts`. -/
structure WorkAttempt where
  id : ℕ
  sessionId : String
  taskId : Option String
  queueId : Option ℕ
  status : AttemptStatus := .queued
  containerId : Option String := none
  triggerMessageId : Option ℕ := none
  result : Option String := none
  errorMessage : Option String := none
  createdAt : ℤ := 0
  startedAt : Option ℤ := none
  completedAt : Option ℤ := none
  responseStartedAt : Option ℤ := none
  deriving DecidableEq

/-- A row of `task_messages`. -/
structure TaskMessage where
  id : ℕ
  taskId : String
  role : String
  deriving DecidableEq

/-- A row of `task_pull_requests`; `monitored` says that its status is `waiting` or
`attention`. -/
structure PullRequest where
  taskId : String
  agentId : String
  monitored : Bool
  deriving DecidableEq

/-- A row of `connect_work`. -/
structure ConnectWork where
  kind : String
  localId : String
  deriving DecidableEq

/-- A row of `connect_commands`. -/
structure ConnectCommand where
  id : String
  bindingId : String
  bindingGeneration : ℤ
  taskId : Option String
  attemptId : Option ℕ
  status : String
  leaseUntil : ℤ
  deriving DecidableEq

/-- A row of `connect_bindings`. -/
structure ConnectBinding where
  id : String
  localProjectId : String
  localAgentId : String
  generation : ℤ
  active : Bool
  deriving DecidableEq

/-- A row of `workflow_step_executions`. -/
structure StepExecution where
  id : String
  instanceId : String
  flowName : String
  stepId : String
  taskId : Option String
  status : String
  continuationAttemptId : Option ℕ := none
  continuationPromptMessageId : Option ℕ := none
  startedAt : ℤ := 0
  deriving DecidableEq

/-- A row of `workflow_instances`. -/
structure WorkflowInstance where
  id : String
  status : String
  sourceTaskId : Option String := none
  deriving DecidableEq

/-- `task_delegation_notifications.decision`. -/
inductive ReviewDecision where
  | accept
  | revise
  | wait
  deriving DecidableEq

/-- A row of `task_delegation_notifications`; a child without attempts is reported with
the attempt `''`, here `none`. -/
structure DelegationNotification where
  id : ℕ
  parentTaskId : String
  parentAgentId : String
  childTaskId : String
  childAttemptId : Option ℕ
  childStatus : TaskStatus
  messageId : Option ℕ
  decision : Option ReviewDecision := none
  reviewNote : Option String := none
  deriving DecidableEq

/-- A row of `task_delegation_responses`. -/
structure DelegationResponse where
  responseAttemptId : ℕ
  notificationId : ℕ
  deriving DecidableEq

/-- What `recover_in_progress` reads of a dispatch between its transactions. -/
structure Orphan where
  queueId : ℕ
  attemptId : ℕ
  taskId : String
  deriving DecidableEq

/-- The database.  `orphaned` is the list that a running `recover_in_progress` holds. -/
structure Db where
  tasks : List Task := []
  dependencies : List Dependency := []
  projects : List Project := []
  agents : List Agent := []
  queue : List QueueItem := []
  attempts : List WorkAttempt := []
  messages : List TaskMessage := []
  pullRequests : List PullRequest := []
  work : List ConnectWork := []
  commands : List ConnectCommand := []
  bindings : List ConnectBinding := []
  executions : List StepExecution := []
  instances : List WorkflowInstance := []
  notifications : List DelegationNotification := []
  responses : List DelegationResponse := []
  automaticResponses : List ℕ := []
  nextQueueId : ℕ := 1
  nextAttemptId : ℕ := 0
  nextMessageId : ℕ := 1
  nextNotificationId : ℕ := 1
  orphaned : List Orphan := []

/-- What a call can fail with. -/
inductive Error where
  | task (message : String)
  | taskNotFound (id : String)
  | projectNotFound (id : String)
  | project (message : String)
  | projectAccess (message : String)
  | workflow (message : String)
  /-- `rusqlite::Error::QueryReturnedNoRows`. -/
  | noRows
  /-- A unique index or a foreign key refuses the row. -/
  | constraint
  deriving DecidableEq

/-- A transaction: what it returns and the database it commits, or why it rolls back. -/
abbrev Tx (α : Type) := Db → Except Error (α × Db)

namespace Db

/-! ## Reading -/

def task? (db : Db) (id : String) : Option Task := Lib.Table.get (·.id) db.tasks id

def project? (db : Db) (id : String) : Option Project := Lib.Table.get (·.id) db.projects id

def agent? (db : Db) (id : String) : Option Agent := Lib.Table.get (·.id) db.agents id

def item? (db : Db) (id : ℕ) : Option QueueItem := Lib.Table.get (·.id) db.queue id

def attempt? (db : Db) (id : ℕ) : Option WorkAttempt := Lib.Table.get (·.id) db.attempts id

/-- The attempt a queue row is linked to. -/
def attemptOf (db : Db) (q : QueueItem) : Option WorkAttempt := q.attemptId.bind db.attempt?

/-- `EXISTS(SELECT 1 FROM connect_work WHERE kind='task_turn' AND local_id=…)`. -/
def connected (db : Db) (taskId : String) : Bool :=
  db.work.any fun w => w.kind = "task_turn" && w.localId = taskId

/-- A workflow step execution owns the attempt as its continuation. -/
def workflowOwned (db : Db) (attemptId : Option ℕ) : Bool :=
  attemptId.any fun a => db.executions.any (·.continuationAttemptId = some a)

/-- Every continuation refers to an attempt, as its foreign key demands. -/
def continuationsExist (db : Db) (executions : List StepExecution) : Bool :=
  executions.all fun e => e.continuationAttemptId.all fun a => (db.attempt? a).isSome

/-! ## Writing -/

/-- `UPDATE task_queue SET … WHERE …`. -/
def updateQueue (w : QueueItem → Bool) (set : QueueItem → QueueItem) (db : Db) : Db :=
  { db with queue := db.queue.map fun q => if w q then set q else q }

/-- `UPDATE work_attempts SET … WHERE …`. -/
def updateAttempts (w : WorkAttempt → Bool) (set : WorkAttempt → WorkAttempt) (db : Db) : Db :=
  { db with attempts := db.attempts.map fun a => if w a then set a else a }

/-- `UPDATE tasks SET … WHERE …`. -/
def updateTasks (w : Task → Bool) (set : Task → Task) (db : Db) : Db :=
  { db with tasks := db.tasks.map fun t => if w t then set t else t }

/-- `UPDATE workflow_step_executions SET … WHERE …`. -/
def updateExecutions (w : StepExecution → Bool) (set : StepExecution → StepExecution)
    (db : Db) : Db :=
  { db with executions := db.executions.map fun e => if w e then set e else e }

/-- `INSERT INTO task_queue`: the new row's id. -/
def insertItem (taskId agentId : String) (now : ℤ) (db : Db) : ℕ × Db :=
  (db.nextQueueId,
    { db with
      queue := db.queue ++
        [{ id := db.nextQueueId, taskId := taskId, agentId := agentId, queuedAt := now }]
      nextQueueId := db.nextQueueId + 1 })

/-- `INSERT INTO work_attempts`, then `UPDATE task_queue SET attempt_id`. -/
def insertAttempt (sessionId taskId : String) (queueId : ℕ) (triggerMessageId : Option ℕ)
    (now : ℤ) (db : Db) : ℕ × Db :=
  let added : Db :=
    { db with
      attempts := db.attempts ++
        [{ id := db.nextAttemptId
           sessionId := sessionId
           taskId := some taskId
           queueId := some queueId
           triggerMessageId := triggerMessageId
           createdAt := now }]
      nextAttemptId := db.nextAttemptId + 1 }
  (db.nextAttemptId,
    added.updateQueue (·.id = queueId) fun q => { q with attemptId := some db.nextAttemptId })

/-- `INSERT INTO task_messages`: the new message's id. -/
def insertMessageRow (taskId role : String) (db : Db) : ℕ × Db :=
  (db.nextMessageId,
    { db with
      messages := db.messages ++ [⟨db.nextMessageId, taskId, role⟩]
      nextMessageId := db.nextMessageId + 1 })

/-! ## Guards -/

/-- `ensure_project_accepts_work`. -/
def ensureProjectAcceptsWork (db : Db) (projectId : String) : Except Error Unit :=
  match db.project? projectId with
  | none => .error (.projectNotFound projectId)
  | some p =>
      if p.deleting then
        .error (.project s!"Project '{projectId}' is being deleted and cannot accept new work; retry the confirmed deletion or choose another Project")
      else .ok ()

/-- `ensure_task_project_accepts_work`. -/
def ensureTaskProjectAcceptsWork (db : Db) (taskId : String) : Except Error Unit :=
  match db.task? taskId with
  | none => .error (.taskNotFound taskId)
  | some t =>
      match t.projectId with
      | none => .ok ()
      | some projectId => db.ensureProjectAcceptsWork projectId

/-- `TaskQueue::ensure_locally_scheduled`. -/
def ensureLocallyScheduled (db : Db) (taskId : String) : Except Error Unit :=
  if db.connected taskId then
    .error (.task "This task is scheduled by Xpress AI; continue it on the platform")
  else .ok ()

/-- `TaskConversation::insert_text_message_in_transaction`: the new message's id. -/
def insertTextMessage (taskId role : String) : Tx ℕ := fun db => do
  db.ensureTaskProjectAcceptsWork taskId
  .ok (db.insertMessageRow taskId role)

end Db

end XpressClaw.Tasks
