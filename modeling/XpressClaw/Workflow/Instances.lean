import XpressClaw.Workflow.Store

/-!
# Instances, executions and tasks

The transactions of `instance.rs`, and those of the task board and the task queue
that the engine calls.  Each function below is one call of `with_conn`, or the
sequence of calls the source makes; what a call checks it checks in the
transaction that writes.
-/

namespace XpressClaw

open Lib

/-- Read something that must be there. -/
def fetch {α : Type} (q : Db → Option α) (e : Err) : Run α := (Prog.read q).bind (Prog.orFail e)

/-- A transaction whose only result is the new database. -/
def update (t : Db → Except Err Db) : Run Unit := Prog.tx fun db => (t db).map fun db' => ((), db')

/-- Record an event; nothing else happens. -/
def record (e : Event) : Run Unit := Prog.write fun db => db.note e

/-- Run a program whose outcome the source throws away. -/
def ignore {α : Type} (p : Run α) : Run Unit := p.attempt.bind fun _ => pure ()

/-! ## The task board and the task queue -/

namespace TaskBoard

/-- `TaskBoard::get`. -/
def get (id : ℕ) : Run Task := fetch (fun db => db.work.task? id) (.taskNotFound id)

/-- `consistent_project_id`: at most one project among the candidates. -/
def consistentProjectId :
    List (String × Option String) → Option (String × String) → Except Err (Option String)
  | [], selected => .ok (selected.map Prod.snd)
  | (_, none) :: rest, selected => consistentProjectId rest selected
  | (label, some p) :: rest, none => consistentProjectId rest (some (label, p))
  | (label, some p) :: rest, some (l, q) =>
      if q = p then consistentProjectId rest (some (l, q))
      else .error (.task
        s!"task {label} belongs to project '{p}', but its {l} belongs to project '{q}'")

/-- The project of the conversation a task is created in. -/
def conversationProject (db : Db) : Option String → Except Err (Option String)
  | none => .ok none
  | some c => match db.work.conversation? c with
      | none => .error (.conversationNotFound c)
      | some row => .ok row.projectId

/-- The project of the agent a task is created for. -/
def agentProject (db : Db) (agentId : String) : Except Err (Option String) :=
  match db.work.agent? agentId with
  | none => .error (.agentNotFound agentId)
  | some row => .ok row.projectId

/-- `TaskBoard::create`, for a task without parent and creator. -/
def create (title : String) (description : Option String) (agentId : String)
    (conversationId projectId : Option String) (origin : Option String) : Run ℕ :=
  Prog.tx fun db => do
    let ofConversation ← conversationProject db conversationId
    let ofAgent ← agentProject db agentId
    let project ← consistentProjectId
      [("conversation", ofConversation), ("request", projectId), ("Agent", ofAgent)] none
    checkOption db.work.projectAcceptsWork project
    let row : Task :=
      { id := db.nextId, title, description, agentId := some agentId, projectId := project
        conversationId, origin }
    .ok (db.nextId,
      { db with work := { db.work with tasks := db.work.tasks ++ [row] }, nextId := db.nextId + 1 })

/-- `TaskBoard::update_status` to a status other than completed or cancelled. -/
def updateStatus (id : ℕ) (status : TaskStatus) : Run Unit :=
  update fun db => match db.work.task? id with
    | none => .error (.taskNotFound id)
    | some t => do
        checkOption db.work.projectAcceptsWork t.projectId
        .ok (db.setWork { db.work with
          tasks := Table.modify Task.id id (fun t => { t with status }) db.work.tasks })

end TaskBoard

namespace TaskQueue

/-- `ensure_locally_scheduled` and `ensure_task_project_accepts_work`. -/
def admits (db : Db) (task : ℕ) : Except Err Unit :=
  match db.work.task? task with
  | none => .error (.taskNotFound task)
  | some t =>
      if t.connected then
        .error (.task "This task is scheduled by Xpress AI; continue it on the platform")
      else checkOption db.work.projectAcceptsWork t.projectId

/-- The task belongs to a run or an execution that is over. -/
def inactiveWorkflow (db : Db) (task : ℕ) : Bool :=
  db.executions.any fun e => e.taskId = some task && match db.instance? e.instanceId with
    | some i => i.sourceTaskId != some task && (i.status != .running || e.status != .running)
    | none => false

/-- The first transaction of `ensure_enqueued`: the queue item that needs an
attempt, if any. -/
def ensureQueued (task : ℕ) (agent : String) : Run (Option ℕ) :=
  Prog.tx fun db =>
    if inactiveWorkflow db task then .ok (none, db)
    else do
      admits db task
      match db.work.queue.reverse.find? fun q => q.taskId = task && q.status != .done with
      | some q => .ok (if q.attemptId.isNone then some q.id else none, db)
      | none =>
          let item : QueueItem := { id := db.nextId, taskId := task, agentId := agent }
          .ok (some db.nextId,
            { db with
              work := { db.work with queue := db.work.queue ++ [item] }
              nextId := db.nextId + 1 })

/-- `ensure_task_project_accepts_work`. -/
def taskAcceptsWork (db : Db) (task : ℕ) : Except Err Unit :=
  match db.work.task? task with
  | none => .error (.taskNotFound task)
  | some t => checkOption db.work.projectAcceptsWork t.projectId

/-- `create_attempt_for_item`: when the attempt cannot be created, the queue item is
removed again. -/
def createAttemptForItem (item task : ℕ) : Run Unit :=
  (update fun db => do
    taskAcceptsWork db task
    let attempt : Attempt := { id := db.nextId, taskId := task }
    .ok { db with
      work := { db.work with
        attempts := db.work.attempts ++ [attempt]
        queue := Table.modify QueueItem.id item
          (fun q => { q with attemptId := some db.nextId }) db.work.queue }
      nextId := db.nextId + 1 }).attempt.bind fun r => match r with
    | .ok _ => pure ()
    | .error e => do
        Prog.write fun db => db.setWork
          { db.work with queue := db.work.queue.filter fun q => q.id ≠ item }
        Prog.fail e

/-- `ensure_enqueued`. -/
def ensureEnqueued (task : ℕ) (agent : String) : Run Unit := do
  match ← ensureQueued task agent with
  | some item => createAttemptForItem item task
  | none => pure ()

/-- `coalescible_queued_attempt`: the newest queued response that no continuation
owns. -/
def coalescibleQueuedAttempt (db : Db) (task : ℕ) : Option QueueItem :=
  db.work.queue.reverse.find? fun q => q.taskId = task && q.status = .queued &&
    !db.executions.any fun e => e.continuationAttemptId.isSome &&
    e.continuationAttemptId = q.attemptId

/-- `enqueue_authorized_in_transaction`: the queued item of the task, or a new one
with its attempt. -/
def enqueueAuthorized (db : Db) (task : ℕ) (agent : String) : QueueItem × Db :=
  match db.work.queue.find? fun q => q.taskId = task && q.status = .queued with
  | some q => (q, db)
  | none =>
      let item : QueueItem :=
        { id := db.nextId, taskId := task, agentId := agent, attemptId := some (db.nextId + 1) }
      let attempt : Attempt := { id := db.nextId + 1, taskId := task }
      (item, { db with
        work := { db.work with
          queue := db.work.queue ++ [item], attempts := db.work.attempts ++ [attempt] }
        nextId := db.nextId + 2 })

/-- `associate_response_trigger_in_transaction`. -/
def associateTrigger (db : Db) (attempt message : ℕ) : Db :=
  db.setWork { db.work with
    attempts := Table.modify Attempt.id attempt
      (fun a => { a with triggerMessageId := some (max (a.triggerMessageId.getD 0) message) })
      db.work.attempts }

/-- The execution that a user's answer adopts: a running continuation whose last
response asked the user something. -/
def adoptable (host : Host) (db : Db) (task : ℕ) : Option (Execution × ℕ) :=
  if (db.work.task? task).any fun t => t.status = .waitingForInput then
    let waiting := (db.executions.filterMap fun e => do
      let attemptId ← e.continuationAttemptId
      let attempt ← Table.get Attempt.id db.work.attempts attemptId
      let i ← db.instance? e.instanceId
      if e.taskId = some task ∧ e.status = .running ∧ i.status = .running ∧
          attempt.status = .completed then
        some (e, attempt)
      else none).insertionSort fun a b => a.1.startedAt ≤ b.1.startedAt
    match waiting.head? with
    | some (e, attempt) =>
        if host.needsUserInput ((attempt.result.or attempt.errorMessage).getD "") then
          some (e, attempt.id)
        else none
    | none => none
  else none

/-- `adopt_waiting_workflow_continuation_in_transaction`. -/
def adoptContinuation (host : Host) (db : Db) (task attempt : ℕ) : Db :=
  match adoptable host db task with
  | some (e, previous) => db.setExecution e.id fun e =>
      if e.continuationAttemptId = some previous ∧ e.status = .running then
        { e with continuationAttemptId := some attempt }
      else e
  | none => db

/-- A parked or finished task becomes pending again. -/
def reopen (db : Db) (task : ℕ) (always : Bool) : Db :=
  db.setWork { db.work with
    tasks := Table.modify Task.id task (fun t =>
      if always ∨ t.status = .completed ∨ t.status = .cancelled ∨ t.status = .waitingForInput ∨
          t.status = .blocked then
        { t with status := .pending }
      else t) db.work.tasks }

/-- `enqueue_continuation_for_message_in_transaction`: the item it created, if it
created one. -/
def enqueueContinuationForMessage (host : Host) (db : Db) (task : ℕ) (agent : String)
    (message : ℕ) : Except Err (Option QueueItem × Db) := do
  admits db task
  match coalescibleQueuedAttempt db task with
  | some q => match q.attemptId with
      | some attempt =>
          let db := associateTrigger db attempt message
          .ok (none, reopen (adoptContinuation host db task attempt) task false)
      | none => .error (.task s!"queued continuation for task {task} has no work attempt")
  | none =>
      let (item, db) := enqueueAuthorized db task agent
      match item.attemptId with
      | some attempt =>
          let db := associateTrigger db attempt message
          .ok (some item, reopen (adoptContinuation host db task attempt) task false)
      | none => .error (.task s!"queued continuation for task {task} has no work attempt")

end TaskQueue

/-- `dispatch_continuation_in_transaction`: publish the prompt and reserve one
response; returns the attempt and the message. -/
def dispatchContinuation (host : Host) (db : Db) (task : ℕ) (agent prompt : String) :
    Except Err ((ℕ × ℕ) × Db) :=
  let message : TaskMessage := { id := db.nextId, taskId := task, role := "user", content := prompt }
  let db := { db with
    work := { db.work with messages := db.work.messages ++ [message] }, nextId := db.nextId + 1 }
  match TaskQueue.enqueueContinuationForMessage host db task agent message.id with
  | .error e => .error e
  | .ok (item, db) => match item with
      | none => .error (.workflow
          s!"continue step could not reserve an exclusive response for task '{task}'")
      | some item => match item.attemptId with
          | none => .error (.workflow
              s!"continue step response for task '{task}' has no work attempt")
          | some attempt => .ok ((attempt, message.id), TaskQueue.reopen db task true)

/-! ## The instance manager -/

namespace InstanceManager

/-- `get_instance`. -/
def getInstance (id : ℕ) : Run Instance := fetch (fun db => db.instance? id) (.instanceNotFound id)

/-- `get_step_execution`. -/
def getStepExecution (id : ℕ) : Run Execution :=
  fetch (fun db => db.execution? id) (.workflow s!"step execution not found: {id}")

/-- `list_running_instances`, by start time. -/
def listRunningInstances : Run (List Instance) :=
  Prog.read fun db => (db.instances.filter fun i => i.status.active).insertionSort
    fun a b => a.startedAt ≤ b.startedAt

/-- `list_step_executions`. -/
def listStepExecutions (inst : ℕ) : Run (List Execution) :=
  Prog.read fun db => db.listStepExecutions inst

/-- `set_active_status`. -/
def setActiveStatus (id : ℕ) (status : InstanceStatus) : Run Unit :=
  update fun db => do
    db.instanceAcceptsWork id
    .ok (db.setInstance id fun i => { i with status, errorMessage := none })

/-- Everything but a cancellation needs an instance that still accepts work. -/
def statusAllowed (db : Db) (id : ℕ) (status : InstanceStatus) : Except Err Unit :=
  if status = .cancelled then .ok () else db.instanceAcceptsWork id

/-- `update_status`. -/
def updateStatus (id : ℕ) (status : InstanceStatus) (message : Option String) : Run Unit :=
  update fun db => do
    statusAllowed db id status
    .ok (db.setInstance id fun i => { i with status, errorMessage := message })

/-- `complete_instance`. -/
def completeInstance (id : ℕ) : Run Unit := updateStatus id .completed none

/-- `set_current_position`. -/
def setCurrentPosition (id : ℕ) (flow : String) (index : ℕ) : Run Unit :=
  Prog.write fun db => db.setInstance id fun i =>
    { i with currentFlow := flow, currentStepIndex := index, currentExecutionId := none }

/-- `load_variable_store`. -/
def loadVariableStore (id : ℕ) : Run Vars :=
  fetch (fun db => (db.instance? id).map Instance.variableStore) (.instanceNotFound id)

/-- `save_variable_store`. -/
def saveVariableStore (id : ℕ) (vars : Vars) : Run Unit :=
  Prog.write fun db => db.setInstance id fun i => { i with variableStore := vars }

/-- `update_loop_state`. -/
def updateLoopState (id : ℕ) (state : Option LoopState) : Run Unit :=
  Prog.write fun db => db.setInstance id fun i => { i with loopState := state }

/-- `get_step_attempt_count`. -/
def getStepAttemptCount (inst : ℕ) (stepId : String) : Run ℕ :=
  Prog.read fun db => db.stepAttemptCount inst stepId

/-- `update_step_status`. -/
def updateStepStatus (id : ℕ) (status : ExecStatus) (output : Option String) : Run Unit :=
  Prog.write fun db =>
    (db.setExecution id fun e => { e with status, output }).note (.marked id status)

/-- `mark_step_running`. -/
def markStepRunning (id : ℕ) : Run Unit :=
  update fun db => do
    db.executionAcceptsWork id
    .ok (db.setExecution id fun e => { e with status := .running })

/-- `create_step_execution`. -/
def createStepExecution (inst : ℕ) (flow stepId : String) : Run Execution := do
  let id ← Prog.tx fun db => do
    db.instanceAcceptsWork inst
    .ok (db.nextId, db.insertExecution fun id startedAt =>
      { id, instanceId := inst, flowName := flow, stepId, status := .pending, startedAt })
  getStepExecution id

/-- `create_task_execution_in_transaction`. -/
def createTaskExecutionInTransaction (db : Db) (inst : ℕ) (flow stepId : String) (task : ℕ) :
    Except Err (ℕ × Db) := do
  db.instanceAcceptsWork inst
  .ok (db.nextId, db.insertExecution fun id startedAt =>
    { id, instanceId := inst, flowName := flow, stepId, taskId := some task, status := .running
      startedAt })

/-- `create_task_execution`: the execution becomes the instance's current one. -/
def createTaskExecution (inst : ℕ) (flow stepId : String) (task : ℕ) : Run Execution := do
  let id ← Prog.tx fun db => do
    let (id, db) ← createTaskExecutionInTransaction db inst flow stepId task
    .ok (id, db.setInstance inst fun i => { i with currentExecutionId := some id })
  getStepExecution id

/-- `create_loop_task_execution`: the execution becomes the owner of the loop
cursor. -/
def createLoopTaskExecution (inst : ℕ) (flow stepId : String) (task : ℕ) (state : LoopState) :
    Run Execution := do
  let id ← Prog.tx fun db => do
    let (id, db) ← createTaskExecutionInTransaction db inst flow stepId task
    .ok (id, db.setInstance inst fun i =>
      { i with loopState := some { state with activeExecutionId := some id } })
  getStepExecution id

/-- A non-blank text. -/
def named (s : Option String) : Option String := s.filter fun a => !Text.isBlank a

/-- `create_continuation_execution`. -/
def createContinuationExecution (host : Host) (inst : ℕ) (flow stepId : String) (task : ℕ)
    (prompt : String) : Run Execution := do
  let id ← Prog.tx fun db => do
    db.instanceAcceptsWork inst
    match db.executions.reverse.find? fun e => e.instanceId = inst && e.flowName = flow &&
        e.stepId = stepId && (e.status = .running || e.status = .waitingForIdle) with
    | some existing => .ok (existing.id, db)
    | none => match db.work.task? task with
        | none => .error (.taskNotFound task)
        | some t => match named t.agentId with
            | none => .error (.workflow
                s!"continue step '{stepId}' cannot resume unassigned task '{task}'")
            | some agent => do
                let active := db.work.hasActiveResponse task
                let (id, db) ← createTaskExecutionInTransaction db inst flow stepId task
                if active then
                  .ok (id, db.setExecution id fun e => { e with status := .waitingForIdle })
                else do
                  let ((attempt, message), db) ← dispatchContinuation host db task agent prompt
                  .ok (id, db.setExecution id fun e =>
                    { e with
                      continuationAttemptId := some attempt
                      continuationPromptMessageId := some message })
  getStepExecution id

/-- The transaction of `dispatch_waiting_continuation`. -/
def dispatchWaiting (host : Host) (exec task : ℕ) (prompt : String) (db : Db) : Except Err Db := do
  db.executionAcceptsWork exec
  match (db.execution? exec).filter (fun e => e.taskId = some task), db.work.task? task with
  | some e, some t =>
      if e.status = .running then .ok db
      else if e.status ≠ .waitingForIdle then .error (.workflow
        s!"continue step '{e.stepId}' cannot dispatch from status '{e.status.name}'")
      else if db.work.hasActiveResponse task then .ok db
      else match named t.agentId with
        | none => .error (.workflow
            s!"continue step '{e.stepId}' cannot resume unassigned task '{task}'")
        | some agent => do
            let ((attempt, message), db) ← dispatchContinuation host db task agent prompt
            .ok (db.setExecution exec fun e =>
              if e.status = .waitingForIdle then
                { e with
                  status := .running
                  continuationAttemptId := some attempt
                  continuationPromptMessageId := some message }
              else e)
  | _, _ => .error (.workflow
      s!"continuation execution '{exec}' is not linked to task '{task}'")

/-- `dispatch_waiting_continuation`. -/
def dispatchWaitingContinuation (host : Host) (exec task : ℕ) (prompt : String) :
    Run Execution := do
  update (dispatchWaiting host exec task prompt)
  getStepExecution exec

/-- `bind_instance_to_agent_project`. -/
def bindInstanceToAgentProject (db : Db) (inst : ℕ) (agent : String) : Except Err Db :=
  match (db.work.agent? agent).bind Agent.projectId with
  | none => .ok db
  | some project => do
      db.workflowProject project
      if (inst, agent, project) ∈ db.bindings then .ok db
      else .ok { db with bindings := db.bindings ++ [(inst, agent, project)] }

/-- `create_agent_wait_execution`: the wait and the sleeping instance are committed
together. -/
def createAgentWaitExecution (inst : ℕ) (flow stepId : String) (state : WaitState) :
    Run Execution := do
  let id ← Prog.tx fun db => do
    db.instanceAcceptsWork inst
    let db ← bindInstanceToAgentProject db inst state.agentId
    let id := db.nextId
    let db := db.insertExecution fun id startedAt =>
      { id, instanceId := inst, flowName := flow, stepId, status := .waiting
        waitState := some state, startedAt }
    .ok (id, db.setInstance inst fun i => { i with status := .waiting, errorMessage := none })
  getStepExecution id

/-- `find_running_executions_by_task`. -/
def findRunningExecutionsByTask (task : ℕ) : Run (List Execution) :=
  Prog.read fun db => db.runningByTask task

/-- `claim_wait`: whether this call moved the execution from waiting to resuming. -/
def claimWait (exec : ℕ) (output : String) : Run Bool :=
  Prog.tx fun db => do
    db.executionAcceptsWork exec
    match db.execution? exec with
    | some e =>
        if e.status = .waiting then
          .ok (true, db.setExecution exec fun e =>
            { e with status := .resuming, output := some output })
        else .ok (false, db)
    | none => .ok (false, db)

end InstanceManager
end XpressClaw
