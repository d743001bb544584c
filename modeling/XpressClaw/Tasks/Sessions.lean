import XpressClaw.Tasks.Queue

/-!
# Work attempts

The transactions outside `TaskQueue` that move attempts and dispatches: those of
`SessionManager`, of the platform connection, of project deletion and of workflow
continuations.  An `Op` is one transaction, `step` is what it leaves behind, and `reply`
what it returns.
-/

namespace XpressClaw.Tasks

namespace Db

/-! ## Transitions -/

/-- The columns `transition_attempt` writes. -/
def transition (status : AttemptStatus) (result errorMessage : Option String) (now : ℤ)
    (a : WorkAttempt) : WorkAttempt :=
  { a with
    status := status
    startedAt := if status = .preparing ∨ status = .running then a.startedAt.or (some now)
      else a.startedAt
    responseStartedAt :=
      if status = .running then
        if a.status = .running then a.responseStartedAt.or (some now) else some now
      else a.responseStartedAt
    completedAt := if status.terminal then some now else a.completedAt
    result := result.or a.result
    errorMessage := errorMessage }

/-- `transition_attempt`. -/
def transitionAttempt (attemptId : ℕ) (status : AttemptStatus)
    (result errorMessage : Option String) (now : ℤ) : Tx Unit := fun db =>
  match db.attempt? attemptId with
  | none => .error (.task s!"attempt {attemptId} not found")
  | some _ =>
      .ok ((), db.updateAttempts (fun a => a.id = attemptId && !a.status.terminal)
        (transition status result errorMessage now))

/-- `set_container`. -/
def setContainer (attemptId : ℕ) (containerId : String) (db : Db) : Db :=
  db.updateAttempts (·.id = attemptId) fun a => { a with containerId := some containerId }

/-- `clear_container`. -/
def clearContainer (attemptId : ℕ) (db : Db) : Db :=
  db.updateAttempts (·.id = attemptId) fun a => { a with containerId := none }

/-! ## Cancellation -/

/-- The columns a cancelled attempt gets. -/
def cancelled (errorMessage : Option String) (now : ℤ) (a : WorkAttempt) : WorkAttempt :=
  { a with status := .cancelled, completedAt := some now, errorMessage := errorMessage }

/-- The columns of a dispatch that failed before it ran. -/
def released (response : Option String) (now : ℤ) (q : QueueItem) : QueueItem :=
  { q with
    status := .failed, completedAt := some now, harnessResponse := response.or q.harnessResponse }

/-- `retire_unconsumed_workflow_prompt_in_transaction`. -/
def retirePrompt (attempt : WorkAttempt) (promptMessageId : Option ℕ) (db : Db) : Db :=
  match attempt.taskId, promptMessageId with
  | some taskId, some prompt =>
      if attempt.triggerMessageId ≠ some prompt ∨ attempt.responseStartedAt.isSome then db
      else
        { db with
          messages := db.messages.filter fun m =>
            !(m.id = prompt && m.taskId = taskId && m.role = "user" &&
              (db.executions.any fun e => e.continuationAttemptId = some attempt.id &&
                e.continuationPromptMessageId = some prompt && e.taskId = some taskId) &&
              !db.attempts.any fun a => a.triggerMessageId = some prompt && a.id ≠ attempt.id &&
                (a.responseStartedAt.isSome || !a.status.terminal)) }
  | _, _ => db

/-- The fixed prompt of the continuation that owns the attempt. -/
def promptOf (db : Db) (attemptId : ℕ) (taskId : String) : Option ℕ :=
  ((db.executions.filter fun e => e.continuationAttemptId = some attemptId &&
    e.taskId = some taskId && e.continuationPromptMessageId.isSome).getLast?).bind
      (·.continuationPromptMessageId)

/-- `release_child_parent_reviews_in_transaction`. -/
def releaseChildReviews (taskId : String) (db : Db) : Db :=
  db.updateTasks (fun t => t.parentTaskId = some taskId && t.parentReviewRequired &&
    !db.connected t.id && !db.executions.any fun e => e.taskId = some t.id &&
      db.instances.any fun i => i.id = e.instanceId && i.sourceTaskId ≠ some t.id) fun t =>
    { t with parentTaskId := none, parentReviewRequired := false }

/-- The reviews of these pull requests are no longer monitored. -/
def stopMonitoring (w : PullRequest → Bool) (db : Db) : Db :=
  { db with
    pullRequests := db.pullRequests.map fun pr =>
      if w pr then { pr with monitored := false } else pr }

/-- `cancel_task_attempts_in_transaction`: the attempts it cancelled, unless the task is
completed. -/
def cancelTaskAttempts (taskId : String) (now : ℤ) : Tx (Option (List WorkAttempt)) := fun db =>
  match db.task? taskId with
  | none => .error .noRows
  | some task =>
      if task.status = .completed then .ok (none, db)
      else
        let attempts := db.attempts.filter fun a => a.taskId = some taskId && !a.status.terminal
        let db := db.updateAttempts (fun a => a.taskId = some taskId && !a.status.terminal)
          (cancelled none now)
        let db := attempts.foldl (fun db a => db.retirePrompt a (db.promptOf a.id taskId)) db
        let db := db.updateQueue (fun q => q.taskId = taskId && q.status = .queued)
          (released (some "cancelled by user") now)
        let db := db.updateTasks (fun t => t.id = taskId && t.status ≠ .completed) fun t =>
          { t with status := .cancelled }
        let db := db.releaseChildReviews taskId
        .ok (some attempts, db.stopMonitoring (·.taskId = taskId))

/-- The task status after one of its attempts was cancelled with its workflow. -/
def restoredStatus (db : Db) (task : Task) (restore : TaskStatus) : TaskStatus :=
  if task.closed || db.attempts.any (fun a => a.taskId = some task.id && !a.status.terminal) then
    task.status
  else restore

/-- The cancellation inside `cancel_workflow_attempt_in_transaction`. -/
def cancelOwned (attempt : WorkAttempt) (promptMessageId : ℕ) (now : ℤ) (db : Db) : Db :=
  ((db.updateAttempts (·.id = attempt.id) (cancelled none now)).updateQueue
    (fun q => attempt.queueId = some q.id && q.status = .queued)
    (released (some "workflow cancelled by user") now)).retirePrompt attempt
      (some promptMessageId)

/-- `cancel_workflow_attempt_in_transaction`: the attempt it cancelled. -/
def cancelWorkflowAttempt (attemptId : ℕ) (promptMessageId : Option ℕ) (restore : TaskStatus)
    (now : ℤ) : Tx (Option WorkAttempt) := fun db =>
  match db.attempt? attemptId with
  | none => .error (.task s!"attempt {attemptId} not found")
  | some attempt =>
      match promptMessageId with
      | none => .ok (none, db)
      | some prompt =>
          if attempt.triggerMessageId ≠ some prompt then .ok (none, db)
          else
            match attempt.taskId with
            | none => .error (.task s!"workflow continuation attempt {attemptId} has no task")
            | some taskId =>
                let db := if attempt.status.terminal then db
                  else db.cancelOwned attempt prompt now
                match db.task? taskId with
                | none => .error .noRows
                | some task =>
                    let next := db.restoredStatus task restore
                    .ok (if attempt.status.terminal then none else some attempt,
                      db.updateTasks (·.id = taskId) fun t => { t with status := next })

/-- The route that cancelled a task releases its running dispatches once their containers
had their stop attempt. -/
def releaseDispatch (queueId : ℕ) (now : ℤ) (db : Db) : Db :=
  db.updateQueue (fun q => q.id = queueId && q.status = .running)
    (released (some "cancelled by user") now)

/-! ## Assignment -/

/-- The updates of `PlanningAction::Assign`, after its checks. -/
def assign (taskId agentId : String) (db : Db) : Db :=
  ((db.updateAttempts (fun a => a.taskId = some taskId && a.status = .queued) fun a =>
    { a with sessionId := agentId }).updateQueue
      (fun q => q.taskId = taskId && q.status = .queued) fun q =>
    { q with agentId := agentId }).updateTasks (·.id = taskId) fun t =>
    { t with agentId := some agentId }

/-- The monitored pull requests of the task go to the agent. -/
def movePullRequests (taskId agentId : String) (db : Db) : Db :=
  { db with
    pullRequests := db.pullRequests.map fun pr =>
      if pr.taskId = taskId && pr.monitored then { pr with agentId := agentId } else pr }

/-- The updates of `synchronize_pull_request_agent`, after its checks, and of its caller. -/
def synchronizeAgent (taskId agentId : String) (db : Db) : Db :=
  (((db.movePullRequests taskId agentId).updateAttempts
    (fun a => a.status = .queued && db.queue.any fun q =>
      q.taskId = taskId && q.status = .queued && q.attemptId = some a.id) fun a =>
    { a with sessionId := agentId }).updateQueue
      (fun q => q.taskId = taskId && q.status = .queued) fun q =>
    { q with agentId := agentId }).updateTasks (·.id = taskId) fun t =>
    { t with agentId := some agentId }

/-! ## The platform connection -/

/-- The attempt belongs to an accepted command. -/
def acceptedAttempt (db : Db) (attemptId : Option ℕ) : Bool :=
  attemptId.isSome && db.commands.any fun c => c.status = "accepted" && c.attemptId = attemptId

/-- The columns of a stopped attempt. -/
def stopped (uncertain : Bool) (error : String) (now : ℤ) (a : WorkAttempt) : WorkAttempt :=
  { a with
    status := if uncertain then .failed else .cancelled
    errorMessage := some error
    completedAt := some now }

/-- `ConnectJournal::stop_task`, for an expired lease or on request: the stopped attempt. -/
def stopTask (commandId : String) (expiredAt : Option ℤ) (now : ℤ) (db : Db) :
    Option ℕ × Db :=
  match db.commands.find? fun c => c.id = commandId && c.status = "accepted" &&
      expiredAt.all (c.leaseUntil ≤ ·) with
  | none => (none, db)
  | some c =>
      match c.taskId, c.attemptId.bind db.attempt? with
      | some taskId, some attempt =>
          if attempt.status.terminal then (none, db)
          else
            let uncertain := expiredAt.isSome && attempt.status ≠ .queued
            let error := if uncertain then "execution_outcome_unknown_after_lease_expiry"
              else "execution_cancelled"
            (some attempt.id,
              ((db.updateAttempts (·.id = attempt.id) (stopped uncertain error now)).updateQueue
                (fun q => q.attemptId = some attempt.id && q.status = .queued)
                (released (some error) now)).updateTasks (·.id = taskId) fun t =>
              { t with status := if uncertain then .blocked else .cancelled })
      | _, _ => (none, db)

/-- The error of an execution that a restart interrupted. -/
def lostAfterRestart : String := "execution_state_lost_after_restart"

/-- `ConnectJournal::recover`. -/
def connectRecover (now : ℤ) (db : Db) : Db :=
  let failed := (db.updateAttempts (fun a => db.acceptedAttempt (some a.id) &&
    !a.status.terminal) (stopped true lostAfterRestart now)).updateQueue
    (fun q => db.acceptedAttempt q.attemptId && (q.status = .queued || q.status = .running))
    (released none now)
  failed.updateTasks (fun t => failed.commands.any fun c => c.taskId = some t.id &&
    c.status = "accepted" && (c.attemptId.bind failed.attempt?).any
      (·.errorMessage = some lostAfterRestart)) fun t => { t with status := .blocked }

/-! ## Project deletion -/

/-- The agent belongs to the project. -/
def agentOf (db : Db) (projectId agentId : String) : Bool :=
  db.agents.any fun a => a.id = agentId && a.projectId = some projectId

/-- The task belongs to the project. -/
def taskOf (db : Db) (projectId taskId : String) : Bool :=
  db.tasks.any fun t => t.id = taskId && t.projectId = some projectId

/-- The project rejects every new attachment. -/
def markDeleting (projectId : String) (db : Db) : Db :=
  { db with
    projects := db.projects.map fun p =>
      if p.id = projectId then { p with deleting := true } else p }

/-- What `ProjectManager::begin_cascade` does to tasks, attempts and dispatches. -/
def beginCascade (projectId : String) (now : ℤ) : Tx Unit := fun db =>
  match db.project? projectId with
  | none => .error (.projectNotFound projectId)
  | some _ =>
      let db := db.markDeleting projectId
      let db := db.updateAttempts (fun a => !a.status.terminal &&
        (a.taskId.any (db.taskOf projectId) || db.agentOf projectId a.sessionId))
        (cancelled (some "Project deleted") now)
      let db := db.updateQueue (fun q => (q.status = .queued || q.status = .running) &&
        (db.taskOf projectId q.taskId || db.agentOf projectId q.agentId))
        (released (some "Project deleted") now)
      let db := db.updateTasks (fun t => t.projectId = some projectId && !t.closed) fun t =>
        { t with status := .cancelled }
      .ok ((), db.stopMonitoring fun pr => db.taskOf projectId pr.taskId)

/-! ## Workflow continuations -/

/-- `task_has_active_response`. -/
def hasActiveResponse (db : Db) (taskId : String) : Bool :=
  (db.queue.any fun q => q.taskId = taskId && (q.status = .queued || q.status = .running)) ||
  db.attempts.any fun a => a.taskId = some taskId && !a.status.terminal

/-- `dispatch_continuation_in_transaction`: the attempt and the prompt. -/
def dispatchContinuation (needsUserInput : String → Bool) (taskId agentId : String) (now : ℤ) :
    Tx (ℕ × ℕ) := fun db => do
  let (messageId, db) ← insertTextMessage taskId "user" db
  let ((item, _), db) ←
    enqueueContinuationForMessage needsUserInput taskId agentId messageId now db
  match item with
  | none =>
      .error (.workflow
        s!"continue step could not reserve an exclusive response for task '{taskId}'")
  | some item =>
      match item.attemptId with
      | none =>
          .error (.workflow s!"continue step response for task '{taskId}' has no work attempt")
      | some attemptId =>
          .ok ((attemptId, messageId), db.updateTasks (·.id = taskId) fun t =>
            { t with status := .pending })

/-- The execution takes over the attempt and its prompt. -/
def ownContinuation (executionId : String) (attemptId promptMessageId : ℕ) (db : Db) :
    Except Error Db :=
  db.takeOver executionId attemptId fun e =>
    { e with status := "running", continuationPromptMessageId := some promptMessageId }

/-- The prompt of a continuation is dispatched and the execution takes over the attempt. -/
def startContinuation (needsUserInput : String → Bool) (executionId taskId agentId : String)
    (now : ℤ) : Tx Unit := fun db => do
  let ((attemptId, prompt), db) ← dispatchContinuation needsUserInput taskId agentId now db
  let db ← db.ownContinuation executionId attemptId prompt
  .ok ((), db)

/-- `create_continuation_execution`, for an instance that accepts work: an open execution of
the step is returned as it is, and a new one waits while the task has an active response. -/
def createContinuation (needsUserInput : String → Bool) (execution : StepExecution)
    (taskId : String) (now : ℤ) : Tx Unit := fun db =>
  if db.executions.any fun e => e.instanceId = execution.instanceId &&
      e.flowName = execution.flowName && e.stepId = execution.stepId &&
      (e.status = "running" || e.status = "waiting_for_idle") then .ok ((), db)
  else
    match db.task? taskId with
    | none => .error (.taskNotFound taskId)
    | some task =>
        match task.agentId.filter (!Lib.Text.isBlank ·) with
        | none => .error (.workflow
            s!"continue step '{execution.stepId}' cannot resume unassigned task '{taskId}'")
        | some agentId =>
            let inserted (status : String) : Db :=
              { db with
                executions := db.executions ++
                  [{ id := execution.id
                     instanceId := execution.instanceId
                     flowName := execution.flowName
                     stepId := execution.stepId
                     taskId := some taskId
                     status := status
                     startedAt := now }] }
            if db.hasActiveResponse taskId then .ok ((), inserted "waiting_for_idle")
            else startContinuation needsUserInput execution.id taskId agentId now
              (inserted "running")

/-- `dispatch_waiting_continuation`, for an instance that accepts work. -/
def dispatchWaiting (needsUserInput : String → Bool) (executionId taskId : String) (now : ℤ) :
    Tx Unit := fun db =>
  match db.executions.find? fun e => e.id = executionId && e.taskId = some taskId,
      db.task? taskId with
  | some execution, some task =>
      if execution.status = "running" then .ok ((), db)
      else if execution.status ≠ "waiting_for_idle" then
        .error (.workflow s!"continue step '{execution.stepId}' cannot dispatch from status '{execution.status}'")
      else if db.hasActiveResponse taskId then .ok ((), db)
      else
        match task.agentId.filter (!Lib.Text.isBlank ·) with
        | none => .error (.workflow
            s!"continue step '{execution.stepId}' cannot resume unassigned task '{taskId}'")
        | some agentId => startContinuation needsUserInput executionId taskId agentId now db
  | _, _ =>
      .error (.workflow
        s!"continuation execution '{executionId}' is not linked to task '{taskId}'")

/-! ## Everything else -/

/-- The other tables change, within their foreign keys. -/
def replan (plan : Db) : Tx Unit := fun db =>
  if db.continuationsExist plan.executions then
    .ok ((), { plan with
      queue := db.queue
      attempts := db.attempts
      nextQueueId := db.nextQueueId
      nextAttemptId := db.nextAttemptId
      orphaned := db.orphaned })
  else .error .constraint

end Db

/-! ## Runs -/

/-- One transaction. -/
inductive Op where
  | enqueue (taskId agentId : String) (now : ℤ)
  | enqueuePlatform (taskId agentId : String) (now : ℤ)
  | ensureEnqueued (taskId agentId : String) (now : ℤ)
  | enqueueContinuation (taskId agentId : String) (now : ℤ)
  | createAttempt (sessionId taskId : String) (queueId : ℕ) (now : ℤ)
  | discardItem (id : ℕ)
  | addMessage (taskId role : String)
  | enqueueForMessage (taskId agentId : String) (messageId : ℕ) (now : ℤ)
  | addUserMessage (taskId : String) (agentId : Option String) (now : ℤ)
  | enqueueReviewFollowUp (taskId : String) (now : ℤ)
  | createContinuation (execution : StepExecution) (taskId : String) (now : ℤ)
  | dispatchWaiting (executionId taskId : String) (now : ℤ)
  | claim (agentId : Option String) (now : ℤ)
  | recoverFinalize (now : ℤ)
  | recoverRead
  | recoverRequeue
  | complete (id : ℕ) (response : String) (now : ℤ)
  | fail (id : ℕ) (error : String) (now : ℤ)
  | finalizeReleased (id : ℕ) (now : ℤ)
  | completeFinal (taskId : String) (queueId attemptId : ℕ) (content : String) (now : ℤ)
  | transition (attemptId : ℕ) (status : AttemptStatus) (result errorMessage : Option String)
      (now : ℤ)
  | setContainer (attemptId : ℕ) (containerId : String)
  | clearContainer (attemptId : ℕ)
  | cancelTask (taskId : String) (now : ℤ)
  | cancelWorkflowAttempt (attemptId : ℕ) (promptMessageId : Option ℕ) (restore : TaskStatus)
      (now : ℤ)
  | releaseDispatch (queueId : ℕ) (now : ℤ)
  | assign (taskId agentId : String)
  | synchronizeAgent (taskId agentId : String)
  | retireStale (taskId : Option String) (now : ℤ)
  | stopTask (commandId : String) (expiredAt : Option ℤ) (now : ℤ)
  | connectRecover (now : ℤ)
  | beginCascade (projectId : String) (now : ℤ)
  /-- Anything else the program does to the other tables. -/
  | replan (plan : Db)

/-- What a successful transaction returns, as far as the results speak of it. -/
inductive Reply where
  | done
  | claimed (item : Option QueueItem)
  /-- A message a user wrote was associated with an attempt. -/
  | associated (messageId attemptId : ℕ)
  deriving DecidableEq

namespace Op

/-- A call that returns nothing of interest. -/
def quiet {α : Type} (tx : Tx α) : Tx Reply := fun db => do
  let (_, db) ← tx db
  .ok (.done, db)

/-- A call that cannot fail. -/
def always (f : Db → Db) : Tx Reply := fun db => .ok (.done, f db)

/-- The transaction of a call. -/
def exec (needsUserInput : String → Bool) : Op → Tx Reply
  | enqueue t a now => quiet (Db.enqueue t a now)
  | enqueuePlatform t a now => quiet (Db.enqueueAuthorized t a now)
  | ensureEnqueued t a now => quiet (Db.ensureEnqueued t a now)
  | enqueueContinuation t a now => quiet (Db.enqueueContinuation t a now)
  | createAttempt s t q now => quiet (Db.createAttempt s t q now)
  | discardItem id => always (Db.discardItem id)
  | addMessage t role => quiet (Db.insertTextMessage t role)
  | enqueueForMessage t a m now => fun db => do
      let ((_, attemptId), db) ← Db.enqueueContinuationForMessage needsUserInput t a m now db
      .ok (.associated m attemptId, db)
  | addUserMessage t a now => fun db => do
      let ((m, attemptId), db) ← Db.addUserMessage needsUserInput t a now db
      .ok ((attemptId.map (Reply.associated m)).getD .done, db)
  | enqueueReviewFollowUp t now => fun db => do
      let (r, db) ← Db.enqueueReviewFollowUp t now db
      .ok ((r.map fun (m, a) => Reply.associated m a).getD .done, db)
  | createContinuation e t now => quiet (Db.createContinuation needsUserInput e t now)
  | dispatchWaiting e t now => quiet (Db.dispatchWaiting needsUserInput e t now)
  | claim a now => fun db => do
      let (item, db) ← Db.claimAt a now db
      .ok (.claimed item, db)
  | recoverFinalize now => always (Db.recoverFinalize now)
  | recoverRead => always Db.recoverRead
  | recoverRequeue => always Db.recoverRequeue
  | complete id r now => always (Db.complete id r now)
  | fail id e now => always (Db.fail id e now)
  | finalizeReleased id now => always (Db.finalizeReleased id now)
  | completeFinal t q a content now =>
      quiet (Db.completeFinalAssistantAttempt t q a content now)
  | transition a status result error now =>
      quiet (Db.transitionAttempt a status result error now)
  | setContainer a c => always (Db.setContainer a c)
  | clearContainer a => always (Db.clearContainer a)
  | cancelTask t now => quiet (Db.cancelTaskAttempts t now)
  | cancelWorkflowAttempt a prompt restore now =>
      quiet (Db.cancelWorkflowAttempt a prompt restore now)
  | releaseDispatch q now => always (Db.releaseDispatch q now)
  | assign t a => always (Db.assign t a)
  | synchronizeAgent t a => always (Db.synchronizeAgent t a)
  | retireStale t now => always (Db.retireStale t now)
  | stopTask c expired now => always fun db => (db.stopTask c expired now).2
  | connectRecover now => always (Db.connectRecover now)
  | beginCascade p now => quiet (Db.beginCascade p now)
  | replan plan => quiet (Db.replan plan)

end Op

variable (needsUserInput : String → Bool)

/-- The database after a transaction: a failed one rolls back. -/
def step (db : Db) (op : Op) : Db :=
  match op.exec needsUserInput db with
  | .ok (_, db') => db'
  | .error _ => db

/-- What a transaction returns, if it commits. -/
def reply (db : Db) (op : Op) : Option Reply :=
  match op.exec needsUserInput db with
  | .ok (r, _) => some r
  | .error _ => none

end XpressClaw.Tasks
