import XpressClaw.Lib.Text
import XpressClaw.Tasks.Planning

/-!
# The task queue

The transactions of `TaskQueue` and of the delegation notifications, one definition for each
function of the source, in its order.
-/

namespace XpressClaw.Tasks

namespace Db

/-! ## Queuing -/

/-- `preserve_queued_response`. -/
def preserveQueuedResponse (taskId : String) (db : Db) : Db :=
  { db with
    automaticResponses := db.automaticResponses.filter fun a =>
      !db.queue.any fun q => q.taskId = taskId && q.status = .queued && q.attemptId = some a }

/-- `enqueue_new_in_transaction`. -/
def enqueueNew (taskId agentId : String) (now : ℤ) : Tx QueueItem := fun db =>
  match db.task? taskId with
  | none => .error .noRows
  | some _ =>
      let (queueId, db) := db.insertItem taskId agentId now
      let (_, db) := db.insertAttempt agentId taskId queueId none now
      match db.item? queueId with
      | none => .error .noRows
      | some item => .ok (item, db)

/-- `enqueue_authorized_in_transaction`: a queued row of the task is returned as it is. -/
def enqueueAuthorized (taskId agentId : String) (now : ℤ) : Tx QueueItem := fun db => do
  db.ensureTaskProjectAcceptsWork taskId
  match db.queue.find? fun q => q.taskId = taskId && q.status = .queued with
  | some item => .ok (item, db.preserveQueuedResponse taskId)
  | none => enqueueNew taskId agentId now db

/-- `enqueue_in_transaction`. -/
def enqueue (taskId agentId : String) (now : ℤ) : Tx QueueItem := fun db => do
  db.ensureLocallyScheduled taskId
  enqueueAuthorized taskId agentId now db

/-- The first transaction of `ensure_enqueued`: the row that still needs an attempt. -/
def ensureEnqueued (taskId agentId : String) (now : ℤ) : Tx (Option ℕ) := fun db =>
  if db.executions.any fun e => e.taskId = some taskId && db.instances.any fun i =>
      i.id = e.instanceId && i.sourceTaskId ≠ some taskId &&
        (i.status ≠ "running" || e.status ≠ "running") then .ok (none, db)
  else do
    db.ensureLocallyScheduled taskId
    db.ensureTaskProjectAcceptsWork taskId
    match (db.queue.filter fun q => q.taskId = taskId &&
        (q.status = .queued || q.status = .running)).getLast? with
    | some q =>
        .ok (if q.attemptId.isNone then some q.id else none, db.preserveQueuedResponse taskId)
    | none =>
        let (id, db) := db.insertItem taskId agentId now
        .ok (some id, db)

/-- The first transaction of `enqueue_continuation`: the inserted row. -/
def enqueueContinuation (taskId agentId : String) (now : ℤ) : Tx (Option ℕ) := fun db => do
  db.ensureLocallyScheduled taskId
  db.ensureTaskProjectAcceptsWork taskId
  if db.queue.any fun q => q.taskId = taskId && q.status = .queued then
    .ok (none, db.preserveQueuedResponse taskId)
  else
    let (id, db) := db.insertItem taskId agentId now
    .ok (some id, db.preserveQueuedResponse taskId)

/-- `SessionManager::create_attempt`, the second transaction of both.  A queue row has one
attempt only: `idx_work_attempts_queue`. -/
def createAttempt (sessionId taskId : String) (queueId : ℕ) (now : ℤ) : Tx ℕ := fun db => do
  db.ensureTaskProjectAcceptsWork taskId
  if db.attempts.any (·.queueId = some queueId) then .error .constraint
  else .ok (db.insertAttempt sessionId taskId queueId none now)

/-- What `create_attempt_for_item` does when that fails. -/
def discardItem (id : ℕ) (db : Db) : Db :=
  { db with queue := db.queue.filter (·.id ≠ id) }

/-! ## Messages that ask for a response -/

/-- `associate_response_trigger_in_transaction`. -/
def associateResponseTrigger (attemptId messageId : ℕ) (db : Db) : Except Error Db :=
  match db.attempt? attemptId with
  | none => .error (.task s!"queued continuation attempt {attemptId} was not found")
  | some _ => .ok <| db.updateAttempts (·.id = attemptId) fun a =>
      { a with triggerMessageId := some (max (a.triggerMessageId.getD 0) messageId) }

/-- `coalescible_queued_attempt`: the newest queued row that no workflow continuation
owns. -/
def coalescibleQueuedAttempt (db : Db) (taskId : String) : Option (Option ℕ) :=
  (db.queue.filter fun q => q.taskId = taskId && q.status = .queued &&
    !db.workflowOwned q.attemptId).getLast?.map (·.attemptId)

/-- The rows `adopt_waiting_workflow_continuation_in_transaction` selects from: executions
whose owned attempt has finished while their task waits for input. -/
def waitingContinuations (db : Db) (taskId : String) : List (StepExecution × WorkAttempt) :=
  db.executions.filterMap fun e => do
    let attempt ← e.continuationAttemptId.bind db.attempt?
    if e.taskId = some taskId && e.status = "running" &&
        (db.instances.any fun i => i.id = e.instanceId && i.status = "running") &&
        (db.task? taskId).any (·.status = .waitingForInput) && attempt.status = .completed then
      some (e, attempt)
    else none

/-- An execution takes over an attempt; `idx_workflow_step_continuation_attempt` allows one
owner only. -/
def takeOver (executionId : String) (attemptId : ℕ) (set : StepExecution → StepExecution)
    (db : Db) : Except Error Db :=
  if db.executions.any fun e => e.id ≠ executionId && e.continuationAttemptId = some attemptId then
    .error .constraint
  else .ok <| db.updateExecutions (·.id = executionId) fun e =>
    { set e with continuationAttemptId := some attemptId }

/-- `adopt_waiting_workflow_continuation_in_transaction`. -/
def adoptWaiting (needsUserInput : String → Bool) (taskId : String) (responseAttemptId : ℕ)
    (db : Db) : Except Error Db :=
  match Lib.Table.least (·.1.startedAt) (db.waitingContinuations taskId) with
  | none => .ok db
  | some (e, attempt) =>
      if needsUserInput ((attempt.result.or attempt.errorMessage).getD "") then
        db.takeOver e.id responseAttemptId id
      else .ok db

/-- A terminal or parked task is reopened. -/
def reopenTask (taskId : String) (db : Db) : Db :=
  db.updateTasks (fun t => t.id = taskId && (t.status = .completed || t.status = .cancelled ||
    t.status = .waitingForInput || t.status = .blocked)) fun t => { t with status := .pending }

/-- What follows once the message has its response attempt. -/
def adoptResponse (needsUserInput : String → Bool) (taskId : String) (responseAttemptId : ℕ)
    (db : Db) : Except Error Db := do
  let released : Db :=
    { db with automaticResponses := db.automaticResponses.filter (· ≠ responseAttemptId) }
  let db ← released.adoptWaiting needsUserInput taskId responseAttemptId
  .ok (db.reopenTask taskId)

/-- `enqueue_continuation_for_message_in_transaction`: the new queue item, if one was
needed, and the attempt the message is associated with. -/
def enqueueContinuationForMessage (needsUserInput : String → Bool) (taskId agentId : String)
    (messageId : ℕ) (now : ℤ) : Tx (Option QueueItem × ℕ) := fun db => do
  db.ensureLocallyScheduled taskId
  db.ensureTaskProjectAcceptsWork taskId
  match db.coalescibleQueuedAttempt taskId with
  | some (some attemptId) => do
      let db ← db.associateResponseTrigger attemptId messageId
      let db ← db.adoptResponse needsUserInput taskId attemptId
      .ok ((none, attemptId), db)
  | some none =>
      .error (.task s!"queued continuation for task {taskId} has no work attempt")
  | none => do
      let (item, db) ← enqueue taskId agentId now db
      match item.attemptId with
      | none => .error (.task s!"queued continuation for task {taskId} has no work attempt")
      | some attemptId => do
          let db ← db.associateResponseTrigger attemptId messageId
          let db ← db.adoptResponse needsUserInput taskId attemptId
          .ok ((some item, attemptId), db)

/-- `add_user_message_with_attachments_and_enqueue`: the message, and the attempt it is
associated with. -/
def addUserMessage (needsUserInput : String → Bool) (taskId : String) (agentId : Option String)
    (now : ℤ) : Tx (ℕ × Option ℕ) := fun db => do
  db.ensureLocallyScheduled taskId
  let (messageId, db) ← insertTextMessage taskId "user" db
  match agentId with
  | none => .ok ((messageId, none), db)
  | some agentId => do
      let ((_, attemptId), db) ←
        enqueueContinuationForMessage needsUserInput taskId agentId messageId now db
      .ok ((messageId, some attemptId), db)

/-- `enqueue_review_follow_up_for_current_agent`: the message and the attempt it is
associated with, unless the task is closed. -/
def enqueueReviewFollowUp (taskId : String) (now : ℤ) : Tx (Option (ℕ × ℕ)) := fun db => do
  db.ensureLocallyScheduled taskId
  db.ensureTaskProjectAcceptsWork taskId
  match db.task? taskId with
  | none => .error .noRows
  | some t =>
      if t.closed then .ok (none, db)
      else
        match t.agentId.filter (!Lib.Text.isBlank ·) with
        | none => .error (.task "cannot queue review feedback for an unassigned task")
        | some agentId => do
            let (messageId, db) := db.insertMessageRow taskId "user"
            match db.coalescibleQueuedAttempt taskId with
            | some (some attemptId) => do
                let db ← db.associateResponseTrigger attemptId messageId
                .ok (some (messageId, attemptId), (db.preserveQueuedResponse taskId).updateTasks
                  (·.id = taskId) fun t => { t with status := .inProgress })
            | some none =>
                .error (.task s!"queued continuation for task {taskId} has no work attempt")
            | none =>
                let (queueId, db) := db.insertItem taskId agentId now
                let (attemptId, db) := db.insertAttempt agentId taskId queueId (some messageId) now
                .ok (some (messageId, attemptId), db.updateTasks (·.id = taskId) fun t =>
                  { t with status := .inProgress })

/-! ## Delegation notifications -/

/-- The queued response `enqueue_delegation_notification_in_transaction` may share. -/
def sharedResponse (db : Db) (taskId agentId : String) : Option ℕ :=
  ((db.queue.filter fun q => q.taskId = taskId && q.agentId = agentId && q.status = .queued &&
    (db.attemptOf q).any (fun a => a.sessionId = agentId && a.status = .queued) &&
    !db.workflowOwned q.attemptId).getLast?).bind (·.attemptId)

/-- The response attempt of a notification: shared, or new and then automatic. -/
def notificationResponse (taskId agentId : String) (now : ℤ) : Tx ℕ := fun db =>
  match db.sharedResponse taskId agentId with
  | some attemptId => .ok (attemptId, db)
  | none => do
      let (item, db) ← enqueueNew taskId agentId now db
      match item.attemptId with
      | none => .error (.task "Recovery response has no attempt")
      | some attemptId =>
          .ok (attemptId, { db with automaticResponses := db.automaticResponses ++ [attemptId] })

/-- `enqueue_delegation_notification_in_transaction`. -/
def enqueueDelegationNotification (taskId agentId : String) (messageId : ℕ) (now : ℤ) :
    Tx ℕ := fun db => do
  db.ensureLocallyScheduled taskId
  db.ensureTaskProjectAcceptsWork taskId
  let (attemptId, db) ← notificationResponse taskId agentId now db
  let db ← db.associateResponseTrigger attemptId messageId
  .ok (attemptId, db)

/-- The rows `retire_stale_in_transaction` selects: the attempt and its queue row. -/
def staleResponses (db : Db) (taskId : Option String) : List (ℕ × ℕ) :=
  db.automaticResponses.flatMap fun a => (db.queue.filter fun q =>
    q.attemptId = some a && q.status = .queued && (db.attempt? a).any fun candidate =>
      candidate.status = .queued && candidate.startedAt.isNone && candidate.containerId.isNone &&
      candidate.taskId = some q.taskId && !db.workflowOwned (some a) &&
      (db.task? q.taskId).any fun t => taskId.all (t.id = ·) &&
        (t.closed || !db.recoveryGrant q t candidate)).map fun q => (a, q.id)

/-- `delegation_superseded`. -/
def supersededReason : String :=
  "Delegated result is no longer current; unused notification response superseded"

/-- The columns of a superseded response attempt. -/
def superseded (now : ℤ) (a : WorkAttempt) : WorkAttempt :=
  { a with status := .cancelled, completedAt := some now, result := some supersededReason }

/-- The columns of a dispatch that failed. -/
def failed (response : String) (now : ℤ) (q : QueueItem) : QueueItem :=
  { q with status := .failed, completedAt := some now, harnessResponse := some response }

/-- The loop of `retire_stale_in_transaction`. -/
def retireAll (now : ℤ) : List (ℕ × ℕ) → Db → Db
  | [], db => db
  | (attemptId, queueId) :: stale, db =>
      retireAll now stale <|
        (db.updateAttempts (·.id = attemptId) (superseded now)).updateQueue (·.id = queueId)
          (failed supersededReason now)

/-- `retire_stale_in_transaction`. -/
def retireStale (taskId : Option String) (now : ℤ) (db : Db) : Db :=
  retireAll now (db.staleResponses taskId) db

/-- A report `reconcile_in_transaction` has to deliver, with the parent's agent. -/
def unreported (db : Db) (o : Outcome) : Option (Outcome × TaskStatus × String) := do
  let status ← o.outcome
  let parent ← db.task? o.parentId
  let owner ← parent.agentId
  if (db.agents.any fun a => a.id = owner && a.projectId.isSome &&
        a.projectId = parent.projectId) && !parent.closed && !parent.hidden &&
      parent.provenance ≠ "native_plan" && !db.projectDeleting parent &&
      !db.connected parent.id && !db.notifications.any fun n => n.parentTaskId = parent.id &&
        n.parentAgentId = owner && n.childTaskId = o.childId &&
        n.childAttemptId = o.attemptId && n.childStatus = status then
    some (o, status, owner)
  else none

/-- The reports `reconcile_in_transaction` delivers, `ORDER BY parent.id, outcome.child_id`. -/
def reports (db : Db) : List (Outcome × TaskStatus × String) :=
  (db.outcomes.filterMap db.unreported).insertionSort fun a b =>
    a.1.parentId < b.1.parentId ∨ a.1.parentId = b.1.parentId ∧ a.1.childId ≤ b.1.childId

/-- One round of the loop of `reconcile_in_transaction`. -/
def deliver (o : Outcome) (status : TaskStatus) (owner : String) (now : ℤ) : Tx Unit :=
  fun db => do
  let (messageId, db) ← insertTextMessage o.parentId "system" db
  let (response, db) ← enqueueDelegationNotification o.parentId owner messageId now db
  .ok ((), { db with
    notifications := db.notifications ++
      [{ id := db.nextNotificationId
         parentTaskId := o.parentId
         parentAgentId := owner
         childTaskId := o.childId
         childAttemptId := o.attemptId
         childStatus := status
         messageId := some messageId }]
    responses := db.responses ++ [⟨response, db.nextNotificationId⟩]
    nextNotificationId := db.nextNotificationId + 1 })

/-- The loop of `reconcile_in_transaction`. -/
def deliverAll (now : ℤ) : List (Outcome × TaskStatus × String) → Tx Unit
  | [] => fun db => .ok ((), db)
  | (o, status, owner) :: reports => fun db => do
      let (_, db) ← deliver o status owner now db
      deliverAll now reports db

/-- The responses the last statement of `reconcile_in_transaction` inserts. -/
def sharedReports (db : Db) : List DelegationResponse :=
  db.notifications.flatMap fun n => (db.queue.filter fun q =>
    db.current n && q.taskId = n.parentTaskId && q.agentId = n.parentAgentId &&
      q.status = .queued && (db.task? n.parentTaskId).any (fun t =>
        t.agentId = some n.parentAgentId && !t.closed && !db.connected t.id) &&
      (db.attemptOf q).any (fun a => a.sessionId = n.parentAgentId && a.status = .queued) &&
      !db.workflowOwned q.attemptId).filterMap fun q => q.attemptId.map (⟨·, n.id⟩)

/-- The last statement of `reconcile_in_transaction`. -/
def shareReports (db : Db) : Db :=
  { db with
    responses := db.sharedReports.foldl
      (fun rows r => if r ∈ rows then rows else rows ++ [r]) db.responses }

/-- `delegation_notifications::reconcile_in_transaction`. -/
def reconcile (now : ℤ) : Tx Unit := fun db => do
  let db := db.retireStale none now
  let (_, db) ← deliverAll now db.reports db
  .ok ((), db.shareReports)

/-! ## Claiming -/

/-- The task of a claimed row now needs its parent's review. -/
def requireParentReview (db : Db) (t : Task) : Bool :=
  t.blocksParent && !t.hidden && t.provenance ≠ "native_plan" &&
  (db.tasks.any fun parent => t.parentTaskId = some parent.id && parent.projectId.isSome &&
    parent.projectId = t.projectId && !parent.closed && !parent.hidden &&
    parent.provenance ≠ "native_plan" && !db.connected parent.id &&
    db.agents.any fun owner => parent.agentId = some owner.id &&
      owner.projectId = parent.projectId) &&
  !db.connected t.id &&
  !db.executions.any fun e => e.taskId = some t.id && db.instances.any fun i =>
    i.id = e.instanceId && i.sourceTaskId ≠ some t.id

/-- The dispatch of a selected row. -/
def dispatch (item : QueueItem) (now : ℤ) (db : Db) : Db :=
  (db.updateQueue (fun q => q.id = item.id && q.status = .queued) fun q =>
    { q with status := .running, startedAt := some now }).updateTasks
      (fun t => t.id = item.taskId && db.requireParentReview t) fun t =>
    { t with parentReviewRequired := true }

/-- `claim_at`. -/
def claimAt (agentId : Option String) (now : ℤ) : Tx (Option QueueItem) := fun db => do
  let (_, db) ← reconcile now db
  match db.nextClaim agentId now with
  | none => .ok (none, db)
  | some item =>
      let db := db.dispatch item now
      .ok (db.item? item.id, db)

/-! ## Recovery -/

/-- `COALESCE(result, error_message, status)`. -/
def outcomeText (a : WorkAttempt) : String :=
  (a.result.or a.errorMessage).getD a.status.name

/-- A running row takes over how its attempt ended. -/
def settle (now : ℤ) (a : WorkAttempt) (q : QueueItem) : QueueItem :=
  { q with
    status := if a.status = .completed then .completed else .failed
    completedAt := q.completedAt.or (some now)
    harnessResponse := q.harnessResponse.or (some (outcomeText a)) }

/-- The first transaction of `recover_in_progress`. -/
def recoverFinalize (now : ℤ) (db : Db) : Db :=
  let settled : Db :=
    { db with
      queue := db.queue.map fun q =>
        match db.attemptOf q with
        | some a => if q.status = .running && a.status.terminal then settle now a q else q
        | none => q }
  settled.updateAttempts (·.status.terminal) fun a => { a with containerId := none }

/-- What `recover_in_progress` reads next. -/
def orphans (db : Db) : List Orphan :=
  db.queue.filterMap fun q => do
    let a ← db.attemptOf q
    if q.status = .running && !a.status.terminal then some ⟨q.id, a.id, q.taskId⟩ else none

def recoverRead (db : Db) : Db := { db with orphaned := db.orphans }

/-- One round of the second transaction of `recover_in_progress`. -/
def requeue (o : Orphan) (db : Db) : Db :=
  ((db.updateQueue (·.id = o.queueId) fun q =>
    { q with status := .queued, startedAt := none, completedAt := none }).updateAttempts
      (·.id = o.attemptId) fun a =>
    { a with
      status := .queued
      containerId := none
      startedAt := none
      completedAt := none
      errorMessage := none
      responseStartedAt := none }).updateTasks (·.id = o.taskId) fun t =>
    { t with status := .pending }

/-- The second transaction of `recover_in_progress`. -/
def recoverRequeue (db : Db) : Db :=
  { db.orphaned.foldl (fun db o => db.requeue o) db with orphaned := [] }

/-! ## Finishing -/

/-- The columns of a dispatch that is done. -/
def done (response : String) (now : ℤ) (q : QueueItem) : QueueItem :=
  { q with status := .completed, completedAt := some now, harnessResponse := some response }

/-- `TaskQueue::complete`. -/
def complete (id : ℕ) (response : String) (now : ℤ) (db : Db) : Db :=
  db.updateQueue (·.id = id) (done response now)

/-- `TaskQueue::fail`. -/
def fail (id : ℕ) (error : String) (now : ℤ) (db : Db) : Db :=
  db.updateQueue (·.id = id) (failed error now)

/-- `finalize_released_terminal_dispatch`. -/
def finalizeReleased (id : ℕ) (now : ℤ) (db : Db) : Db :=
  { db with
    queue := db.queue.map fun q =>
      match db.attemptOf q with
      | some a =>
          if q.id = id && q.status = .running && a.status.terminal && a.containerId.isNone then
            settle now a q
          else q
      | none => q }

/-- The columns of an attempt that has published its reply. -/
def answered (content : String) (now : ℤ) (a : WorkAttempt) : WorkAttempt :=
  { a with
    status := .completed
    completedAt := some now
    result := some content
    errorMessage := none }

/-- `complete_final_assistant_attempt`: true when the reply was published. -/
def completeFinalAssistantAttempt (taskId : String) (queueId attemptId : ℕ) (content : String)
    (now : ℤ) : Tx Bool := fun db =>
  if !db.queue.any fun q => q.id = queueId && q.attemptId = some attemptId &&
      q.status = .running && (db.attempt? attemptId).any fun a => a.taskId = some taskId &&
        a.queueId = some queueId && !a.status.terminal then .ok (false, db)
  else do
    let (_, db) ← insertTextMessage taskId "assistant" db
    .ok (true, (db.updateAttempts (fun a => a.id = attemptId && !a.status.terminal)
      (answered content now)).updateQueue (fun q => q.id = queueId &&
        q.attemptId = some attemptId && q.status = .running) (done content now))

end Db

end XpressClaw.Tasks
