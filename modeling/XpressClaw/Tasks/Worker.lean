import XpressClaw.Lib.Runs
import XpressClaw.Tasks.Sessions

/-!
# The worker of an attempt

`execute_item_once`, `finalize_successful_task_attempt` and `fail_item` as the sequence of
database calls they make for one claimed dispatch.  A `Worker` is the dispatch it holds and
the call it makes next; in between, other calls commit.

What is outside the database is told: how the preparation and the turn end, the reply, whether
the pull-request gate holds the task back, and whether the Agent may take the task.  The
workflow callbacks and the completion of ancestors are calls on other rows and are among the
calls of others.
-/

namespace XpressClaw.Tasks

namespace Db

/-! ## The task status -/

/-- The pull requests go to the agent if one of them is monitored, else the task alone does. -/
def assignAgent (taskId agentId : String) (db : Db) : Db :=
  if db.pullRequests.any fun pr => pr.taskId = taskId && pr.monitored then
    db.synchronizeAgent taskId agentId
  else db.updateTasks (·.id = taskId) fun t => { t with agentId := some agentId }

/-- `update_status`; `agentFits` says that `ensure_task_agent_project` and
`synchronize_pull_request_agent` accept the Agent. -/
def updateStatus (taskId : String) (status : TaskStatus) (agentId : Option String)
    (agentFits : Bool) : Tx Unit := fun db => do
  match db.task? taskId with
  | none => .error (.taskNotFound taskId)
  | some task =>
      if status = .completed && task.parentReviewRequired then
        .error (.task
          "The parent Agent must accept this delegated result before it can complete")
      else
        if status = .cancelled then
          let db := db.updateTasks (·.id = taskId) fun t => { t with status := status }
          .ok ((), (db.stopMonitoring (·.taskId = taskId)).releaseChildReviews taskId)
        else do
          db.ensureTaskProjectAcceptsWork taskId
          let db := db.updateTasks (·.id = taskId) fun t => { t with status := status }
          match agentId with
          | some agentId =>
              if status = .inProgress then
                if agentFits then .ok ((), db.assignAgent taskId agentId)
                else .error (.task "cannot reassign a task")
              else .ok ((), db)
          | none => .ok ((), db)

/-- `defer_reported_subtasks_on_conn`. -/
def deferReportedSubtasks (taskId : String) (db : Db) : Db :=
  db.updateTasks (fun t => t.parentTaskId = some taskId && t.provenance = "native_plan" &&
    !t.closed) fun t => { t with status := .cancelled }

/-- `subtasks_complete`. -/
def subtasksComplete (db : Db) (taskId : String) : Bool := !db.childrenBlock taskId

/-- An attempt of the task has not ended. -/
def hasOpenAttempt (db : Db) (taskId : String) : Bool :=
  db.attempts.any fun a => a.taskId = some taskId && !a.status.terminal

/-- `complete_if_ready`; `gateSatisfied` says that every pull request of the task is
approved, merged or cancelled. -/
def completeIfReady (taskId : String) (gateSatisfied : Bool) (now : ℤ) : Tx Bool := fun db =>
  match db.task? taskId with
  | none => .error .noRows
  | some task =>
      if task.closed then .ok (false, db)
      else do
        let (_, db) ← reconcile now db
        if !gateSatisfied || db.childrenBlock taskId || db.hasOpenAttempt taskId ||
            (db.task? taskId).any (·.parentReviewRequired) then .ok (false, db)
        else
          .ok (true, (db.deferReportedSubtasks taskId).updateTasks
            (fun t => t.id = taskId && !t.closed) fun t => { t with status := .completed })

end Db

/-! ## The worker -/

/-- `GithubReviewGate`. -/
inductive GithubReviewGate where
  | none
  | waiting
  | needsInput
  | satisfied
  deriving DecidableEq

/-- The database call a worker makes next. -/
inductive WorkerStage where
  /-- The attempt is to become `preparing`. -/
  | claimed
  /-- The attempt was not ended; the task is to become `in_progress`. -/
  | prepared
  /-- The attempt is to be looked at again before the environment starts. -/
  | starting
  /-- The environment is up; the attempt is to get its container. -/
  | mounting
  /-- The attempt is to become `running`. -/
  | started
  /-- The attempt had ended; its container is to be cleared. -/
  | clearing
  /-- The turn is over; the container is to be cleared. -/
  | turning
  /-- The attempt is to be looked at again. -/
  | turned
  /-- The reply is to be published. -/
  | replying
  /-- The reply was published; what else the task waits for is to be read. -/
  | published
  /-- Plan rows are to be deferred. -/
  | deferring
  /-- The pull-request gate is to be read. -/
  | gating (active : Bool)
  /-- The subtasks are to be read. -/
  | counting
  /-- The task status is to be written. -/
  | writing (status : TaskStatus)
  /-- `complete_and_roll_up_with`. -/
  | completing
  /-- `fail_item`: the attempt is to be looked at. -/
  | failing
  /-- The attempt is to become `failed`. -/
  | failed
  /-- The dispatch is to become `failed`. -/
  | dropping
  /-- The failure is to be told in the task. -/
  | telling
  /-- What else the task waits for is to be read. -/
  | surviving
  /-- The task status is to be written. -/
  | blocking (status : TaskStatus)
  /-- The attempt had ended; its dispatch is to be settled. -/
  | leaving
  | returned
  deriving DecidableEq

/-- A worker and the dispatch it claimed. -/
structure Worker where
  taskId : String
  agentId : String
  queueId : ℕ
  attemptId : ℕ
  /-- The reply, or the error that `fail_item` tells. -/
  output : String := ""
  stage : WorkerStage := .claimed
  deriving DecidableEq

/-- What the outside tells a step of a worker. -/
structure Told where
  now : ℤ
  /-- The asynchronous work before the call failed. -/
  fails : Bool := false
  /-- The environment has to be prepared again. -/
  retries : Bool := false
  output : String := ""
  containerId : String := ""
  gate : GithubReviewGate := .none
  gateSatisfied : Bool := true
  agentFits : Bool := true
  deriving DecidableEq

namespace Worker

variable (needsUserInput : String → Bool) (w : Worker)

def goto (stage : WorkerStage) : Worker := { w with stage := stage }

/-- The attempt has ended, as far as the worker can see. -/
def ended (db : Db) : Bool := (db.attempt? w.attemptId).any (·.status.terminal)

/-- A database call that decides where the worker goes, or fails. -/
def attempt {α : Type} (tx : Tx α) (db : Db) (next : α → Db → WorkerStage)
    (error : WorkerStage) : Worker × Db :=
  match tx db with
  | .ok (a, db') => (w.goto (next a db'), db')
  | .error _ => (w.goto error, db)

/-- A transition of the attempt, and the look at what became of it. -/
def transition (status : AttemptStatus) (now : ℤ) (ended next : WorkerStage) (db : Db) :
    Worker × Db :=
  w.attempt (Db.transitionAttempt w.attemptId status none none now) db
    (fun _ db' => if w.ended db' then ended else next) .failing

/-- The next database call. -/
def step (told : Told) (db : Db) : Worker × Db :=
  match w.stage with
  | .claimed =>
      if told.fails then (w.goto .failing, db)
      else w.transition .preparing told.now .leaving .prepared db
  | .prepared =>
      w.attempt (Db.updateStatus w.taskId .inProgress (some w.agentId) told.agentFits) db
        (fun _ _ => .starting) .starting
  | .starting =>
      if told.fails then (w.goto .failing, db)
      else if w.ended db then (w.goto .leaving, db)
      else if told.retries then (w.goto .claimed, db)
      else (w.goto .mounting, db)
  | .mounting =>
      if told.fails then (w.goto .failing, db)
      else (w.goto .started, db.setContainer w.attemptId told.containerId)
  | .started => w.transition .running told.now .clearing .turning db
  | .clearing => (w.goto .leaving, db.clearContainer w.attemptId)
  | .turning => (w.goto .turned, db.clearContainer w.attemptId)
  | .turned =>
      if w.ended db then (w.goto .leaving, db)
      else if told.fails then (w.goto .failing, db)
      else (w.goto .replying, db)
  | .replying =>
      { w with output := told.output }.attempt
        (Db.completeFinalAssistantAttempt w.taskId w.queueId w.attemptId told.output told.now) db
        (fun published _ => if published then .published else .returned) .failing
  | .published =>
      if db.hasActiveResponse w.taskId then (w.goto (.gating true), db)
      else if needsUserInput w.output then (w.goto (.gating false), db)
      else (w.goto .deferring, db)
  | .deferring => (w.goto (.gating false), db.deferReportedSubtasks w.taskId)
  | .gating active =>
      if active then (w.goto (.writing .inProgress), db)
      else if needsUserInput w.output then (w.goto (.writing .waitingForInput), db)
      else
        match told.gate with
        | .waiting => (w.goto (.writing .inProgress), db)
        | .needsInput => (w.goto (.writing .waitingForInput), db)
        | .none | .satisfied => (w.goto .counting, db)
  | .counting =>
      if db.subtasksComplete w.taskId then (w.goto .completing, db)
      else (w.goto (.writing .inProgress), db)
  | .writing status =>
      w.attempt (Db.updateStatus w.taskId status (some w.agentId) told.agentFits) db
        (fun _ _ => .returned) .failing
  | .completing =>
      w.attempt (Db.completeIfReady w.taskId told.gateSatisfied told.now) db
        (fun _ _ => .returned) .failing
  | .failing =>
      if w.ended db then (w.goto .leaving, db)
      else ({ w with output := told.output }.goto .failed, db)
  | .failed =>
      w.attempt (Db.transitionAttempt w.attemptId .failed none (some w.output) told.now) db
        (fun _ _ => .dropping) .dropping
  | .dropping => (w.goto .telling, db.fail w.queueId w.output told.now)
  | .telling =>
      w.attempt (Db.insertTextMessage w.taskId "assistant") db (fun _ _ => .surviving) .surviving
  | .surviving =>
      (w.goto (.blocking (if db.hasActiveResponse w.taskId then .inProgress else .blocked)), db)
  | .blocking status =>
      w.attempt (Db.updateStatus w.taskId status (some w.agentId) told.agentFits) db
        (fun _ _ => .returned) .returned
  | .leaving => (w.goto .returned, db.finalizeReleased w.queueId told.now)
  | .returned => (w, db)

end Worker

end XpressClaw.Tasks
