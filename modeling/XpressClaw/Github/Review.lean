import XpressClaw.Lib.Upsert
import XpressClaw.Tasks.Store

/-!
# The review gate of pull requests

The transactions of `workers/github_review.rs` and the ones of `tasks/board.rs` and
`sessions/mod.rs` that change the status of a task or of its pull requests.

The arguments are those after parsing: a repository is an owner and a name, and a pull request
also has a number.  Number 0 stands for a publication that has begun.  The times of polls, the
messages of tasks and the parts of `context` other than `origin` are left out.
-/

namespace XpressClaw.Github

open Lib Tasks

/-! ## Tables -/

/-- `task_pull_requests.status`. -/
inductive PullStatus where
  | waiting
  | approved
  | merged
  | attention
  | cancelled
  deriving DecidableEq

/-- `status IN ('waiting', 'attention')`. -/
def PullStatus.active (s : PullStatus) : Bool := s = .waiting || s = .attention

/-- `status IN ('approved', 'merged')`. -/
def PullStatus.satisfied (s : PullStatus) : Bool := s = .approved || s = .merged

/-- The primary key of `task_pull_requests`. -/
structure PullKey where
  taskId : String
  owner : String
  repo : String
  number : ℕ
  deriving DecidableEq

/-- A row of `task_pull_requests`; the `url` of a publication that has begun is its
registration id. -/
structure TaskPullRequest where
  key : PullKey
  agentId : String
  url : String
  status : PullStatus := .waiting
  registrationKey : Option String := none
  deriving DecidableEq

/-- `TaskStatus::Completed | TaskStatus::Cancelled`. -/
def finished (s : TaskStatus) : Bool := s = .completed || s = .cancelled

/-- A row of `tasks`. -/
structure Task where
  id : String
  status : TaskStatus := .pending
  agentId : Option String := none
  hidden : Bool := false
  /-- The `origin` in `context` is `workflow`. -/
  workflowOwned : Bool := false
  parentTaskId : Option String := none
  /-- `provenance = 'native_plan'`. -/
  nativePlan : Bool := false
  blocksParent : Bool := true
  parentReviewRequired : Bool := false
  deriving DecidableEq

/-- The tables; `openAttempts` has the tasks of the attempts that are not over. -/
structure Db where
  tasks : List Task := []
  pulls : List TaskPullRequest := []
  openAttempts : List String := []
  deriving DecidableEq

inductive Error where
  | taskNotFound (id : String)
  | task (text : String)
  deriving DecidableEq

namespace Db

variable (db : Db)

def task? (id : String) : Option Task := Table.get (·.id) db.tasks id

def pull? (key : PullKey) : Option TaskPullRequest := Table.get (·.key) db.pulls key

/-- `UPDATE tasks SET … WHERE …`. -/
def updateTasks (where_ : Task → Bool) (set : Task → Task) : Db :=
  { db with tasks := db.tasks.map fun t => if where_ t then set t else t }

/-- `UPDATE task_pull_requests SET … WHERE …`. -/
def updatePulls (where_ : TaskPullRequest → Bool) (set : TaskPullRequest → TaskPullRequest) : Db :=
  { db with pulls := db.pulls.map fun r => if where_ r then set r else r }

def setStatus (id : String) (status : TaskStatus) : Db :=
  db.updateTasks (·.id = id) fun t => { t with status := status }

/-- The pull requests of a task that are active become cancelled. -/
def releasePulls (id : String) : Db :=
  db.updatePulls (fun r => r.key.taskId = id && r.status.active)
    fun r => { r with status := .cancelled }

/-! ## Registrations -/

/-- `validate_registration_task_in_connection`. -/
def validateRegistrationTask (taskId agentId : String) : Except Error Unit :=
  match db.task? taskId with
  | none => .error (.taskNotFound taskId)
  | some t =>
      if t.hidden || t.workflowOwned then
        .error (.task "workflow and hidden tasks manage pull-request waits explicitly")
      else if finished t.status then
        .error (.task "cannot register a pull request for a finished task")
      else if t.agentId ≠ some agentId then
        .error (.task "the pull request was not created by this task's assigned agent")
      else .ok ()

/-- `activate_registration_task_in_connection`.  A task that passes the check is there to be
updated. -/
def activateRegistrationTask (taskId agentId : String) : Except Error Db := do
  db.validateRegistrationTask taskId agentId
  .ok (db.setStatus taskId .inProgress)

/-- `begin_registration`: the registration id, and whether it is that of an earlier call. -/
def beginRegistration (taskId agentId owner repo registrationId registrationKey : String) :
    Except Error ((String × Bool) × Db) := do
  let db ← db.activateRegistrationTask taskId agentId
  match db.pull? ⟨taskId, owner, repo, 0⟩ with
  | some r =>
      if r.registrationKey ≠ some registrationKey then
        .error (.task "another pull-request publication is still awaiting durable registration; retry that pull request before publishing a different one")
      else .ok ((r.url, true), db)
  | none =>
      let row : TaskPullRequest :=
        { key := ⟨taskId, owner, repo, 0⟩
          agentId := agentId
          url := registrationId
          status := .attention
          registrationKey := some registrationKey }
      .ok ((registrationId, false), { db with pulls := db.pulls ++ [row] })

end Db

/-- What a command knows about the publication it began. -/
structure Registration where
  taskId : String
  agentId : String
  owner : String
  repo : String
  id : String
  key : String
  deriving DecidableEq

/-- The row of the publication. -/
def Registration.matches (c : Registration) (r : TaskPullRequest) : Bool :=
  r.key = ⟨c.taskId, c.owner, c.repo, 0⟩ && r.agentId = c.agentId && r.url = c.id &&
    r.registrationKey = some c.key

/-- `ON CONFLICT … DO UPDATE` of a registration. -/
def rearm (agentId url : String) (r : TaskPullRequest) : TaskPullRequest :=
  { r with
    agentId := agentId
    url := url
    status := if r.status.satisfied then r.status else .waiting }

namespace Db

variable (db : Db)

/-- The statement of `cancel_registration`.  The check of the task before it is a transaction of
its own. -/
def deleteRegistration (c : Registration) : Db :=
  { db with pulls := db.pulls.filter fun r => !c.matches r }

/-- The row of the publication is deleted, if it is there. -/
def dropRegistration (c : Option Registration) (error : Error) : Except Error Db :=
  match c with
  | none => .ok db
  | some c => if db.pulls.any c.matches then .ok (db.deleteRegistration c) else .error error

/-- `register_with_registration_id`, for `register` without a registration and for
`register_pending` with one. -/
def register (taskId agentId owner repo : String) (number : ℕ) (url : String)
    (registration : Option (String × String)) : Except Error Db := do
  let db ← db.activateRegistrationTask taskId agentId
  let registration : Option Registration :=
    registration.map fun r => ⟨taskId, agentId, owner, repo, r.1, r.2⟩
  let _ ← db.dropRegistration registration (.task "pull-request registration no longer matches its durable publication gate; begin the retry before registering it")
  let row : TaskPullRequest :=
    { key := ⟨taskId, owner, repo, number⟩
      agentId := agentId
      url := url }
  let db := { db with pulls := Table.upsert (·.key) row.key row (rearm agentId url) db.pulls }
  db.dropRegistration registration
    (.task "pull-request publication gate changed before registration completed")

/-! ## Completion -/

/-- No pull request of the task is left to wait for. -/
def gateSatisfied (taskId : String) : Bool :=
  db.pulls.all fun r => r.key.taskId ≠ taskId || r.status.satisfied || r.status = .cancelled

def subtasksComplete (taskId : String) : Bool :=
  db.tasks.all fun t => t.parentTaskId ≠ some taskId || !t.blocksParent || t.status = .completed

/-- `defer_reported_subtasks_on_conn`. -/
def deferReportedSubtasks (taskId : String) : Db :=
  db.updateTasks (fun t => t.parentTaskId = some taskId && t.nativePlan && !finished t.status)
    fun t => { t with status := .cancelled }

/-- `UPDATE tasks SET status = 'completed' … AND status NOT IN ('completed', 'cancelled')`. -/
def complete (taskId : String) : Db :=
  db.updateTasks (fun t => t.id = taskId && !finished t.status)
    fun t => { t with status := .completed }

/-- `complete_if_ready`; `reviewRequired` is what `reconcile_in_transaction` leaves in
`parent_review_required`. -/
def completeIfReady (taskId : String) (reviewRequired : Bool) : Db :=
  match db.task? taskId with
  | none => db
  | some t =>
      if finished t.status then db
      else if !db.gateSatisfied taskId || !db.subtasksComplete taskId ||
          taskId ∈ db.openAttempts || reviewRequired then db
      else (db.deferReportedSubtasks taskId).complete taskId

/-- `update_status`.  It also fails, and then nothing changes, when the Project is being deleted
or the pull requests cannot be reassigned. -/
def updateStatus (taskId : String) (status : TaskStatus) (agentId : Option String) : Db :=
  match db.task? taskId with
  | none => db
  | some t =>
      if status = .completed && t.parentReviewRequired then db
      else
        let db := db.setStatus taskId status
        let db := if status = .cancelled then db.releasePulls taskId else db
        match agentId with
        | none => db
        | some a =>
            if status = .inProgress then
              (db.updatePulls (fun r => r.key.taskId = taskId && r.status.active)
                fun r => { r with agentId := a }).updateTasks (·.id = taskId)
                fun t => { t with agentId := some a }
            else db

/-- `cancel_task_in_transaction` of the sessions. -/
def cancelTask (taskId : String) : Db :=
  match db.task? taskId with
  | none => db
  | some t =>
      if t.status = .completed then db
      else
        let db := (db.setStatus taskId .cancelled).releasePulls taskId
        { db with openAttempts := db.openAttempts.filter (· ≠ taskId) }

end Db

/-- `GithubReviewGate`. -/
inductive GithubReviewGate where
  | none
  | waiting
  | satisfied
  | needsInput
  deriving DecidableEq

/-- `gate`. -/
def Db.gate (db : Db) (taskId : String) : GithubReviewGate :=
  let rows := db.pulls.filter fun r => r.key.taskId = taskId && r.status ≠ .cancelled
  if rows.isEmpty then .none
  else if rows.any (·.status = .attention) then .needsInput
  else if rows.any (·.status = .waiting) then .waiting
  else if rows.all (·.status.satisfied) then .satisfied
  else .needsInput

/-- What `finalize_successful_task_attempt` has read when it decides. -/
structure Finalization where
  responseActive : Bool
  waitingForUser : Bool
  gate : GithubReviewGate
  subtasksComplete : Bool

/-- The last transaction of `finalize_successful_task_attempt`; the roll-up of the parents
follows. -/
def Db.finalizeAttempt (db : Db) (taskId agentId : String) (f : Finalization)
    (reviewRequired : Bool) : Db :=
  if f.responseActive then db.updateStatus taskId .inProgress (some agentId)
  else if f.waitingForUser then db.updateStatus taskId .waitingForInput (some agentId)
  else if f.gate = .waiting then db.updateStatus taskId .inProgress (some agentId)
  else if f.gate = .needsInput then db.updateStatus taskId .waitingForInput (some agentId)
  else if f.subtasksComplete then db.completeIfReady taskId reviewRequired
  else db.updateStatus taskId .inProgress (some agentId)

/-! ## The poller -/

/-- `ReviewOutcome`. -/
inductive ReviewOutcome where
  | approved
  | merged
  deriving DecidableEq

def ReviewOutcome.status : ReviewOutcome → PullStatus
  | .approved => .approved
  | .merged => .merged

namespace Db

variable (db : Db)

/-- `waiting`. -/
def waiting : List TaskPullRequest := db.pulls.filter (·.status = .waiting)

/-- `cancel`: the row is cancelled whatever it and its task are by now. -/
def cancel (item : TaskPullRequest) : Db :=
  db.updatePulls (·.key = item.key) fun r => { r with status := .cancelled }

/-- The cancellation of the row that `require_user_attention` and `finalize_if_satisfied` make
when they find the task finished. -/
def cancelFinished (item : TaskPullRequest) : Db :=
  db.updatePulls (fun r => r.key = item.key && r.status.active)
    fun r => { r with status := .cancelled }

/-- `synchronize_assignment`. -/
def synchronizeAssignment (item : TaskPullRequest) : Db :=
  match (db.task? item.key.taskId).bind (·.agentId) with
  | none => db
  | some a =>
      if a.trimAscii.isEmpty || a = item.agentId then db
      else db.updatePulls (fun r => r.key = item.key && r.status.active)
        fun r => { r with agentId := a }

/-- `require_user_attention`. -/
def requireUserAttention (item : TaskPullRequest) : Db :=
  match db.task? item.key.taskId with
  | none => db
  | some t =>
      if finished t.status then db.cancelFinished item
      else
        match t.agentId with
        | none => db
        | some a =>
            if a.trimAscii.isEmpty then db
            else if db.pulls.any (fun r => r.key = item.key && r.status = .waiting) then
              (db.updatePulls (fun r => r.key = item.key && r.status = .waiting)
                fun r => { r with agentId := a, status := .attention }).setStatus
                item.key.taskId .waitingForInput
            else db

/-- The transaction of `finalize_if_satisfied`; the roll-up of the parent follows. -/
def finalizeIfSatisfied (item : TaskPullRequest) (outcome : ReviewOutcome) : Db :=
  match db.task? item.key.taskId with
  | none => db
  | some t =>
      if finished t.status then db.cancelFinished item
      else
        let db := db.updatePulls (fun r => r.key = item.key && r.status = .waiting)
          fun r => { r with status := outcome.status }
        if !(db.pull? item.key).any (·.status.satisfied) || !db.gateSatisfied item.key.taskId then
          db
        else
          let db := db.deferReportedSubtasks item.key.taskId
          if !db.subtasksComplete item.key.taskId || item.key.taskId ∈ db.openAttempts ||
              t.parentReviewRequired then db
          else db.complete item.key.taskId

end Db

/-! ## Runs -/

/-- The tables, the rows that pollers hold, and those of them whose task a poller has seen
finished. -/
structure State where
  db : Db := {}
  held : List TaskPullRequest := []
  seenFinished : List TaskPullRequest := []

/-- A transaction, or a read of a poller. -/
inductive Action where
  | beginRegistration (taskId agentId owner repo registrationId registrationKey : String)
  | deleteRegistration (c : Registration)
  | register (taskId agentId owner repo : String) (number : ℕ) (url : String)
      (registration : Option (String × String))
  | waiting
  | seeFinished (item : TaskPullRequest)
  | cancel (item : TaskPullRequest)
  | synchronizeAssignment (item : TaskPullRequest)
  | requireUserAttention (item : TaskPullRequest)
  | finalizeIfSatisfied (item : TaskPullRequest) (outcome : ReviewOutcome)
  | finalizeAttempt (taskId agentId : String) (f : Finalization) (reviewRequired : Bool)
  | completeIfReady (taskId : String) (reviewRequired : Bool)
  | deferReportedSubtasks (taskId : String)
  | updateStatus (taskId : String) (status : TaskStatus) (agentId : Option String)
  | cancelTask (taskId : String)
  /-- A change that leaves the pull requests and the statuses of the tasks there are. -/
  | other (db : Db)

/-- The tables after a transaction that may have failed. -/
def committed (db : Db) : Except Error Db → Db
  | .ok db' => db'
  | .error _ => db

/-- What an action does. -/
def State.step (s : State) : Action → State
  | .beginRegistration taskId agentId owner repo id key =>
      { s with
        db := committed s.db
          ((s.db.beginRegistration taskId agentId owner repo id key).map Prod.snd) }
  | .deleteRegistration c => { s with db := s.db.deleteRegistration c }
  | .register taskId agentId owner repo number url registration =>
      { s with
        db := committed s.db (s.db.register taskId agentId owner repo number url registration) }
  | .waiting => { s with held := s.held ++ s.db.waiting }
  | .seeFinished item =>
      if item ∈ s.held && (s.db.task? item.key.taskId).any (finished ·.status) then
        { s with seenFinished := item :: s.seenFinished }
      else s
  | .cancel item => if item ∈ s.seenFinished then { s with db := s.db.cancel item } else s
  | .synchronizeAssignment item =>
      if item ∈ s.held then { s with db := s.db.synchronizeAssignment item } else s
  | .requireUserAttention item =>
      if item ∈ s.held then { s with db := s.db.requireUserAttention item } else s
  | .finalizeIfSatisfied item outcome =>
      if item ∈ s.held then { s with db := s.db.finalizeIfSatisfied item outcome } else s
  | .finalizeAttempt taskId agentId f reviewRequired =>
      { s with db := s.db.finalizeAttempt taskId agentId f reviewRequired }
  | .completeIfReady taskId reviewRequired =>
      { s with db := s.db.completeIfReady taskId reviewRequired }
  | .deferReportedSubtasks taskId => { s with db := s.db.deferReportedSubtasks taskId }
  | .updateStatus taskId status agentId => { s with db := s.db.updateStatus taskId status agentId }
  | .cancelTask taskId => { s with db := s.db.cancelTask taskId }
  | .other db =>
      if db.pulls = s.db.pulls ∧
          ∀ t ∈ s.db.tasks, (db.task? t.id).map (·.status) = (s.db.task? t.id).map (·.status) then
        { s with db := db }
      else s

/-- What a list of actions does. -/
def State.run (s : State) (actions : List Action) : State := actions.foldl State.step s

end XpressClaw.Github
