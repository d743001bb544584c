import XpressClaw.Tasks.Store

/-!
# Readiness

The conditions under which a queued dispatch may start: `planning::ELIGIBLE` with the
recovery grant of the delegation notifications, and what `claim_at` adds to it.  Every SQL
subquery is one definition.
-/

namespace XpressClaw.Tasks

/-! ## Delegated outcomes -/

/-- A row of `delegation_notifications::OUTCOMES`. -/
structure Outcome where
  childId : String
  parentId : String
  attemptId : Option ℕ
  taskStatus : TaskStatus
  responseStatus : Option AttemptStatus
  outcome : Option TaskStatus
  deriving DecidableEq

/-- The `CASE` of `OUTCOMES`. -/
def outcomeOf (child : TaskStatus) (response : Option AttemptStatus) : Option TaskStatus :=
  if child = .completed then
    if response = some .completed then some .completed else none
  else if child = .cancelled ∨ response = some .cancelled then some .cancelled
  else if child = .blocked ∨ response = some .failed ∨ response = some .interrupted then
    some .blocked
  else if child = .waitingForInput ∨ response = some .waitingForInput then
    some .waitingForInput
  else if response = some .completed ∨ child = .completed then some .completed
  else none

namespace Db

variable (db : Db)

/-- The latest attempt of a task: `ORDER BY created_at DESC, rowid DESC LIMIT 1`. -/
def latestAttempt (taskId : String) : Option WorkAttempt :=
  Lib.Table.latest (·.createdAt) (db.attempts.filter (·.taskId = some taskId))

/-- The task has an attempt in `'queued','preparing','running','review'`. -/
def responding (taskId : String) : Bool :=
  db.attempts.any fun a => a.taskId = some taskId &&
    (a.status = .queued || a.status = .preparing || a.status = .running || a.status = .review)

/-- The inner select of `OUTCOMES` for one child. -/
def report (child : Task) : Option Outcome :=
  match child.parentTaskId with
  | none => none
  | some parentId =>
      if child.hidden || child.provenance = "native_plan" || db.responding child.id then none
      else
        let response := db.latestAttempt child.id
        some
          { childId := child.id
            parentId := parentId
            attemptId := response.map (·.id)
            taskStatus := child.status
            responseStatus := response.map (·.status)
            outcome := outcomeOf child.status (response.map (·.status)) }

/-- The parent has decided on this report. -/
def reviewed (o : Outcome) : Bool :=
  db.notifications.any fun n => n.childTaskId = o.childId && n.parentTaskId = o.parentId &&
    (db.task? o.parentId).any (fun parent => parent.agentId = some n.parentAgentId) &&
    n.childAttemptId = o.attemptId && n.decision.isSome &&
    (o.outcome = some n.childStatus ||
      (n.decision = some .wait && n.childStatus = .completed && o.taskStatus = .blocked &&
        o.responseStatus = some .completed))

/-- `OUTCOMES`. -/
def outcomes : List Outcome := (db.tasks.filterMap db.report).filter fun o => !db.reviewed o

/-- The notification still tells the child's current outcome. -/
def current (n : DelegationNotification) : Bool :=
  db.outcomes.any fun o => o.childId = n.childTaskId && o.parentId = n.parentTaskId &&
    o.attemptId = n.childAttemptId && o.outcome = some n.childStatus

/-- `recovery_grant_sql`. -/
def recoveryGrant (q : QueueItem) (t : Task) (candidate : WorkAttempt) : Bool :=
  db.notifications.any fun n =>
    (db.responses.any fun r => r.notificationId = n.id && some r.responseAttemptId = q.attemptId) &&
    db.current n && n.parentTaskId = t.id && t.agentId = some q.agentId &&
    n.parentAgentId = q.agentId && candidate.sessionId = q.agentId && !db.connected t.id

/-! ## Eligibility -/

/-- All dependencies of the task are completed. -/
def dependenciesDone (taskId : String) : Bool :=
  !db.dependencies.any fun d => d.taskId = taskId &&
    db.tasks.any fun t => t.id = d.dependsOnId && t.status ≠ .completed

/-- A child blocks the task. -/
def childrenBlock (taskId : String) : Bool :=
  db.tasks.any fun child => child.parentTaskId = some taskId && child.blocksParent &&
    child.status ≠ .completed

/-- The project of the task is being deleted. -/
def projectDeleting (t : Task) : Bool :=
  db.projects.any fun p => some p.id = t.projectId && p.deleting

/-- The user-reply clause of `ELIGIBLE`. -/
def userReply (q : QueueItem) (t : Task) (candidate : WorkAttempt) : Bool :=
  t.agentId = some candidate.sessionId && t.agentId = some q.agentId &&
  (db.messages.any fun m => candidate.triggerMessageId = some m.id && m.taskId = t.id &&
    m.role = "user") &&
  !db.connected t.id &&
  !db.executions.any fun e => e.continuationAttemptId = some candidate.id &&
    (e.continuationPromptMessageId = none ||
      e.continuationPromptMessageId = candidate.triggerMessageId)

/-- `planning::ELIGIBLE`. -/
def eligible (now : ℤ) (q : QueueItem) (t : Task) (candidate : WorkAttempt) : Bool :=
  !t.closed && !t.backlog && t.startAfter.all (· ≤ now) && !db.projectDeleting t &&
  db.dependenciesDone t.id &&
  (!db.childrenBlock t.id || db.recoveryGrant q t candidate || db.userReply q t candidate)

/-! ## Claiming -/

/-- An accepted command holds a live lease, in seconds, on the attempt. -/
def leased (now : ℤ) (q : QueueItem) (t : Task) (candidate : WorkAttempt) : Bool :=
  db.commands.any fun c => c.attemptId = some candidate.id && c.status = "accepted" &&
    now / 1000 < c.leaseUntil && db.bindings.any fun b => b.id = c.bindingId && b.active &&
      b.generation = c.bindingGeneration && b.localAgentId = q.agentId &&
      t.agentId = some q.agentId && t.projectId = some b.localProjectId &&
      db.agents.any fun bound => bound.id = b.localAgentId &&
        bound.projectId = some b.localProjectId

/-- Another attempt of the session is under way. -/
def sessionBusy (candidate : WorkAttempt) : Bool :=
  db.attempts.any fun a => a.sessionId = candidate.sessionId && a.id ≠ candidate.id &&
    a.status.active

/-- A running dispatch whose attempt has not ended or still holds a container. -/
def live (q : QueueItem) : Bool :=
  q.status = .running &&
    (db.attemptOf q).any fun owner => !owner.status.terminal || owner.containerId.isSome

/-- A dispatch of the agent is live. -/
def agentBusy (agentId : String) : Bool :=
  db.queue.any fun q => q.agentId = agentId && db.live q

/-- Another task of the agent waits for a pull-request review. -/
def laneReserved (q : QueueItem) : Bool :=
  db.pullRequests.any fun pr => pr.agentId = q.agentId && pr.taskId ≠ q.taskId &&
    pr.monitored && db.tasks.any fun t => t.id = pr.taskId && !t.closed

/-- The `WHERE` clause of `claim_at`. -/
def claimable (agentId : Option String) (now : ℤ) (q : QueueItem) (t : Task)
    (candidate : WorkAttempt) : Bool :=
  q.status = .queued && db.eligible now q t candidate && agentId.all (q.agentId = ·) &&
  candidate.status = .queued &&
  (!db.connected q.taskId || db.leased now q t candidate) &&
  db.dependenciesDone q.taskId && !db.sessionBusy candidate && !db.agentBusy q.agentId &&
  !db.laneReserved q

/-- The rows `claim_at` selects from, each joined with its task and its attempt. -/
def claimCandidates (agentId : Option String) (now : ℤ) : List (QueueItem × Task) :=
  db.queue.filterMap fun q => do
    let t ← db.task? q.taskId
    let candidate ← db.attemptOf q
    if db.claimable agentId now q t candidate then some (q, t) else none

end Db

/-- `ORDER BY t.priority DESC, t.position, q.queued_at, q.id`. -/
def claimsBefore (a b : QueueItem × Task) : Bool :=
  b.2.priority < a.2.priority || (a.2.priority = b.2.priority &&
    (a.2.position < b.2.position || (a.2.position = b.2.position &&
      (a.1.queuedAt < b.1.queuedAt || (a.1.queuedAt = b.1.queuedAt && a.1.id ≤ b.1.id)))))

/-- The row `claim_at` selects. -/
def Db.nextClaim (db : Db) (agentId : Option String) (now : ℤ) : Option QueueItem :=
  ((db.claimCandidates agentId now).insertionSort fun a b => claimsBefore a b).head?.map (·.1)

end XpressClaw.Tasks
