import XpressClaw.Tasks.Worker

/-!
# The parent's review

`delegation_review::review`: the Agent of an active parent task accepts a delegated result,
asks for revisions, or keeps the child waiting.  The revision of the child and whether one of
its pull requests is open are columns of tables that are left out, and are told.
-/

namespace XpressClaw.Tasks

/-- `ReviewRequest`; the attempt `''` of a child without attempts is `none`. -/
structure ReviewRequest where
  parentTaskId : String
  expectedAttemptId : Option ℕ
  expectedRevision : ℤ
  decision : ReviewDecision
  guidance : Option String := none
  deriving DecidableEq

/-- `request.guidance.as_deref().unwrap_or("").trim()`. -/
def ReviewRequest.note (request : ReviewRequest) : String :=
  Lib.Text.trim (request.guidance.getD "")

/-- What a review reads of what is left out. -/
structure ChildFacts where
  revision : ℤ := 0
  pullRequestOpen : Bool := false

namespace Db

/-- A check that fails with an error. -/
def ensure (p : Bool) (e : Error) : Except Error Unit := if p then .ok () else .error e

theorem ensure_ok {p : Bool} {e : Error} {u : Unit} (h : ensure p e = .ok u) : p = true := by
  unfold ensure at h
  split at h
  · assumption
  · cases h

/-! ## Guards -/

/-- `agent_project`. -/
def agentProject (db : Db) (agent : String) : Except Error String :=
  match (db.agent? agent).bind (·.projectId) with
  | none => .error (.projectAccess "The calling Agent must belong to an active Project")
  | some project => do
      db.ensureProjectAcceptsWork project
      .ok project

/-- `require_project_task`. -/
def requireProjectTask (db : Db) (project taskId : String) : Except Error Unit :=
  ensure (db.tasks.any fun t => t.id = taskId && t.projectId = some project && !t.hidden &&
    t.provenance ≠ "native_plan") (.projectAccess "Task was not found in the current Project")

/-- The caller is the Agent of the active parent of the child. -/
def delegated (db : Db) (caller childId parentId : String) : Bool :=
  db.tasks.any fun parent => parent.id = parentId && parent.agentId = some caller &&
    !parent.closed && db.tasks.any fun child => child.id = childId &&
      child.parentTaskId = some parent.id

/-- The task is the work of a workflow step. -/
def workflowTask (db : Db) (taskId : String) : Bool :=
  db.executions.any fun e => e.taskId = some taskId &&
    db.instances.any fun i => i.id = e.instanceId && i.sourceTaskId ≠ some taskId

/-- What `review` checks before it reconciles. -/
def reviewable (caller childId : String) (request : ReviewRequest) (db : Db) :
    Except Error Unit := do
  ensure (request.note.utf8ByteSize ≤ 20000 &&
      (request.decision = .accept || request.note ≠ ""))
    (.task "Provide concrete guidance for revise/wait, up to 20000 bytes")
  let project ← db.agentProject caller
  db.requireProjectTask project request.parentTaskId
  db.requireProjectTask project childId
  ensure (db.delegated caller childId request.parentTaskId)
    (.projectAccess "Only the active parent task's Agent can review this delegation")
  db.ensureLocallyScheduled childId
  db.ensureLocallyScheduled request.parentTaskId
  ensure (!db.workflowTask childId)
    (.task "This task is owned by a workflow; resolve it through its workflow")
  ensure ((db.latestAttempt childId).map (·.id) = request.expectedAttemptId)
    (.task "The delegated task has a newer attempt; read its current result before reviewing")
  ensure (!db.hasActiveResponse childId || request.decision = .wait) (.task
    "The delegated task still has an active response; wait for it to finish before accepting or revising")

/-! ## Decisions -/

/-- `ReviewDecision::Accept`. -/
def acceptResult (facts : ChildFacts) (childId : String) (response : Option AttemptStatus) :
    Tx Unit := fun db => do
  ensure (response.all (· = .completed)) (.task
    "Only a finished worker response can be accepted; request revisions or wait for the blocker instead")
  ensure (!(db.childrenBlock childId || !db.dependenciesDone childId || facts.pullRequestOpen ||
      db.tasks.any fun t => t.id = childId && t.status = .cancelled)) (.task
    "Required work and pull-request review must be resolved before accepting this result")
  .ok ((), (db.deferReportedSubtasks childId).updateTasks (·.id = childId) fun t =>
    { t with parentReviewRequired := false, status := .completed })

/-- `ReviewDecision::Revise`. -/
def requestRevisions (needsUserInput : String → Bool) (childId : String) (now : ℤ) : Tx Unit :=
  fun db =>
  match (db.task? childId).bind (·.agentId) with
  | none => .error (.task "Assign an Agent before requesting revisions")
  | some agent => do
      let (messageId, db) ← insertTextMessage childId "user" db
      let (_, db) ← enqueueContinuationForMessage needsUserInput childId agent messageId now db
      .ok ((), db.updateTasks (·.id = childId) fun t =>
        { t with parentReviewRequired := t.blocksParent })

/-- The child is kept open unless a response of it is active. -/
def keepOpen (childId : String) (active : Bool) (db : Db) : Db :=
  db.updateTasks (fun t => t.id = childId && !active) fun t =>
    { t with parentReviewRequired := t.blocksParent, status := .blocked }

/-- `ReviewDecision::Wait`. -/
def keepWaiting (childId : String) (active : Bool) : Tx Unit := fun db => do
  let (_, db) ← insertTextMessage childId "user" (db.keepOpen childId active)
  .ok ((), db)

/-- `match request.decision`. -/
def applyDecision (needsUserInput : String → Bool) (facts : ChildFacts) (childId : String)
    (decision : ReviewDecision) (response : Option AttemptStatus) (active : Bool) (now : ℤ) :
    Tx Unit :=
  match decision with
  | .accept => acceptResult facts childId response
  | .revise => requestRevisions needsUserInput childId now
  | .wait => keepWaiting childId active

/-! ## Reviewing -/

/-- The rows of the journal about an attempt of the child, for a parent and its owner. -/
def noticesAbout (db : Db) (parentId owner childId : String) (attemptId : Option ℕ) :
    List DelegationNotification :=
  db.notifications.filter fun n => n.childTaskId = childId && n.childAttemptId = attemptId &&
    n.parentTaskId = parentId && n.parentAgentId = owner

/-- `UPDATE task_delegation_notifications SET decision=…, review_note=… WHERE id=…`. -/
def recordReview (id : ℕ) (decision : ReviewDecision) (note : String) (db : Db) : Db :=
  { db with
    notifications := db.notifications.map fun n =>
      if n.id = id then { n with decision := some decision, reviewNote := some note } else n }

/-- The review of a notification: a decision that was recorded already is not taken again. -/
def reviewNotice (needsUserInput : String → Bool) (facts : ChildFacts) (childId : String)
    (request : ReviewRequest) (response : Option AttemptStatus) (active : Bool) (now : ℤ)
    (n : DelegationNotification) : Tx Unit := fun db =>
  if n.decision = some request.decision && n.reviewNote = some request.note then .ok ((), db)
  else do
    ensure (facts.revision = request.expectedRevision)
      (.task "The delegated task changed; read its current revision before reviewing")
    let (_, db) ← applyDecision needsUserInput facts childId request.decision response active now db
    .ok ((), (db.recordReview n.id request.decision request.note).retireStale
      (some request.parentTaskId) now)

/-- `review`: the output of the attempt. -/
def review (needsUserInput : String → Bool) (facts : ChildFacts) (caller childId : String)
    (request : ReviewRequest) (now : ℤ) : Tx String := fun db => do
  db.reviewable caller childId request
  let latest := db.latestAttempt childId
  let active := db.hasActiveResponse childId
  let (_, db) ← reconcile now db
  match (db.noticesAbout request.parentTaskId caller childId
    request.expectedAttemptId).getLast? with
  | none => .error (.task "No finished delegated result is available to review yet")
  | some n => do
      let (_, db) ← reviewNotice needsUserInput facts childId request (latest.map (·.status)) active
        now n db
      .ok ((latest.bind fun a => a.result.or a.errorMessage).getD "", db)

end Db

end XpressClaw.Tasks
