import XpressClaw.Lib.Text
import XpressClaw.Projects.Store

/-!
# The task board

`TaskBoard`: creating tasks one by one and in batches, dependencies, assignment and deletion,
with the assignment of the `TaskPlanner`.

`ok` says whether the tables left out (queue, attempts, pull requests, revisions) let a call
pass.
-/

namespace XpressClaw.Projects

open Lib

/-- `CreateTask`.  The context is kept as far as it is read: the strings under `origin` and
`project_id`; `startAfterValid` says that `normalize_start_after` accepts `start_after`. -/
structure CreateTask where
  startAfterValid : Bool := true
  agentId : Option String := none
  parentTaskId : Option String := none
  conversationId : Option String := none
  contextOrigin : Option String := none
  contextProjectId : Option String := none
  deriving DecidableEq

/-- `BatchTaskInput`. -/
structure BatchTaskInput where
  refName : Option String := none
  title : String
  startAfterValid : Bool := true
  agentId : Option String := none
  priority : Option ℤ := none
  dependsOn : List String := []
  deriving DecidableEq

namespace Db

variable (db : Db)

/-! ## Creating a task -/

/-- The checks on the agent a task is created for. -/
def checkCreator (req : CreateTask) : Option String → Except Error Unit
  | none => .ok ()
  | some creator =>
      match req.conversationId with
      | none => .error (.conversation "an Agent may only create work from a conversation")
      | some conversationId => do
          require (req.agentId = some creator)
            (.conversation "an Agent may only create a conversation task for itself")
          require (db.agentParticipates conversationId creator)
            (.conversation s!"Agent '{creator}' is not a participant in conversation '{conversationId}'")

/-- The lookup of the parent's project. -/
def projectOfParent (parentTaskId : String) : Except Error (Option String) := do
  db.ensureLocallyScheduled parentTaskId
  db.projectOfTask parentTaskId

/-- The row that `create_in_transaction` inserts. -/
def newTask (req : CreateTask) (projectId : Option String) (id : String) : Task :=
  { id := id
    agentId := req.agentId
    parentTaskId := req.parentTaskId
    conversationId := req.conversationId
    projectId := projectId
    provenance := (req.contextOrigin.filter (· ≠ "native_plan")).getD "durable"
    blocksParent := true }

/-- `INSERT INTO tasks`. -/
def insertTask (t : Task) : Except Error Db := do
  require (t.id ∉ db.tasks.map (·.id)) .database
  return { db with tasks := db.tasks ++ [t] }

/-- `create_in_transaction`. -/
def createInTransaction (req : CreateTask) (creator : Option String) (id : String) :
    Except Error Db := do
  require req.startAfterValid
    (.task "Start no earlier than must be an RFC 3339 timestamp with a timezone")
  let conversationProject ← whenSome db.projectOfConversation req.conversationId
  db.checkCreator req creator
  let agentProject ← whenSome db.projectOfAgent req.agentId
  let parentProject ← whenSome db.projectOfParent req.parentTaskId
  let projectId ← consistentProjectId
    [("conversation", conversationProject), ("request", req.contextProjectId),
      ("Agent", agentProject), ("parent task", parentProject)]
  db.ensureAcceptsWork projectId
  require (¬ (req.parentTaskId.isSome ∧ parentProject = none ∧ projectId.isSome))
    (.task "a task in a Project cannot be added beneath a projectless parent task")
  db.insertTask (newTask req projectId id)

/-- The task turn of `admit_work`: a new task and its row in `connect_work`. -/
def createPlatformTask (agentId projectId id : String) : Except Error Db := do
  let db' ← db.createInTransaction
    { agentId := some agentId
      contextOrigin := some "xpress_ai_connect"
      contextProjectId := some projectId } none id
  return { db' with connectWork := db'.connectWork ++ [id] }

/-- `create_idle_task`. -/
def createIdleTask (agentId id : String) : Except Error Db := do
  let projectId ← db.projectOfAgent agentId
  db.ensureAcceptsWork projectId
  db.insertTask { id := id, agentId := some agentId, projectId := projectId, hidden := true }

/-! ## Dependencies -/

/-- `INSERT OR IGNORE INTO task_dependencies`. -/
def insertDependency (taskId dependsOnId : String) : Except Error Db := do
  require (taskId ∈ db.tasks.map (·.id) ∧ dependsOnId ∈ db.tasks.map (·.id)) .database
  if (⟨taskId, dependsOnId⟩ : Tasks.Dependency) ∈ db.dependencies then return db
  else return { db with dependencies := db.dependencies ++ [⟨taskId, dependsOnId⟩] }

/-- `add_dependency`. -/
def addDependency (taskId dependsOnId : String) : Except Error Db := do
  db.ensureLocallyScheduled taskId
  require (taskId ≠ dependsOnId) (.task "a task cannot depend on itself")
  require (¬ db.wouldCreateCycle taskId dependsOnId)
    (.task s!"cannot add dependency: would create a cycle ({taskId} → {dependsOnId} → ... → {taskId})")
  db.insertDependency taskId dependsOnId

/-! ## Creating a batch -/

/-- The project of the agent who creates a batch, if it is an agent. -/
def batchProject : Option String → Except Error (Option String)
  | none => .ok none
  | some creator => (db.agentProject creator).map some

/-- The check on the parent of an agent's batch. -/
def checkBatchParent (creator project parent : Option String) : Except Error Unit :=
  match project, parent with
  | some project, some parent =>
      require
        ((db.task? parent).any fun t =>
          t.projectId = some project && t.provenance ≠ "native_plan" &&
            (!t.hidden || t.agentId = creator))
        (.projectAccess "Parent task was not found in the current Project")
  | _, _ => .ok ()

/-- The check on the agent a task of an agent's batch is for. -/
def checkBatchAgent (creator project : Option String) (input : BatchTaskInput) :
    Except Error Unit :=
  match project with
  | none => .ok ()
  | some project =>
      require
        (((input.agentId.or creator).bind db.agent?).any fun a => a.projectId = some project)
        (.projectAccess "Assigned Agent was not found in the current Project; use list_project_agents to obtain its ID")

/-- The map `references` with one more task. -/
def addReference (references : List (String × String)) (refName : Option String) (id : String) :
    Except Error (List (String × String)) :=
  match refName with
  | none => .ok references
  | some reference => do
      require (¬ Text.isBlank reference ∧ reference ∉ references.map Prod.fst)
        (.task "Batch task refs must be non-empty and unique")
      return (reference, id) :: references

/-- One turn of the first loop of `create_batch_inner`. -/
def createBatchTask (creator project parent : Option String)
    (references : List (String × String)) (input : BatchTaskInput) (id : String) :
    Except Error (Db × List (String × String)) := do
  require (¬ Text.isBlank input.title) (.task "Task titles must not be empty")
  require (input.priority.all fun p => -1000 ≤ p ∧ p ≤ 1000)
    (.task "Priority must be between -1000 and 1000")
  db.checkBatchAgent creator project input
  let db' ← db.createInTransaction
    { startAfterValid := input.startAfterValid
      agentId := input.agentId.or creator
      parentTaskId := parent
      contextProjectId := project } none id
  let references' ← addReference references input.refName id
  return (db', references')

/-- The first loop of `create_batch_inner`. -/
def createBatchTasks (creator project parent : Option String) :
    Db → List (String × String) → List (BatchTaskInput × String) →
      Except Error (Db × List (String × String))
  | db, references, [] => .ok (db, references)
  | db, references, (input, id) :: rest => do
      let next ← db.createBatchTask creator project parent references input id
      createBatchTasks creator project parent next.1 next.2 rest

/-- The check on a task that an agent's batch depends on. -/
def checkBatchDependency (project : Option String) (dependency : String) : Except Error Unit :=
  match project with
  | none => .ok ()
  | some project => db.requireProjectTask project dependency

/-- One turn of the second loop of `create_batch_inner`. -/
def addBatchDependency (project : Option String) (references : List (String × String))
    (id reference : String) : Except Error Db := do
  let dependency := (references.lookup reference).getD reference
  db.checkBatchDependency project dependency
  require (¬ db.wouldCreateCycle id dependency)
    (.task "Task dependencies would create a completion cycle")
  db.ensureLocallyScheduled dependency
  db.insertDependency id dependency

/-- The second loop of `create_batch_inner`, on pairs of a task and a reference. -/
def addBatchDependencies (project : Option String) (references : List (String × String)) :
    Db → List (String × String) → Except Error Db
  | db, [] => .ok db
  | db, (id, reference) :: rest => do
      let db' ← db.addBatchDependency project references id reference
      addBatchDependencies project references db' rest

/-- `create_batch_inner`; every input comes with the id its task gets. -/
def createBatchInner (tasks : List (BatchTaskInput × String)) (parent creator : Option String)
    (ok : Bool) : Except Error Db := do
  require (1 ≤ tasks.length ∧ tasks.length ≤ 100) (.task "Create between 1 and 100 tasks per batch")
  let project ← db.batchProject creator
  db.checkBatchParent creator project parent
  let created ← createBatchTasks creator project parent db [] tasks
  let db' ← addBatchDependencies project created.2 created.1
    (tasks.flatMap fun t => t.1.dependsOn.map fun reference => (t.2, reference))
  -- the queue entries of an agent's batch
  require ok .elsewhere
  return db'

/-! ## Assignment -/

/-- `UPDATE tasks SET agent_id = ? WHERE id = ?`. -/
def setAgent (taskId agentId : String) : Db :=
  db.updateTasks (·.id = taskId) fun t => { t with agentId := some agentId }

/-- `update`. -/
def update (taskId : String) (agentId : Option String) (ok : Bool) : Except Error Db := do
  require (db.task? taskId).isSome (.taskNotFound taskId)
  db.ensureLocallyScheduled taskId
  match agentId with
  | none => return db
  | some agentId => do
      let db' ← db.ensureTaskAgentProject taskId agentId
      require ok .elsewhere
      return db'.setAgent taskId agentId

/-- `release_child_parent_reviews_in_transaction`; `released` has the ids of the children whose
result the parent had to review, without those of the platform and of a workflow. -/
def releaseChildParentReviews (taskId : String) (released : List String) : Db :=
  db.updateTasks (fun t => t.parentTaskId = some taskId && released.contains t.id) fun t =>
    { t with parentTaskId := none }

/-- `update_status`. -/
def updateStatus (taskId : String) (status : Tasks.TaskStatus) (agentId : Option String)
    (released : List String) (ok : Bool) : Except Error Db := do
  require (db.task? taskId).isSome (.taskNotFound taskId)
  require ok .elsewhere
  checkIf (status ≠ .cancelled) (db.ensureAcceptsWork ((db.task? taskId).bind (·.projectId)))
  let db := db.updateTasks (·.id = taskId) fun t => { t with status := status }
  let db' := if status = .cancelled then db.releaseChildParentReviews taskId released else db
  match agentId with
  | none => return db'
  | some agentId =>
      if status = .inProgress then do
        let db'' ← db'.ensureTaskAgentProject taskId agentId
        return db''.setAgent taskId agentId
      else return db'

/-- The checks of `change_inner` on the agent who asks for an assignment. -/
def checkPlanner (taskId agentId : String) : Option String → Except Error Unit
  | none => .ok ()
  | some caller => do
      let project ← db.agentProject caller
      db.requireProjectTask project taskId
      require ((db.agent? agentId).any fun a => a.projectId = some project)
        (.projectAccess "Assigned Agent was not found in the current Project")

/-- `change_inner` for `PlanningAction::Assign`. -/
def assign (taskId agentId : String) (caller : Option String) (ok : Bool) : Except Error Db := do
  db.checkPlanner taskId agentId caller
  db.ensureLocallyScheduled taskId
  require (db.task? taskId).isSome (.taskNotFound taskId)
  db.ensureAcceptsWork ((db.task? taskId).bind (·.projectId))
  require (agentId ≠ "") (.task "Choose an assigned agent")
  let db' ← db.ensureTaskAgentProject taskId agentId
  -- the revision, the reasons that lock a task, and the queue
  require ok .elsewhere
  return db'.setAgent taskId agentId

/-- `set_conversation_id`. -/
def setConversationId (taskId conversationId : String) : Except Error Db := do
  let conversationProject ← db.projectOfConversation conversationId
  require conversationProject.isSome
    (.conversation s!"conversation '{conversationId}' is not assigned to a project")
  let taskProject ← db.projectOfTask taskId
  let agentProject := ((db.task? taskId).bind (·.agentId)).bind db.agent? |>.bind (·.projectId)
  let projectId ← consistentProjectId
    [("conversation", conversationProject), ("task", taskProject), ("Agent", agentProject)]
  match projectId with
  | none => .error .database
  | some projectId => do
      db.ensureProjectAcceptsWork projectId
      let db' ← db.ensureTaskHierarchyProject taskId projectId
      return db'.updateTasks (·.id = taskId) fun t =>
        { t with conversationId := some conversationId, projectId := some projectId }

/-! ## Deletion -/

/-- `DELETE FROM tasks WHERE id = ?`, with `ON DELETE SET NULL` on `parent_task_id` and
`ON DELETE CASCADE` on `task_dependencies`. -/
def removeTask (taskId : String) : Db :=
  { db with
    tasks := (db.tasks.filter (·.id ≠ taskId)).map fun t =>
      if t.parentTaskId = some taskId then { t with parentTaskId := none } else t
    dependencies := db.dependencies.filter fun d => d.taskId ≠ taskId ∧ d.dependsOnId ≠ taskId }

/-- `delete`; the update that detaches the children before is part of what the key does. -/
def delete (taskId : String) : Except Error Db := do
  db.ensureLocallyScheduled taskId
  return db.removeTask taskId

end Db

end XpressClaw.Projects
