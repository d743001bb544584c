import XpressClaw.Conversations.Store
import XpressClaw.Lib.Graph
import XpressClaw.Lib.Prog
import XpressClaw.Tasks.Store

/-!
# Projects and what belongs to them

The tables that say which Project a record belongs to, one row type for each, and the checks
that the task board, the conversations and the Projects make on them.  A row is found by its
primary key, which is what `get` on a table does.

Identifiers that the source draws with `Uuid::new_v4` are given to the call, and one that is
in use is refused.  A call is a transaction: it commits, or it fails and leaves the database
alone.
-/

namespace XpressClaw.Projects

open Lib

/-- A row of `tasks`. -/
structure Task where
  id : String
  status : Tasks.TaskStatus := .pending
  agentId : Option String := none
  parentTaskId : Option String := none
  conversationId : Option String := none
  projectId : Option String := none
  provenance : String := "durable"
  blocksParent : Bool := true
  hidden : Bool := false
  deriving DecidableEq

/-- The database.  `connectWork` has the `local_id`s of the rows of `connect_work` of kind
`task_turn`. -/
structure Db where
  projects : List Tasks.Project := []
  agents : List Tasks.Agent := []
  conversations : List Conversations.Conversation := []
  participants : List Conversations.Participant := []
  tasks : List Task := []
  dependencies : List Tasks.Dependency := []
  connectWork : List String := []

/-- What a call can fail with. -/
inductive Error where
  | task (text : String)
  | taskNotFound (id : String)
  | agentNotFound (name : String)
  | conversation (text : String)
  | conversationNotFound (id : String)
  | project (text : String)
  | projectNotFound (id : String)
  | projectAccess (text : String)
  | sync (text : String)
  /-- A statement that violates a key, or a query that finds no row. -/
  | database
  /-- The call was refused for a reason that lies in tables or fields left out here. -/
  | elsewhere
  deriving DecidableEq

/-- Fail unless a condition holds. -/
def require (p : Prop) [Decidable p] (e : Error) : Except Error Unit :=
  if p then .ok () else .error e

/-- A check that is made in some cases only. -/
def checkIf (p : Prop) [Decidable p] (check : Except Error Unit) : Except Error Unit :=
  if p then check else .ok ()

theorem require_ok {p : Prop} [Decidable p] {e : Error} {u : Unit} :
    require p e = .ok u ↔ p := by
  unfold require
  by_cases hp : p <;> simp [hp]

namespace Db

variable (db : Db)

def project? (id : String) : Option Tasks.Project := Table.get (·.id) db.projects id

def agent? (id : String) : Option Tasks.Agent := Table.get (·.id) db.agents id

def conversation? (id : String) : Option Conversations.Conversation :=
  Table.get (·.id) db.conversations id

def task? (id : String) : Option Task := Table.get (·.id) db.tasks id

/-- `participant_type = 'agent'` and the ids. -/
def agentParticipates (conversationId agentId : String) : Bool :=
  ⟨conversationId, "agent", agentId⟩ ∈ db.participants

/-! ## Whether a Project accepts work -/

/-- `ensure_project_accepts_work`. -/
def ensureProjectAcceptsWork (projectId : String) : Except Error Unit :=
  match db.project? projectId with
  | none => .error (.projectNotFound projectId)
  | some project =>
      if project.deleting then
        .error (.project s!"Project '{projectId}' is being deleted and cannot accept new work; retry the confirmed deletion or choose another Project")
      else .ok ()

/-- `ensure_project_accepts_work` on the project a row belongs to, if it belongs to one. -/
def ensureAcceptsWork : Option String → Except Error Unit
  | none => .ok ()
  | some projectId => db.ensureProjectAcceptsWork projectId

/-- `agent_project`. -/
def agentProject (agent : String) : Except Error String :=
  match (db.agent? agent).bind (·.projectId) with
  | none => .error (.projectAccess "The calling Agent must belong to an active Project")
  | some project => (db.ensureProjectAcceptsWork project).map fun _ => project

/-- `require_project_task`. -/
def requireProjectTask (project task : String) : Except Error Unit :=
  require
    ((db.task? task).any fun t =>
      t.projectId = some project && !t.hidden && t.provenance ≠ "native_plan")
    (.projectAccess "Task was not found in the current Project")

/-- `TaskQueue::ensure_locally_scheduled`. -/
def ensureLocallyScheduled (taskId : String) : Except Error Unit :=
  require (taskId ∉ db.connectWork)
    (.task "This task is scheduled by Xpress AI; continue it on the platform")

/-! ## The Project of another row -/

/-- `SELECT project_id FROM agents WHERE id = ?`, or `AgentNotFound`. -/
def projectOfAgent (agentId : String) : Except Error (Option String) :=
  match db.agent? agentId with
  | none => .error (.agentNotFound agentId)
  | some agent => .ok agent.projectId

/-- `SELECT project_id FROM conversations WHERE id = ?`, or `ConversationNotFound`. -/
def projectOfConversation (conversationId : String) : Except Error (Option String) :=
  match db.conversation? conversationId with
  | none => .error (.conversationNotFound conversationId)
  | some conversation => .ok conversation.projectId

/-- `SELECT project_id FROM tasks WHERE id = ?`, or `TaskNotFound`. -/
def projectOfTask (taskId : String) : Except Error (Option String) :=
  match db.task? taskId with
  | none => .error (.taskNotFound taskId)
  | some task => .ok task.projectId

/-- The lookup of an optional reference. -/
def whenSome (lookup : String → Except Error (Option String)) :
    Option String → Except Error (Option String)
  | none => .ok none
  | some id => lookup id

end Db

/-! ## One Project for several rows -/

/-- The loop of `consistent_project_id`. -/
def selectProject :
    Option (String × String) → List (String × Option String) →
      Except Error (Option (String × String))
  | selected, [] => .ok selected
  | selected, (_, none) :: candidates => selectProject selected candidates
  | none, (label, some projectId) :: candidates =>
      selectProject (some (label, projectId)) candidates
  | some (selectedLabel, selectedProjectId), (label, some projectId) :: candidates =>
      if selectedProjectId ≠ projectId then
        .error (.task s!"task {label} belongs to project '{projectId}', but its {selectedLabel} belongs to project '{selectedProjectId}'")
      else selectProject (some (selectedLabel, selectedProjectId)) candidates

/-- `consistent_project_id`. -/
def consistentProjectId (candidates : List (String × Option String)) :
    Except Error (Option String) :=
  (selectProject none candidates).map (Option.map Prod.snd)

/-! ## The task hierarchy -/

namespace Db

variable (db : Db)

/-- `task_links`: from every task to its parent and back. -/
def taskLinks : List (String × String) :=
  db.tasks.flatMap fun t =>
    match t.parentTaskId with
    | none => []
    | some parent => [(t.id, parent), (parent, t.id)]

/-- The recursive query `hierarchy`. -/
def inHierarchy (taskId id : String) : Bool := Graph.reaches db.taskLinks taskId id

/-- The task, its agent or its conversation belongs to another project. -/
def conflicts (projectId : String) (t : Task) : Bool :=
  t.projectId.any (· ≠ projectId) ||
    (t.agentId.bind db.agent?).any (fun a => a.projectId.any (· ≠ projectId)) ||
    (t.conversationId.bind db.conversation?).any (fun c => c.projectId.any (· ≠ projectId))

/-- `UPDATE tasks SET … WHERE …`. -/
def updateTasks (w : Task → Bool) (set : Task → Task) : Db :=
  { db with tasks := db.tasks.map fun t => if w t then set t else t }

/-- The update of `ensure_task_hierarchy_project`. -/
def adopt (taskId projectId : String) : Db :=
  db.updateTasks (fun t => t.projectId = none && db.inHierarchy taskId t.id)
    fun t => { t with projectId := some projectId }

/-- `ensure_task_hierarchy_project`. -/
def ensureTaskHierarchyProject (taskId projectId : String) : Except Error Db := do
  require (¬ db.tasks.any fun t => db.inHierarchy taskId t.id && db.conflicts projectId t)
    (.task s!"task hierarchy cannot be assigned to project '{projectId}' because part of it belongs to another project")
  return db.adopt taskId projectId

/-- The part of `ensure_task_agent_project` after its two lookups. -/
def ensureCommonProject (taskId : String) (taskProject agentProject : Option String) :
    Except Error Db := do
  let projectId ← consistentProjectId [("task", taskProject), ("Agent", agentProject)]
  match projectId with
  | none => return db
  | some projectId =>
      db.ensureProjectAcceptsWork projectId
      db.ensureTaskHierarchyProject taskId projectId

/-- `ensure_task_agent_project`. -/
def ensureTaskAgentProject (taskId agentId : String) : Except Error Db :=
  match db.task? taskId with
  | none => .error .database
  | some task => do
      checkIf (task.agentId ≠ some agentId) (db.ensureLocallyScheduled taskId)
      -- the empty string unassigns
      if agentId = "" then return db
      else do
        let agentProject ← db.projectOfAgent agentId
        db.ensureCommonProject taskId task.projectId agentProject

end Db

/-! ## Completion -/

/-- The edge from a parent to a blocking child. -/
def childEdge (id : String) (parentTaskId : Option String) (blocksParent : Bool) :
    Option (String × String) :=
  if blocksParent then parentTaskId.map fun parent => (parent, id) else none

namespace Db

variable (db : Db)

/-- What the completion of a task waits on: the tasks it depends on and its blocking
children. -/
def completionEdges : List (String × String) :=
  (db.dependencies.map fun d => (d.taskId, d.dependsOnId)) ++
    db.tasks.filterMap fun t => childEdge t.id t.parentTaskId t.blocksParent

/-- `would_create_cycle`. -/
def wouldCreateCycle (taskId dependsOnId : String) : Bool :=
  Graph.reaches db.completionEdges dependsOnId taskId

end Db

end XpressClaw.Projects
