import XpressClaw.Projects.Store

/-!
# Deleting a Project

`finish_cascade`: what it deletes itself, and what the foreign keys of the schema delete or clear
behind each of its statements.

The tables are those of the records that a Project owns, and those that the statements read or
that a foreign key goes through.  Left out are the tables that only lose rows: queues, schedules,
apps, logs, turns, participants, artifacts and whatever else hangs on a row that is deleted.
The columns that are not references are one value.
-/

namespace XpressClaw.Projects.Deletion

/-- The columns that are no references, by name. -/
abbrev Columns : Type := List (String × String)

structure Project where
  id : String
  deletionStartedAt : Option String := none
  deriving DecidableEq

structure Agent where
  id : String
  projectId : Option String := none
  columns : Columns := []
  deriving DecidableEq

/-- A row of `logical_sessions`. -/
structure Session where
  id : String
  agentId : String
  deriving DecidableEq

/-- A row of `work_attempts`. -/
structure Attempt where
  id : String
  sessionId : String
  taskId : Option String := none
  deriving DecidableEq

structure Conversation where
  id : String
  projectId : Option String := none
  columns : Columns := []
  deriving DecidableEq

structure ConversationMessage where
  id : ℕ
  conversationId : String
  linkedTaskId : Option String := none
  columns : Columns := []
  deriving DecidableEq

structure Task where
  id : String
  projectId : Option String := none
  conversationId : Option String := none
  agentId : Option String := none
  sessionId : Option String := none
  activeAttemptId : Option String := none
  parentTaskId : Option String := none
  updatedAt : String := ""
  revision : ℕ := 0
  columns : Columns := []
  deriving DecidableEq

structure TaskMessage where
  id : ℕ
  taskId : String
  agentId : Option String := none
  columns : Columns := []
  deriving DecidableEq

structure Workflow where
  id : String
  projectId : Option String := none
  columns : Columns := []
  deriving DecidableEq

/-- A row of `workflow_instances`: a run of a workflow. -/
structure Instance where
  id : String
  workflowId : String
  projectId : Option String := none
  conversationId : Option String := none
  sourceTaskId : Option String := none
  columns : Columns := []
  deriving DecidableEq

/-- A row of `workflow_step_executions`. -/
structure StepExecution where
  instanceId : String
  taskId : Option String := none
  deriving DecidableEq

/-- A row of `workflow_instance_agent_bindings`. -/
structure AgentBinding where
  instanceId : String
  projectId : String
  deriving DecidableEq

/-- A row of `project_memory_notes`. -/
structure MemoryNote where
  id : String
  projectId : String
  sourceTaskId : Option String := none
  sourceAttemptId : Option String := none
  columns : Columns := []
  deriving DecidableEq

/-- The database; `now` is what `CURRENT_TIMESTAMP` shows. -/
structure Db where
  projects : List Project := []
  agents : List Agent := []
  sessions : List Session := []
  attempts : List Attempt := []
  conversations : List Conversation := []
  messages : List ConversationMessage := []
  tasks : List Task := []
  taskMessages : List TaskMessage := []
  workflows : List Workflow := []
  instances : List Instance := []
  executions : List StepExecution := []
  bindings : List AgentBinding := []
  notes : List MemoryNote := []
  now : String := ""

/-- `ON DELETE SET NULL`, when the rows of some ids are deleted. -/
def setNull (gone : List String) (ref : Option String) : Option String :=
  if ref.any (· ∈ gone) then none else ref

/-- `tasks_planning_revision`. -/
def Task.bump (t : Task) : Task := { t with revision := t.revision + 1 }

namespace Db

variable (db : Db) (id : String)

/-! ## What belongs to a Project -/

def agentsOf : List String := (db.agents.filter (·.projectId = some id)).map (·.id)

def conversationsOf : List String := (db.conversations.filter (·.projectId = some id)).map (·.id)

def tasksOf : List String := (db.tasks.filter (·.projectId = some id)).map (·.id)

def workflowsOf : List String := (db.workflows.filter (·.projectId = some id)).map (·.id)

/-- The sessions of the Agents of a Project. -/
def sessionsOf : List String := (db.sessions.filter (·.agentId ∈ db.agentsOf id)).map (·.id)

/-! ## Statements -/

/-- Tasks of others leave the Conversations of the Project. -/
def detachConversations : Db :=
  { db with
    tasks := db.tasks.map fun t =>
      if t.projectId ≠ some id ∧ t.conversationId.any (· ∈ db.conversationsOf id) then
        { t with conversationId := none, updatedAt := db.now }.bump
      else t }

/-- Tasks of others leave the Agents of the Project. -/
def detachAgents : Db :=
  { db with
    tasks := db.tasks.map fun t =>
      if t.projectId ≠ some id ∧ t.agentId.any (· ∈ db.agentsOf id) then
        { t with
          agentId := none
          sessionId := none
          activeAttemptId := none
          updatedAt := db.now }.bump
      else t }

/-- Attempts are deleted; a note forgets which it came from. -/
def deleteAttempts (which : Attempt → Bool) : Db :=
  { db with
    attempts := db.attempts.filter fun a => !which a
    notes := db.notes.map fun n =>
      { n with
        sourceAttemptId := setNull ((db.attempts.filter which).map (·.id)) n.sourceAttemptId } }

/-- Runs are deleted, with their executions and bindings. -/
def deleteInstances (which : Instance → Bool) : Db :=
  let gone := (db.instances.filter which).map (·.id)
  { db with
    instances := db.instances.filter fun i => !which i
    executions := db.executions.filter (·.instanceId ∉ gone)
    bindings := db.bindings.filter (·.instanceId ∉ gone) }

/-- A run without Project and Conversation belongs to a Project through a task or an Agent. -/
def ownsLoose (i : Instance) : Bool :=
  i.projectId = none && i.conversationId = none &&
    (db.executions.any (fun e => e.instanceId = i.id && e.taskId.any (· ∈ db.tasksOf id)) ||
      db.bindings.any fun b => b.instanceId = i.id && b.projectId = id)

/-- The condition of `DELETE FROM workflow_instances`. -/
def ownsInstance (i : Instance) : Bool :=
  i.projectId = some id || i.conversationId.any (· ∈ db.conversationsOf id) || db.ownsLoose id i

/-- Conversations are deleted with their messages; a run forgets its Conversation. -/
def deleteConversations : Db :=
  let gone := db.conversationsOf id
  { db with
    conversations := db.conversations.filter (·.projectId ≠ some id)
    messages := db.messages.filter (·.conversationId ∉ gone)
    instances := db.instances.map fun i =>
      { i with conversationId := setNull gone i.conversationId } }

/-- Tasks are deleted with their messages and the runs that started from them. -/
def deleteTasks : Db :=
  let gone := db.tasksOf id
  let db : Db := { db with
    tasks := (db.tasks.filter (·.projectId ≠ some id)).map fun t =>
      if t.parentTaskId.any (· ∈ gone) then { t with parentTaskId := none }.bump else t
    taskMessages := db.taskMessages.filter (·.taskId ∉ gone)
    messages := db.messages.map fun m => { m with linkedTaskId := setNull gone m.linkedTaskId }
    attempts := db.attempts.map fun a => { a with taskId := setNull gone a.taskId }
    notes := db.notes.map fun n =>
      { n with sourceTaskId := setNull gone n.sourceTaskId } }
  db.deleteInstances fun i => i.sourceTaskId.any (· ∈ gone)

/-- Sessions are deleted with their attempts. -/
def deleteSessions : Db :=
  let gone := db.sessionsOf id
  let db : Db := { db with sessions := db.sessions.filter (·.agentId ∉ db.agentsOf id) }
  db.deleteAttempts (·.sessionId ∈ gone)

/-- Agents are deleted; a message forgets which one wrote it. -/
def deleteAgents : Db :=
  let gone := db.agentsOf id
  { db with
    agents := db.agents.filter (·.projectId ≠ some id)
    taskMessages := db.taskMessages.map fun m => { m with agentId := setNull gone m.agentId } }

/-- The row of the Project is deleted, with the workflows it owns and their runs. -/
def deleteProject : Db :=
  let gone := db.workflowsOf id
  let db := (db.deleteConversations id).deleteInstances (·.workflowId ∈ gone)
  { db with
    projects := db.projects.filter (·.id ≠ id)
    agents := db.agents.map fun a => { a with projectId := setNull [id] a.projectId }
    tasks := db.tasks.map fun t =>
      if t.projectId = some id then { t with projectId := none }.bump else t
    workflows := db.workflows.filter (·.projectId ≠ some id)
    instances := db.instances.map fun i => { i with projectId := setNull [id] i.projectId }
    bindings := db.bindings.filter (·.projectId ≠ id)
    notes := db.notes.filter (·.projectId ≠ id) }

/-- Records of others leave the Project. -/
def detach : Db := (db.detachConversations id).detachAgents id

/-- The attempts and the runs of the Project are deleted. -/
def deleteWork : Db :=
  let db := db.deleteAttempts fun a =>
    a.taskId.any (· ∈ db.tasksOf id) || a.sessionId ∈ db.sessionsOf id
  db.deleteInstances (db.ownsInstance id)

/-- The statements of `finish_cascade` in their order. -/
def cascade : Db :=
  let db := (((db.detach id).deleteWork id).deleteConversations id).deleteTasks id
  let db := (db.deleteSessions id).deleteAgents id
  let db : Db := { db with notes := db.notes.filter (·.projectId ≠ id) }
  db.deleteProject id

/-- `finish_cascade`. -/
def finishCascade : Except Error Db :=
  match db.projects.find? (·.id = id) with
  | none => .error (.projectNotFound id)
  | some p =>
      if p.deletionStartedAt.isNone then
        .error (.project "cascading Project deletion requires explicit acknowledgement")
      else .ok (db.cascade id)

end Db

end XpressClaw.Projects.Deletion
