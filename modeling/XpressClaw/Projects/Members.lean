import XpressClaw.Projects.Store

/-!
# Conversations and moves between Projects

`ConversationManager`: creating a conversation, its participants, deleting it; and
`ProjectManager::assign_agent`, which moves an agent to another Project with the conversations
and the tasks that belong to it.
-/

namespace XpressClaw.Projects

open Lib

namespace Db

variable (db : Db)

/-! ## Conversations -/

/-- `INSERT OR IGNORE INTO conversation_participants`. -/
def insertParticipant (conversationId participantType participantId : String) : Db :=
  if (⟨conversationId, participantType, participantId⟩ : Conversations.Participant) ∈
      db.participants then db
  else
    { db with participants := db.participants ++
      [⟨conversationId, participantType, participantId⟩] }

/-- The check of `create_in_project` on one agent. -/
def checkMember (projectId : Option String) (agentId : String) : Except Error Unit := do
  let agentProject ← db.projectOfAgent agentId
  require (¬ (projectId.isSome ∧ agentProject ≠ projectId))
    (.conversation s!"Agent '{agentId}' does not belong to this project")

/-- The loop of `create_in_project` that checks the agents. -/
def checkMembers (projectId : Option String) : List String → Except Error Unit
  | [] => .ok ()
  | agentId :: rest => do
      db.checkMember projectId agentId
      checkMembers projectId rest

/-- The loop of `create_in_project` that adds the agents. -/
def addMembers (conversationId : String) (db : Db) (participantIds : List String) : Db :=
  participantIds.foldl (fun db agentId => db.insertParticipant conversationId "agent" agentId) db

/-- `create_in_project`. -/
def createConversationInProject (projectId : Option String) (participantIds : List String)
    (id : String) : Except Error Db := do
  db.ensureAcceptsWork projectId
  db.checkMembers projectId participantIds
  require (id ∉ db.conversations.map (·.id)) .database
  let db' : Db := { db with conversations := db.conversations ++ [⟨id, projectId⟩] }
  return addMembers id (db'.insertParticipant id "user" "local") participantIds

/-- `create`: the project of the first agent that has one.  It is read in a query of its own;
whatever that query returned, the transaction that follows is `create_in_project`. -/
def createConversation (participantIds : List String) (id : String) : Except Error Db :=
  db.createConversationInProject
    (participantIds.findSome? fun agentId => (db.agent? agentId).bind (·.projectId))
    participantIds id

/-- The checks of `add_participant` on an agent. -/
def checkJoin (conversationProject : Option String) (participantId : String) :
    Except Error Unit := do
  let agentProject ← db.projectOfAgent participantId
  require (¬ (conversationProject.isSome ∧ agentProject ≠ conversationProject))
    (.conversation "an Agent must belong to the conversation's project before it can join")
  checkIf (agentProject ≠ conversationProject) (db.ensureAcceptsWork agentProject)

/-- `add_participant`. -/
def addParticipant (conversationId participantType participantId : String) : Except Error Db := do
  let conversationProject ← db.projectOfConversation conversationId
  db.ensureAcceptsWork conversationProject
  checkIf (participantType = "agent") (db.checkJoin conversationProject participantId)
  return db.insertParticipant conversationId participantType participantId

/-- `remove_participant`. -/
def removeParticipant (conversationId participantType participantId : String) : Db :=
  { db with
    participants := db.participants.filter (· ≠ ⟨conversationId, participantType, participantId⟩) }

/-- `ConversationManager::delete`, with `ON DELETE CASCADE` on the participants. -/
def deleteConversation (id : String) : Except Error Db := do
  require (db.conversation? id).isSome (.conversationNotFound id)
  let db' := db.updateTasks (·.conversationId = some id) fun t => { t with conversationId := none }
  return { db' with
    conversations := db'.conversations.filter (·.id ≠ id)
    participants := db'.participants.filter (·.conversationId ≠ id) }

/-! ## `assign_agent` -/

/-- `shared_conversation`: a conversation of the agent outside the project that another agent
is in too. -/
def sharedConversation (projectId agentId : String) : Bool :=
  db.conversations.any fun c =>
    db.agentParticipates c.id agentId && c.projectId ≠ some projectId &&
      db.participants.any fun other =>
        other.conversationId = c.id && other.participantType = "agent" &&
          other.participantId ≠ agentId

/-- The first subquery of `has_incompatible_linked_task`: in a conversation of the agent, a task
of another agent that does not belong to the project. -/
def splitFromAgent (projectId agentId : String) (t : Task) : Bool :=
  (t.conversationId.bind db.conversation?).any (fun c => db.agentParticipates c.id agentId) &&
    t.agentId.any fun assigned =>
      assigned ≠ agentId && !(db.agent? assigned).any fun a => a.projectId = some projectId

/-- The second subquery: a task of the agent in a conversation outside the project that the
agent is not in. -/
def splitFromConversation (projectId agentId : String) (t : Task) : Bool :=
  t.agentId = some agentId &&
    (t.conversationId.bind db.conversation?).any fun c =>
      c.projectId ≠ some projectId && !db.agentParticipates c.id agentId

/-- `destination_project_id`. -/
def destination (projectId agentId : String) (t : Task) : Option String :=
  if t.agentId = some agentId ∨
      (t.conversationId.bind db.conversation?).any
        (fun c => c.projectId = some projectId || db.agentParticipates c.id agentId) then
    some projectId
  else t.projectId

/-- `has_incompatible_task_hierarchy`. -/
def splitsHierarchy (projectId agentId : String) : Bool :=
  db.tasks.any fun child =>
    (child.parentTaskId.bind db.task?).any fun parent =>
      db.destination projectId agentId child ≠ db.destination projectId agentId parent &&
        (db.destination projectId agentId child ≠ child.projectId ||
          db.destination projectId agentId parent ≠ parent.projectId)

/-- `UPDATE conversations SET project_id = ?`. -/
def moveConversations (projectId agentId : String) : Db :=
  { db with
    conversations := db.conversations.map fun c =>
      if db.agentParticipates c.id agentId then { c with projectId := some projectId } else c }

/-- `UPDATE tasks SET project_id = ?`. -/
def moveTasks (projectId agentId : String) : Db :=
  db.updateTasks
    (fun t => t.agentId = some agentId ||
      (t.conversationId.bind db.conversation?).any (·.projectId = some projectId))
    fun t => { t with projectId := some projectId }

/-- `UPDATE agents SET project_id = ?`. -/
def moveAgent (projectId agentId : String) : Db :=
  { db with
    agents := Table.modify (·.id) agentId (fun a => { a with projectId := some projectId })
      db.agents }

/-- `DELETE FROM projects` when nothing is left in the previous project; `workflows` is the
number of its workflows. -/
def dropEmptied (workflows : ℕ) : Option String → Db
  | none => db
  | some previous =>
      if db.agents.all (·.projectId ≠ some previous) &&
          db.conversations.all (·.projectId ≠ some previous) &&
          db.tasks.all (·.projectId ≠ some previous) && workflows = 0 then
        { db with projects := db.projects.filter (·.id ≠ previous) }
      else db

/-- `assign_agent`; the flags are the queries on attempts, turns and workflows. -/
def assignAgent (projectId agentId : String) (liveTurn activeWorkflow : Bool)
    (previousWorkflows : ℕ) : Except Error Db := do
  db.ensureProjectAcceptsWork projectId
  let previous ← db.projectOfAgent agentId
  db.ensureAcceptsWork previous
  if previous = some projectId then return db
  else do
    require (¬ liveTurn)
      (.project "wait for this Agent's active task or Conversation response to finish before moving it")
    require (¬ activeWorkflow)
      (.project "wait for or cancel this Agent's active Project workflow before moving it")
    require (¬ db.sharedConversation projectId agentId)
      (.project "this Agent belongs to a shared conversation in another project; move the whole conversation or remove the Agent from it first")
    require
      (¬ db.tasks.any fun t =>
        db.splitFromAgent projectId agentId t || db.splitFromConversation projectId agentId t)
      (.project "moving this Agent would split a linked task from its Agent or Conversation; reassign or unlink that task before moving the Agent")
    require (¬ db.splitsHierarchy projectId agentId)
      (.project "moving this Agent would split a parent task from one of its child tasks; reassign the task hierarchy before moving the Agent")
    let moved := ((db.moveConversations projectId agentId).moveTasks projectId agentId).moveAgent
      projectId agentId
    return moved.dropEmptied previousWorkflows previous

end Db

end XpressClaw.Projects
