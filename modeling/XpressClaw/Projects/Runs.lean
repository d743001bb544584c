import XpressClaw.Lib.Runs
import XpressClaw.Projects.Board
import XpressClaw.Projects.Import
import XpressClaw.Projects.Members

/-!
# Runs

An `Op` is one call of the task board, of the task planner, of the conversations or of
`assign_agent`; a `SyncOp` is one of these or the import of a snapshot.  A call that fails
leaves the database as it was.
-/

namespace XpressClaw.Projects

open Lib

/-- One call. -/
inductive Op where
  | createTask (req : CreateTask) (creator : Option String) (id : String)
  | createPlatformTask (agentId projectId id : String)
  | createIdleTask (agentId id : String)
  | createBatch (tasks : List (BatchTaskInput × String))
    (parent creator : Option String) (ok : Bool)
  | addDependency (taskId dependsOnId : String)
  | update (taskId : String) (agentId : Option String) (ok : Bool)
  | updateStatus (taskId : String) (status : Tasks.TaskStatus) (agentId : Option String)
      (released : List String) (ok : Bool)
  | assign (taskId agentId : String) (caller : Option String) (ok : Bool)
  | setConversationId (taskId conversationId : String)
  | deleteTask (taskId : String)
  | createConversation (participantIds : List String) (id : String)
  | createConversationInProject (projectId : Option String) (participantIds : List String)
      (id : String)
  | addParticipant (conversationId participantType participantId : String)
  | removeParticipant (conversationId participantType participantId : String)
  | deleteConversation (id : String)
  | assignAgent (projectId agentId : String) (liveTurn activeWorkflow : Bool)
      (previousWorkflows : ℕ)

/-- What a call returns. -/
def Op.exec (db : Db) : Op → Except Error Db
  | createTask req creator id => db.createInTransaction req creator id
  | createPlatformTask agentId projectId id => db.createPlatformTask agentId projectId id
  | createIdleTask agentId id => db.createIdleTask agentId id
  | createBatch tasks parent creator ok => db.createBatchInner tasks parent creator ok
  | addDependency taskId dependsOnId => db.addDependency taskId dependsOnId
  | update taskId agentId ok => db.update taskId agentId ok
  | updateStatus taskId status agentId released ok =>
      db.updateStatus taskId status agentId released ok
  | assign taskId agentId caller ok => db.assign taskId agentId caller ok
  | setConversationId taskId conversationId => db.setConversationId taskId conversationId
  | deleteTask taskId => db.delete taskId
  | createConversation participantIds id => db.createConversation participantIds id
  | createConversationInProject projectId participantIds id =>
      db.createConversationInProject projectId participantIds id
  | addParticipant conversationId participantType participantId =>
      db.addParticipant conversationId participantType participantId
  | removeParticipant conversationId participantType participantId =>
      .ok (db.removeParticipant conversationId participantType participantId)
  | deleteConversation id => db.deleteConversation id
  | assignAgent projectId agentId liveTurn activeWorkflow previousWorkflows =>
      db.assignAgent projectId agentId liveTurn activeWorkflow previousWorkflows

/-- A call commits, or it leaves the database alone. -/
def commit (db : Db) : Except Error Db → Db
  | .ok db' => db'
  | .error _ => db

def step (db : Db) (o : Op) : Db := commit db (o.exec db)

/-- One call, or an import. -/
inductive SyncOp where
  | call (o : Op)
  | importSnapshot (s : Snapshot) (ok : Bool)

def SyncOp.exec (db : Db) : SyncOp → Except Error Db
  | call o => o.exec db
  | importSnapshot s ok => db.importTransaction s ok

def syncStep (db : Db) (o : SyncOp) : Db := commit db (o.exec db)

theorem commit_keeps {I : Db → Prop} {db : Db} {r : Except Error Db} (hdb : I db)
    (h : ∀ db', r = .ok db' → I db') : I (commit db r) := by
  cases r with
  | error e => exact hdb
  | ok db' => exact h db' rfl

end XpressClaw.Projects
