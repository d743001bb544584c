import XpressClaw.Sync.Config
import XpressClaw.Sync.Files

/-!
# Exporting a project

`export_transaction` and the functions it calls: the snapshot that a database and a
configuration give of a project.

The export writes too: a message without a record gets one, under a new id and behind the
message before it.  `uuid` stands for the ids that `Uuid::new_v4` gives to the messages.
-/

namespace XpressClaw.Sync

open Lib Budget

variable {κ ρ : Type}

/-! ## The environment -/

/-- The functions of libraries that synchronization calls. -/
structure SyncEnv extends StoreEnv where
  /-- The text of a schedule. -/
  schedule : XpressClaw.Schedule → String
  embedding : String → String
  julianday : String → ℤ

/-- The functions of texts, as an import calls them. -/
def SyncEnv.texts (env : SyncEnv) : Texts where
  parse yaml := (env.parseWorkflow yaml).toOption.map fun d =>
    ⟨d.name, d.version, d.schedule.map env.schedule⟩
  normalizeStartAfter := env.env.normalizeStartAfter
  searchKey := env.searchKey
  embedding := env.embedding
  julianday := env.julianday

/-! ## The manifest -/

/-- `GitStoreConfig`. -/
structure GitStoreConfig where
  remote : String := ""
  branch : String := "main"
  path : String
  deriving DecidableEq

/-- `ShareConfig`. -/
structure ShareConfig where
  projectMemory : Bool := true
  deriving DecidableEq

/-- `ProjectSyncManifest`. -/
structure ProjectSyncManifest where
  projectId : String
  store : GitStoreConfig
  share : ShareConfig := {}
  deriving DecidableEq

/-! ## The settings of Agents -/

/-- `OnExceeded` in a snapshot. -/
def onExceededText : OnExceeded → String
  | .pause => "pause"
  | .alert => "alert"
  | .degrade => "degrade"
  | .stop => "stop"

/-- `portable_agent_settings`.  The servers of an Agent stay local. -/
def portableAgentSettings (a : AgentConfig) : PortableAgentSettings where
  llm := a.llm.bind fun llm =>
    if llm.provider.isNone && llm.model.isNone then none else some ⟨llm.provider, llm.model⟩
  runner :=
    { kind := a.runner.kind
      image := a.runner.image
      projectName := a.runner.projectName
      model := a.runner.model
      sessionConfig := sortBy Prod.fst a.runner.sessionConfig
      mcpServers := []
      startupCommands := a.runner.startupCommands
      command := a.runner.command }
  tools := a.tools
  skills := a.skills
  budget := a.budget.map fun b =>
    { daily := b.daily
      monthly := b.monthly
      perTask := b.perTask
      onExceeded := onExceededText b.onExceeded
      fallbackModel := b.fallbackModel
      warnAtPercent := b.warnAtPercent }
  rateLimit := a.rateLimit.map fun r =>
    ⟨r.requestsPerMinute, r.tokensPerMinute, r.concurrentRequests⟩
  wakeOn := a.wakeOn.map fun w => ⟨w.schedule, w.event, w.condition⟩
  idlePrompt := a.idlePrompt

/-- `configured_agents`: the last Agent of a name counts. -/
def Config.agent? (config : Config κ ρ) (name : String) : Option AgentConfig :=
  Table.get (·.name) config.agents.reverse name

/-- The record of an Agent. -/
def exportAgent (config : Config κ ρ) (r : Agent) : Except Error PortableAgent :=
  match config.agent? r.id with
  | none => .error (.sync
      s!"Agent '{r.id}' has no matching local xpressclaw.yaml configuration")
  | some configured => .ok
      { id := r.id
        name := r.name
        backend := r.backend
        createdAt := some r.createdAt
        settings := portableAgentSettings configured }

/-! ## Messages -/

/-- A message with its record. -/
structure Recorded (μ : Type) where
  message : μ
  recordId : String
  parentRecordId : Option String

/-- `INSERT OR IGNORE` of a record with its parent. -/
def insertSync (row : SyncRow) (sync : List SyncRow) : List SyncRow :=
  if sync.any fun r => r.recordId = row.recordId || r.messageId = row.messageId then sync
  else sync ++ [row]

section Threads

variable {μ : Type} (id : μ → ℕ) (owner : μ → String) (uuid : ℕ → String)

/-- The loop of `export_task_messages` and of `export_conversation_messages`, on messages with
their rows; `previous` has the records of the messages before, latest first. -/
def exportMessages : List (μ × Option SyncRow) → List (String × String) → List SyncRow →
    List (Recorded μ) × List SyncRow
  | [], _, sync => ([], sync)
  | (m, row) :: rest, previous, sync =>
      let recordId := (row.map (·.recordId)).getD (uuid (id m))
      let parentRecordId := (row.bind (·.parentRecordId)).or (previous.lookup (owner m))
      let (recorded, sync) := exportMessages rest ((owner m, recordId) :: previous)
        (insertSync ⟨recordId, id m, parentRecordId⟩ sync)
      (⟨m, recordId, parentRecordId⟩ :: recorded, sync)

/-- A thread of messages, exported in the order of their owners and times. -/
def Thread.export (time : μ → String) (shared : μ → Bool) (t : Thread μ) :
    List (Recorded μ) × Thread μ :=
  let messages := sortBy (fun m => toLex (owner m, toLex (time m, id m))) (t.messages.filter shared)
  let (recorded, sync) := exportMessages id owner uuid
    (messages.map fun m => (m, Table.get (·.messageId) t.sync (id m))) [] t.sync
  (recorded, { t with sync := sync })

end Threads

/-- The record of a message of a task. -/
def Recorded.taskMessage (agentIds : List String) (r : Recorded TaskMessage) :
    PortableTaskMessage where
  recordId := r.recordId
  parentRecordId := r.parentRecordId
  taskId := r.message.taskId
  agentId := r.message.agentId.filter (· ∈ agentIds)
  role := r.message.role
  content := r.message.content
  createdAt := r.message.timestamp

/-- The metadata of a message, with the time of its deletion. -/
def markDeletion (metadata : Json) : Option String → Except Error Json
  | none => .ok metadata
  | some deletedAt =>
      match metadata.asObject with
      | none => .error (.sync "Conversation message metadata must be an object")
      | some fields => .ok (.obj (Json.insertField deletedAtKey (.str deletedAt) fields))

/-- The record of a message of a Conversation. -/
def Recorded.conversationMessage (taskIds : List String) (r : Recorded ConversationMessage) :
    Except Error PortableConversationMessage := do
  let metadata ← markDeletion r.message.metadata r.message.deletedAt
  .ok
    { recordId := r.recordId
      parentRecordId := r.parentRecordId
      conversationId := r.message.conversationId
      senderType := r.message.senderType
      senderId := r.message.senderId
      senderName := r.message.senderName
      content := r.message.content
      messageType := r.message.messageType
      linkedTaskId := r.message.linkedTaskId.filter (· ∈ taskIds)
      metadata := metadata
      createdAt := r.message.createdAt }

/-! ## The other records -/

/-- The record of a task, with what it refers to as far as that is exported too. -/
def Task.portable (agentIds taskIds : List String) (r : Task) : PortableTask where
  id := r.id
  title := r.title
  description := r.description
  status := r.status
  priority := r.priority
  taskType := r.taskType
  hidden := r.hidden
  agentId := r.agentId.filter (· ∈ agentIds)
  parentTaskId := r.parentTaskId.filter (· ∈ taskIds)
  conversationId := r.conversationId
  provenance := r.provenance
  blocksParent := r.blocksParent
  startAfter := r.startAfter
  backlog := r.backlog
  position := r.position
  createdAt := r.createdAt
  updatedAt := r.updatedAt
  completedAt := r.completedAt

def Conversation.portable (r : Conversation) : PortableConversation where
  id := r.id
  title := r.title
  icon := r.icon
  createdAt := r.createdAt
  updatedAt := r.updatedAt
  lastMessageAt := r.lastMessageAt

def Workflow.portable (r : Workflow) : PortableWorkflow where
  id := r.id
  projectOwned := r.projectId.isSome
  name := r.name
  description := r.description
  yamlContent := r.yamlContent
  version := r.version
  createdAt := r.createdAt
  updatedAt := r.updatedAt

/-- The record of a memory note. -/
def MemoryNote.portable (tags : List MemoryTag) (taskIds : List String) (r : MemoryNote) :
    PortableMemoryNote where
  id := r.id
  title := r.title
  body := r.body
  summary := r.summary
  noteType := r.noteType
  state := r.state
  sourceTaskId := r.sourceTaskId.filter (· ∈ taskIds)
  createdBy := r.createdBy
  pinned := r.pinned
  createdAt := r.createdAt
  updatedAt := r.updatedAt
  tags := (sortBy (fun t => toLex (t.tagKey, t.tag)) (tags.filter (·.noteId = r.id))).map (·.tag)

/-- `UPPER` of SQLite. -/
def asciiUpper (s : String) : String := String.ofList (s.toList.map Char.toUpper)

namespace Db

variable (db : Db) (projectId : String)

/-! ## What is exported -/

/-- The task is exported with its Project. -/
def sharesTask (r : Task) : Bool :=
  r.projectId = some projectId && !r.hidden && asciiUpper r.taskType ≠ "IDLE" &&
    r.provenance ≠ "native_plan"

/-- The task is there and is exported. -/
def sharesTaskId (id : String) : Bool := db.tasks.any fun r => r.id = id && sharesTask projectId r

/-- The Conversation is there and belongs to the Project. -/
def sharesConversationId (id : String) : Bool :=
  db.conversations.any fun r => r.id = id && r.projectId = some projectId

/-- The workflow is the Project's, or is no Project's and used by the Project. -/
def sharesWorkflow (r : Workflow) : Bool :=
  r.projectId = some projectId ||
    (r.projectId.isNone && db.projectWorkflows.contains (projectId, r.id))

/-- The note is there and belongs to the Project. -/
def sharesNoteId (id : String) : Bool :=
  db.notes.any fun r => r.id = id && r.projectId = projectId

/-- The tasks that are exported, in the order of their ids. -/
def sharedTasks : List Task := sortBy (·.id) (db.tasks.filter (sharesTask projectId))

/-- `export_task_messages`. -/
def exportTaskMessages (uuid : ℕ → String) : List (Recorded TaskMessage) × Thread TaskMessage :=
  db.taskThread.export TaskMessage.id (·.taskId) uuid (·.timestamp)
    (fun m => db.sharesTaskId projectId m.taskId)

/-- `export_conversation_messages`, before the metadata is read. -/
def exportConversationMessages (uuid : ℕ → String) :
    List (Recorded ConversationMessage) × Thread ConversationMessage :=
  db.chatThread.export ConversationMessage.id (·.conversationId) uuid (·.createdAt)
    (fun m => db.sharesConversationId projectId m.conversationId)

/-- The notes of `export_memory`. -/
def exportNotes (taskIds : List String) : List PortableMemoryNote :=
  (sortBy (·.id) (db.notes.filter (·.projectId = projectId))).map (·.portable db.tags taskIds)

/-- The links of `export_memory`. -/
def exportLinks : List MemoryLink :=
  sortBy (fun l => toLex (l.key.fromNoteId, toLex (l.key.toNoteId, l.key.linkType)))
    (db.links.filter fun l => db.sharesNoteId projectId l.key.fromNoteId &&
      db.sharesNoteId projectId l.key.toNoteId)

end Db

/-- `quiescent_error`. -/
def quiescentError (includeConversationTurns : Bool) : Error :=
  let activeWork :=
    if includeConversationTurns then "tasks, Conversations, and workflows"
    else "tasks and workflows"
  .sync s!"Project synchronization requires a quiescent Project; stop the server or wait for active {activeWork}"

namespace Db

variable (config : Config κ ρ) (manifest : ProjectSyncManifest) (uuid : ℕ → String) (db : Db)

/-- The project of an export. -/
def exportProject : Except Error PortableProject :=
  match db.project? manifest.projectId with
  | none => .error (.sync s!"Project '{manifest.projectId}' does not exist locally")
  | some p => .ok ⟨p.id, p.name, p.description, p.icon, p.createdAt, p.updatedAt⟩

/-- `export_transaction`: the snapshot, and the database with the records it made. -/
def exportTransaction (allowActiveConversations : Bool) : Except Error (StoreSnapshot × Db) := do
  let projectId := manifest.projectId
  require (¬ db.projectIsActive projectId (!allowActiveConversations))
    (quiescentError (!allowActiveConversations))
  let project ← db.exportProject manifest
  let agents ← readEach (exportAgent config)
    (sortBy (·.id) (db.agents.filter (·.projectId = some projectId)))
  let agentIds := agents.map (·.id)
  let tasks := db.sharedTasks projectId
  let taskIds := tasks.map (·.id)
  let (taskMessages, taskThread) := db.exportTaskMessages projectId uuid
  let (recorded, chatThread) := db.exportConversationMessages projectId uuid
  let conversationMessages ← readEach (Recorded.conversationMessage taskIds) recorded
  let share := manifest.share.projectMemory
  .ok
    ({  descriptor := ⟨storeVersion, projectId⟩
        project := project
        agents := agents
        tasks := tasks.map (·.portable agentIds taskIds)
        taskDependencies := sortBy (fun d => toLex (d.taskId, d.dependsOnId))
          (db.dependencies.filter fun d =>
            db.sharesTaskId projectId d.taskId && db.sharesTaskId projectId d.dependsOnId)
        taskMessages := taskMessages.map (·.taskMessage agentIds)
        conversations :=
          (sortBy (·.id) (db.conversations.filter (·.projectId = some projectId))).map (·.portable)
        participants := sortBy (fun p => toLex (p.key.conversationId,
            toLex (p.key.participantType, p.key.participantId)))
          (db.participants.filter fun p => db.sharesConversationId projectId p.key.conversationId)
        conversationMessages := conversationMessages
        workflows :=
          (sortBy (·.id) (db.workflows.filter (db.sharesWorkflow projectId))).map (·.portable)
        memoryNotes := if share then db.exportNotes projectId taskIds else []
        memoryLinks := if share then db.exportLinks projectId else [] },
      { db with taskThread := taskThread, chatThread := chatThread })

/-- `export_snapshot_with_conversations`: nothing is written unless the snapshot is valid. -/
def exportSnapshot (env : StoreEnv) (allowActiveConversations : Bool) :
    Except Error (StoreSnapshot × Db) := do
  let (snapshot, exported) ← db.exportTransaction config manifest uuid allowActiveConversations
  snapshot.validateForSync env manifest.projectId
  .ok (snapshot, exported)

end Db

/-- `apply_share_policy`. -/
def StoreSnapshot.applySharePolicy (share : ShareConfig) (s : StoreSnapshot) : StoreSnapshot :=
  if share.projectMemory then s else { s with memoryNotes := [], memoryLinks := [] }

end XpressClaw.Sync
