import XpressClaw.Conversations.Turns
import XpressClaw.Lib.Upsert
import XpressClaw.Projects.Import
import XpressClaw.Workflow.Json

/-!
# What is synchronized

The tables that the import of a portable snapshot writes, with the columns it writes or reads,
the records of a snapshot, and the functions of texts that come from elsewhere.

The rows of a message and of its record are two tables; both kinds of messages have them, and
they are one `Thread`.  A column that holds a JSON text is modelled by the value.  Dashboard
events and native sessions are left out; the settings of Agents go to `xpressclaw.yaml`.
-/

namespace XpressClaw.Sync

open Lib

/-! ## Texts -/

/-- What the import reads off the YAML of a workflow. -/
structure WorkflowHead where
  name : String
  version : ℕ
  /-- The text of the schedule. -/
  schedule : Option String := none
  deriving DecidableEq

/-- Functions of texts.  The import relies on nothing but that they are functions. -/
structure Texts where
  /-- `WorkflowDefinition::parse`. -/
  parse : String → Option WorkflowHead
  /-- `tasks::planning::normalize_start_after` on a given text. -/
  normalizeStartAfter : String → Except String String
  /-- `task_search_key`. -/
  searchKey : String → String
  /-- `simple_embedding`. -/
  embedding : String → String
  /-- `julianday`, as a rank. -/
  julianday : String → ℤ

/-! ## Rows -/

structure Project where
  id : String
  name : String := ""
  description : Option String := none
  icon : Option String := none
  createdAt : String := ""
  updatedAt : String := ""
  deletionStartedAt : Option String := none
  deriving DecidableEq

structure Agent where
  id : String
  name : String := ""
  backend : String := ""
  config : String := "\x7b\x7d"
  status : String := "stopped"
  desiredStatus : String := "stopped"
  projectId : Option String := none
  createdAt : String := ""
  deriving DecidableEq

/-- A row of `logical_sessions`. -/
structure LogicalSession where
  id : String
  agentId : String
  title : String := ""
  deriving DecidableEq

structure Conversation where
  id : String
  title : Option String := none
  icon : Option String := none
  createdAt : String := ""
  updatedAt : String := ""
  lastMessageAt : Option String := none
  projectId : Option String := none
  deriving DecidableEq

/-- A row of `conversation_participants`. -/
structure Participant where
  key : Conversations.Participant
  joinedAt : String := ""
  deriving DecidableEq

structure Task where
  id : String
  title : String := ""
  description : Option String := none
  status : String := "pending"
  priority : ℤ := 0
  agentId : Option String := none
  parentTaskId : Option String := none
  conversationId : Option String := none
  projectId : Option String := none
  createdAt : String := ""
  updatedAt : String := ""
  completedAt : Option String := none
  taskType : String := "NORMAL"
  hidden : Bool := false
  provenance : String := "durable"
  blocksParent : Bool := true
  startAfter : Option String := none
  backlog : Bool := false
  position : ℚ := 0
  revision : ℕ := 0
  deriving DecidableEq

structure TaskMessage where
  id : ℕ
  taskId : String
  role : String
  content : String
  timestamp : String
  agentId : Option String := none
  deriving DecidableEq

structure ConversationMessage where
  id : ℕ
  conversationId : String
  senderType : String
  senderId : String
  senderName : Option String := none
  content : String
  messageType : String
  linkedTaskId : Option String := none
  metadata : Json
  createdAt : String
  processed : Bool := false
  deletedAt : Option String := none
  deriving DecidableEq

/-- A row of `task_message_sync` or `conversation_message_sync`. -/
structure SyncRow where
  recordId : String
  messageId : ℕ
  parentRecordId : Option String := none
  deriving DecidableEq

/-- The messages of one kind with their records; `nextId` is the next message id. -/
structure Thread (μ : Type) where
  messages : List μ := []
  sync : List SyncRow := []
  nextId : ℕ := 1

structure Workflow where
  id : String
  name : String
  description : Option String := none
  yamlContent : String
  enabled : Bool := true
  version : ℕ := 1
  createdAt : String := ""
  updatedAt : String := ""
  projectId : Option String := none
  revision : ℕ := 0
  lastTriggeredAt : Option String := none
  triggerError : Option String := none
  deriving DecidableEq

/-- A row of `project_memory_notes`. -/
structure MemoryNote where
  id : String
  projectId : String
  title : String := ""
  body : String := ""
  summary : String := ""
  noteType : String := "fact"
  state : String := "evergreen"
  sourceTaskId : Option String := none
  sourceAttemptId : Option String := none
  createdBy : String := "agent"
  pinned : Bool := false
  searchKey : String := ""
  createdAt : String := ""
  updatedAt : String := ""
  lastAccessedAt : String := ""
  accessCount : ℕ := 0
  deriving DecidableEq

/-- A row of `project_memory_tags`. -/
structure MemoryTag where
  noteId : String
  tag : String
  tagKey : String
  deriving DecidableEq

/-- A row of `project_memory_embeddings`. -/
structure MemoryEmbedding where
  noteId : String
  embedding : String
  projectId : String
  deriving DecidableEq

/-- The primary key of `project_memory_links`. -/
structure LinkKey where
  fromNoteId : String
  toNoteId : String
  linkType : String
  deriving DecidableEq

/-- A row of `project_memory_links`. -/
structure MemoryLink where
  key : LinkKey
  strength : ℚ := 1
  createdAt : String := ""
  deriving DecidableEq

/-- A row of `work_attempts`, as far as the import reads it. -/
structure Attempt where
  taskId : String
  status : String
  deriving DecidableEq

/-- A row of `workflow_instances`, as far as the import reads it. -/
structure Instance where
  projectId : Option String
  status : String
  deriving DecidableEq

/-- The database.  `attachments` and `visualizations` have the message ids of the rows of
`conversation_message_attachments` and `message_visualizations`; `now` is what
`CURRENT_TIMESTAMP` shows. -/
structure Db where
  projects : List Project := []
  agents : List Agent := []
  sessions : List LogicalSession := []
  conversations : List Conversation := []
  participants : List Participant := []
  tasks : List Task := []
  dependencies : List Tasks.Dependency := []
  taskThread : Thread TaskMessage := {}
  chatThread : Thread ConversationMessage := {}
  attachments : List ℕ := []
  visualizations : List ℕ := []
  workflows : List Workflow := []
  projectWorkflows : List (String × String) := []
  notes : List MemoryNote := []
  tags : List MemoryTag := []
  embeddings : List MemoryEmbedding := []
  links : List MemoryLink := []
  attempts : List Attempt := []
  turns : List Conversations.ConversationTurn := []
  nextTurnId : ℕ := 0
  instances : List Instance := []
  connectCommands : List Conversations.ConnectCommand := []
  clock : ℕ := 0
  now : String := ""

namespace Db

variable (db : Db)

def project? (id : String) : Option Project := Table.get (·.id) db.projects id

def agent? (id : String) : Option Agent := Table.get (·.id) db.agents id

def conversation? (id : String) : Option Conversation := Table.get (·.id) db.conversations id

def task? (id : String) : Option Task := Table.get (·.id) db.tasks id

def note? (id : String) : Option MemoryNote := Table.get (·.id) db.notes id

def workflow? (id : String) : Option Workflow := Table.get (·.id) db.workflows id

end Db

/-! ## The records of a snapshot -/

structure PortableProject where
  id : String
  name : String := ""
  description : Option String := none
  icon : Option String := none
  createdAt : String := ""
  updatedAt : String := ""
  deriving DecidableEq

structure PortableLlmSettings where
  provider : Option String := none
  model : Option String := none
  deriving DecidableEq

/-- `PortableRunnerSettings`.  The import ignores `mcpServers`. -/
structure PortableRunnerSettings where
  kind : String := "auto"
  image : String := ""
  projectName : Option String := none
  model : Option String := none
  sessionConfig : List (String × Json) := []
  mcpServers : List String := []
  startupCommands : List String := []
  command : List String := []
  deriving DecidableEq

structure PortableBudgetSettings where
  daily : Option String := none
  monthly : Option String := none
  perTask : Option String := none
  onExceeded : String
  fallbackModel : String
  warnAtPercent : ℕ
  deriving DecidableEq

structure PortableRateLimitSettings where
  requestsPerMinute : ℕ
  tokensPerMinute : ℕ
  concurrentRequests : ℕ
  deriving DecidableEq

structure PortableWakeOnSettings where
  schedule : Option String := none
  event : Option String := none
  condition : Option String := none
  deriving DecidableEq

structure PortableAgentSettings where
  llm : Option PortableLlmSettings := none
  runner : PortableRunnerSettings := {}
  tools : List String := []
  skills : List String := []
  budget : Option PortableBudgetSettings := none
  rateLimit : Option PortableRateLimitSettings := none
  wakeOn : List PortableWakeOnSettings := []
  idlePrompt : Option String := none
  deriving DecidableEq

structure PortableAgent where
  id : String
  name : String := ""
  backend : String := ""
  createdAt : Option String := none
  settings : PortableAgentSettings := {}
  deriving DecidableEq

structure PortableConversation where
  id : String
  title : Option String := none
  icon : Option String := none
  createdAt : String := ""
  updatedAt : String := ""
  lastMessageAt : Option String := none
  deriving DecidableEq

structure PortableTask where
  id : String
  title : String := ""
  description : Option String := none
  status : String := "pending"
  priority : ℤ := 0
  taskType : String := "NORMAL"
  hidden : Bool := false
  agentId : Option String := none
  parentTaskId : Option String := none
  conversationId : Option String := none
  provenance : String := "durable"
  blocksParent : Bool := true
  startAfter : Option String := none
  backlog : Bool := false
  position : ℚ := 0
  createdAt : String := ""
  updatedAt : String := ""
  completedAt : Option String := none
  deriving DecidableEq

structure PortableTaskMessage where
  recordId : String
  parentRecordId : Option String := none
  taskId : String
  agentId : Option String := none
  role : String
  content : String
  createdAt : String
  deriving DecidableEq

structure PortableConversationMessage where
  recordId : String
  parentRecordId : Option String := none
  conversationId : String
  senderType : String
  senderId : String
  senderName : Option String := none
  content : String
  messageType : String
  linkedTaskId : Option String := none
  metadata : Json
  createdAt : String
  deriving DecidableEq

structure PortableWorkflow where
  id : String
  projectOwned : Bool := false
  name : String
  description : Option String := none
  yamlContent : String
  version : ℕ := 1
  createdAt : String := ""
  updatedAt : String := ""
  deriving DecidableEq

structure PortableMemoryNote where
  id : String
  title : String := ""
  body : String := ""
  summary : String := ""
  noteType : String := "fact"
  state : String := "evergreen"
  sourceTaskId : Option String := none
  createdBy : String := "agent"
  pinned : Bool := false
  createdAt : String := ""
  updatedAt : String := ""
  tags : List String := []
  deriving DecidableEq

/-- `PortableSnapshot`. -/
structure PortableSnapshot where
  project : PortableProject
  agents : List PortableAgent := []
  tasks : List PortableTask := []
  taskDependencies : List Tasks.Dependency := []
  taskMessages : List PortableTaskMessage := []
  conversations : List PortableConversation := []
  participants : List Participant := []
  conversationMessages : List PortableConversationMessage := []
  workflows : List PortableWorkflow := []
  memoryNotes : List PortableMemoryNote := []
  memoryLinks : List MemoryLink := []

/-- What the import can fail with. -/
inductive Error where
  | sync (text : String)
  | task (text : String)
  | workflow (text : String)
  | memory (text : String)
  | memoryNotFound (id : String)
  /-- An error of a module that decides on Projects or Conversations. -/
  | project (e : Projects.Error)
  | conversation (e : Conversations.Error)
  /-- A statement that violates a key, or a query that finds no row. -/
  | database

/-- Fail unless a condition holds. -/
def require (p : Prop) [Decidable p] (e : Error) : Except Error Unit :=
  if p then .ok () else .error e

end XpressClaw.Sync
