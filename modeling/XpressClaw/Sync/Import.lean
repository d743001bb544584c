import XpressClaw.Sync.Store

/-!
# Importing a snapshot

`import_transaction` and the functions it calls, on a snapshot that has passed
`validate_for_sync`.  The transaction is rolled back when one of them fails.

Of `validate_for_sync` only the checks that the import relies on are here; those of single texts,
timestamps and references are left out.
-/

namespace XpressClaw.Sync

open Lib

variable (texts : Texts)

/-! ## The validation of a snapshot -/

/-- One check for every record of a list. -/
def forAll {χ : Type} (check : χ → Except Error Unit) (xs : List χ) : Except Error Unit :=
  each (fun _ x => check x) xs ()

/-- `unique_ids`. -/
def uniqueIds (label : String) (ids : List String) : Except Error Unit :=
  require ids.Nodup (.sync s!"duplicate {label} ID")

/-- The check of `validate` that the YAML of a workflow fits its metadata. -/
def validateWorkflow (w : PortableWorkflow) : Except Error Unit :=
  match texts.parse w.yamlContent with
  | none => .error (.workflow s!"invalid workflow YAML of '{w.id}'")
  | some head =>
      require (head.name = w.name ∧ head.version = w.version)
        (.sync s!"workflow '{w.id}' metadata does not match its YAML definition")

/-- `validate_for_sync`. -/
def PortableSnapshot.validate (s : PortableSnapshot) : Except Error Unit := do
  uniqueIds "Agent" (s.agents.map (·.id))
  uniqueIds "Conversation" (s.conversations.map (·.id))
  uniqueIds "task" (s.tasks.map (·.id))
  require s.taskDependencies.Nodup
    (.sync "task dependencies contain a self-edge or duplicate edge")
  require (s.participants.map (·.key)).Nodup (.sync "duplicate Conversation participant")
  uniqueIds "Conversation message record" (s.conversationMessages.map (·.recordId))
  require (∀ m ∈ s.conversationMessages, m.conversationId ∈ s.conversations.map (·.id))
    (.sync "Conversation message references an unknown owner")
  uniqueIds "task message record" (s.taskMessages.map (·.recordId))
  require (∀ m ∈ s.taskMessages, m.taskId ∈ s.tasks.map (·.id))
    (.sync "task message references an unknown owner")
  uniqueIds "workflow" (s.workflows.map (·.id))
  require (s.workflows.map (·.name)).Nodup (.sync "duplicate workflow name")
  forAll (validateWorkflow texts) s.workflows
  uniqueIds "memory note" (s.memoryNotes.map (·.id))
  require (∀ n ∈ s.memoryNotes, (n.tags.map texts.searchKey).Nodup)
    (.sync "memory note has duplicate normalized tags")
  require (s.memoryLinks.map (·.key)).Nodup (.sync "invalid or duplicate project-memory link")

/-! ## The checks of the local database -/

/-- `reject_foreign_owner`, on the owner of the local row if there is one. -/
def rejectForeignOwner (projectId id : String) : Option (Option String) → Except Error Unit
  | none => .ok ()
  | some owner =>
      require (owner = some projectId)
        (.sync s!"record '{id}' already belongs to another local Project")

/-- The owner that the record of a workflow gives it. -/
def workflowOwner (projectId : String) (w : PortableWorkflow) : Option String :=
  if w.projectOwned then some projectId else none

/-- The columns of a workflow that a snapshot has agree with it. -/
def sameDefinition (w : PortableWorkflow) (r : Workflow) : Bool :=
  r.name = w.name && r.description = w.description && r.yamlContent = w.yamlContent &&
    r.version = w.version

/-- The statuses that `project_is_active` counts for an attempt. -/
def attemptIsActive (status : String) : Bool :=
  status ∈ ["queued", "preparing", "running", "waiting_for_input", "review"]

namespace Db

variable (db : Db)

/-- `project_is_active`. -/
def projectIsActive (projectId : String) (includeConversationTurns : Bool) : Bool :=
  db.attempts.any (fun a => attemptIsActive a.status &&
      (db.task? a.taskId).any (·.projectId = some projectId)) ||
    (includeConversationTurns && db.turns.any fun t => t.status.active &&
      (db.conversation? t.conversationId).any (·.projectId = some projectId)) ||
    db.instances.any fun i => i.projectId = some projectId &&
      (i.status = "running" || i.status = "waiting")

/-- `ensure_project_accepts_work`, on a project that exists. -/
def ensureProjectAcceptsWork (projectId : String) : Except Error Unit :=
  require ((db.project? projectId).all (·.deletionStartedAt.isNone))
    (.project (.project s!"Project '{projectId}' is being deleted and cannot accept new work; retry the confirmed deletion or choose another Project"))

/-- `validate_local_scopes` on an Agent. -/
def checkAgentScope (projectId : String) (a : PortableAgent) : Except Error Unit := do
  rejectForeignOwner projectId a.id ((db.agent? a.id).map (·.projectId))
  require ((Table.get (·.id) db.sessions a.id).all (·.agentId = a.id) ∧
      (Table.get (·.agentId) db.sessions a.id).all (·.id = a.id))
    (.sync s!"Agent '{a.id}' conflicts with an existing local logical session")

/-- `validate_local_scopes` on a workflow. -/
def checkWorkflowScope (projectId : String) (w : PortableWorkflow) : Except Error Unit := do
  require (¬ db.workflows.any fun r => r.name = w.name && r.id ≠ w.id)
    (.sync s!"workflow name '{w.name}' is already used locally by another workflow")
  let existing := db.workflow? w.id
  require (existing.all (·.projectId = workflowOwner projectId w))
    (.sync s!"workflow '{w.id}' has different local ownership; synchronization cannot change workflow ownership")
  let associated := (projectId, w.id) ∈ db.projectWorkflows
  let sharedElsewhere := db.projectWorkflows.any fun r => r.2 = w.id && r.1 ≠ projectId
  require (¬ (¬ w.projectOwned ∧ (¬ associated ∨ sharedElsewhere) ∧
      existing.any fun r => !sameDefinition w r))
    (.sync s!"workflow '{w.id}' already has a conflicting local definition outside this Project")

/-- `validate_local_scopes`. -/
def validateLocalScopes (s : PortableSnapshot) : Except Error Unit := do
  let projectId := s.project.id
  forAll (db.checkAgentScope projectId) s.agents
  forAll (fun t : PortableTask =>
    rejectForeignOwner projectId t.id ((db.task? t.id).map (·.projectId))) s.tasks
  forAll (fun c : PortableConversation =>
    rejectForeignOwner projectId c.id ((db.conversation? c.id).map (·.projectId)))
    s.conversations
  forAll (fun n : PortableMemoryNote =>
    rejectForeignOwner projectId n.id ((db.note? n.id).map (some ·.projectId))) s.memoryNotes
  forAll (db.checkWorkflowScope projectId) s.workflows

end Db

/-! ## Agents and Conversations -/

/-- `excluded.…` of the upsert of the project. -/
def rewriteProject (p : PortableProject) (r : Project) : Project :=
  { r with
    name := p.name
    description := p.description
    icon := p.icon
    updatedAt := p.updatedAt }

def newProject (p : PortableProject) : Project :=
  rewriteProject p { id := p.id, createdAt := p.createdAt }

def rewriteAgent (projectId : String) (p : PortableAgent) (r : Agent) : Agent :=
  { r with
    name := p.name
    backend := p.backend
    projectId := some projectId }

def newAgent (projectId now : String) (p : PortableAgent) : Agent :=
  rewriteAgent projectId p { id := p.id, createdAt := p.createdAt.getD now }

/-- `INSERT OR IGNORE INTO logical_sessions`, whose ids and Agents are unique. -/
def insertSession (sessions : List LogicalSession) (p : PortableAgent) : List LogicalSession :=
  if sessions.any fun r => r.id = p.id || r.agentId = p.id then sessions
  else sessions ++ [⟨p.id, p.id, p.name⟩]

def rewriteConversation (projectId : String) (p : PortableConversation) (r : Conversation) :
    Conversation :=
  { r with
    title := p.title
    icon := p.icon
    updatedAt := p.updatedAt
    lastMessageAt := p.lastMessageAt
    projectId := some projectId }

def newConversation (projectId : String) (p : PortableConversation) : Conversation :=
  rewriteConversation projectId p { id := p.id, createdAt := p.createdAt }

namespace Db

variable (db : Db)

def importProject (p : PortableProject) : Db :=
  { db with
    projects := Table.upsert (·.id) p.id (newProject p) (rewriteProject p) db.projects }

/-- `import_agents`. -/
def importAgents (s : PortableSnapshot) : Db :=
  { db with
    agents := Table.upsertAll (·.id) (·.id) (newAgent s.project.id db.now)
      (rewriteAgent s.project.id) s.agents db.agents
    sessions := s.agents.foldl insertSession db.sessions }

/-- `import_conversations`. -/
def importConversations (s : PortableSnapshot) : Db :=
  { db with
    conversations := Table.upsertAll (·.id) (·.id) (newConversation s.project.id)
      (rewriteConversation s.project.id) s.conversations db.conversations
    participants := Table.upsertAll (·.key) (·.key) (fun p => p) (fun _ r => r) s.participants
      db.participants }

end Db

/-! ## Tasks -/

/-- `tasks_planning_revision`: what the trigger does after an `UPDATE tasks` that leaves the
revision alone. -/
def Task.bump (t : Task) : Task := { t with revision := t.revision + 1 }

/-- `normalize_start_after` on the column of a task. -/
def PortableTask.normalized (t : PortableTask) : Except Error PortableTask :=
  match t.startAfter with
  | none => .ok t
  | some value =>
      match texts.normalizeStartAfter value with
      | .ok value => .ok { t with startAfter := some value }
      | .error text => .error (.task text)

/-- The tasks of a snapshot with their `start_after` normalized. -/
def normalizeAll : List PortableTask → Except Error (List PortableTask)
  | [] => .ok []
  | t :: tasks => do
      let t ← t.normalized texts
      let tasks ← normalizeAll tasks
      .ok (t :: tasks)

/-- `excluded.…` of the upsert of a task: everything but the parent. -/
def writeTask (projectId : String) (p : PortableTask) (r : Task) : Task :=
  { r with
    title := p.title
    description := p.description
    status := p.status
    priority := p.priority
    agentId := p.agentId
    conversationId := p.conversationId
    projectId := some projectId
    updatedAt := p.updatedAt
    completedAt := p.completedAt
    taskType := p.taskType
    hidden := p.hidden
    provenance := p.provenance
    blocksParent := p.blocksParent
    startAfter := p.startAfter
    backlog := p.backlog
    position := p.position }

def newTask (projectId : String) (p : PortableTask) : Task :=
  writeTask projectId p { id := p.id, createdAt := p.createdAt }

/-- The upsert of a task that exists. -/
def rewriteTask (projectId : String) (p : PortableTask) (r : Task) : Task :=
  (writeTask projectId p r).bump

def writeParent (p : PortableTask) (r : Task) : Task :=
  { r with parentTaskId := p.parentTaskId }

/-- `UPDATE tasks SET parent_task_id = …`. -/
def setParent (p : PortableTask) (r : Task) : Task := (writeParent p r).bump

/-- The rows of tasks after `import_tasks`. -/
def writeTasks (projectId : String) (tasks : List PortableTask) (rows : List Task) : List Task :=
  Table.modifyAll (·.id) (·.id) setParent tasks
    (Table.upsertAll (·.id) (·.id) (newTask projectId) (rewriteTask projectId) tasks rows)

namespace Db

variable (db : Db)

/-- `import_tasks`. -/
def importTasks (s : PortableSnapshot) : Except Error Db := do
  let tasks ← normalizeAll texts s.tasks
  .ok { db with
    tasks := writeTasks s.project.id tasks db.tasks
    dependencies := Table.upsertAll (fun d => d) (fun d => d) (fun d => d) (fun _ r => r)
      s.taskDependencies db.dependencies }

/-- The graph of the tasks, as `validate_merged_task_graph` reads it. -/
def graph : Projects.Db where
  tasks := db.tasks.map fun t =>
    { id := t.id, parentTaskId := t.parentTaskId, projectId := t.projectId }
  dependencies := db.dependencies

/-- `validate_merged_task_graph`. -/
def validateMergedTaskGraph (projectId : String) : Except Error Unit :=
  match db.graph.validateMergedTaskGraph projectId with
  | .ok _ => .ok ()
  | .error e => .error (.project e)

end Db

/-! ## Messages -/

/-- A message of a snapshot, and what its import does with the rows of messages. -/
structure Record (μ : Type) where
  recordId : String
  parentRecordId : Option String
  /-- The local copy must not differ. -/
  check : μ → Except Error Unit
  /-- What is written over the local copy. -/
  set : μ → μ
  /-- The row of a message that is not there. -/
  insert : ℕ → μ

/-- `UPDATE … SET parent_record_id = …`. -/
def SyncRow.setParent (parentRecordId : Option String) (r : SyncRow) : SyncRow :=
  { r with parentRecordId := parentRecordId }

namespace Thread

variable {μ : Type} (id : μ → ℕ)

/-- The message of a record. -/
def find (t : Thread μ) (recordId : String) : Option μ :=
  (Table.get (·.recordId) t.sync recordId).bind fun r => Table.get id t.messages r.messageId

/-- `INSERT OR IGNORE` of a record, whose id and message are unique. -/
def link (sync : List SyncRow) (recordId : String) (messageId : ℕ) : List SyncRow :=
  if sync.any fun r => r.recordId = recordId || r.messageId = messageId then sync
  else sync ++ [⟨recordId, messageId, none⟩]

/-- The first loop of an import of messages: whether the message already existed. -/
def importRecord (t : Thread μ) (x : Record μ) : Except Error (Bool × Thread μ) :=
  match t.find id x.recordId with
  | some m => do
      x.check m
      .ok (true, { t with
        messages := Table.modify id (id m) x.set t.messages
        sync := link t.sync x.recordId (id m) })
  | none =>
      .ok (false, {
        messages := t.messages ++ [x.insert t.nextId]
        sync := link t.sync x.recordId t.nextId
        nextId := t.nextId + 1 })

/-- The second loop of an import of messages: the parent is written, or must be the same. -/
def importParent (label recordId : String) (parentRecordId : Option String)
    (alreadyExisted : Bool) (t : Thread μ) : Except Error (Thread μ) :=
  match Table.get (·.recordId) t.sync recordId with
  | none => .error .database
  | some row => do
      require (¬ (alreadyExisted ∧ row.parentRecordId ≠ parentRecordId))
        (.sync s!"immutable {label} message record '{recordId}' has a different parent")
      .ok { t with
        sync := Table.modify (·.recordId) recordId (SyncRow.setParent parentRecordId) t.sync }

end Thread

/-- An entry of `ready` of `message_import_order`. -/
structure Ready where
  createdAt : String
  recordId : String
  index : ℕ
  deriving DecidableEq

/-- The order of the entries of `ready`. -/
def Ready.le (a b : Ready) : Bool :=
  a.createdAt < b.createdAt || (a.createdAt = b.createdAt &&
    (a.recordId < b.recordId || (a.recordId = b.recordId && a.index ≤ b.index)))

/-- `pop_first`, as a choice among entries. -/
def Ready.first : List Ready → Option Ready
  | [] => none
  | r :: rows =>
      match first rows with
      | none => some r
      | some r' => if r.le r' then some r else some r'

/-- The loop of `message_import_order`: the indices in order. -/
def orderMessages (records : List (String × Option String × String)) :
    ℕ → List Ready → List ℕ
  | 0, _ => []
  | fuel + 1, ready =>
      match Ready.first ready with
      | none => []
      | some r =>
          let children := records.zipIdx.filterMap fun e =>
            if e.1.2.1 = some r.recordId then some ⟨e.1.2.2, e.1.1, e.2⟩ else none
          r.index :: orderMessages records fuel ((ready.filter (· ≠ r)) ++ children)

/-- `message_import_order`, on ids, parents and times of records. -/
def messageImportOrder (records : List (String × Option String × String)) :
    Except Error (List ℕ) := do
  require (∀ r ∈ records, r.2.1.all (· ∈ records.map (·.1)))
    (.sync "message record references an unknown parent")
  let ready := records.zipIdx.filterMap fun e =>
    if e.1.2.1 = none then some ⟨e.1.2.2, e.1.1, e.2⟩ else none
  let ordered := orderMessages records (records.length + 1) ready
  require (ordered.length = records.length) (.sync "message parent graph contains a cycle")
  .ok ordered

/-- The messages of a snapshot in the order in which they are imported. -/
def inImportOrder {π : Type} (record : π → String × Option String × String)
    (messages : List π) : Except Error (List π) := do
  let order ← messageImportOrder (messages.map record)
  .ok (order.filterMap (messages[·]?))

/-! ### Messages of tasks -/

/-- `import_task_messages` on one message. -/
def taskRecord (p : PortableTaskMessage) : Record TaskMessage where
  recordId := p.recordId
  parentRecordId := p.parentRecordId
  check m := require
    (m.taskId = p.taskId ∧ m.role = p.role ∧ m.content = p.content ∧ m.timestamp = p.createdAt ∧
      ∀ a ∈ m.agentId, ∀ b ∈ p.agentId, a = b)
    (.sync s!"immutable task message record '{p.recordId}' differs from the local copy")
  set m := { m with agentId := m.agentId.or p.agentId }
  insert n :=
    { id := n
      taskId := p.taskId
      role := p.role
      content := p.content
      timestamp := p.createdAt
      agentId := p.agentId }

/-- `import_task_messages`. -/
def Db.importTaskMessages (db : Db) (s : PortableSnapshot) : Except Error Db := do
  let messages ← inImportOrder (fun p : PortableTaskMessage =>
    (p.recordId, p.parentRecordId, p.createdAt)) s.taskMessages
  let (imported, thread) ← eachWith
    (fun t p => Thread.importRecord TaskMessage.id t (taskRecord p)) messages db.taskThread
  let thread ← each (fun t (e : PortableTaskMessage × Bool) =>
    Thread.importParent "task" e.1.recordId e.1.parentRecordId e.2 t) imported thread
  .ok { db with taskThread := thread }

/-! ## Workflows -/

def newWorkflow (projectId : String) (w : PortableWorkflow) : Workflow where
  id := w.id
  name := w.name
  description := w.description
  yamlContent := w.yamlContent
  enabled := false
  version := w.version
  createdAt := w.createdAt
  updatedAt := w.updatedAt
  projectId := workflowOwner projectId w

/-- The update of a workflow that exists, with its `WHERE` clause. -/
def reviseWorkflow (scheduleChanged : Bool) (w : PortableWorkflow) (r : Workflow) : Workflow :=
  if sameDefinition w r && r.updatedAt = w.updatedAt then r
  else
    { r with
      name := w.name
      description := w.description
      yamlContent := w.yamlContent
      version := w.version
      updatedAt := w.updatedAt
      revision := r.revision + 1
      lastTriggeredAt := if scheduleChanged then none else r.lastTriggeredAt
      triggerError := if scheduleChanged then none else r.triggerError }

namespace Db

/-- `schedule_changed`. -/
def scheduleChanged (db : Db) (w : PortableWorkflow) : Except Error Bool :=
  match db.workflow? w.id with
  | none => .ok false
  | some previous =>
      match texts.parse previous.yamlContent, texts.parse w.yamlContent with
      | some old, some new => .ok (old.schedule ≠ new.schedule)
      | _, _ => .error (.workflow s!"invalid workflow YAML of '{w.id}'")

/-- `import_workflows` on one workflow. -/
def importWorkflow (projectId : String) (db : Db) (w : PortableWorkflow) : Except Error Db := do
  let changed ← db.scheduleChanged texts w
  .ok { db with
    workflows := Table.upsert (·.id) w.id (newWorkflow projectId w) (reviseWorkflow changed w)
      db.workflows
    projectWorkflows :=
      if (projectId, w.id) ∈ db.projectWorkflows then db.projectWorkflows
      else db.projectWorkflows ++ [(projectId, w.id)] }

/-- `import_workflows`. -/
def importWorkflows (db : Db) (s : PortableSnapshot) : Except Error Db :=
  each (importWorkflow texts s.project.id) s.workflows db

end Db

/-! ## Memory -/

/-- The text that is searched for a note. -/
def noteText (p : PortableMemoryNote) : String :=
  let tags := String.intercalate " " p.tags
  s!"{p.title}\n{p.summary}\n{p.body}\n{tags}"

def rewriteNote (projectId : String) (p : PortableMemoryNote) (r : MemoryNote) : MemoryNote :=
  { r with
    projectId := projectId
    title := p.title
    body := p.body
    summary := p.summary
    noteType := p.noteType
    state := p.state
    sourceTaskId := p.sourceTaskId
    createdBy := p.createdBy
    pinned := p.pinned
    searchKey := texts.searchKey (noteText p)
    updatedAt := p.updatedAt }

def newNote (projectId : String) (p : PortableMemoryNote) : MemoryNote :=
  rewriteNote texts projectId p
    { id := p.id
      projectId := projectId
      createdAt := p.createdAt
      lastAccessedAt := p.createdAt }

/-- The rows of `project_memory_tags` of a note. -/
def tagsOf (p : PortableMemoryNote) : List MemoryTag :=
  p.tags.map fun tag => ⟨p.id, tag, texts.searchKey tag⟩

/-- The row of `project_memory_embeddings` of a note. -/
def embeddingsOf (projectId : String) (p : PortableMemoryNote) : List MemoryEmbedding :=
  if p.state = "archived" then []
  else [⟨p.id, texts.embedding (texts.searchKey (noteText p)), projectId⟩]

namespace Db

/-- `import_memory` on one note.  The tags of a note have different keys. -/
def importNote (projectId : String) (db : Db) (p : PortableMemoryNote) : Except Error Db := do
  require (p.tags.map texts.searchKey).Nodup .database
  .ok { db with
    notes := Table.upsert (·.id) p.id (newNote texts projectId p)
      (rewriteNote texts projectId p) db.notes
    tags := db.tags.filter (·.noteId ≠ p.id) ++ tagsOf texts p
    embeddings := db.embeddings.filter (·.noteId ≠ p.id) ++ embeddingsOf texts projectId p }

/-- `import_memory`. -/
def importMemory (db : Db) (s : PortableSnapshot) : Except Error Db := do
  let db ← each (importNote texts s.project.id) s.memoryNotes db
  .ok { db with
    links := Table.upsertAll (·.key) (·.key) (fun l => l)
      (fun l r => { r with strength := l.strength }) s.memoryLinks db.links }

end Db

/-! ## Messages of Conversations -/

/-- `CONVERSATION_MESSAGE_DELETED_AT_KEY`. -/
def deletedAtKey : String := "xpressclaw_deleted_at"

/-- `conversation_message_metadata`: the metadata, and when the message was deleted. -/
def conversationMessageMetadata : Json → Except Error (Json × Option String)
  | .obj fields =>
      let rest := Json.obj (fields.filter (·.1 ≠ deletedAtKey))
      match fields.lookup deletedAtKey with
      | none => .ok (rest, none)
      | some (.str deletedAt) => .ok (rest, some deletedAt)
      | some _ => .error (.sync "Conversation message deletion marker must be a timestamp")
  | _ => .error (.sync "Conversation message metadata must be an object")

/-- The later of two deletions. -/
def laterDeletion : Option String → Option String → Option String
  | some a, some b => some (if b < a then a else b)
  | some a, none => some a
  | none, b => b

/-- `import_conversation_messages` on one message, whose metadata has been taken apart. -/
def conversationRecord (p : PortableConversationMessage) (metadata : Json)
    (remote : Option String) : Record ConversationMessage where
  recordId := p.recordId
  parentRecordId := p.parentRecordId
  check m := require
    (m.conversationId = p.conversationId ∧ m.senderType = p.senderType ∧
      m.senderId = p.senderId ∧ m.senderName = p.senderName ∧ m.content = p.content ∧
      m.messageType = p.messageType ∧ m.metadata = metadata ∧ m.createdAt = p.createdAt)
    (.sync s!"immutable Conversation message record '{p.recordId}' differs from the local copy")
  set m :=
    { m with
      linkedTaskId := p.linkedTaskId
      deletedAt := laterDeletion m.deletedAt remote
      processed := if (laterDeletion m.deletedAt remote).isNone then m.processed else true }
  insert n :=
    { id := n
      conversationId := p.conversationId
      senderType := p.senderType
      senderId := p.senderId
      senderName := p.senderName
      content := p.content
      messageType := p.messageType
      linkedTaskId := p.linkedTaskId
      metadata := metadata
      createdAt := p.createdAt
      processed := true
      deletedAt := remote }

namespace Db

variable (db : Db)

/-- The string under `target_agent_id` in the metadata. -/
def targetOf : Json → Option String
  | .obj fields =>
      match fields.lookup "target_agent_id" with
      | some (.str target) => some target
      | _ => none
  | _ => none

/-- The conversations as the queue of turns sees them. -/
def lanes : Conversations.Db where
  projects := db.projects.map fun p => ⟨p.id, p.deletionStartedAt.isSome⟩
  agents := db.agents.map fun a => ⟨a.id, a.projectId⟩
  tasks := db.tasks.map fun t => ⟨t.id, t.agentId, t.conversationId⟩
  conversations := db.conversations.map fun c => ⟨c.id, c.projectId⟩
  participants := db.participants.map (·.key)
  messages := db.chatThread.messages.map fun m =>
    { id := m.id
      conversationId := m.conversationId
      senderType := m.senderType
      senderId := m.senderId
      content := m.content
      targetAgentId := targetOf m.metadata
      deleted := m.deletedAt.isSome }
  turns := db.turns
  connectCommands := db.connectCommands
  nextMessageId := db.chatThread.nextId
  nextTurnId := db.nextTurnId
  clock := db.clock

/-- `reconcile_message_deletion_turns`: the running turns it stopped. -/
def reconcileMessageDeletionTurns (conversationId : String) (messageId : ℕ) :
    Except Error (List ℕ × Db) :=
  match Conversations.Db.reconcileMessageDeletionTurns conversationId messageId db.lanes with
  | .error e => .error (.conversation e)
  | .ok (stopped, lanes) =>
      .ok (stopped, { db with turns := lanes.turns, nextTurnId := lanes.nextTurnId })

/-- The turns of a message that became deleted are reconciled. -/
def stopTurns (conversationId : String) (messageId : ℕ) (becameDeleted : Bool) :
    Except Error (List ℕ × Db) :=
  if becameDeleted then db.reconcileMessageDeletionTurns conversationId messageId
  else .ok ([], db)

/-- What the import of a message does when it is deleted; `becameDeleted` says that it was not
deleted before. -/
def settleDeletion (conversationId : String) (m : ConversationMessage) (becameDeleted : Bool) :
    Except Error (List ℕ × Db) :=
  if m.deletedAt.isNone then .ok ([], db)
  else do
    let (stopped, db) ← db.stopTurns conversationId m.id becameDeleted
    .ok (stopped, { db with
      attachments := db.attachments.filter (· ≠ m.id)
      visualizations := db.visualizations.filter (· ≠ m.id) })

/-- The first loop of `import_conversation_messages` on one message: whether it already existed,
and the turns that were stopped. -/
def importConversationMessage (p : PortableConversationMessage) :
    Except Error ((Bool × List ℕ) × Db) := do
  let (metadata, remote) ← conversationMessageMetadata p.metadata
  let wasDeleted := (db.chatThread.find ConversationMessage.id p.recordId).any (·.deletedAt.isSome)
  let (existed, chat) ← Thread.importRecord ConversationMessage.id db.chatThread
    (conversationRecord p metadata remote)
  match chat.find ConversationMessage.id p.recordId with
  | none => .error .database
  | some m => do
      let (stopped, db) ← { db with chatThread := chat }.settleDeletion p.conversationId m
        (existed && !wasDeleted)
      .ok ((existed, stopped), db)

/-- `created_at` of the newest message of a conversation. -/
def lastMessageAt (conversationId : String) : Option String :=
  (Table.latest (fun m : ConversationMessage => texts.julianday m.createdAt)
    (db.chatThread.messages.filter fun m =>
      m.conversationId = conversationId && m.deletedAt.isNone)).map (·.createdAt)

/-- `UPDATE conversations SET last_message_at = …`. -/
def touch (lastMessageAt : Option String) (r : Conversation) : Conversation :=
  { r with lastMessageAt := lastMessageAt }

/-- `import_conversation_messages`: the turns that were stopped. -/
def importConversationMessages (s : PortableSnapshot) : Except Error (List ℕ × Db) := do
  let messages ← inImportOrder (fun p : PortableConversationMessage =>
    (p.recordId, p.parentRecordId, p.createdAt)) s.conversationMessages
  let (imported, db) ← eachWith importConversationMessage messages db
  let chat ← each (fun t (e : PortableConversationMessage × (Bool × List ℕ)) =>
    Thread.importParent "Conversation" e.1.recordId e.1.parentRecordId e.2.1 t) imported
    db.chatThread
  let db := { db with chatThread := chat }
  .ok ((imported.flatMap (·.2.2)).dedup, { db with
    conversations := Table.modifyAll (·.id) (·.id)
      (fun (c : PortableConversation) => touch (db.lastMessageAt texts c.id)) s.conversations
      db.conversations })

/-- `import_transaction`: the turns that were stopped. -/
def importTransaction (s : PortableSnapshot) (allowActiveConversations : Bool) :
    Except Error (List ℕ × Db) := do
  db.ensureProjectAcceptsWork s.project.id
  require (¬ db.projectIsActive s.project.id (!allowActiveConversations))
    (.sync "Project synchronization requires a quiescent Project; stop the server or wait for active work")
  db.validateLocalScopes s
  let db := ((db.importProject s.project).importAgents s).importConversations s
  let db ← db.importTasks texts s
  db.validateMergedTaskGraph s.project.id
  let db ← db.importTaskMessages s
  let db ← db.importWorkflows texts s
  let db ← db.importMemory texts s
  db.importConversationMessages texts s

end Db

end XpressClaw.Sync
