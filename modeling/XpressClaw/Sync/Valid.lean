import XpressClaw.Lib.Utf8
import XpressClaw.Projects.Graphs
import XpressClaw.Sync.Messages
import XpressClaw.Workflow.Validate

/-!
# Snapshots that the store accepts

`validate`, all of it, on a snapshot with the descriptor of its store.

Doubles are rational numbers here, so that the tests for infinite ones are left out.
-/

namespace XpressClaw.Sync

open Lib Projects

/-- `StoreDescriptor`. -/
structure StoreDescriptor where
  version : ℕ
  projectId : String
  deriving DecidableEq

/-- `PortableSnapshot`, as the store has it. -/
structure StoreSnapshot extends PortableSnapshot where
  descriptor : StoreDescriptor

/-- The functions of libraries that the validation calls. -/
structure Formats where
  env : Env
  /-- `serde_yaml::from_str` on the YAML of a workflow. -/
  parseWorkflow : String → Except String Definition
  /-- Whether `NaiveDateTime::parse_from_str` reads `%Y-%m-%d %H:%M:%S%.f`. -/
  sqliteTimestamp : String → Bool
  /-- `task_search_key`. -/
  searchKey : String → String

def storeVersion : ℕ := 1

def maxRecordsPerKind : ℕ := 100000

def conversationMessageDeletedAtKey : String := "xpressclaw_deleted_at"

namespace Store

variable (f : Formats)

/-! ## Checks of texts -/

/-- `validate_identifier`. -/
def validateIdentifier (field value : String) : Except Error Unit := do
  require (¬ (value = "" ∨ 200 < Utf8.byteLen value.toList))
    (.sync s!"{field} must contain between 1 and 200 bytes")
  require (¬ value.toList.any Text.isControl) (.sync s!"{field} contains control characters")

/-- `validate_text`. -/
def validateText (field value : String) (max : ℕ) (allowEmpty : Bool) : Except Error Unit := do
  require (¬ ((!allowEmpty ∧ Text.trim value = "") ∨ max < Utf8.byteLen value.toList))
    (.sync s!"{field} must contain {(!allowEmpty).toNat} to {max} bytes")
  require ('\x00' ∉ value.toList) (.sync s!"{field} contains a NUL byte")

/-- `validate_required_chars`. -/
def validateRequiredChars (field value : String) (max : ℕ) : Except Error Unit := do
  validateText field value (max * 4) false
  require (value.toList.length ≤ max)
    (.sync s!"{field} must contain between 1 and {max} characters")

/-- `validate_timestamp`. -/
def validateTimestamp (field value : String) : Except Error Unit := do
  validateText field value 80 false
  require (f.sqliteTimestamp value ∨ (f.env.parseRfc3339 value).isSome)
    (.sync s!"{field} is not a valid timestamp")

/-- A check of a field that may be missing. -/
def onSome {α : Type} (check : α → Except Error Unit) : Option α → Except Error Unit
  | none => .ok ()
  | some a => check a

/-- `validate_optional_text`. -/
def validateOptionalText (field : String) (value : Option String) (max : ℕ) : Except Error Unit :=
  onSome (fun value => validateText field value max true) value

/-- `validate_optional_reference`. -/
def validateOptionalReference (label owner : String) (reference : Option String)
    (valid : List String) : Except Error Unit :=
  require (¬ reference.any (· ∉ valid))
    (.sync s!"{label} on '{owner}' points outside this Project snapshot")

/-! ## Checks of lists -/

/-- A loop with a set of the keys that it has seen; the check learns whether a key is new. -/
def forAllFresh {χ κ : Type} [DecidableEq κ] (key : χ → κ) (check : Bool → χ → Except Error Unit) :
    List κ → List χ → Except Error Unit
  | _, [] => .ok ()
  | seen, x :: xs => do
      check (key x ∉ seen) x
      forAllFresh key check (key x :: seen) xs

/-- `unique_ids`. -/
def uniqueIds (label : String) (ids : List String) : Except Error Unit :=
  forAllFresh id (fun fresh id => do
    validateIdentifier s!"{label} ID" id
    require fresh (.sync s!"duplicate {label} ID '{id}'")) [] ids

/-- An error of `validate_parent_cycles` or `validate_dependency_cycles`. -/
def ofProjects : Except Projects.Error Unit → Except Error Unit
  | .ok () => .ok ()
  | .error e => .error (.project e)

/-- `validate_message_graph`, on the id, the parent and the owner of each message. -/
def validateMessageGraph (label : String) (values : List (String × Option String × String))
    (owners : List String) : Except Error Unit := do
  let ids := values.map (·.1)
  uniqueIds s!"{label} message record" ids
  forAll (fun (id, parent, owner) => do
    require (owner ∈ owners) (.sync s!"{label} message '{id}' references an unknown owner")
    onSome (fun parent => do
      require (parent ∈ ids)
        (.sync s!"{label} message '{id}' references an unknown parent record")
      require (¬ (Table.get Prod.fst values parent).any (·.2.2 ≠ owner))
        (.sync s!"{label} message '{id}' has a parent belonging to another thread")) parent) values
  ofProjects (validateParentCycles label (values.map fun v => (v.1, v.2.1)))

/-! ## Checks of records -/

/-- The checks of one Agent. -/
def validateAgent (agent : PortableAgent) : Except Error Unit := do
  validateIdentifier "Agent ID" agent.id
  validateText "Agent name" agent.name 500 false
  validateText "Agent backend" agent.backend 200 false
  onSome (validateTimestamp f "Agent created_at") agent.createdAt
  require (agent.settings.runner.sessionConfig.length ≤ 200)
    (.sync s!"Agent '{agent.id}' has too many runner session settings")
  require (¬ agent.settings.budget.any fun budget =>
      budget.onExceeded ∉ ["pause", "alert", "degrade", "stop"] ∨ 100 < budget.warnAtPercent)
    (.sync s!"Agent '{agent.id}' has invalid budget settings")

/-- The checks of one Conversation. -/
def validateConversation (conversation : PortableConversation) : Except Error Unit := do
  validateOptionalText "Conversation title" conversation.title 10000
  validateOptionalText "Conversation icon" conversation.icon 10000
  validateTimestamp f "Conversation created_at" conversation.createdAt
  validateTimestamp f "Conversation updated_at" conversation.updatedAt
  onSome (validateTimestamp f "Conversation last_message_at") conversation.lastMessageAt

/-- `normalize_start_after`, of which the result is dropped. -/
def checkStartAfter (value : String) : Except Error Unit :=
  match f.env.normalizeStartAfter value with
  | .ok _ => .ok ()
  | .error e => .error (.task e)

/-- The checks of one task. -/
def validateTask (agentIds taskIds conversationIds : List String) (task : PortableTask) :
    Except Error Unit := do
  validateText "task title" task.title 10000 false
  validateOptionalText "task description" task.description 1500000
  require (task.status ∈ ["pending", "in_progress", "waiting_for_input", "blocked", "completed",
      "cancelled"])
    (.sync s!"task '{task.id}' has invalid status '{task.status}'")
  require (¬ (task.hidden ∨ Text.asciiLower task.taskType ≠ "normal"))
    (.sync s!"task '{task.id}' is hidden or has non-portable task_type '{task.taskType}'")
  validateOptionalReference "task Agent" task.id task.agentId agentIds
  validateOptionalReference "parent task" task.id task.parentTaskId taskIds
  validateOptionalReference "task Conversation" task.id task.conversationId conversationIds
  onSome (checkStartAfter f) task.startAfter
  validateTimestamp f "task created_at" task.createdAt
  validateTimestamp f "task updated_at" task.updatedAt
  onSome (validateTimestamp f "task completed_at") task.completedAt

/-- The checks of one dependency. -/
def validateDependency (taskIds : List String) (fresh : Bool) (d : Tasks.Dependency) :
    Except Error Unit := do
  require (d.taskId ∈ taskIds ∧ d.dependsOnId ∈ taskIds)
    (.sync "task dependency references a task outside this Project snapshot")
  require (¬ (d.taskId = d.dependsOnId ∨ fresh = false))
    (.sync "task dependencies contain a self-edge or duplicate edge")

/-- The checks of one participant. -/
def validateParticipant (conversationIds agentIds : List String) (p : Participant) :
    Except Error Unit := do
  require (p.key.conversationId ∈ conversationIds)
    (.sync "Conversation participant references an unknown Conversation")
  require (p.key.participantType ∈ ["agent", "user"])
    (.sync s!"invalid participant type '{p.key.participantType}'")
  require (¬ (p.key.participantType = "agent" ∧ p.key.participantId ∉ agentIds))
    (.sync "Conversation participant references an Agent outside this Project snapshot")
  validateText "Conversation participant ID" p.key.participantId 500 false
  validateTimestamp f "participant joined_at" p.joinedAt

/-- The check of the deletion marker in the metadata of a message. -/
def validateDeletedAt (message : PortableConversationMessage) : Except Error Unit :=
  match message.metadata.get? conversationMessageDeletedAtKey with
  | none => .ok ()
  | some (.str deletedAt) => validateTimestamp f "Conversation message deleted_at" deletedAt
  | some _ =>
      .error (.sync s!"Conversation message '{message.recordId}' deletion marker must be a timestamp")

/-- The checks of one message of a Conversation. -/
def validateConversationMessage (taskIds : List String) (message : PortableConversationMessage) :
    Except Error Unit := do
  require (¬ message.linkedTaskId.any (· ∉ taskIds))
    (.sync s!"Conversation message '{message.recordId}' links to a task outside this Project snapshot")
  validateText "Conversation message sender_type" message.senderType 100 false
  require (message.senderType ∈ ["user", "agent", "system"])
    (.sync s!"Conversation message '{message.recordId}' has invalid sender_type '{message.senderType}'")
  validateText "Conversation message sender_id" message.senderId 500 false
  validateText "Conversation message type" message.messageType 100 false
  validateOptionalText "Conversation message sender_name" message.senderName 500
  validateText "Conversation message content" message.content 1500000 true
  require message.metadata.asObject.isSome
    (.sync s!"Conversation message '{message.recordId}' metadata must be an object")
  validateTimestamp f "Conversation message created_at" message.createdAt
  validateDeletedAt f message

/-- The checks of one message of a task. -/
def validateTaskMessage (agentIds : List String) (message : PortableTaskMessage) :
    Except Error Unit := do
  validateOptionalReference "task message Agent" message.recordId message.agentId agentIds
  require (¬ (message.agentId.isSome ∧ message.role ≠ "assistant"))
    (.sync "only assistant task messages can have an Agent author")
  validateText "task message role" message.role 100 false
  require (message.role ∈ ["user", "assistant", "system"])
    (.sync s!"task message '{message.recordId}' has invalid role '{message.role}'")
  validateText "task message content" message.content 1500000 true
  validateTimestamp f "task message created_at" message.createdAt

/-- The checks of the YAML of a workflow. -/
def validateWorkflowYaml (workflow : PortableWorkflow) : Except Error Unit :=
  match f.parseWorkflow workflow.yamlContent with
  | .error e => .error (.workflow s!"YAML parse error: {e}")
  | .ok definition =>
      match definition.validate f.env with
      | .error e => .error (.workflow e.text)
      | .ok () =>
          require (definition.name = workflow.name ∧ definition.version = workflow.version)
            (.sync s!"workflow '{workflow.id}' metadata does not match its YAML definition")

/-- The checks of one workflow. -/
def validateWorkflow (fresh : Bool) (workflow : PortableWorkflow) : Except Error Unit := do
  validateText "workflow name" workflow.name 500 false
  validateOptionalText "workflow description" workflow.description 100000
  validateText "workflow YAML definition" workflow.yamlContent 1500000 false
  require fresh (.sync s!"duplicate workflow name '{workflow.name}'")
  validateWorkflowYaml f workflow
  validateTimestamp f "workflow created_at" workflow.createdAt
  validateTimestamp f "workflow updated_at" workflow.updatedAt

/-- The checks of one tag of a memory note. -/
def validateTag (noteId : String) (fresh : Bool) (tag : String) : Except Error Unit := do
  validateRequiredChars "memory note tag" tag 64
  require fresh (.sync s!"memory note '{noteId}' has duplicate normalized tags")

/-- The checks of one memory note. -/
def validateMemoryNote (taskIds : List String) (note : PortableMemoryNote) : Except Error Unit := do
  validateRequiredChars "memory note title" note.title 200
  validateRequiredChars "memory note body" note.body 100000
  validateRequiredChars "memory note summary" note.summary 1000
  require (¬ (note.noteType ∉ ["decision", "convention", "procedure", "fact", "warning",
        "question"] ∨
      note.state ∉ ["inbox", "evergreen", "archived"] ∨
      note.createdBy ∉ ["user", "agent", "upkeep"]))
    (.sync s!"memory note '{note.id}' contains an invalid enum value")
  validateOptionalReference "memory source task" note.id note.sourceTaskId taskIds
  validateTimestamp f "memory note created_at" note.createdAt
  validateTimestamp f "memory note updated_at" note.updatedAt
  require (note.tags.length ≤ 32) (.sync s!"memory note '{note.id}' has more than 32 tags")
  forAllFresh f.searchKey (validateTag note.id) [] note.tags

/-- The checks of one memory link. -/
def validateMemoryLink (noteIds : List String) (fresh : Bool) (link : MemoryLink) :
    Except Error Unit := do
  require (¬ (link.key.fromNoteId ∉ noteIds ∨ link.key.toNoteId ∉ noteIds ∨
      link.key.fromNoteId = link.key.toNoteId ∨ ¬ (0 ≤ link.strength ∧ link.strength ≤ 1) ∨
      link.key.linkType ∉ ["related", "supports", "contradicts", "supersedes", "depends_on",
        "example_of"] ∨ fresh = false))
    (.sync "invalid or duplicate project-memory link")
  validateTimestamp f "memory link created_at" link.createdAt

end Store

/-! ## The check of a snapshot -/

namespace StoreSnapshot

open Store

variable (f : Formats) (s : StoreSnapshot)

/-- How many records of each kind there are. -/
def recordCounts : List (String × ℕ) :=
  [("agents", s.agents.length), ("tasks", s.tasks.length),
    ("task-dependencies", s.taskDependencies.length), ("task-messages", s.taskMessages.length),
    ("conversations", s.conversations.length),
    ("conversation-participants", s.participants.length),
    ("conversation-messages", s.conversationMessages.length), ("workflows", s.workflows.length),
    ("memory-notes", s.memoryNotes.length), ("memory-links", s.memoryLinks.length)]

def agentIds : List String := s.agents.map (·.id)

def taskIds : List String := s.tasks.map (·.id)

def conversationIds : List String := s.conversations.map (·.id)

def noteIds : List String := s.memoryNotes.map (·.id)

/-- The parents of the tasks. -/
def taskParents : List (String × Option String) := s.tasks.map fun t => (t.id, t.parentTaskId)

/-- The dependencies between the tasks. -/
def taskEdges : List (String × String) := s.taskDependencies.map fun d => (d.taskId, d.dependsOnId)

/-- The messages of the Conversations, with their parents and owners. -/
def chatGraph : List (String × Option String × String) :=
  s.conversationMessages.map fun m => (m.recordId, m.parentRecordId, m.conversationId)

/-- The messages of the tasks, with their parents and owners. -/
def taskGraph : List (String × Option String × String) :=
  s.taskMessages.map fun m => (m.recordId, m.parentRecordId, m.taskId)

/-- `PortableSnapshot::validate`. -/
def validate (expectedProjectId : String) : Except Error Unit := do
  forAll (fun (label, count) => require (count ≤ maxRecordsPerKind)
    (.sync s!"{label} contains more than {maxRecordsPerKind} records")) s.recordCounts
  require (s.descriptor.version = storeVersion)
    (.sync s!"unsupported store version {s.descriptor.version}; this release supports version {storeVersion}")
  require (¬ (s.descriptor.projectId ≠ expectedProjectId ∨ s.project.id ≠ expectedProjectId))
    (.sync s!"store Project ID does not match manifest Project '{expectedProjectId}'")
  validateIdentifier "project.id" s.project.id
  validateText "project.name" s.project.name 500 false
  validateOptionalText "project.description" s.project.description 100000
  validateOptionalText "project.icon" s.project.icon 1000
  validateTimestamp f "project.created_at" s.project.createdAt
  validateTimestamp f "project.updated_at" s.project.updatedAt
  Store.uniqueIds "Agent" s.agentIds
  forAll (validateAgent f) s.agents
  Store.uniqueIds "Conversation" s.conversationIds
  forAll (validateConversation f) s.conversations
  Store.uniqueIds "task" s.taskIds
  forAll (Store.validateTask f s.agentIds s.taskIds s.conversationIds) s.tasks
  ofProjects (validateParentCycles "task" s.taskParents)
  forAllFresh id (Store.validateDependency s.taskIds) [] s.taskDependencies
  ofProjects (validateDependencyCycles s.taskIds s.taskEdges)
  require (s.participants.map (·.key)).Nodup (.sync "duplicate Conversation participant")
  forAll (Store.validateParticipant f s.conversationIds s.agentIds) s.participants
  validateMessageGraph "Conversation" s.chatGraph s.conversationIds
  forAll (validateConversationMessage f s.taskIds) s.conversationMessages
  validateMessageGraph "task" s.taskGraph s.taskIds
  forAll (validateTaskMessage f s.agentIds) s.taskMessages
  Store.uniqueIds "workflow" (s.workflows.map (·.id))
  forAllFresh (·.name) (Store.validateWorkflow f) [] s.workflows
  Store.uniqueIds "memory note" s.noteIds
  forAll (validateMemoryNote f s.taskIds) s.memoryNotes
  forAllFresh (·.key) (validateMemoryLink f s.noteIds) [] s.memoryLinks

end StoreSnapshot

end XpressClaw.Sync
