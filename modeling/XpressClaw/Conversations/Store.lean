import Mathlib.Data.List.Dedup
import Mathlib.Data.List.MinMax
import Mathlib.Data.List.Sort

/-!
# The conversation database

The tables `ConversationManager` and `ConversationTurnQueue` read and write, one row type
for each, in insertion (`rowid`) order.  Turn identifiers, which the source draws with
`Uuid::new_v4`, are numbers from the counter `nextTurnId`; `nextMessageId` is the
`AUTOINCREMENT` sequence of the messages, which never hands out a number twice; `clock` is
what `CURRENT_TIMESTAMP` shows.

Timestamps other than `queued_at`, native sessions, artifacts and display names decide
nothing here and are left out.
-/

namespace XpressClaw.Conversations

/-- `conversation_turns.status`. -/
inductive TurnStatus where
  | queued
  | running
  | completed
  | failed
  | cancelled
  deriving DecidableEq

/-- The statuses of the partial unique index `idx_conversation_turns_active_agent`. -/
def TurnStatus.active (s : TurnStatus) : Bool := s = .queued || s = .running

/-- A row of `conversation_turns`. -/
structure ConversationTurn where
  id : ℕ
  conversationId : String
  agentId : String
  triggerMessageId : Option ℕ
  status : TurnStatus := .queued
  resultMessageId : Option ℕ := none
  errorMessage : Option String := none
  queuedAt : ℕ := 0
  deriving DecidableEq

/-- `COALESCE(trigger_message_id, 0)`. -/
def ConversationTurn.trigger (t : ConversationTurn) : ℕ := t.triggerMessageId.getD 0

/-- A row of `conversation_messages`.  `targetAgentId` is the string under
`target_agent_id` in the metadata, and `deleted` says that `deleted_at` is set. -/
structure ConversationMessage where
  id : ℕ
  conversationId : String
  senderType : String
  senderId : String
  content : String
  targetAgentId : Option String := none
  deleted : Bool := false
  deriving DecidableEq

/-- What a caller sends. -/
structure SendMessage where
  senderType : String
  senderId : String
  content : String

/-- A row of `conversation_participants`. -/
structure Participant where
  conversationId : String
  participantType : String
  participantId : String
  deriving DecidableEq

/-- A row of `conversations`. -/
structure Conversation where
  id : String
  projectId : Option String := none

/-- A row of `projects`; `deleting` says that `deletion_started_at` is set. -/
structure Project where
  id : String
  deleting : Bool := false

/-- A row of `agents`. -/
structure Agent where
  id : String
  projectId : Option String := none

/-- A row of `tasks`, as far as routing reads it. -/
structure Task where
  id : String
  agentId : Option String
  conversationId : Option String

/-- A row of `connect_commands`, as far as turns read it. -/
structure ConnectCommand where
  id : String
  conversationId : Option String
  turnId : Option ℕ
  status : String
  leaseUntil : Option ℤ

/-- The database. -/
structure Db where
  projects : List Project := []
  agents : List Agent := []
  tasks : List Task := []
  conversations : List Conversation := []
  participants : List Participant := []
  messages : List ConversationMessage := []
  turns : List ConversationTurn := []
  connectCommands : List ConnectCommand := []
  nextMessageId : ℕ := 1
  nextTurnId : ℕ := 0
  clock : ℕ := 0

/-- What a call can fail with. -/
inductive Error where
  | conversationNotFound (id : String)
  | agentNotFound (name : String)
  | taskNotFound (id : String)
  | projectNotFound (id : String)
  | project (text : String)
  | conversation (text : String)
  /-- A statement that violates a foreign key or the unique index on active turns. -/
  | constraint
  deriving DecidableEq

/-- A transaction: it commits, or it fails and leaves the database alone. -/
abbrev Tx (α : Type) := Db → Except Error (α × Db)

namespace Db

variable (db : Db)

/-- `ensure_project_accepts_work`. -/
def ensureProjectAcceptsWork (projectId : String) : Except Error Unit :=
  match db.projects.find? (·.id = projectId) with
  | none => .error (.projectNotFound projectId)
  | some project =>
      if project.deleting then
        .error (.project s!"Project '{projectId}' is being deleted and cannot accept new work; retry the confirmed deletion or choose another Project")
      else .ok ()

/-- `ensure_project_accepts_work` on the project a row belongs to, if it belongs to one. -/
def ensureAcceptsWork : Option String → Except Error Unit
  | none => .ok ()
  | some projectId => db.ensureProjectAcceptsWork projectId

/-- The conversation's project, or the error every caller reports when there is no such
conversation. -/
def conversationProject (conversationId : String) : Except Error (Option String) :=
  match db.conversations.find? (·.id = conversationId) with
  | none => .error (.conversationNotFound conversationId)
  | some conversation => .ok conversation.projectId

/-- The participant of the given type is in the conversation. -/
def isParticipant (conversationId participantType participantId : String) : Bool :=
  ⟨conversationId, participantType, participantId⟩ ∈ db.participants

/-- The message is stored in the conversation and visible. -/
def isVisible (conversationId : String) (messageId : ℕ) : Bool :=
  db.messages.any fun m => m.id = messageId && m.conversationId = conversationId && !m.deleted

/-- The conversation is driven by Connect commands. -/
def connected (conversationId : String) : Bool :=
  db.connectCommands.any (·.conversationId = some conversationId)

/-- There is such a conversation. -/
def hasConversation (conversationId : String) : Bool :=
  db.conversations.any (·.id = conversationId)

/-- The rows of the agent in the conversation. -/
def turnsOf (conversationId agentId : String) : List ConversationTurn :=
  db.turns.filter fun t => t.conversationId = conversationId && t.agentId = agentId

/-- `UPDATE conversation_turns SET … WHERE …`. -/
def updateTurns (where_ : ConversationTurn → Bool) (set : ConversationTurn → ConversationTurn) :
    Db :=
  { db with turns := db.turns.map fun t => if where_ t then set t else t }

/-- `INSERT INTO conversation_turns` of a queued row, which fails on a foreign key, or on
the unique index when the agent already has an active turn in the conversation. -/
def insertTurn (conversationId agentId : String) (triggerMessageId : ℕ) : Except Error Db :=
  if !db.hasConversation conversationId || !db.agents.any (·.id = agentId) ||
      !db.messages.any (·.id = triggerMessageId) ||
      (db.turnsOf conversationId agentId).any (·.status.active) then
    .error .constraint
  else
    .ok { db with
      turns := db.turns ++ [{
        id := db.nextTurnId
        conversationId := conversationId
        agentId := agentId
        triggerMessageId := some triggerMessageId
        queuedAt := db.clock }]
      nextTurnId := db.nextTurnId + 1 }

/-- The row that `INSERT INTO conversation_messages` stores. -/
def newMessage (conversationId : String) (msg : SendMessage) (targetAgentId : Option String) :
    ConversationMessage where
  id := db.nextMessageId
  conversationId := conversationId
  senderType := msg.senderType
  senderId := msg.senderId
  content := msg.content
  targetAgentId := targetAgentId

/-- `INSERT INTO conversation_messages`, which fails on the foreign key when there is no
such conversation. -/
def insertMessage (conversationId : String) (msg : SendMessage) (targetAgentId : Option String) :
    Except Error (ConversationMessage × Db) :=
  if !db.hasConversation conversationId then .error .constraint
  else
    let stored := db.newMessage conversationId msg targetAgentId
    .ok (stored, { db with
      messages := db.messages ++ [stored]
      nextMessageId := db.nextMessageId + 1 })

end Db

/-! ## Addressing -/

/-- `parse_mentions`, with the text as a list of characters: the part between `@[` and the
next `]`, if it has a type, an id and a display name.  The text is not longer than the
fuel. -/
def parseMentionsAux : ℕ → List Char → List (String × String × String)
  | 0, _ => []
  | _ + 1, [] => []
  | fuel + 1, c :: cs =>
      if c = '@' ∧ cs.head? = some '[' then
        let inner := cs.tail.takeWhile (· ≠ ']')
        match cs.tail.dropWhile (· ≠ ']') with
        | [] => []
        | _ :: rest =>
            let kind := inner.takeWhile (· ≠ ':')
            let id := (inner.drop (kind.length + 1)).takeWhile (· ≠ ':')
            if inner.count ':' < 2 then parseMentionsAux fuel rest
            else
              (String.ofList kind, String.ofList id,
                  String.ofList (inner.drop (kind.length + id.length + 2))) ::
                parseMentionsAux fuel rest
      else parseMentionsAux fuel cs

/-- `ConversationManager::parse_mentions`. -/
def parseMentions (content : String) : List (String × String × String) :=
  parseMentionsAux content.toList.length content.toList

/-- `ConversationTurnQueue::agent_mentions`. -/
def agentMentions (content : String) : List String :=
  (parseMentions content).filterMap fun m => if m.1 = "AGENT" then some m.2.1 else none

example : agentMentions "hi @[AGENT:atlas:Atlas] and @[USER:u:U]" = ["atlas"] := by
  decide +kernel

/-- `ConversationTurnQueue::message_targets_agent`. -/
def messageTargetsAgent (senderType senderId agentId : String) (mentions : List String)
    (routedTargetAgentId : Option String) : Bool :=
  if agentId = senderId then false
  else match routedTargetAgentId with
    | some target => agentId = target
    | none => if mentions.isEmpty then senderType ≠ "agent" else agentId ∈ mentions

/-- The message addresses the agent, as the stored row says. -/
def ConversationMessage.targets (m : ConversationMessage) (agentId : String) : Bool :=
  messageTargetsAgent m.senderType m.senderId agentId (agentMentions m.content) m.targetAgentId

/-- `latest_addressed_message`: the newest visible message after one id, and before
another if that is given, that addresses the agent. -/
def Db.latestAddressedMessage (db : Db) (conversationId agentId : String) (after : ℕ)
    (before : Option ℕ) : Option ℕ :=
  ((db.messages.filter fun m => m.conversationId = conversationId && after < m.id &&
    before.all (m.id < ·) && !m.deleted && m.targets agentId).map (·.id)).max?

/-- `latest_prompt_boundary_before_message`: `SELECT MAX(trigger_message_id)` over the
interrupted turns of the agent, and over the completed ones if asked. -/
def Db.latestPromptBoundaryBefore (db : Db) (conversationId agentId : String) (before : ℕ)
    (includeCompleted : Bool) : Option ℕ :=
  (((db.turnsOf conversationId agentId).filter fun t => t.status = .cancelled ||
    t.status = .failed || (includeCompleted && t.status = .completed)).filterMap
      (·.triggerMessageId) |>.filter (· < before)).max?

end XpressClaw.Conversations
