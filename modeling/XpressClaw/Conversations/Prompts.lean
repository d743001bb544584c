import XpressClaw.Conversations.Coverage
import XpressClaw.Conversations.Sessions
import XpressClaw.Lib.Windows

/-!
# Conversation prompts

What an agent is told when its turn runs: `build_conversation_prompt` with the boundary it starts
from, and runs of the workers that claim turns, build prompts and complete.

* `conversationPromptBoundary` — where a prompt starts: behind the last finished turn when a
  session is resumed, and behind the last interrupted one when it is new.
* `World` — the store and the workers of one process; a restart takes the workers away.
* `World.built`, `World.delivered` — the prompts that are built, and the ones that a turn
  completes with.

`CURRENT_TIMESTAMP` is set by `Event.tick`.  What a prompt only shows (names, attachments, the
title) comes from `Captions`.
-/

namespace XpressClaw.Conversations

open Lib

/-! ## The source -/

namespace Db

variable (db : Db)

/-- The visible rows of a conversation. -/
def visible (conversationId : String) : List ConversationMessage :=
  db.messages.filter fun m => m.conversationId = conversationId && !m.deleted

/-- `ConversationManager::get_messages`. -/
def getMessages (conversationId : String) (limit : ℕ) (beforeId : Option ℕ) :
    List ConversationMessage :=
  newest (·.id) limit ((db.visible conversationId).filter fun m => beforeId.all (m.id < ·))

/-- `ConversationManager::get_messages_between`. -/
def getMessagesBetween (conversationId : String) (afterId throughId limit : ℕ) :
    List ConversationMessage :=
  newest (·.id) limit (window (·.id) afterId throughId (db.visible conversationId))

end Db

/-- How a turn starts its native session. -/
inductive AcpSessionStart where
  | new
  | resume (nativeSessionId : String)
  | fork (nativeSessionId : String)
  deriving DecidableEq

/-- A row of `conversation_message_attachments`, as a prompt shows it. -/
structure ConversationAttachment where
  name : String
  id : String
  size : ℕ

/-- What a prompt shows beside the rows. -/
structure Captions where
  /-- `AgentConfig::context_label`. -/
  contextLabel : String
  title : Option String
  projectId : Option String
  senderName : ConversationMessage → Option String
  attachments : ConversationMessage → List ConversationAttachment
  /-- What `Debug` prints for a string. -/
  debug : String → String

/-- The agent wrote the message. -/
def ConversationMessage.ownOf (m : ConversationMessage) (agentId : String) : Bool :=
  m.senderType = "agent" && m.senderId = agentId

/-- The messages of a prompt. -/
def Db.promptMessages (db : Db) (turn : ConversationTurn) (sessionStart : AcpSessionStart)
    (previousTriggerMessageId : Option ℕ) : List ConversationMessage :=
  let messages :=
    match previousTriggerMessageId, turn.triggerMessageId with
    | some afterId, some throughId => db.getMessagesBetween turn.conversationId afterId throughId 80
    | none, some throughId => db.getMessagesBetween turn.conversationId 0 throughId 80
    | _, none => db.getMessages turn.conversationId 80 none
  messages.filter fun m => sessionStart = .new || !m.ownOf turn.agentId

/-- The lines of a message in a prompt. -/
def Captions.line (captions : Captions) (m : ConversationMessage) : String :=
  let name := (captions.senderName m).getD m.senderId
  s!"[{name}]: {m.content}\n" ++ String.join ((captions.attachments m).map fun a =>
    s!"  [file: {a.name} | attachment_id: {a.id} | {a.size} bytes]\n")

/-- The text of `build_conversation_prompt` around its history. -/
def Captions.text (captions : Captions) (conversationId : String) (resumed : Bool)
    (history : String) : String :=
  let title := captions.debug (captions.title.getD "Untitled conversation")
  let projectId := captions.projectId.getD "unassigned"
  let label := if resumed then "New conversation activity since your previous response"
    else "Recent conversation history"
  s!"You are {captions.contextLabel} participating in the project conversation {title}. " ++
  "Reply conversationally and concisely to the newest messages addressed to you. Your normal " ++
  "final response is automatically delivered to this project conversation; use it for your " ++
  "one final reply. Reserve send_conversation_message for genuine interim updates or " ++
  "publishing workspace files while you continue working. Never use the tool to duplicate " ++
  "your final response. You are in an independent chat lane, so do not duplicate a " ++
  "long-running task. If substantial work is needed, use create_conversation_task to create " ++
  "it and tell the participants. Use download_conversation_attachment with an attachment_id " ++
  "when you need to inspect a published file. Other Agents may be working in parallel.\n\n" ++
  s!"Conversation ID: {conversationId}\nProject ID: {projectId}\n\n{label}:\n{history}"

/-- `build_conversation_prompt`. -/
def buildConversationPrompt (captions : Captions) (db : Db) (turn : ConversationTurn)
    (sessionStart : AcpSessionStart) (previousTriggerMessageId : Option ℕ) : String :=
  let messages := db.promptMessages turn sessionStart previousTriggerMessageId
  captions.text turn.conversationId previousTriggerMessageId.isSome
    (String.join (messages.map captions.line))

/-- `conversation_prompt_boundary`. -/
def conversationPromptBoundary (db : Db) (turn : ConversationTurn)
    (sessionStart : AcpSessionStart) : Option ℕ :=
  turn.triggerMessageId.bind fun triggerMessageId =>
    match sessionStart with
    | .new => db.latestPromptBoundaryBefore turn.conversationId turn.agentId triggerMessageId false
    | .resume _ | .fork _ =>
        db.latestPromptBoundaryBefore turn.conversationId turn.agentId triggerMessageId true

/-- `ConversationTurnQueue::session`: nothing when there is no row. -/
def SessionDb.session (s : SessionDb) (conversationId agentId : String) :
    Option (Option String) :=
  (s.sessions.find? fun x => x.conversationId = conversationId && x.agentId = agentId).map
    (·.nativeSessionId)

/-- A prompt, with what it was built from. -/
structure Prompt where
  turn : ConversationTurn
  sessionStart : AcpSessionStart
  messages : List ConversationMessage
  content : String
  deriving DecidableEq

/-- The trigger that a prompt answers. -/
def Prompt.trigger (p : Prompt) : ℕ := p.turn.trigger

/-- What a worker builds for its turn. -/
def SessionDb.prompt (captions : ConversationTurn → Captions) (s : SessionDb)
    (turn : ConversationTurn) : Option Prompt :=
  (s.session turn.conversationId turn.agentId).map fun native =>
    let sessionStart := native.elim .new .resume
    let previous := conversationPromptBoundary s.db turn sessionStart
    { turn
      sessionStart
      messages := s.db.promptMessages turn sessionStart previous
      content := buildConversationPrompt (captions turn) s.db turn sessionStart previous }

/-! ## Workers -/

/-- A worker that has claimed a turn, and the prompt it has built. -/
structure Worker where
  turn : ConversationTurn
  prompt : Option Prompt := none

/-- The store, and the workers of the process that is up. -/
structure World where
  store : SessionDb
  workers : List Worker := []

/-- One step of a run. -/
inductive Event where
  | sendRouted (conversationId : String) (msg : SendMessage) (targetAgentId : Option String)
  | sendAgentRouted (conversationId : String) (msg : SendMessage) (sourceTaskId : Option String)
  | sendTargeted (conversationId targetAgentId : String) (msg : SendMessage)
  /-- A message that queues nobody, such as the one of a linked task. -/
  | sendStructured (conversationId : String) (msg : SendMessage) (targetAgentId : Option String)
  | claimNext
  /-- The worker of the turn builds its prompt. -/
  | prompt (turnId : ℕ)
  /-- The worker of the turn publishes the response to its prompt. -/
  | complete (turnId : ℕ) (content nativeSessionId : String)
  /-- The process ends, and the next one recovers what was running. -/
  | restart
  | tick (now : ℕ)

/-- Nobody wakes itself: the scheduler, which sends targeted messages, is not an agent. -/
def Event.FromOthers : Event → Prop
  | .sendTargeted _ target msg => ¬ (msg.senderType = "agent" ∧ msg.senderId = target)
  | _ => True

/-- `ConversationManager::send_structured_message`. -/
def SessionDb.sendStructured (s : SessionDb) (conversationId : String) (msg : SendMessage)
    (targetAgentId : Option String) : SessionDb :=
  match SessionTx.lift (Db.insertStructuredMessage conversationId msg targetAgentId) s with
  | .ok (_, s') => s'
  | .error _ => s

namespace World

variable (captions : ConversationTurn → Captions) (w : World)

/-- The worker that has claimed the turn. -/
def workerOf (turnId : ℕ) : Option Worker := w.workers.find? (·.turn.id = turnId)

/-- The prompt that an event builds. -/
def built : Event → Option Prompt
  | .prompt turnId =>
      (w.workerOf turnId).bind fun k =>
        if k.prompt.isNone && w.store.db.turns.any (fun t => t.id = turnId &&
            t.status = .running && w.store.db.hasParticipant t) then
          w.store.prompt captions k.turn
        else none
  | _ => none

/-- The call that publishes the response of a worker. -/
def completion (k : Worker) (content nativeSessionId : String) : Call :=
  .op (.completeWithMessage k.turn
    { senderType := "agent", senderId := k.turn.agentId, content } none) nativeSessionId

/-- The prompt of the turn that an event completes. -/
def delivered : Event → Option Prompt
  | .complete turnId content native =>
      (w.workerOf turnId).bind fun k => k.prompt.bind fun p =>
        match w.store.reply (completion k content native) with
        | some (.published (some _)) => some p
        | _ => none
  | _ => none

def step : Event → World
  | .sendRouted c msg target => { w with store := w.store.step (.op (.sendRouted c msg target) "") }
  | .sendAgentRouted c msg task =>
      { w with store := w.store.step (.op (.sendAgentRouted c msg task) "") }
  | .sendTargeted c target msg =>
      { w with store := w.store.step (.op (.sendTargeted c target msg) "") }
  | .sendStructured c msg target => { w with store := w.store.sendStructured c msg target }
  | .claimNext =>
      { store := w.store.step (.op .claimNext "")
        workers := w.workers ++ (claimed w.store.db .claimNext).toList.map ({ turn := · }) }
  | .prompt turnId =>
      match w.built captions (.prompt turnId) with
      | some p =>
          { w with
            workers := w.workers.map fun k =>
              if k.turn.id = turnId then { k with prompt := some p } else k }
      | none => w
  | .complete turnId content native =>
      match w.workerOf turnId with
      | some k =>
          let call := completion k content native
          if k.prompt.isSome && (w.store.reply call).isSome then
            { store := w.store.step call, workers := w.workers.filter (·.turn.id ≠ turnId) }
          else w
      | none => w
  | .restart => { store := w.store.step (.op .recover "") }
  | .tick now => { w with store := w.store.step (.op (.tick now) "") }

end World

end XpressClaw.Conversations
