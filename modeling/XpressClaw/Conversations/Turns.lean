import XpressClaw.Conversations.Store

/-!
# Conversation turns

The transactions of `ConversationTurnQueue` and the ones of `ConversationManager` that
touch turns, one definition for each function of the source.  An `Op` is one call of the
public interface, `step` is what it leaves behind, and `reply` what it returns.
-/

namespace XpressClaw.Conversations

namespace Db

/-! ## Queuing -/

/-- A message behind a queued turn advances the turn's high-water mark. -/
def raiseTrigger (turnId triggerMessageId : ℕ) (db : Db) : Db :=
  db.updateTurns (·.id = turnId) fun t =>
    { t with triggerMessageId := some (max t.trigger triggerMessageId) }

/-- `ConversationTurnQueue::enqueue_in_transaction`: true when a new turn was inserted. -/
def enqueueInTransaction (conversationId agentId : String) (triggerMessageId : ℕ) : Tx Bool :=
  fun db => do
  let projectId ← db.conversationProject conversationId
  db.ensureAcceptsWork projectId
  if !db.isVisible conversationId triggerMessageId then
    .error (.conversation s!"message {triggerMessageId} does not belong to conversation {conversationId}")
  else if !db.isParticipant conversationId "agent" agentId then
    .ok (false, db)
  else
    match ((db.turnsOf conversationId agentId).filter (·.status.active)).argmax (·.queuedAt) with
    | some existing =>
        if existing.status = .queued then
          .ok (false, db.raiseTrigger existing.id triggerMessageId)
        else .ok (false, db)
    | none => do
        let db ← db.insertTurn conversationId agentId triggerMessageId
        .ok (true, db)

/-- The agents of `enqueue_for_message_in_transaction`, in the order in which they are
queued. -/
def messageTargets (db : Db) (conversationId senderType senderId content : String) :
    List String :=
  let agents := db.participants.filterMap fun p =>
    if p.conversationId = conversationId ∧ p.participantType = "agent" then
      some p.participantId else none
  ((agents.filter fun agentId =>
      messageTargetsAgent senderType senderId agentId (agentMentions content) none)
    |>.insertionSort (· ≤ ·)).dedup

/-- The loop of `enqueue_for_message_in_transaction`. -/
def enqueueAll (conversationId : String) (messageId : ℕ) : List String → Tx (List String)
  | [] => fun db => .ok ([], db)
  | agentId :: agents => fun db => do
      let (inserted, db) ← enqueueInTransaction conversationId agentId messageId db
      let (queued, db) ← enqueueAll conversationId messageId agents db
      .ok (if inserted then agentId :: queued else queued, db)

/-- `ConversationTurnQueue::enqueue_for_message_in_transaction`. -/
def enqueueForMessage (conversationId : String) (messageId : ℕ)
    (senderType senderId content : String) : Tx (List String) := fun db =>
  if db.connected conversationId then .ok ([], db)
  else enqueueAll conversationId messageId
    (db.messageTargets conversationId senderType senderId content) db

/-! ## Claiming -/

/-- The turn's agent takes part in the turn's conversation. -/
def hasParticipant (db : Db) (t : ConversationTurn) : Bool :=
  db.isParticipant t.conversationId "agent" t.agentId

/-- Cancel the queued turns of agents that left. -/
def cancelStrayTurns (db : Db) : Db :=
  db.updateTurns (fun t => t.status = .queued && !db.hasParticipant t) fun t =>
    { t with
      status := .cancelled
      errorMessage := some "Agent is no longer a conversation participant" }

/-- A queued turn starts to run. -/
def startTurn (turnId : ℕ) (db : Db) : Db :=
  db.updateTurns (fun t => t.id = turnId && t.status = .queued) fun t =>
    { t with status := .running, errorMessage := none }

/-- `ConversationTurnQueue::claim_next`. -/
def claimNext (db : Db) : Option ConversationTurn × Db :=
  let db := db.cancelStrayTurns
  match (db.turns.filter fun t => t.status = .queued && db.hasParticipant t).argmin
      (·.queuedAt) with
  | none => (none, db)
  | some next => ((db.startTurn next.id).turns.find? (·.id = next.id), db.startTurn next.id)

/-! ## Finishing -/

/-- A running turn gets its final status. -/
def endTurn (turnId : ℕ) (status : TurnStatus) (resultMessageId : Option ℕ)
    (error : Option String) (db : Db) : Db :=
  db.updateTurns (fun t => t.id = turnId && t.status = .running) fun t =>
    { t with status := status, resultMessageId := resultMessageId, errorMessage := error }

/-- `ConversationTurnQueue::finish_in_transaction`. -/
def finishInTransaction (turn : ConversationTurn) (status : TurnStatus)
    (resultMessageId : Option ℕ) (error : Option String) : Tx Bool := fun db =>
  if !db.turns.any (fun t => t.id = turn.id && t.status = .running) then .ok (false, db)
  else if !resultMessageId.all (fun m => db.messages.any (·.id = m)) then .error .constraint
  else
    let db := db.endTurn turn.id status resultMessageId error
    match db.latestAddressedMessage turn.conversationId turn.agentId turn.trigger none with
    | none => .ok (true, db)
    | some latest => do
        let db ← db.insertTurn turn.conversationId turn.agentId latest
        .ok (true, db)

/-- `ConversationTurnQueue::complete_with_message`; `targetAgentId` is what the metadata
names. -/
def completeWithMessage (turn : ConversationTurn) (msg : SendMessage)
    (targetAgentId : Option String) : Tx (Option ConversationMessage) := fun db =>
  if !db.turns.any (fun t => t.id = turn.id && t.status = .running && db.hasParticipant t) then
    .ok (none, db)
  else do
    let (stored, db) ← db.insertMessage turn.conversationId msg targetAgentId
    let (_, db) ← enqueueForMessage turn.conversationId stored.id msg.senderType msg.senderId
      msg.content db
    let (_, db) ← finishInTransaction turn .completed (some stored.id) none db
    .ok (some stored, db)

/-- `ConversationTurnQueue::complete`. -/
def complete (turn : ConversationTurn) (resultMessageId : ℕ) : Tx Bool :=
  finishInTransaction turn .completed (some resultMessageId) none

/-- `ConversationTurnQueue::fail`. -/
def fail (turn : ConversationTurn) (error : String) : Tx Bool :=
  finishInTransaction turn .failed none (some error)

/-! ## Stopping and recovering -/

/-- `ConversationTurnCancellation`. -/
structure Cancellation where
  turn : ConversationTurn
  changed : Bool
  wasRunning : Bool

/-- The lease that a watchdog saw expired has expired. -/
def leaseExpired (db : Db) (conversationId : String) (turnId : ℕ) (commandId : String) (now : ℤ) :
    Bool :=
  db.connectCommands.any fun c => c.id = commandId && c.turnId = some turnId &&
    c.conversationId = some conversationId && c.status = "accepted" && c.leaseUntil.any (· ≤ now)

/-- The statuses `stop_turn` takes a turn out of. -/
def stoppable (leaseExpired : Bool) (status : TurnStatus) : Bool :=
  status.active || (status = .failed && !leaseExpired)

/-- Queue the agent of a stopped turn for what was addressed to it while the turn ran. -/
def requeueStopped (original : ConversationTurn) (db : Db) : Except Error Db :=
  if original.status ≠ .running then .ok db
  else
    match db.latestAddressedMessage original.conversationId original.agentId original.trigger
        none with
    | none => .ok db
    | some messageId =>
        (enqueueInTransaction original.conversationId original.agentId messageId db).map (·.2)

/-- The update of `stop_turn`: what a running turn did before its lease expired is not
known. -/
def haltTurn (conversationId : String) (turnId : ℕ) (leaseExpired wasRunning : Bool) (db : Db) :
    Db :=
  let uncertain := leaseExpired && wasRunning
  db.updateTurns (fun t => t.id = turnId && t.conversationId = conversationId &&
      stoppable leaseExpired t.status) fun t =>
    { t with
      status := if uncertain then .failed else .cancelled
      errorMessage :=
        if uncertain then some "execution_outcome_unknown_after_lease_expiry" else none }

/-- `ConversationTurnQueue::stop_turn`. -/
def stopTurn (conversationId : String) (turnId : ℕ) (leaseExpiry : Option (String × ℤ)) :
    Tx Cancellation := fun db =>
  match db.turns.find? (fun t => t.id = turnId && t.conversationId = conversationId) with
  | none => .error (.conversation s!"turn {turnId} not found")
  | some original =>
      let wasRunning : Bool := original.status = .running
      if leaseExpiry.any fun l => !db.leaseExpired conversationId turnId l.1 l.2 then
        .ok (⟨original, false, wasRunning⟩, db)
      else if !stoppable leaseExpiry.isSome original.status then
        .ok (⟨original, false, wasRunning⟩, db)
      else do
        let db ← (db.haltTurn conversationId turnId leaseExpiry.isSome wasRunning).requeueStopped
          original
        .ok (⟨(db.turns.find? (·.id = turnId)).getD original, true, wasRunning⟩, db)

/-- `ConversationTurnQueue::recover`. -/
def recover (db : Db) : Db :=
  db.updateTurns (·.status = .running) fun t =>
    { t with status := .queued, errorMessage := some "Recovered after XpressClaw restart" }

/-! ## Deleting a message -/

/-- `retarget_queued_turn_before_message`. -/
def retargetQueuedTurnBeforeMessage (conversationId : String) (turnId : ℕ) (agentId : String)
    (before : ℕ) (db : Db) : Db :=
  let lastTerminal := (db.latestPromptBoundaryBefore conversationId agentId before true).getD 0
  match db.latestAddressedMessage conversationId agentId lastTerminal (some before) with
  | none => db
  | some latest =>
      db.updateTurns (fun t => t.id = turnId && t.status = .queued &&
        t.triggerMessageId = some before) fun t => { t with triggerMessageId := some latest }

/-- The message that a running turn stopped by a deletion leaves to answer. -/
def replacementFor (db : Db) (conversationId agentId : String) (messageId : ℕ) : Option ℕ :=
  match db.latestAddressedMessage conversationId agentId messageId none with
  | some message => some message
  | none =>
      let lastTerminal :=
        (db.latestPromptBoundaryBefore conversationId agentId messageId true).getD 0
      db.latestAddressedMessage conversationId agentId lastTerminal (some messageId)

/-- The last loop of `reconcile_message_deletion_turns`, over the agents of the stopped
running turns. -/
def requeueAll (conversationId : String) (messageId : ℕ) : List String → Db → Except Error Db
  | [], db => .ok db
  | agentId :: agents, db =>
      match db.replacementFor conversationId agentId messageId with
      | none => requeueAll conversationId messageId agents db
      | some message => do
          let (_, db) ← enqueueInTransaction conversationId agentId message db
          requeueAll conversationId messageId agents db

/-- A queued turn with the message as its high-water mark, or one of the given status
that may have consumed it. -/
def ConsumedBy (conversationId : String) (messageId : ℕ) (status : TurnStatus)
    (t : ConversationTurn) : Bool :=
  t.conversationId = conversationId && t.status = status && t.triggerMessageId.any (messageId ≤ ·)

/-- A queued turn whose high-water mark is the message. -/
def QueuedFor (conversationId : String) (messageId : ℕ) (t : ConversationTurn) : Bool :=
  t.conversationId = conversationId && t.triggerMessageId = some messageId && t.status = .queued

/-- Queued turns whose high-water mark is the message fall back to earlier input. -/
def retargetAll (conversationId : String) (messageId : ℕ) (db : Db) : Db :=
  (db.turns.filter (QueuedFor conversationId messageId)).foldl (fun db t =>
    db.retargetQueuedTurnBeforeMessage conversationId t.id t.agentId messageId) db

/-- The agents with a turn that the deletion stops. -/
def affectedAgents (conversationId : String) (messageId : ℕ) (db : Db) : List String :=
  ((db.turns.filter fun t => QueuedFor conversationId messageId t ||
    ConsumedBy conversationId messageId .running t ||
    ConsumedBy conversationId messageId .failed t).map (·.agentId)).dedup

/-- A failed turn has no replacement: it is dismissed to the last interrupted prompt. -/
def dismissFailed (conversationId : String) (messageId : ℕ) (db : Db) (agentId : String) : Db :=
  let previous := db.latestPromptBoundaryBefore conversationId agentId messageId false
  db.updateTurns (fun t => ConsumedBy conversationId messageId .failed t && t.agentId = agentId)
    fun t => { t with triggerMessageId := previous, status := .cancelled, errorMessage := none }

/-- Cancel the queued and the running turns that may have consumed the message. -/
def cancelConsumed (conversationId : String) (messageId : ℕ) (db : Db) : Db :=
  db.updateTurns (fun t => QueuedFor conversationId messageId t ||
      ConsumedBy conversationId messageId .running t) fun t =>
    { t with status := .cancelled, errorMessage := none }

/-- `SET result_message_id = NULL`. -/
def forgetResult (conversationId : String) (messageId : ℕ) (db : Db) : Db :=
  db.updateTurns (fun t => t.conversationId = conversationId &&
      t.resultMessageId = some messageId) fun t => { t with resultMessageId := none }

/-- `reconcile_message_deletion_turns`: the running turns it stopped. -/
def reconcileMessageDeletionTurns (conversationId : String) (messageId : ℕ) : Tx (List ℕ) :=
  fun db => do
  let db := db.retargetAll conversationId messageId
  let running := db.turns.filter (ConsumedBy conversationId messageId .running)
  let db := (db.affectedAgents conversationId messageId).foldl
    (dismissFailed conversationId messageId) db
  let db := db.cancelConsumed conversationId messageId
  let db ← requeueAll conversationId messageId (running.map (·.agentId)) db
  .ok (running.map (·.id), db.forgetResult conversationId messageId)

/-- The tombstone that `delete_message` leaves. -/
def markDeleted (conversationId : String) (messageId : ℕ) (db : Db) : Db :=
  { db with
    messages := db.messages.map fun m =>
      if m.id = messageId ∧ m.conversationId = conversationId then { m with deleted := true }
      else m }

/-- `ConversationManager::delete_message`. -/
def deleteMessage (conversationId : String) (messageId : ℕ) : Tx (List ℕ) := fun db =>
  if !db.isVisible conversationId messageId then
    .error (.conversation s!"message {messageId} not found in conversation {conversationId}")
  else do
    let (running, db) ← reconcileMessageDeletionTurns conversationId messageId db
    .ok (running, db.markDeleted conversationId messageId)

/-! ## Participants -/

/-- An agent joins only conversations of its own project, or of none. -/
def checkJoin (db : Db) (project : Option String) (agentId : String) : Except Error Unit :=
  match db.agents.find? (·.id = agentId) with
  | none => .error (.agentNotFound agentId)
  | some agent =>
      if project.isSome ∧ agent.projectId ≠ project then
        .error (.conversation "an Agent must belong to the conversation's project before it can join")
      else if agent.projectId ≠ project then db.ensureAcceptsWork agent.projectId
      else .ok ()

/-- `INSERT OR IGNORE INTO conversation_participants`. -/
def insertParticipant (db : Db) (p : Participant) : Db :=
  if p ∈ db.participants then db else { db with participants := db.participants ++ [p] }

/-- `ConversationManager::add_participant`. -/
def addParticipant (conversationId participantType participantId : String) : Tx Unit :=
  fun db => do
  let project ← db.conversationProject conversationId
  db.ensureAcceptsWork project
  if participantType = "agent" then
    db.checkJoin project participantId
  .ok ((), db.insertParticipant ⟨conversationId, participantType, participantId⟩)

/-- `DELETE FROM conversation_participants`. -/
def deleteParticipant (db : Db) (p : Participant) : Db :=
  { db with participants := db.participants.filter (· ≠ p) }

/-- Cancel what an agent has queued or running in a conversation. -/
def cancelTurnsOf (conversationId agentId : String) (db : Db) : Db :=
  db.updateTurns (fun t => t.conversationId = conversationId && t.agentId = agentId &&
      t.status.active) fun t =>
    { t with status := .cancelled, errorMessage := some "Agent removed from conversation" }

/-- `ConversationManager::remove_participant`: the running turns it stopped. -/
def removeParticipant (conversationId participantType participantId : String) (db : Db) :
    List ℕ × Db :=
  let gone := db.deleteParticipant ⟨conversationId, participantType, participantId⟩
  if participantType = "agent" then
    (((db.turnsOf conversationId participantId).filter (·.status = .running)).map (·.id),
      gone.cancelTurnsOf conversationId participantId)
  else ([], gone)

/-! ## Sending -/

/-- `insert_structured_message`: the stored message. -/
def insertStructuredMessage (conversationId : String) (msg : SendMessage)
    (targetAgentId : Option String) : Tx ConversationMessage := fun db => do
  let project ← db.conversationProject conversationId
  db.ensureAcceptsWork project
  db.insertMessage conversationId msg targetAgentId

/-- `send_routed_message_with_attachments`: the message's id and the queued agents. -/
def sendRoutedMessage (conversationId : String) (msg : SendMessage)
    (targetAgentId : Option String) : Tx (ℕ × List String) := fun db => do
  let (message, db) ← insertStructuredMessage conversationId msg targetAgentId db
  let (queued, db) ←
    enqueueForMessage conversationId message.id msg.senderType msg.senderId msg.content db
  .ok ((message.id, queued), db)

/-- The source task belongs to the sender and the conversation. -/
def checkSourceTask (db : Db) (conversationId senderId : String) : Option String → Except Error Unit
  | none => .ok ()
  | some sourceTaskId =>
      match db.tasks.find? (·.id = sourceTaskId) with
      | none => .error (.taskNotFound sourceTaskId)
      | some task =>
          if task.agentId ≠ some senderId ∨ task.conversationId ≠ some conversationId then
            .error (.conversation "source task is not linked to this Agent and conversation")
          else .ok ()

/-- `send_agent_routed_message_with_attachments`. -/
def sendAgentRoutedMessage (conversationId : String) (msg : SendMessage)
    (sourceTaskId : Option String) : Tx (ℕ × List String) := fun db =>
  if msg.senderType ≠ "agent" then
    .error (.conversation "Agent message validation requires an Agent sender")
  else if !db.isParticipant conversationId "agent" msg.senderId then
    .error (.conversation "Agent is not a participant in this conversation")
  else do
    db.checkSourceTask conversationId msg.senderId sourceTaskId
    sendRoutedMessage conversationId msg none db

/-- `send_targeted_routed_message_with_attachments`. -/
def sendTargetedRoutedMessage (conversationId targetAgentId : String) (msg : SendMessage) :
    Tx (ℕ × List String) := fun db =>
  if !db.isParticipant conversationId "agent" targetAgentId then
    .error (.conversation "target Agent is not a participant in this conversation")
  else do
    let (message, db) ← insertStructuredMessage conversationId msg (some targetAgentId) db
    let (inserted, db) ← enqueueInTransaction conversationId targetAgentId message.id db
    .ok ((message.id, if inserted then [targetAgentId] else []), db)

end Db

/-! ## Runs -/

/-- One call. -/
inductive Op where
  | sendRouted (conversationId : String) (msg : SendMessage) (targetAgentId : Option String)
  | sendAgentRouted (conversationId : String) (msg : SendMessage) (sourceTaskId : Option String)
  | sendTargeted (conversationId targetAgentId : String) (msg : SendMessage)
  | enqueue (conversationId agentId : String) (triggerMessageId : ℕ)
  | enqueueForMessage (conversationId : String) (messageId : ℕ)
      (senderType senderId content : String)
  | claimNext
  | completeWithMessage (turn : ConversationTurn) (msg : SendMessage)
      (targetAgentId : Option String)
  | complete (turn : ConversationTurn) (resultMessageId : ℕ)
  | fail (turn : ConversationTurn) (error : String)
  | cancel (conversationId : String) (turnId : ℕ)
  | expireLease (conversationId : String) (turnId : ℕ) (commandId : String) (now : ℤ)
  | recover
  | deleteMessage (conversationId : String) (messageId : ℕ)
  | addParticipant (conversationId participantType participantId : String)
  | removeParticipant (conversationId participantType participantId : String)
  /-- Time passes. -/
  | tick (now : ℕ)

/-- What a successful call returns, as far as a caller goes on with it. -/
inductive Reply where
  | done
  | claimed (turn : Option ConversationTurn)
  | published (message : Option ConversationMessage)

namespace Op

/-- The transaction of a call. -/
def exec : Op → Tx Reply
  | sendRouted c msg target, db => do
      let (_, db) ← Db.sendRoutedMessage c msg target db
      .ok (.done, db)
  | sendAgentRouted c msg task, db => do
      let (_, db) ← Db.sendAgentRoutedMessage c msg task db
      .ok (.done, db)
  | sendTargeted c target msg, db => do
      let (_, db) ← Db.sendTargetedRoutedMessage c target msg db
      .ok (.done, db)
  | enqueue c a m, db => do
      let (_, db) ← Db.enqueueInTransaction c a m db
      .ok (.done, db)
  | enqueueForMessage c m senderType senderId content, db => do
      let (_, db) ← Db.enqueueForMessage c m senderType senderId content db
      .ok (.done, db)
  | claimNext, db => .ok (.claimed db.claimNext.1, db.claimNext.2)
  | completeWithMessage turn msg target, db => do
      let (message, db) ← Db.completeWithMessage turn msg target db
      .ok (.published message, db)
  | complete turn m, db => do
      let (_, db) ← Db.complete turn m db
      .ok (.done, db)
  | fail turn error, db => do
      let (_, db) ← Db.fail turn error db
      .ok (.done, db)
  | cancel c id, db => do
      let (_, db) ← Db.stopTurn c id none db
      .ok (.done, db)
  | expireLease c id command now, db => do
      let (_, db) ← Db.stopTurn c id (some (command, now)) db
      .ok (.done, db)
  | recover, db => .ok (.done, db.recover)
  | deleteMessage c m, db => do
      let (_, db) ← Db.deleteMessage c m db
      .ok (.done, db)
  | addParticipant c kind id, db => do
      let (_, db) ← Db.addParticipant c kind id db
      .ok (.done, db)
  | removeParticipant c kind id, db => .ok (.done, (db.removeParticipant c kind id).2)
  | tick now, db => .ok (.done, { db with clock := now })

end Op

/-- The database after a call: a failed one rolls back. -/
def step (db : Db) (op : Op) : Db :=
  match op.exec db with
  | .ok (_, db') => db'
  | .error _ => db

/-- What a call returns, if it succeeds. -/
def reply (db : Db) (op : Op) : Option Reply :=
  match op.exec db with
  | .ok (r, _) => some r
  | .error _ => none

end XpressClaw.Conversations
