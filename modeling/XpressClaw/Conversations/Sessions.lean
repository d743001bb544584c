import XpressClaw.Conversations.Lifecycle

/-!
# Native sessions

Beside its turns, the queue keeps one session for each agent in a conversation: the native
session in which the agent's last response ran, and which its next response resumes.  The
functions of the queue and of the manager here are the ones of `Conversations/Turns`, with the
statements on `conversation_agent_sessions` put back where the source has them.

* `SessionDb` — the conversation database with the sessions beside it.
* `exec_db` — **the sessions decide nothing**: a call does to the conversation database what
  it does without them.
* `inert_of_over` — a completion of a turn that is over publishes nothing and stores no native
  session.
-/

namespace XpressClaw.Conversations

open Lib

/-- A row of `conversation_agent_sessions`.  Its status and its last error, which are shown and
read by nothing here, are left out. -/
structure AgentSession where
  conversationId : String
  agentId : String
  nativeSessionId : Option String := none
  deriving DecidableEq

/-- The conversation database and the sessions. -/
structure SessionDb where
  db : Db
  sessions : List AgentSession := []

/-- A transaction on both. -/
abbrev SessionTx (α : Type) := SessionDb → Except Error (α × SessionDb)

/-- A transaction that touches no session. -/
def SessionTx.lift {α : Type} (tx : Tx α) : SessionTx α := fun s => do
  let (r, db) ← tx s.db
  .ok (r, { s with db := db })

namespace SessionDb

/-! ## Statements -/

/-- `INSERT INTO conversation_agent_sessions … ON CONFLICT DO UPDATE`, which leaves the native
session of a row that is there. -/
def upsertSession (conversationId agentId : String) (s : SessionDb) : SessionDb :=
  if s.sessions.any fun x => x.conversationId = conversationId && x.agentId = agentId then s
  else { s with sessions := s.sessions ++ [{ conversationId, agentId }] }

/-- `UPDATE conversation_agent_sessions SET native_session_id = … WHERE …`. -/
def updateSessions (where_ : AgentSession → Bool) (set : Option String → Option String)
    (s : SessionDb) : SessionDb :=
  { s with
    sessions := s.sessions.map fun x =>
      if where_ x then { x with nativeSessionId := set x.nativeSessionId } else x }

/-- `SET native_session_id = COALESCE(?1, native_session_id)`. -/
def storeNativeSession (conversationId agentId : String) (nativeSessionId : Option String)
    (s : SessionDb) : SessionDb :=
  s.updateSessions (fun x => x.conversationId = conversationId && x.agentId = agentId)
    fun old => nativeSessionId <|> old

/-! ## The queue -/

/-- `ConversationTurnQueue::enqueue_in_transaction`. -/
def enqueueInTransaction (conversationId agentId : String) (triggerMessageId : ℕ) :
    SessionTx Bool := fun s => do
  let (inserted, s) ←
    SessionTx.lift (Db.enqueueInTransaction conversationId agentId triggerMessageId) s
  .ok (inserted, if inserted then s.upsertSession conversationId agentId else s)

/-- The loop of `enqueue_for_message_in_transaction`. -/
def enqueueAll (conversationId : String) (messageId : ℕ) : List String → SessionTx (List String)
  | [] => fun s => .ok ([], s)
  | agentId :: agents => fun s => do
      let (inserted, s) ← enqueueInTransaction conversationId agentId messageId s
      let (queued, s) ← enqueueAll conversationId messageId agents s
      .ok (if inserted then agentId :: queued else queued, s)

/-- `ConversationTurnQueue::enqueue_for_message_in_transaction`. -/
def enqueueForMessage (conversationId : String) (messageId : ℕ)
    (senderType senderId content : String) : SessionTx (List String) := fun s =>
  if s.db.connected conversationId then .ok ([], s)
  else enqueueAll conversationId messageId
    (s.db.messageTargets conversationId senderType senderId content) s

/-- `ConversationTurnQueue::finish_in_transaction`. -/
def finishInTransaction (turn : ConversationTurn) (status : TurnStatus)
    (nativeSessionId : Option String) (resultMessageId : Option ℕ) (error : Option String) :
    SessionTx Bool := fun s => do
  let (updated, s) ←
    SessionTx.lift (Db.finishInTransaction turn status resultMessageId error) s
  .ok (updated,
    if updated then s.storeNativeSession turn.conversationId turn.agentId nativeSessionId else s)

/-- `ConversationTurnQueue::complete_with_message`. -/
def completeWithMessage (turn : ConversationTurn) (nativeSessionId : String) (msg : SendMessage)
    (targetAgentId : Option String) : SessionTx (Option ConversationMessage) := fun s =>
  if !s.db.turns.any (fun t => t.id = turn.id && t.status = .running && s.db.hasParticipant t) then
    .ok (none, s)
  else do
    let (stored, s) ←
      SessionTx.lift (fun db => db.insertMessage turn.conversationId msg targetAgentId) s
    let (_, s) ← enqueueForMessage turn.conversationId stored.id msg.senderType msg.senderId
      msg.content s
    let (_, s) ← finishInTransaction turn .completed (some nativeSessionId) (some stored.id) none s
    .ok (some stored, s)

/-- Queue the agent of a stopped turn for what was addressed to it while the turn ran. -/
def requeueStopped (original : ConversationTurn) (s : SessionDb) : Except Error SessionDb :=
  if original.status ≠ .running then .ok s
  else
    match s.db.latestAddressedMessage original.conversationId original.agentId original.trigger
        none with
    | none => .ok s
    | some messageId =>
        (enqueueInTransaction original.conversationId original.agentId messageId s).map (·.2)

/-- The native session of a response that ran or failed may hold its prompt. -/
def invalidateStopped (original : ConversationTurn) (s : SessionDb) : SessionDb :=
  if original.status = .running || original.status = .failed then
    s.updateSessions (fun x => x.conversationId = original.conversationId &&
      x.agentId = original.agentId) fun _ => none
  else s

/-- `ConversationTurnQueue::stop_turn`. -/
def stopTurn (conversationId : String) (turnId : ℕ) (leaseExpiry : Option (String × ℤ)) :
    SessionTx Db.Cancellation := fun s =>
  match s.db.turns.find? (fun t => t.id = turnId && t.conversationId = conversationId) with
  | none => .error (.conversation s!"turn {turnId} not found")
  | some original =>
      let wasRunning : Bool := original.status = .running
      if leaseExpiry.any fun l => !s.db.leaseExpired conversationId turnId l.1 l.2 then
        .ok (⟨original, false, wasRunning⟩, s)
      else if !Db.stoppable leaseExpiry.isSome original.status then
        .ok (⟨original, false, wasRunning⟩, s)
      else do
        let s ← ({ s with
            db := s.db.haltTurn conversationId turnId leaseExpiry.isSome wasRunning
          }.invalidateStopped original).requeueStopped original
        .ok (⟨(s.db.turns.find? (·.id = turnId)).getD original, true, wasRunning⟩, s)

/-! ## Deleting a message -/

/-- The last loop of `reconcile_message_deletion_turns`. -/
def requeueAll (conversationId : String) (messageId : ℕ) :
    List String → SessionDb → Except Error SessionDb
  | [], s => .ok s
  | agentId :: agents, s =>
      match s.db.replacementFor conversationId agentId messageId with
      | none => requeueAll conversationId messageId agents s
      | some message => do
          let (_, s) ← enqueueInTransaction conversationId agentId message s
          requeueAll conversationId messageId agents s

/-- `UPDATE conversation_agent_sessions SET native_session_id = NULL WHERE conversation_id = …`. -/
def forgetConversation (conversationId : String) (s : SessionDb) : SessionDb :=
  s.updateSessions (·.conversationId = conversationId) fun _ => none

/-- `reconcile_message_deletion_turns`: the running turns it stopped. -/
def reconcileMessageDeletionTurns (conversationId : String) (messageId : ℕ) :
    SessionTx (List ℕ) := fun s => do
  let s := { s with db := s.db.retargetAll conversationId messageId }
  let s := s.forgetConversation conversationId
  let running := s.db.turns.filter (Db.ConsumedBy conversationId messageId .running)
  let db := (s.db.affectedAgents conversationId messageId).foldl
    (Db.dismissFailed conversationId messageId) s.db
  let s := { s with db := db.cancelConsumed conversationId messageId }
  let s ← requeueAll conversationId messageId (running.map (·.agentId)) s
  .ok (running.map (·.id), { s with db := s.db.forgetResult conversationId messageId })

/-- `ConversationManager::delete_message`. -/
def deleteMessage (conversationId : String) (messageId : ℕ) : SessionTx (List ℕ) := fun s =>
  if !s.db.isVisible conversationId messageId then
    .error (.conversation s!"message {messageId} not found in conversation {conversationId}")
  else do
    let (running, s) ← reconcileMessageDeletionTurns conversationId messageId s
    .ok (running, { s with db := s.db.markDeleted conversationId messageId })

/-! ## Sending -/

/-- `send_routed_message_with_attachments`. -/
def sendRoutedMessage (conversationId : String) (msg : SendMessage)
    (targetAgentId : Option String) : SessionTx (ℕ × List String) := fun s => do
  let (message, s) ←
    SessionTx.lift (Db.insertStructuredMessage conversationId msg targetAgentId) s
  let (queued, s) ←
    enqueueForMessage conversationId message.id msg.senderType msg.senderId msg.content s
  .ok ((message.id, queued), s)

/-- `send_agent_routed_message_with_attachments`. -/
def sendAgentRoutedMessage (conversationId : String) (msg : SendMessage)
    (sourceTaskId : Option String) : SessionTx (ℕ × List String) := fun s =>
  if msg.senderType ≠ "agent" then
    .error (.conversation "Agent message validation requires an Agent sender")
  else if !s.db.isParticipant conversationId "agent" msg.senderId then
    .error (.conversation "Agent is not a participant in this conversation")
  else do
    s.db.checkSourceTask conversationId msg.senderId sourceTaskId
    sendRoutedMessage conversationId msg none s

/-- `send_targeted_routed_message_with_attachments`. -/
def sendTargetedRoutedMessage (conversationId targetAgentId : String) (msg : SendMessage) :
    SessionTx (ℕ × List String) := fun s =>
  if !s.db.isParticipant conversationId "agent" targetAgentId then
    .error (.conversation "target Agent is not a participant in this conversation")
  else do
    let (message, s) ←
      SessionTx.lift (Db.insertStructuredMessage conversationId msg (some targetAgentId)) s
    let (inserted, s) ← enqueueInTransaction conversationId targetAgentId message.id s
    .ok ((message.id, if inserted then [targetAgentId] else []), s)

/-- `SessionManager::invalidate_native_sessions`, and the same statement of a repository
selection. -/
def invalidateNativeSessions (agentId : String) (s : SessionDb) : SessionDb :=
  s.updateSessions (·.agentId = agentId) fun _ => none

end SessionDb

/-! ## Runs -/

/-- One call: of the queue or the manager, where the completing ones carry the native session
of the response, or of the owner of an agent's environment. -/
inductive Call where
  | op (op : Op) (nativeSessionId : String)
  | invalidateNativeSessions (agentId : String)

namespace Call

/-- The transaction of a call. -/
def exec : Call → SessionTx Reply
  | .op (.sendRouted c msg target) _, s => do
      let (_, s) ← SessionDb.sendRoutedMessage c msg target s
      .ok (.done, s)
  | .op (.sendAgentRouted c msg task) _, s => do
      let (_, s) ← SessionDb.sendAgentRoutedMessage c msg task s
      .ok (.done, s)
  | .op (.sendTargeted c target msg) _, s => do
      let (_, s) ← SessionDb.sendTargetedRoutedMessage c target msg s
      .ok (.done, s)
  | .op (.enqueue c a m) _, s => do
      let (_, s) ← SessionDb.enqueueInTransaction c a m s
      .ok (.done, s)
  | .op (.enqueueForMessage c m senderType senderId content) _, s => do
      let (_, s) ← SessionDb.enqueueForMessage c m senderType senderId content s
      .ok (.done, s)
  | .op (.completeWithMessage turn msg target) native, s => do
      let (message, s) ← SessionDb.completeWithMessage turn native msg target s
      .ok (.published message, s)
  | .op (.complete turn m) native, s => do
      let (_, s) ← SessionDb.finishInTransaction turn .completed (some native) (some m) none s
      .ok (.done, s)
  | .op (.fail turn error) _, s => do
      let (_, s) ← SessionDb.finishInTransaction turn .failed none none (some error) s
      .ok (.done, s)
  | .op (.cancel c id) _, s => do
      let (_, s) ← SessionDb.stopTurn c id none s
      .ok (.done, s)
  | .op (.expireLease c id command now) _, s => do
      let (_, s) ← SessionDb.stopTurn c id (some (command, now)) s
      .ok (.done, s)
  | .op (.deleteMessage c m) _, s => do
      let (_, s) ← SessionDb.deleteMessage c m s
      .ok (.done, s)
  | .op other _, s => SessionTx.lift other.exec s
  | .invalidateNativeSessions agentId, s => .ok (.done, s.invalidateNativeSessions agentId)

/-- The turn a completing call is about. -/
def finishes : Call → Option ConversationTurn
  | .op o _ => o.finishes
  | .invalidateNativeSessions _ => none

end Call

namespace SessionDb

/-- What a call leaves behind: a failed one rolls back. -/
def step (s : SessionDb) (call : Call) : SessionDb :=
  match call.exec s with
  | .ok (_, s') => s'
  | .error _ => s

/-- What a call returns, if it succeeds. -/
def reply (s : SessionDb) (call : Call) : Option Reply :=
  match call.exec s with
  | .ok (r, _) => some r
  | .error _ => none

end SessionDb

/-! ## The sessions decide nothing -/

/-- What a transaction did, as far as the conversation database goes. -/
def SessionDb.forget {α : Type} (r : Except Error (α × SessionDb)) : Except Error (α × Db) :=
  r.map fun p => (p.1, p.2.db)

/-- The transaction does to the conversation database what one without sessions does. -/
def Simulates {α : Type} (f : SessionTx α) (g : Tx α) : Prop :=
  ∀ s, SessionDb.forget (f s) = g s.db

section

open SessionDb

variable {α β : Type} {f : SessionTx α} {g : Tx α}

theorem Simulates.lift (g : Tx α) : Simulates (.lift g) g := by
  intro s
  rw [SessionTx.lift]
  cases g s.db <;> rfl

theorem Simulates.touch (h : Simulates f g) {F : α × SessionDb → Except Error (α × SessionDb)}
    (hF : ∀ a s, forget (F (a, s)) = .ok (a, s.db)) (s : SessionDb) :
    forget (f s >>= F) = g s.db := by
  rw [← h s]
  cases f s with
  | error e => rfl
  | ok p => exact hF p.1 p.2

theorem Simulates.bind (h : Simulates f g) {F : α × SessionDb → Except Error (β × SessionDb)}
    {G : α × Db → Except Error (β × Db)} (hF : ∀ a s, forget (F (a, s)) = G (a, s.db))
    (s : SessionDb) : forget (f s >>= F) = g s.db >>= G := by
  rw [← h s]
  cases f s with
  | error e => rfl
  | ok p => exact hF p.1 p.2

end

namespace SessionDb

@[simp] theorem upsertSession_db (c a : String) (s : SessionDb) :
    (s.upsertSession c a).db = s.db := by
  unfold upsertSession
  split <;> rfl

@[simp] theorem invalidateStopped_db (t : ConversationTurn) (s : SessionDb) :
    (s.invalidateStopped t).db = s.db := by
  unfold invalidateStopped
  split <;> rfl

theorem enqueueInTransaction_db (c a : String) (m : ℕ) :
    Simulates (enqueueInTransaction c a m) (Db.enqueueInTransaction c a m) := by
  refine (Simulates.lift (Db.enqueueInTransaction c a m)).touch fun inserted s => ?_
  cases inserted
  · rfl
  · exact congrArg (fun db => Except.ok (true, db)) (upsertSession_db c a s)

theorem enqueueAll_db (c : String) (m : ℕ) (agents : List String) :
    Simulates (enqueueAll c m agents) (Db.enqueueAll c m agents) := by
  induction agents with
  | nil => exact fun _ => rfl
  | cons a agents ih =>
    refine (enqueueInTransaction_db c a m).bind fun inserted s => ?_
    exact ih.bind (fun queued s => rfl) s

theorem enqueueForMessage_db (c : String) (m : ℕ) (st sender text : String) :
    Simulates (enqueueForMessage c m st sender text) (Db.enqueueForMessage c m st sender text) := by
  intro s
  unfold enqueueForMessage Db.enqueueForMessage
  split
  · rfl
  · exact enqueueAll_db c m _ s

theorem finishInTransaction_db (turn : ConversationTurn) (status : TurnStatus)
    (native : Option String) (m : Option ℕ) (e : Option String) :
    Simulates (finishInTransaction turn status native m e)
      (Db.finishInTransaction turn status m e) := by
  refine (Simulates.lift (Db.finishInTransaction turn status m e)).touch fun updated s => ?_
  cases updated <;> rfl

theorem completeWithMessage_db (turn : ConversationTurn) (native : String) (msg : SendMessage)
    (target : Option String) :
    Simulates (completeWithMessage turn native msg target)
      (Db.completeWithMessage turn msg target) := by
  intro s
  unfold completeWithMessage Db.completeWithMessage
  split
  · rfl
  refine (Simulates.lift fun db => db.insertMessage turn.conversationId msg target).bind
    (fun stored s => ?_) s
  refine (enqueueForMessage_db _ _ _ _ _).bind (fun _ s => ?_) s
  exact (finishInTransaction_db _ _ _ _ _).bind (fun _ s => rfl) s

theorem forget_eq {f : Except Error SessionDb} {g : Except Error Db} (h : f.map db = g)
    {α : Type} {F : SessionDb → Except Error (α × SessionDb)} {G : Db → Except Error (α × Db)}
    (hF : ∀ s, forget (F s) = G s.db) : forget (f >>= F) = g >>= G := by
  rw [← h]
  cases f with
  | error e => rfl
  | ok s => exact hF s

theorem requeueStopped_db (original : ConversationTurn) (s : SessionDb) :
    (s.requeueStopped original).map db = s.db.requeueStopped original := by
  unfold requeueStopped Db.requeueStopped
  split
  · rfl
  cases s.db.latestAddressedMessage original.conversationId original.agentId original.trigger
      none with
  | none => rfl
  | some latest =>
    dsimp only
    rw [← enqueueInTransaction_db original.conversationId original.agentId latest s]
    cases enqueueInTransaction original.conversationId original.agentId latest s <;> rfl

theorem stopTurn_db (c : String) (id : ℕ) (lease : Option (String × ℤ)) :
    Simulates (stopTurn c id lease) (Db.stopTurn c id lease) := by
  intro s
  unfold stopTurn Db.stopTurn
  cases s.db.turns.find? (fun t => t.id = id && t.conversationId = c) with
  | none => rfl
  | some original =>
    dsimp only
    split
    · rfl
    split
    · rfl
    · refine forget_eq ?_ fun s => rfl
      rw [requeueStopped_db, invalidateStopped_db]

theorem requeueAll_db (c : String) (m : ℕ) (agents : List String) (s : SessionDb) :
    (requeueAll c m agents s).map db = Db.requeueAll c m agents s.db := by
  induction agents generalizing s with
  | nil => rfl
  | cons a agents ih =>
    rw [requeueAll, Db.requeueAll]
    cases s.db.replacementFor c a m with
    | none => exact ih s
    | some message =>
      dsimp only
      rw [← enqueueInTransaction_db c a message s]
      cases enqueueInTransaction c a message s with
      | error e => rfl
      | ok p => exact ih p.2

theorem reconcileMessageDeletionTurns_db (c : String) (m : ℕ) :
    Simulates (reconcileMessageDeletionTurns c m) (Db.reconcileMessageDeletionTurns c m) :=
  fun _ => forget_eq (requeueAll_db ..) fun _ => rfl

theorem deleteMessage_db (c : String) (m : ℕ) :
    Simulates (deleteMessage c m) (Db.deleteMessage c m) := by
  intro s
  unfold deleteMessage Db.deleteMessage
  split
  · rfl
  · exact (reconcileMessageDeletionTurns_db c m).bind (fun running s => rfl) s

theorem sendRoutedMessage_db (c : String) (msg : SendMessage) (target : Option String) :
    Simulates (sendRoutedMessage c msg target) (Db.sendRoutedMessage c msg target) := by
  refine (Simulates.lift (Db.insertStructuredMessage c msg target)).bind fun message s => ?_
  exact (enqueueForMessage_db _ _ _ _ _).bind (fun queued s => rfl) s

theorem sendAgentRoutedMessage_db (c : String) (msg : SendMessage) (task : Option String) :
    Simulates (sendAgentRoutedMessage c msg task) (Db.sendAgentRoutedMessage c msg task) := by
  intro s
  unfold sendAgentRoutedMessage Db.sendAgentRoutedMessage
  split
  · rfl
  split
  · rfl
  cases s.db.checkSourceTask c msg.senderId task with
  | error e => rfl
  | ok u => exact sendRoutedMessage_db c msg none s

theorem sendTargetedRoutedMessage_db (c target : String) (msg : SendMessage) :
    Simulates (sendTargetedRoutedMessage c target msg)
      (Db.sendTargetedRoutedMessage c target msg) := by
  intro s
  unfold sendTargetedRoutedMessage Db.sendTargetedRoutedMessage
  split
  · rfl
  refine (Simulates.lift (Db.insertStructuredMessage c msg (some target))).bind
    (fun message s => ?_) s
  exact (enqueueInTransaction_db _ _ _).bind (fun inserted s => rfl) s

/-- **The sessions decide nothing.**  A call does to the conversation database what it does
without sessions. -/
theorem exec_db (o : Op) (native : String) : Simulates (Call.exec (.op o native)) o.exec := by
  intro s
  cases o with
  | sendRouted c msg target => exact (sendRoutedMessage_db c msg target).bind (fun _ _ => rfl) s
  | sendAgentRouted c msg task =>
    exact (sendAgentRoutedMessage_db c msg task).bind (fun _ _ => rfl) s
  | sendTargeted c target msg =>
    exact (sendTargetedRoutedMessage_db c target msg).bind (fun _ _ => rfl) s
  | enqueue c a m => exact (enqueueInTransaction_db c a m).bind (fun _ _ => rfl) s
  | enqueueForMessage c m st sender text =>
    exact (enqueueForMessage_db c m st sender text).bind (fun _ _ => rfl) s
  | completeWithMessage turn msg target =>
    exact (completeWithMessage_db turn native msg target).bind (fun _ _ => rfl) s
  | complete turn m => exact (finishInTransaction_db _ _ _ _ _).bind (fun _ _ => rfl) s
  | fail turn error => exact (finishInTransaction_db _ _ _ _ _).bind (fun _ _ => rfl) s
  | cancel c id => exact (stopTurn_db c id none).bind (fun _ _ => rfl) s
  | expireLease c id command now =>
    exact (stopTurn_db c id (some (command, now))).bind (fun _ _ => rfl) s
  | deleteMessage c m => exact (deleteMessage_db c m).bind (fun _ _ => rfl) s
  | claimNext => exact Simulates.lift _ s
  | recover => exact Simulates.lift _ s
  | addParticipant => exact Simulates.lift _ s
  | removeParticipant => exact Simulates.lift _ s
  | tick => exact Simulates.lift _ s

theorem step_db (s : SessionDb) (o : Op) (native : String) :
    (s.step (.op o native)).db = Conversations.step s.db o := by
  rw [step, Conversations.step, ← exec_db o native s]
  cases Call.exec (.op o native) s <;> rfl

theorem step_evolves (s : SessionDb) (call : Call) : s.db.Evolves (s.step call).db := by
  cases call with
  | op o native =>
    rw [step_db]
    exact Conversations.step_evolves s.db o
  | invalidateNativeSessions agentId => exact .refl _

theorem runOps_evolves (s : SessionDb) (calls : List Call) :
    s.db.Evolves (runOps step s calls).db :=
  @runOps_rel _ _ _ (fun _ => True) (fun s t => s.db.Evolves t.db) (fun _ _ h => h)
    (fun s => Db.Evolves.refl s.db) (fun _ _ _ => Db.Evolves.trans)
    (fun s call _ => step_evolves s call) s trivial calls

/-! ## Completions that come too late -/

theorem finish_inert {turn : ConversationTurn} {status : TurnStatus} {native : Option String}
    {m : Option ℕ} {e : Option String} {s : SessionDb} (h : s.db.Over turn.id) :
    finishInTransaction turn status native m e s = .ok (false, s) := by
  have hno : s.db.turns.any (fun t => t.id = turn.id && t.status = .running) = false := by
    rw [List.any_eq_false]
    intro t ht
    simp only [Bool.and_eq_true, decide_eq_true_eq, not_and]
    exact fun hid => h.not_running ht hid
  simp [finishInTransaction, SessionTx.lift, Db.finishInTransaction, hno, bind, Except.bind]

theorem completeWithMessage_inert {turn : ConversationTurn} {native : String} {msg : SendMessage}
    {target : Option String} {s : SessionDb} (h : s.db.Over turn.id) :
    completeWithMessage turn native msg target s = .ok (none, s) := by
  have hno : s.db.turns.any (fun t => t.id = turn.id && t.status = .running &&
      s.db.hasParticipant t) = false := by
    rw [List.any_eq_false]
    intro t ht
    simp only [Bool.and_eq_true, decide_eq_true_eq, not_and]
    exact fun hid _ => (h.not_running ht hid.1 hid.2).elim
  rw [completeWithMessage, hno]
  rfl

/-- **A completion that comes too late does nothing**: it publishes no message and stores no
native session. -/
theorem inert_of_over {s : SessionDb} {call : Call} {turn : ConversationTurn}
    (h : s.db.Over turn.id) (hcall : call.finishes = some turn) :
    s.step call = s ∧ ∀ m, s.reply call ≠ some (.published (some m)) := by
  cases call with
  | invalidateNativeSessions => cases hcall
  | op o native =>
    cases o with
    | completeWithMessage turn' msg target =>
      cases hcall
      simp [step, reply, Call.exec, completeWithMessage_inert h, bind, Except.bind]
    | complete turn' m =>
      cases hcall
      simp [step, reply, Call.exec, finish_inert h, bind, Except.bind]
    | fail turn' e =>
      cases hcall
      simp [step, reply, Call.exec, finish_inert h, bind, Except.bind]
    | _ => cases hcall

end SessionDb

end XpressClaw.Conversations
