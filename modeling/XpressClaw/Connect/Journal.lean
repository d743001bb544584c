import Mathlib.Algebra.Order.Ring.Unbundled.Rat
import XpressClaw.Conversations.Turns
import XpressClaw.Tasks.Sessions

/-!
# The Connect journal

`ConnectJournal`: the bindings and commands of a paired platform, and the local work its
commands become.  A `Sys` is the whole database, the journal's own tables beside those of the
task queue and of the conversations; `tasksView` and `talkView` are what the two queues see of
the journal, and of each other's projects and agents.  An `Op` is one call: a journal
operation, or anything the two queues do.

Identifiers that the source draws with `Uuid::new_v4` are given to the call, and one that is
in use is refused.  What serialization, hashing and parsing
decide is in `Wire`.
-/

namespace XpressClaw.Connect

open Lib

/-- `Binding`. -/
structure Binding where
  id : String
  localProjectId : String
  localAgentId : String
  projectId : String
  agentName : String
  generation : ℤ
  active : Bool
  deriving DecidableEq

/-- `TurnPayload`. -/
structure TurnPayload where
  text : String
  history : List String := []
  deriving DecidableEq

/-- `Command`. -/
structure Command where
  version : ℕ := 1
  id : String
  binding : Binding
  kind : String
  workId : String
  sourceConversationId : Option String := none
  payload : TurnPayload
  expiresAt : String
  cancelRequested : Bool := false
  deriving DecidableEq

/-- `Receipt`. -/
structure Receipt where
  status : String
  text : Option String
  error : Option String
  deriving DecidableEq

/-- `Execution`. -/
structure Execution where
  id : String
  conversationId : Option String
  turnId : Option ℕ
  taskId : Option String
  attemptId : Option ℕ
  receipt : Receipt
  acknowledged : Bool
  leaseUntil : ℤ
  deriving DecidableEq

/-- A row of `connect_bindings`; `saved` is the binding in `binding_json`. -/
structure BindingRow where
  id : String
  instanceId : String
  localProjectId : String
  localAgentId : String
  generation : ℤ
  active : Bool
  saved : Binding
  deriving DecidableEq

/-- A row of `connect_commands`. -/
structure CommandRow where
  id : String
  instanceId : String
  bindingId : String
  payloadHash : String
  bindingGeneration : ℤ
  conversationId : Option String
  turnId : Option ℕ
  taskId : Option String
  attemptId : Option ℕ
  status : String
  resultText : Option String := none
  resultError : Option String := none
  acknowledged : Bool := false
  leaseUntil : ℤ
  deriving DecidableEq

/-- A row of `connect_work`. -/
structure WorkRow where
  instanceId : String
  bindingId : String
  kind : String
  workId : String
  localId : String
  deriving DecidableEq

/-- Serialization, hashing and parsing. -/
structure Wire where
  /-- `Uuid::parse_str` succeeds. -/
  validUuid : String → Bool
  /-- `DateTime::parse_from_rfc3339(…).timestamp()`. -/
  expiry : String → Option ℤ
  /-- The length of the serialized command. -/
  size : Command → ℕ
  /-- The digest of the serialized command. -/
  digest : Command → String

/-- The database. -/
structure Sys where
  bindings : List BindingRow := []
  commands : List CommandRow := []
  work : List WorkRow := []
  tasks : Tasks.Db := {}
  talk : Conversations.Db := {}

/-- What a call can fail with. -/
inductive Error where
  | invalid (message : String)
  | task (e : Tasks.Error)
  | conversation (e : Conversations.Error)
  | agentNotFound (name : String)
  | constraint
  deriving DecidableEq

def CommandRow.accepted (c : CommandRow) : Bool := c.status = "accepted"

def CommandRow.execution (c : CommandRow) : Execution where
  id := c.id
  conversationId := c.conversationId
  turnId := c.turnId
  taskId := c.taskId
  attemptId := c.attemptId
  receipt := ⟨c.status, c.resultText, c.resultError⟩
  acknowledged := c.acknowledged
  leaseUntil := c.leaseUntil

namespace Sys

variable (s : Sys)

/-! ## What the queues see -/

/-- The database as the task queue reads it. -/
def tasksView : Tasks.Db :=
  { s.tasks with
    work := s.work.map fun w => ⟨w.kind, w.localId⟩
    commands := s.commands.map fun c =>
      { id := c.id
        bindingId := c.bindingId
        bindingGeneration := c.bindingGeneration
        taskId := c.taskId
        attemptId := c.attemptId
        status := c.status
        leaseUntil := c.leaseUntil }
    bindings := s.bindings.map fun b =>
      ⟨b.id, b.localProjectId, b.localAgentId, b.generation, b.active⟩ }

/-- The database as the conversations read it. -/
def talkView : Conversations.Db :=
  { s.talk with
    projects := s.tasks.projects.map fun p => ⟨p.id, p.deleting⟩
    agents := s.tasks.agents.map fun a => ⟨a.id, a.projectId⟩
    connectCommands := s.commands.map fun c =>
      { id := c.id
        conversationId := c.conversationId
        turnId := c.turnId
        status := c.status
        leaseUntil := some c.leaseUntil } }

/-! ## Reading -/

def command? (id : String) : Option CommandRow := Table.get (·.id) s.commands id

def binding? (id : String) : Option BindingRow := Table.get (·.id) s.bindings id

/-- The agent's project, if there is such an agent and it has one. -/
def agentProject (agentId : String) : Option String :=
  (s.tasks.agent? agentId).bind (·.projectId)

/-- `UPDATE connect_commands SET … WHERE …`. -/
def updateCommands (w : CommandRow → Bool) (set : CommandRow → CommandRow) : Sys :=
  { s with commands := s.commands.map fun c => if w c then set c else c }

/-- `UPDATE connect_bindings SET … WHERE …`. -/
def updateBindings (w : BindingRow → Bool) (set : BindingRow → BindingRow) : Sys :=
  { s with bindings := s.bindings.map fun b => if w b then set b else b }

def invalid {α : Type} (message : String) : Except Error α := .error (.invalid message)

/-- `ensure_project_accepts_work`. -/
def ensureProjectAcceptsWork (projectId : String) : Except Error Unit :=
  (s.tasks.ensureProjectAcceptsWork projectId).mapError .task

/-! ## Bindings -/

/-- `validate_project_mapping`. -/
def validateProjectMapping (instanceId localProject platformProject : String) :
    Except Error Unit :=
  if s.bindings.any fun b => b.instanceId = instanceId && b.localProjectId = localProject &&
      b.saved.projectId ≠ platformProject then
    invalid "Local Project is already bound to another platform project"
  else .ok ()

/-- The binding is the stored one but for its generation and its active flag. -/
def sameIdentity (row : BindingRow) (instanceId : String) (b : Binding) : Bool :=
  row.instanceId = instanceId &&
    { row.saved with generation := b.generation, active := b.active } = b

/-- A published binding is stored again; a higher generation ends the running leases. -/
def republish (row : BindingRow) (b : Binding) : Sys :=
  let stored := s.updateBindings (·.id = b.id) fun r =>
    { r with saved := b, active := b.active, generation := b.generation }
  if row.saved.generation < b.generation then
    stored.updateCommands (fun c => c.bindingId = b.id && c.accepted) fun c =>
      { c with leaseUntil := 0 }
  else stored

/-- The row of a new binding. -/
def bindingRow (instanceId : String) (b : Binding) : BindingRow :=
  ⟨b.id, instanceId, b.localProjectId, b.localAgentId, b.generation, b.active, b⟩

/-- `ConnectJournal::bind`. -/
def bind (wire : Wire) (instanceId : String) (b : Binding) : Except Error Sys :=
  if !wire.validUuid b.id || b.generation < 1 then invalid "Invalid platform binding"
  else do
    s.ensureProjectAcceptsWork b.localProjectId
    if s.agentProject b.localAgentId ≠ some b.localProjectId then
      invalid "Agent does not belong to the selected local Project"
    else do
      s.validateProjectMapping instanceId b.localProjectId b.projectId
      match s.binding? b.id with
      | some row =>
          if !sameIdentity row instanceId b || b.generation < row.saved.generation then
            invalid "Binding identity changed"
          else .ok (s.republish row b)
      | none =>
          if s.bindings.any fun r => r.instanceId = instanceId &&
              r.localAgentId = b.localAgentId then .error .constraint
          else .ok { s with bindings := s.bindings ++ [bindingRow instanceId b] }

/-- `ConnectJournal::disable_binding`. -/
def disableBinding (instanceId bindingId : String) : Sys :=
  (s.updateBindings (fun b => b.instanceId = instanceId && b.id = bindingId) fun b =>
    { b with active := false }).updateCommands
      (fun c => c.instanceId = instanceId && c.bindingId = bindingId && c.accepted) fun c =>
    { c with leaseUntil := 0 }

/-! ## Local work -/

/-- `LocalWork`. -/
structure LocalWork where
  conversation : Option String := none
  turn : Option ℕ := none
  task : Option String := none
  attempt : Option ℕ := none

/-- The work item of a command is the row's. -/
def WorkRow.matches (w : WorkRow) (instanceId : String) (c : Command) : Bool :=
  w.instanceId = instanceId && w.bindingId = c.binding.id && w.kind = c.kind &&
    w.workId = c.workId

/-- Something is under way for a local conversation or task. -/
def localBusy (localId : String) : Bool :=
  (s.commands.any fun c => c.accepted &&
    (c.conversationId = some localId || c.taskId = some localId)) ||
  (s.talk.turns.any fun t => t.conversationId = localId && t.status.active) ||
  s.tasks.queue.any fun q => q.taskId = localId && (q.status = .queued || q.status = .running)

/-- `work_busy`. -/
def workBusy (instanceId : String) (c : Command) : Bool :=
  s.work.any fun w => WorkRow.matches w instanceId c && s.localBusy w.localId

/-- `TaskBoard::create_in_transaction` for the task of a command: the Agent's project has to
be the binding's. -/
def createTask (taskId : String) (c : Command) : Except Error Sys :=
  match s.tasks.agent? c.binding.localAgentId with
  | none => .error (.agentNotFound c.binding.localAgentId)
  | some agent =>
      let project := agent.projectId.getD ""
      if agent.projectId.any (· ≠ c.binding.localProjectId) then
        .error (.task (.task s!"task Agent belongs to project '{project}', but its request belongs to project '{c.binding.localProjectId}'"))
      else do
        s.ensureProjectAcceptsWork c.binding.localProjectId
        .ok { s with
          tasks := { s.tasks with
            tasks := s.tasks.tasks ++
              [{ id := taskId
                 agentId := some c.binding.localAgentId
                 projectId := some c.binding.localProjectId
                 provenance := "xpress_ai_connect"
                 position := (s.tasks.tasks.map (·.position)).foldl max 0 + 1024 }] } }

/-- The conversation of a command with its one participant. -/
def createConversation (conversationId : String) (c : Command) : Sys :=
  { s with
    talk := { s.talk with
      conversations := s.talk.conversations ++
        [⟨conversationId, some c.binding.localProjectId⟩]
      participants := s.talk.participants ++
        [⟨conversationId, "agent", c.binding.localAgentId⟩] } }

/-- `INSERT INTO connect_work`. -/
def insertWork (instanceId : String) (c : Command) (localId : String) : Except Error Sys :=
  if s.work.any fun w => WorkRow.matches w instanceId c || w.localId = localId then
    .error .constraint
  else .ok { s with work := s.work ++ [⟨instanceId, c.binding.id, c.kind, c.workId, localId⟩] }

/-- The identifier is in use. -/
def taken (id : String) : Bool :=
  (s.tasks.task? id).isSome || s.tasks.queue.any (·.taskId = id) || s.talk.hasConversation id ||
    s.talk.turns.any (·.conversationId = id)

/-- A new task or conversation, as the command's kind asks for. -/
def createLocal (fresh : String) (c : Command) : Except Error Sys :=
  if c.kind = "task_turn" then s.createTask fresh c else .ok (s.createConversation fresh c)

/-- The local task or conversation of a command, created with its first command. -/
def localWork (instanceId : String) (c : Command) (fresh : String) :
    Except Error (String × Sys) :=
  match s.work.find? (WorkRow.matches · instanceId c) with
  | some w => .ok (w.localId, s)
  | none =>
      if s.taken fresh then .error .constraint
      else do
        let s ← s.createLocal fresh c
        let s ← s.insertWork instanceId c fresh
        .ok (fresh, s)

/-- The message of the command is stored with its task, which becomes pending. -/
def postTask (taskId : String) : ℕ × Tasks.Db :=
  (s.tasksView.updateTasks (·.id = taskId) fun t => { t with status := .pending }).insertMessageRow
    taskId "user"

/-- The `task_turn` branch of `admit_work`. -/
def admitTask (c : Command) (taskId : String) (now : ℤ) : Except Error (LocalWork × Sys) :=
  if !s.tasks.tasks.any fun t => t.id = taskId && t.agentId = some c.binding.localAgentId &&
      t.projectId = some c.binding.localProjectId then
    invalid "Connected task was deleted or reassigned"
  else
    let (trigger, db) := s.postTask taskId
    match Tasks.Db.enqueueAuthorized taskId c.binding.localAgentId now db with
    | .error e => .error (.task e)
    | .ok (queued, db) =>
        .ok ({ task := some taskId, attempt := queued.attemptId }, { s with
          tasks := db.updateAttempts (fun a => queued.attemptId = some a.id) fun a =>
            { a with triggerMessageId := some trigger } })

/-- What the platform says in a connected chat. -/
def importedMessage (c : Command) : Conversations.SendMessage where
  senderType := "user"
  senderId := "xpress-ai"
  content := "Recent platform history:\n" ++ "\n".intercalate c.payload.history ++
    "\n\nCurrent request:\n" ++ c.payload.text

/-- The `chat_turn` branch of `admit_work`. -/
def admitChat (c : Command) (conversationId : String) : Except Error (LocalWork × Sys) :=
  match s.talkView.insertMessage conversationId (importedMessage c) none with
  | .error e => .error (.conversation e)
  | .ok (message, db) =>
      match Conversations.Db.enqueueInTransaction conversationId c.binding.localAgentId
          message.id db with
      | .error e => .error (.conversation e)
      | .ok (false, _) => invalid "Connected chat cannot accept another turn"
      | .ok (true, db) =>
          match db.turns.find? fun t => t.conversationId = conversationId &&
              t.triggerMessageId = some message.id with
          | none => .error .constraint
          | some t =>
              .ok ({ conversation := some conversationId, turn := some t.id },
                { s with talk := db })

/-- `admit_work`. -/
def admitWork (instanceId : String) (c : Command) (fresh : String) (now : ℤ) :
    Except Error (LocalWork × Sys) :=
  if s.workBusy instanceId c then
    invalid "The platform work item already has an active execution"
  else do
    let (localId, s) ← s.localWork instanceId c fresh
    if c.kind = "task_turn" then s.admitTask c localId now else s.admitChat c localId

/-! ## Admission -/

/-- The part of a command that its digest covers. -/
def immutable (c : Command) : Command :=
  { c with cancelRequested := false, binding := { c.binding with active := true } }

/-- The command is well formed: its expiry. -/
def validate (wire : Wire) (c : Command) : Except Error ℤ :=
  if c.version ≠ 1 || !wire.validUuid c.id || !(c.kind = "chat_turn" || c.kind = "task_turn") ||
      524288 < c.payload.text.utf8ByteSize || 100 < c.payload.history.length then
    invalid "Unsupported or oversized platform command"
  else
    match wire.expiry c.expiresAt with
    | none => invalid "Invalid command expiry"
    | some expires =>
        if 1024 * 1024 < wire.size (immutable c) then invalid "Platform context is too large"
        else .ok expires

/-- The binding of a command is still active, and its Agent in place. -/
def authorize (c : Command) (row : BindingRow) : Except Error Unit :=
  if !row.active || !c.binding.active then invalid "Binding is disabled"
  else do
    s.ensureProjectAcceptsWork c.binding.localProjectId
    if s.agentProject c.binding.localAgentId ≠ some c.binding.localProjectId then
      invalid "Bound Agent has moved or was deleted"
    else .ok ()

/-- `INSERT INTO connect_commands`; a turn and an attempt belong to one command only:
`idx_connect_turn` and `idx_connect_attempt`. -/
def insertCommand (row : CommandRow) : Except Error Sys :=
  if s.commands.any fun c => c.id = row.id || (row.turnId.isSome && c.turnId = row.turnId) ||
      (row.attemptId.isSome && c.attemptId = row.attemptId) then .error .constraint
  else .ok { s with commands := s.commands ++ [row] }

/-- The receipt of a new command. -/
def receiptRow (wire : Wire) (instanceId : String) (c : Command) (work : LocalWork)
    (status : String) (leaseUntil : ℤ) : CommandRow where
  id := c.id
  instanceId := instanceId
  bindingId := c.binding.id
  payloadHash := wire.digest (immutable c)
  bindingGeneration := c.binding.generation
  conversationId := work.conversation
  turnId := work.turn
  taskId := work.task
  attemptId := work.attempt
  status := status
  leaseUntil := leaseUntil

/-- A command that arrives for the first time and is still wanted. -/
def admitLive (wire : Wire) (instanceId : String) (c : Command) (row : BindingRow)
    (fresh : String) (leaseUntil now : ℤ) : Except Error Sys := do
  s.authorize c row
  if leaseUntil ≤ now then invalid "Execution authorization has expired"
  else do
    let (work, s) ← s.admitWork instanceId c fresh now
    s.insertCommand (receiptRow wire instanceId c work "accepted" leaseUntil)

/-- A command that arrives for the first time. -/
def admitNew (wire : Wire) (instanceId : String) (c : Command) (fresh : String)
    (leaseUntil now expires : ℤ) : Except Error Sys :=
  match s.bindings.find? fun b => b.id = c.binding.id && b.instanceId = instanceId with
  | none => invalid "Command does not match an approved local binding"
  | some row =>
      if row.saved ≠ { c.binding with active := true } then
        invalid "Command does not match an approved local binding"
      else if c.cancelRequested || expires ≤ now then
        s.insertCommand (receiptRow wire instanceId c {} "cancelled" leaseUntil)
      else s.admitLive wire instanceId c row fresh leaseUntil now

/-- `ConnectJournal::admit`. -/
def admitCommand (wire : Wire) (instanceId : String) (c : Command) (fresh : String)
    (leaseUntil now : ℤ) : Except Error (Execution × Sys) := do
  let expires ← validate wire c
  match s.command? c.id with
  | some previous =>
      if previous.instanceId ≠ instanceId || previous.payloadHash ≠ wire.digest (immutable c) then
        invalid "Command ID conflicts with an existing receipt"
      else .ok (previous.execution, s)
  | none => do
      let s ← s.admitNew wire instanceId c fresh leaseUntil now expires
      match s.command? c.id with
      | none => .error .constraint
      | some row => .ok (row.execution, s)

/-! ## Leases -/

/-- The Agent of a binding is in its project, which is not being deleted. -/
def inPlace (b : BindingRow) : Bool :=
  (s.tasks.agents.any fun a => a.id = b.localAgentId && a.projectId = some b.localProjectId) &&
  s.tasks.projects.any fun p => p.id = b.localProjectId && !p.deleting

/-- The binding stands behind the command. -/
def backs (b : BindingRow) (c : CommandRow) : Bool :=
  b.id = c.bindingId && b.active && b.generation = c.bindingGeneration && s.inPlace b

/-- `tool_command`. -/
def toolCommand (instanceId conversationId agentId : String) (now : ℤ) : Option String :=
  (s.commands.find? fun c => c.instanceId = instanceId &&
    c.conversationId = some conversationId && c.accepted && now < c.leaseUntil &&
    s.bindings.any fun b => s.backs b c && b.localAgentId = agentId).map (·.id)

/-- The execution of a command runs, on a task that is still the binding's. -/
def executing (b : BindingRow) (c : CommandRow) : Bool :=
  (s.talk.turns.any fun t => c.turnId = some t.id && t.status = .running) ||
  s.tasks.attempts.any fun a => c.attemptId = some a.id && a.status = .running &&
    s.tasks.tasks.any fun t => a.taskId = some t.id && t.agentId = some b.localAgentId &&
      t.projectId = some b.localProjectId

/-- `tool_execution_command`. -/
def toolExecutionCommand (instanceId commandId agentId : String) (now : ℤ) : Option String :=
  (s.commands.find? fun c => c.id = commandId && c.instanceId = instanceId && c.accepted &&
    now < c.leaseUntil && s.bindings.any fun b => s.backs b c && b.localAgentId = agentId &&
      s.executing b c).map (·.id)

/-- The binding may renew the lease of the command. -/
def renewable (c : CommandRow) : Bool :=
  s.bindings.any fun b => s.backs b c && (c.taskId.all fun taskId =>
    s.tasks.tasks.any fun t => t.id = taskId && t.agentId = some b.localAgentId &&
      t.projectId = some b.localProjectId)

/-- `ConnectJournal::renew`. -/
def renew (instanceId id : String) (leaseUntil : ℤ) : Sys :=
  s.updateCommands (fun c => c.id = id && c.instanceId = instanceId && c.accepted &&
    s.renewable c) fun c => { c with leaseUntil := leaseUntil }

/-! ## Receipts -/

/-- `ConnectJournal::acknowledge`. -/
def acknowledge (instanceId id : String) : Sys :=
  s.updateCommands (fun c => c.id = id && c.instanceId = instanceId && !c.accepted) fun c =>
    { c with acknowledged := true }

/-- The columns of a command whose execution is gone. -/
def lost (c : CommandRow) : CommandRow :=
  { c with status := "failed", resultError := some Tasks.Db.lostAfterRestart }

/-- `CASE status WHEN 'completed' … WHEN 'cancelled' … ELSE 'failed' END`. -/
def outcome (completed cancelled : Bool) : String :=
  if completed then "completed" else if cancelled then "cancelled" else "failed"

/-- A command takes over how its attempt ended. -/
def takeAttempt (a : Tasks.WorkAttempt) (c : CommandRow) : CommandRow :=
  { c with
    status := outcome (a.status = .completed) (a.status = .cancelled)
    resultText := a.result
    resultError := a.errorMessage }

/-- The message a turn has published. -/
def resultText (t : Conversations.ConversationTurn) : Option String :=
  t.resultMessageId.bind fun m => (s.talk.messages.find? (·.id = m)).map (·.content)

/-- A command takes over how its turn ended. -/
def takeTurn (t : Conversations.ConversationTurn) (c : CommandRow) : CommandRow :=
  { c with
    status := outcome (t.status = .completed) (t.status = .cancelled)
    resultText := s.resultText t
    resultError := t.errorMessage }

/-- The turn of a command. -/
def turn? (id : ℕ) : Option Conversations.ConversationTurn := s.talk.turns.find? (·.id = id)

/-- The statements of `collect` on one accepted command of the instance: first those on
attempts, then those on turns, for commands that are still accepted. -/
def collectAttempt (c : CommandRow) : CommandRow :=
  match c.attemptId with
  | none => c
  | some i =>
      match s.tasks.attempt? i with
      | none => lost c
      | some a => if a.status.terminal then takeAttempt a c else c

def collectTurn (c : CommandRow) : CommandRow :=
  match c.turnId with
  | none => c
  | some i =>
      match s.turn? i with
      | none => lost c
      | some t => if t.status.active then c else s.takeTurn t c

/-- `ConnectJournal::collect`. -/
def collect (instanceId : String) : Sys :=
  let mine (c : CommandRow) : Bool := c.instanceId = instanceId && c.accepted
  (s.updateCommands mine s.collectAttempt).updateCommands mine s.collectTurn

/-- A turn belongs to an accepted command. -/
def acceptedTurn (id : ℕ) : Bool := s.commands.any fun c => c.accepted && c.turnId = some id

/-- `ConnectJournal::recover`. -/
def recover (now : ℤ) : Sys :=
  { s with
    tasks := s.tasksView.connectRecover now
    talk := s.talk.updateTurns (fun t => s.acceptedTurn t.id && t.status.active) fun t =>
      { t with status := .failed, errorMessage := some Tasks.Db.lostAfterRestart } }

end Sys

/-! ## Runs -/

/-- One call. -/
inductive Op where
  | bind (instanceId : String) (b : Binding)
  | disableBinding (instanceId bindingId : String)
  | admitCommand (instanceId : String) (c : Command) (fresh : String) (leaseUntil now : ℤ)
  | renew (instanceId id : String) (leaseUntil : ℤ)
  | acknowledge (instanceId id : String)
  | collect (instanceId : String)
  | recover (now : ℤ)
  /-- A transaction of the task queue, `stop_task` among them. -/
  | tasks (op : Tasks.Op)
  /-- A transaction of the conversations, `expire_lease` among them. -/
  | talk (op : Conversations.Op)
  /-- An attempt is deleted with its task. -/
  | dropAttempt (id : ℕ)
  /-- A turn is deleted with its conversation. -/
  | dropTurn (id : ℕ)

variable (wire : Wire) (needsUserInput : String → Bool)

/-- The transaction of a call. -/
def Op.exec (s : Sys) : Op → Except Error (Option Execution × Sys)
  | .bind instanceId b => (s.bind wire instanceId b).map fun s => (none, s)
  | .disableBinding instanceId b => .ok (none, s.disableBinding instanceId b)
  | .admitCommand instanceId c fresh leaseUntil now =>
      (s.admitCommand wire instanceId c fresh leaseUntil now).map fun (e, s) => (some e, s)
  | .renew instanceId id leaseUntil => .ok (none, s.renew instanceId id leaseUntil)
  | .acknowledge instanceId id => .ok (none, s.acknowledge instanceId id)
  | .collect instanceId => .ok (none, s.collect instanceId)
  | .recover now => .ok (none, s.recover now)
  | .tasks op => .ok (none, { s with tasks := Tasks.step needsUserInput s.tasksView op })
  | .talk op => .ok (none, { s with talk := Conversations.step s.talkView op })
  | .dropAttempt id =>
      .ok (none, { s with
        tasks := { s.tasks with attempts := s.tasks.attempts.filter (·.id ≠ id) } })
  | .dropTurn id =>
      .ok (none, { s with talk := { s.talk with turns := s.talk.turns.filter (·.id ≠ id) } })

/-- The database after a call: a failed one rolls back. -/
def step (s : Sys) (op : Op) : Sys :=
  match op.exec wire needsUserInput s with
  | .ok (_, s') => s'
  | .error _ => s

/-- What an admission returns, if it succeeds. -/
def reply (s : Sys) (op : Op) : Option Execution :=
  match op.exec wire needsUserInput s with
  | .ok (e, _) => e
  | .error _ => none

end XpressClaw.Connect
