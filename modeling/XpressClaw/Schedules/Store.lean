import XpressClaw.Lib.Runs
import XpressClaw.Lib.Table

/-!
# Schedules

`ScheduleManager`: enabling, disabling and deleting a schedule, and `trigger` as the sequence
of database calls it makes.  A trigger in flight is a record of the schedule it read and of
the call it makes next; a background check triggers every schedule it finds due, one after
the other, so that its triggers are among those of the model.

Whether the calls into other tables succeed is up to those tables: each step of a trigger is
told.  The tables of tasks and task messages are kept as far as the scheduler itself looks at
them.  `delivered` and `calls` are histories: the schedules whose wake-up was handed over (a
task queued, a task message queued, a conversation message sent), and the calls of `enable`
and `disable`, in order.  Titles, descriptions, the agent and the times decide nothing here.
-/

namespace XpressClaw.Schedules

open Lib

/-- A row of `schedules`. -/
structure Schedule where
  id : String
  /-- `schedule_type = 'once'`. -/
  oneShot : Bool
  enabled : Bool := true
  runCount : ℕ := 0
  continuationTaskId : Option ℕ := none
  conversationId : Option String := none
  deriving DecidableEq

/-- A row of `task_messages`. -/
structure TaskMessage where
  id : ℕ
  taskId : ℕ
  deriving DecidableEq

/-- The database call a trigger makes next. -/
inductive Phase where
  /-- The schedule was read; a one-shot schedule has to be claimed. -/
  | fetched
  /-- Nothing was done yet about the wake-up. -/
  | claimed
  /-- The continuation task was found; its message is to be written. -/
  | checked (taskId : ℕ)
  /-- The message was written; its response is to be queued. -/
  | noted (taskId messageId : ℕ)
  /-- The response was refused; the message is to be deleted. -/
  | refused (messageId : ℕ)
  /-- The response was queued; the task is read once more. -/
  | sent (taskId : ℕ)
  /-- A task was created; it is to be queued. -/
  | created (taskId : ℕ)
  /-- The new task was refused; the claim is to be released. -/
  | unqueued (taskId : ℕ)
  /-- The claim was released; the new task is to be deleted. -/
  | removing (taskId : ℕ)
  /-- The wake-up failed; the claim is to be released. -/
  | failing
  /-- The wake-up was handed over; the counter is to be updated. -/
  | counting
  | finished
  deriving DecidableEq

/-- A trigger in flight: the schedule as `get` returned it. -/
structure Trigger where
  schedule : Schedule
  phase : Phase := .fetched
  deriving DecidableEq

structure Store where
  schedules : List Schedule := []
  tasks : List ℕ := []
  nextTaskId : ℕ := 0
  messages : List TaskMessage := []
  nextMessageId : ℕ := 0
  triggers : List Trigger := []
  delivered : List String := []
  calls : List (String × Bool) := []

namespace Store

variable (db : Store)

/-! ## The table of schedules -/

/-- `UPDATE schedules SET … WHERE …`. -/
def update (w : Schedule → Bool) (set : Schedule → Schedule) : Store :=
  { db with schedules := db.schedules.map fun s => if w s then set s else s }

/-- The `WHERE` clause of the claim of a one-shot schedule. -/
def claimable (id : String) (s : Schedule) : Bool := s.id = id && s.enabled && s.runCount = 0

/-- `UPDATE schedules SET enabled = 0 WHERE id = ? AND enabled = 1 AND run_count = 0`. -/
def claim (id : String) : Store := db.update (claimable id) fun s => { s with enabled := false }

/-- `release_one_shot_claim`. -/
def release (id : String) : Store :=
  db.update (fun s => s.id = id && s.runCount = 0) fun s => { s with enabled := true }

/-- `run_count = run_count + 1`, and a one-shot schedule is disabled. -/
def counted (id : String) : Store :=
  db.update (·.id = id) fun s =>
    { s with runCount := s.runCount + 1, enabled := if s.oneShot then false else s.enabled }

/-- `set_enabled`; `accepts` says whether the Project of the agent accepts work. -/
def setEnabled (id : String) (enabled accepts : Bool) : Store :=
  match Table.get (·.id) db.schedules id with
  | none => db
  | some s =>
      if enabled && ((s.oneShot && 0 < s.runCount) || !accepts) then db
      else
        { db.update (·.id = id) fun s => { s with enabled := enabled } with
          calls := db.calls ++ [(id, enabled)] }

/-! ## Triggers -/

def addTask : Store :=
  { db with tasks := db.tasks ++ [db.nextTaskId], nextTaskId := db.nextTaskId + 1 }

def removeTask (taskId : ℕ) : Store := { db with tasks := db.tasks.filter (· ≠ taskId) }

def addMessage (taskId : ℕ) : Store :=
  { db with
    messages := db.messages ++ [⟨db.nextMessageId, taskId⟩]
    nextMessageId := db.nextMessageId + 1 }

def removeMessage (messageId : ℕ) : Store :=
  { db with messages := db.messages.filter (·.id ≠ messageId) }

/-- The wake-up of a schedule has been handed over. -/
def handOver (id : String) : Store := { db with delivered := db.delivered ++ [id] }

/-- The `i`th trigger makes another call next. -/
def goto (i : ℕ) (t : Trigger) (phase : Phase) : Store :=
  { db with triggers := db.triggers.set i { t with phase := phase } }

/-- Where a trigger goes when the wake-up failed. -/
def failed (t : Trigger) : Phase := if t.schedule.oneShot then .failing else .finished

/-- The claim, which recurring schedules do without. -/
def advanceFetched (i : ℕ) (t : Trigger) : Store :=
  if t.schedule.oneShot then
    if db.schedules.any (claimable t.schedule.id) then
      (db.claim t.schedule.id).goto i t .claimed
    else db.goto i t .finished
  else db.goto i t .claimed

/-- The first call about the wake-up: the continuation task is read and validated, the
conversation message is sent, or a task is created. -/
def advanceClaimed (i : ℕ) (t : Trigger) (ok : Bool) : Store :=
  match t.schedule.continuationTaskId with
  | some taskId =>
      if ok && taskId ∈ db.tasks then db.goto i t (.checked taskId) else db.goto i t (failed t)
  | none =>
      match t.schedule.conversationId with
      | some _ =>
          if ok then (db.handOver t.schedule.id).goto i t .counting else db.goto i t (failed t)
      | none =>
          if ok then db.addTask.goto i t (.created db.nextTaskId) else db.goto i t (failed t)

/-- The message of a continuation is written. -/
def advanceChecked (i : ℕ) (t : Trigger) (taskId : ℕ) (ok : Bool) : Store :=
  if ok && taskId ∈ db.tasks then
    (db.addMessage taskId).goto i t (.noted taskId db.nextMessageId)
  else db.goto i t (failed t)

/-- The response to a continuation is queued. -/
def advanceNoted (i : ℕ) (t : Trigger) (taskId messageId : ℕ) (ok : Bool) : Store :=
  if ok && taskId ∈ db.tasks then (db.handOver t.schedule.id).goto i t (.sent taskId)
  else db.goto i t (.refused messageId)

/-- The new task is queued; a recurring schedule keeps a task that was refused. -/
def advanceCreated (i : ℕ) (t : Trigger) (taskId : ℕ) (ok : Bool) : Store :=
  if ok && taskId ∈ db.tasks then (db.handOver t.schedule.id).goto i t .counting
  else if t.schedule.oneShot then db.goto i t (.unqueued taskId)
  else db.goto i t .counting

/-- The next database call of the `i`th trigger; `ok` says whether other tables let it
succeed. -/
def advance (i : ℕ) (ok : Bool) : Store :=
  match db.triggers[i]? with
  | none => db
  | some t =>
      match t.phase with
      | .fetched => db.advanceFetched i t
      | .claimed => db.advanceClaimed i t ok
      | .checked taskId => db.advanceChecked i t taskId ok
      | .noted taskId messageId => db.advanceNoted i t taskId messageId ok
      | .refused messageId => (db.removeMessage messageId).goto i t (failed t)
      | .sent taskId =>
          if taskId ∈ db.tasks then db.goto i t .counting else db.goto i t (failed t)
      | .created taskId => db.advanceCreated i t taskId ok
      | .unqueued taskId => (db.release t.schedule.id).goto i t (.removing taskId)
      | .removing taskId => (db.removeTask taskId).goto i t .finished
      | .failing => (db.release t.schedule.id).goto i t .finished
      | .counting => (db.counted t.schedule.id).goto i t .finished
      | .finished => db

/-- The first call of `trigger`: `get`. -/
def fetch (id : String) : Store :=
  match Table.get (·.id) db.schedules id with
  | none => db
  | some s => { db with triggers := db.triggers ++ [{ schedule := s }] }

end Store

/-! ## Runs -/

/-- One database call. -/
inductive Op where
  | trigger (id : String)
  | advance (i : ℕ) (ok : Bool)
  | enable (id : String) (accepts : Bool)
  | disable (id : String)
  | delete (id : String)
  /-- A task is created elsewhere. -/
  | createTask
  /-- A task is deleted elsewhere. -/
  | deleteTask (taskId : ℕ)
  deriving DecidableEq

def step (db : Store) : Op → Store
  | .trigger id => db.fetch id
  | .advance i ok => db.advance i ok
  | .enable id accepts => db.setEnabled id true accepts
  | .disable id => db.setEnabled id false true
  | .delete id => { db with schedules := db.schedules.filter (·.id ≠ id) }
  | .createTask => db.addTask
  | .deleteTask taskId => db.removeTask taskId

end XpressClaw.Schedules
