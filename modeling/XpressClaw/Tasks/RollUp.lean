import XpressClaw.Github.Review
import XpressClaw.Tasks.Delegation
import XpressClaw.Tasks.Readiness
import XpressClaw.Tasks.Worker

/-!
# Completion rolls up

`complete_and_roll_up_with` completes a task and walks up its parents, one transaction and one
call of `on_completed` at a time.

* `Ready` — the gates of `complete_if_ready`, read when the notices that are due have been told.
* `Chain` — tasks that are ready one after the other, each the parent of the one before and
  each left completed by its callback.
* `Stop` — why such a chain does not go on.
* `roll_up_completes_chain` — a roll-up ends, and completes a chain up to where it stops.
-/

namespace XpressClaw.Tasks

open Lib

/-- The tables of tasks with the rows of `task_pull_requests`. -/
structure Board where
  db : Db
  pulls : List Github.TaskPullRequest

namespace Board

/-- `NOT EXISTS(SELECT 1 FROM task_pull_requests WHERE … status NOT IN ('approved', 'merged',
'cancelled'))`. -/
def gateSatisfied (b : Board) (taskId : String) : Bool :=
  !b.pulls.any fun r => r.key.taskId = taskId && !(r.status.satisfied || r.status = .cancelled)

/-- The rows that `UPDATE tasks SET status = 'completed' …` changes. -/
def completable (db : Db) (taskId : String) : List Task :=
  db.tasks.filter fun t => t.id = taskId && !t.closed

/-- `complete_if_ready`. -/
def completeIfReady (b : Board) (taskId : String) (now : ℤ) :
    Except Error (Option Task × Board) :=
  match b.db.task? taskId with
  | none => .error .noRows
  | some task =>
      if task.closed then .ok (none, b)
      else
        match Db.reconcile now b.db with
        | .error e => .error e
        | .ok (_, db) =>
            if !b.gateSatisfied taskId || !b.db.subtasksComplete taskId ||
                db.hasOpenAttempt taskId || (db.task? taskId).any (·.parentReviewRequired) then
              .ok (none, { b with db })
            else
              let db := db.deferReportedSubtasks taskId
              if (completable db taskId).length ≠ 1 then .ok (none, { b with db })
              else
                let db := db.updateTasks (fun t => t.id = taskId && !t.closed) fun t =>
                  { t with status := .completed }
                .ok (db.task? taskId, { b with db })

end Board

/-- What `on_completed` answers and leaves; the number counts its calls. -/
abbrev Callback := ℕ → Task → Board → Except Error Unit × Board

section Loop

variable (now : ℕ → ℤ) (onCompleted : Callback)

/-- The loop of `complete_and_roll_up_with`, cut off after `fuel` rounds. -/
def rollUp : ℕ → ℕ → Option String → Board → Option (Except Error (List Task) × Board)
  | 0, _, _, _ => none
  | _ + 1, _, none, b => some (.ok [], b)
  | fuel + 1, n, some id, b =>
      match b.completeIfReady id (now n) with
      | .error e => some (.error e, b)
      | .ok (none, b) => some (.ok [], b)
      | .ok (some task, b) =>
          match onCompleted n task b with
          | (.error e, b) => some (.error e, b)
          | (.ok _, b) =>
              match b.db.task? task.id with
              | none => some (.error (.taskNotFound task.id), b)
              | some t =>
                  if t.status = .completed then
                    (rollUp fuel (n + 1) task.parentTaskId b).map fun r =>
                      (r.1.map (task :: ·), r.2)
                  else some (.ok [task], b)

/-- `complete_and_roll_up_with`. -/
def completeAndRollUpWith (fuel : ℕ) (taskId : String) (b : Board) :
    Option (Except Error (List Task) × Board) :=
  rollUp now onCompleted fuel 0 (some taskId) b

end Loop

/-! ## The statement -/

namespace Board

variable (b : Board) (id : String)

/-- The gates of a task, when the notices that are due have been told and left `db`. -/
structure Ready (now : ℤ) (db : Db) : Prop where
  opened : ∃ t, b.db.task? id = some t ∧ t.closed = false ∧ t.parentReviewRequired = false
  gate : ∀ r ∈ b.pulls, r.key.taskId = id →
    r.status = .approved ∨ r.status = .merged ∨ r.status = .cancelled
  children : ∀ child ∈ b.db.tasks, child.parentTaskId = some id → child.blocksParent = true →
    child.status = .completed
  told : Db.reconcile now b.db = .ok ((), db)
  attempts : ∀ a ∈ db.attempts, a.taskId = some id → a.ended

/-- The task is a reported step of itself. -/
def OwnStep : Prop :=
  ∃ t ∈ b.db.tasks, t.id = id ∧ t.parentTaskId = some id ∧ t.provenance = "native_plan"

/-- The gates cannot be read. -/
def Unreadable (now : ℤ) (e : Error) : Prop :=
  b.db.task? id = none ∧ e = .noRows ∨
    (∃ t, b.db.task? id = some t ∧ t.closed = false) ∧ Db.reconcile now b.db = .error e

/-- A task with this identifier is completed. -/
def Completed : Prop := ∃ t ∈ b.db.tasks, t.id = id ∧ t.status = .completed

/-- The board when the open steps of the task are deferred. -/
def deferred (db : Db) : Board := { b with db := db.deferReportedSubtasks id }

/-- The board when the task is completed. -/
def complete (db : Db) : Board :=
  { b with
    db := (db.deferReportedSubtasks id).updateTasks (fun t => t.id = id && !t.closed) fun t =>
      { t with status := .completed } }

end Board

/-- The row of a task after its completion. -/
def Task.complete (t : Task) : Task := { t with status := .completed }

@[simp] theorem Task.complete_id (t : Task) : t.complete.id = t.id := rfl

/-- At most the status of one task is another. -/
def AtMostReopens (id : String) (b b' : Board) : Prop :=
  ∃ status : Task → TaskStatus,
    b'.db.tasks = b.db.tasks.map fun t => if t.id = id then { t with status := status t } else t

section Spec

variable (now : ℕ → ℤ) (onCompleted : Callback)

/-- Tasks that are ready one after the other: each is the parent of the one before, and is left
completed by its callback. -/
inductive Chain : ℕ → Board → Option String → List Task → ℕ → Board → Option String → Prop
  | nil {n : ℕ} {b : Board} {next : Option String} : Chain n b next [] n b next
  | cons {n m : ℕ} {b b₁ b' : Board} {id : String} {db : Db} {t : Task} {ts : List Task}
      {next : Option String} (hready : b.Ready id (now n) db) (hown : ¬ b.OwnStep id)
      (hrow : b.db.task? id = some t)
      (hcall : onCompleted n t.complete (b.complete id db) = (.ok (), b₁))
      (hstays : b₁.Completed id) (hup : Chain (n + 1) b₁ t.parentTaskId ts m b' next) :
      Chain n b (some id) (t.complete :: ts) m b' next

/-- Why a chain does not go on, with the tasks that are completed nevertheless. -/
inductive Stop : ℕ → Board → Option String → List Task → Except Error Unit → Board → Prop
  /-- The last task has no parent. -/
  | root {n : ℕ} {b : Board} : Stop n b none [] (.ok ()) b
  | closed {n : ℕ} {b : Board} {id : String} {t : Task} (hrow : b.db.task? id = some t)
      (hclosed : t.closed = true) : Stop n b (some id) [] (.ok ()) b
  | notReady {n : ℕ} {b : Board} {id : String} {t : Task} {db : Db}
      (hrow : b.db.task? id = some t) (hopen : t.closed = false)
      (htold : Db.reconcile (now n) b.db = .ok ((), db)) (hnot : ¬ b.Ready id (now n) db) :
      Stop n b (some id) [] (.ok ()) { b with db }
  | ownStep {n : ℕ} {b : Board} {id : String} {db : Db} (hready : b.Ready id (now n) db)
      (hown : b.OwnStep id) : Stop n b (some id) [] (.ok ()) (b.deferred id db)
  | unreadable {n : ℕ} {b : Board} {id : String} {e : Error} (h : b.Unreadable id (now n) e) :
      Stop n b (some id) [] (.error e) b
  | failed {n : ℕ} {b b' : Board} {id : String} {db : Db} {t : Task} {e : Error}
      (hready : b.Ready id (now n) db) (hown : ¬ b.OwnStep id) (hrow : b.db.task? id = some t)
      (hcall : onCompleted n t.complete (b.complete id db) = (.error e, b')) :
      Stop n b (some id) [t.complete] (.error e) b'
  | reopened {n : ℕ} {b b' : Board} {id : String} {db : Db} {t : Task}
      (hready : b.Ready id (now n) db) (hown : ¬ b.OwnStep id) (hrow : b.db.task? id = some t)
      (hcall : onCompleted n t.complete (b.complete id db) = (.ok (), b'))
      (hreopened : ¬ b'.Completed id) : Stop n b (some id) [t.complete] (.ok ()) b'

end Spec

/-! ## One completion -/

namespace Db

variable {db db' : Db}

theorem deliver_tasks {o : Outcome} {status : TaskStatus} {owner : String} {now : ℤ}
    (h : deliver o status owner now db = .ok ((), db')) : db'.tasks = db.tasks := by
  obtain ⟨⟨m, db₁⟩, h1, h⟩ := bind_ok h
  obtain ⟨⟨i, db₂⟩, h2, h⟩ := bind_ok h
  cases h
  obtain ⟨_, -, h1⟩ := bind_ok h1
  cases h1
  obtain ⟨_, -, h2⟩ := bind_ok h2
  obtain ⟨_, -, h2⟩ := bind_ok h2
  obtain ⟨⟨j, db₃⟩, h3, h2⟩ := bind_ok h2
  obtain ⟨db₄, h4, h2⟩ := bind_ok h2
  cases h2
  obtain ⟨-, rfl⟩ := associateResponseTrigger_eq h4
  show db₃.tasks = db.tasks
  unfold notificationResponse at h3
  split at h3
  · cases h3
    rfl
  · obtain ⟨⟨item, db₅⟩, h5, h3⟩ := bind_ok h3
    have htasks : db₅.tasks = db.tasks := by
      unfold enqueueNew at h5
      split at h5
      · cases h5
      · dsimp only at h5
        split at h5
        · cases h5
        · cases h5
          rfl
    dsimp only at h3
    split at h3
    · cases h3
    · cases h3
      exact htasks

theorem deliverAll_tasks {now : ℤ} {reports : List (Outcome × TaskStatus × String)}
    (h : deliverAll now reports db = .ok ((), db')) : db'.tasks = db.tasks := by
  induction reports generalizing db with
  | nil =>
    cases h
    rfl
  | cons r reports ih =>
    obtain ⟨⟨_, db₁⟩, h1, h⟩ := bind_ok h
    exact (ih h).trans (deliver_tasks h1)

theorem reconcile_tasks {now : ℤ} (h : reconcile now db = .ok ((), db')) :
    db'.tasks = db.tasks := by
  obtain ⟨⟨_, db₁⟩, h1, h⟩ := bind_ok h
  cases h
  exact (deliverAll_tasks h1).trans (retireAll_frame now (db.staleResponses none) db).1

end Db

namespace Board

variable {b : Board} {id : String} {now : ℤ}

theorem gateSatisfied_iff : b.gateSatisfied id = true ↔ ∀ r ∈ b.pulls, r.key.taskId = id →
    r.status = .approved ∨ r.status = .merged ∨ r.status = .cancelled := by
  simp only [gateSatisfied, Github.PullStatus.satisfied, Bool.not_eq_true', List.any_eq_false,
    Bool.and_eq_true, decide_eq_true_eq, Bool.not_eq_true', Bool.or_eq_false_iff,
    decide_eq_false_iff_not, not_and, not_not]
  refine forall₂_congr fun r _ => imp_congr_right fun _ => ?_
  constructor
  · intro h
    by_cases happroved : r.status = .approved
    · exact Or.inl happroved
    by_cases hmerged : r.status = .merged
    · exact Or.inr (Or.inl hmerged)
    · exact Or.inr (Or.inr (h ⟨happroved, hmerged⟩))
  · rintro (h | h | h) <;> simp [h]

/-- The gates of an open task, as `complete_if_ready` reads them. -/
theorem ready_iff {t : Task} {db : Db} (hrow : b.db.task? id = some t) (hopen : t.closed = false)
    (htold : Db.reconcile now b.db = .ok ((), db)) :
    b.Ready id now db ↔ (!b.gateSatisfied id || !b.db.subtasksComplete id ||
      db.hasOpenAttempt id || (db.task? id).any (·.parentReviewRequired)) = false := by
  have hrow' : db.task? id = some t := by rw [Db.task?, Db.reconcile_tasks htold]; exact hrow
  have hattempts : db.hasOpenAttempt id = false ↔
      ∀ a ∈ db.attempts, a.taskId = some id → a.ended := by
    simp only [Db.hasOpenAttempt, List.any_eq_false, Bool.and_eq_true, decide_eq_true_eq,
      Bool.not_eq_true', not_and, Bool.not_eq_false, WorkAttempt.ended]
  have hchildren : b.db.subtasksComplete id = true ↔ ∀ child ∈ b.db.tasks,
      child.parentTaskId = some id → child.blocksParent = true → child.status = .completed := by
    rw [Db.subtasksComplete, Bool.not_eq_true', Db.childrenBlock_eq_false_iff]
  simp only [Bool.or_eq_false_iff, Bool.not_eq_false', gateSatisfied_iff, hchildren, hattempts,
    hrow', Option.any_some]
  constructor
  · rintro ⟨⟨t', ht', -, hreview⟩, hgate, hchildren, -, hended⟩
    rw [hrow] at ht'
    cases ht'
    exact ⟨⟨⟨hgate, hchildren⟩, hended⟩, hreview⟩
  · rintro ⟨⟨⟨hgate, hchildren⟩, hended⟩, hreview⟩
    exact ⟨⟨t, hrow, hopen, hreview⟩, hgate, hchildren, htold, hended⟩

theorem ownStep_iff {t : Task} (hids : (b.db.tasks.map (·.id)).Nodup)
    (hrow : b.db.task? id = some t) :
    b.OwnStep id ↔ t.parentTaskId = some id ∧ t.provenance = "native_plan" := by
  constructor
  · rintro ⟨u, hu, rfl, hparent, hprovenance⟩
    have heq := Table.get_eq_some_of_mem hids hu
    rw [← Db.task?, hrow] at heq
    cases heq
    exact ⟨hparent, hprovenance⟩
  · rintro ⟨hparent, hprovenance⟩
    exact ⟨t, Table.mem_of_get hrow, Table.key_of_get hrow, hparent, hprovenance⟩

theorem task?_deferred {db : Db} {t : Task} (hrow : db.task? id = some t)
    (hopen : t.closed = false) :
    (db.deferReportedSubtasks id).task? id = some
      (if t.parentTaskId = some id ∧ t.provenance = "native_plan" then
        { t with status := .cancelled } else t) := by
  have hkey : ∀ u : Task, (if u.parentTaskId = some id && u.provenance = "native_plan" &&
      !u.closed then { u with status := .cancelled } else u).id = u.id := by
    intro u
    split <;> rfl
  rw [Db.deferReportedSubtasks, Db.updateTasks, Db.task?, Table.get_map hkey, ← Db.task?, hrow]
  simp [hopen]

theorem completable_length {db : Db} {t : Task} (hids : (db.tasks.map (·.id)).Nodup)
    (hrow : db.task? id = some t) : (completable db id).length = if t.closed then 0 else 1 := by
  have hrows : completable db id = [t].filter fun u => !u.closed := by
    rw [← Table.filter_key_eq hids hrow, List.filter_filter, completable]
    exact List.filter_congr fun u _ => Bool.and_comm _ _
  rw [hrows]
  cases hc : t.closed <;> simp [hc]

theorem task?_complete {db : Db} {t : Task} (hrow : db.task? id = some t) (hopen : t.closed = false)
    (hown : ¬ (t.parentTaskId = some id ∧ t.provenance = "native_plan")) :
    (b.complete id db).db.task? id = some t.complete := by
  have hkey : ∀ u : Task, (if u.id = id && !u.closed then { u with status := .completed } else u).id
      = u.id := by
    intro u
    split <;> rfl
  have hdeferred := task?_deferred hrow hopen
  rw [if_neg hown] at hdeferred
  rw [complete, Db.updateTasks, Db.task?, Table.get_map hkey, ← Db.task?, hdeferred]
  simp [Table.key_of_get hrow, hopen, Task.complete]

theorem deferReportedSubtasks_ids (id : String) (db : Db) :
    (db.deferReportedSubtasks id).tasks.map (·.id) = db.tasks.map (·.id) := by
  rw [Db.deferReportedSubtasks, Db.updateTasks, List.map_map]
  exact List.map_congr_left fun t _ => by dsimp only [Function.comp]; split <;> rfl

theorem Ready.isOpen {db : Db} {t : Task} (h : b.Ready id now db) (hrow : b.db.task? id = some t) :
    t.closed = false := by
  obtain ⟨u, hu, hopen, -⟩ := h.opened
  rw [hrow] at hu
  cases hu
  exact hopen

section

variable {t : Task} {db : Db}

theorem completeIfReady_unreadable {e : Error} (h : b.Unreadable id now e) :
    b.completeIfReady id now = .error e := by
  rcases h with ⟨hrow, rfl⟩ | ⟨⟨t, hrow, hopen⟩, herror⟩
  · simp [completeIfReady, hrow]
  · simp [completeIfReady, hrow, hopen, herror]

theorem completeIfReady_closed (hrow : b.db.task? id = some t) (hclosed : t.closed = true) :
    b.completeIfReady id now = .ok (none, b) := by
  simp [completeIfReady, hrow, hclosed]

theorem completeIfReady_notReady (hrow : b.db.task? id = some t) (hopen : t.closed = false)
    (htold : Db.reconcile now b.db = .ok ((), db)) (hnot : ¬ b.Ready id now db) :
    b.completeIfReady id now = .ok (none, { b with db }) := by
  rw [ready_iff hrow hopen htold, Bool.not_eq_false] at hnot
  simp only [completeIfReady, hrow, hopen, htold]
  exact if_pos hnot

/-- A task that is ready passes the gates; whether it is completed depends on its own row, which
the deferral of its steps may have closed. -/
theorem completeIfReady_open (hready : b.Ready id now db) (hrow : b.db.task? id = some t) :
    b.completeIfReady id now =
      if (completable (db.deferReportedSubtasks id) id).length ≠ 1 then .ok (none, b.deferred id db)
      else .ok ((b.complete id db).db.task? id, b.complete id db) := by
  have hopen := hready.isOpen hrow
  have hgates := (ready_iff hrow hopen hready.told).1 hready
  simp only [completeIfReady, hrow, hopen, hready.told]
  exact if_neg (ne_true_of_eq_false hgates)

theorem Ready.deferred (hids : (b.db.tasks.map (·.id)).Nodup) (hready : b.Ready id now db)
    (hrow : b.db.task? id = some t) :
    (completable (db.deferReportedSubtasks id) id).length =
      if t.parentTaskId = some id ∧ t.provenance = "native_plan" then 0 else 1 := by
  have htasks := Db.reconcile_tasks hready.told
  have hopen := hready.isOpen hrow
  have hids' : ((db.deferReportedSubtasks id).tasks.map (·.id)).Nodup := by
    rw [deferReportedSubtasks_ids, htasks]
    exact hids
  have hrow' : db.task? id = some t := by rw [Db.task?, htasks]; exact hrow
  rw [completable_length hids' (task?_deferred hrow' hopen)]
  split_ifs with hown <;> simp_all [Task.closed]

theorem completeIfReady_ownStep (hids : (b.db.tasks.map (·.id)).Nodup)
    (hready : b.Ready id now db) (hown : b.OwnStep id) :
    b.completeIfReady id now = .ok (none, b.deferred id db) := by
  obtain ⟨t, hrow, -⟩ := hready.opened
  have hlength := hready.deferred hids hrow
  rw [if_pos ((ownStep_iff hids hrow).1 hown)] at hlength
  rw [completeIfReady_open hready hrow, if_pos (by rw [hlength]; exact Nat.zero_ne_one)]

theorem completeIfReady_ready (hids : (b.db.tasks.map (·.id)).Nodup)
    (hready : b.Ready id now db) (hown : ¬ b.OwnStep id) (hrow : b.db.task? id = some t) :
    b.completeIfReady id now = .ok (some t.complete, b.complete id db) := by
  rw [ownStep_iff hids hrow] at hown
  have hlength := hready.deferred hids hrow
  rw [if_neg hown] at hlength
  have hrow' : db.task? id = some t := by
    rw [Db.task?, Db.reconcile_tasks hready.told]
    exact hrow
  rw [completeIfReady_open hready hrow, if_neg (not_not.2 hlength),
    task?_complete hrow' (hready.isOpen hrow) hown]

/-- What a task is when its turn comes. -/
theorem ready_or_not (b : Board) (id : String) (now : ℤ) :
    (∃ e, b.Unreadable id now e) ∨ (∃ t, b.db.task? id = some t ∧ t.closed = true) ∨
      (∃ t db, b.db.task? id = some t ∧ t.closed = false ∧
        Db.reconcile now b.db = .ok ((), db) ∧ ¬ b.Ready id now db) ∨
      ∃ t db, b.db.task? id = some t ∧ b.Ready id now db := by
  cases hrow : b.db.task? id with
  | none => exact Or.inl ⟨_, Or.inl ⟨hrow, rfl⟩⟩
  | some t =>
    cases hclosed : t.closed with
    | true => exact Or.inr (Or.inl ⟨t, rfl, hclosed⟩)
    | false =>
      cases htold : Db.reconcile now b.db with
      | error e => exact Or.inl ⟨e, Or.inr ⟨⟨t, hrow, hclosed⟩, htold⟩⟩
      | ok r =>
        by_cases hready : b.Ready id now r.2
        · exact Or.inr (Or.inr (Or.inr ⟨t, r.2, rfl, hready⟩))
        · exact Or.inr (Or.inr (Or.inl ⟨t, r.2, rfl, hclosed, rfl, hready⟩))

end

/-! ## Which tasks are completed -/

theorem complete_ids {db : Db} (htasks : db.tasks = b.db.tasks) :
    (b.complete id db).db.tasks.map (·.id) = b.db.tasks.map (·.id) := by
  rw [← htasks, ← deferReportedSubtasks_ids id db, complete, Db.updateTasks, List.map_map]
  exact List.map_congr_left fun t _ => by dsimp only [Function.comp]; split <;> rfl

theorem completed_of_row {t : Task} (hrow : b.db.task? id = some t) (h : t.status = .completed) :
    b.Completed id :=
  ⟨t, Table.mem_of_get hrow, Table.key_of_get hrow, h⟩

theorem completed_iff_of_row {t : Task} (hids : (b.db.tasks.map (·.id)).Nodup)
    (hrow : b.db.task? id = some t) : b.Completed id ↔ t.status = .completed := by
  refine ⟨?_, completed_of_row hrow⟩
  rintro ⟨u, hu, rfl, hstatus⟩
  have heq := Table.get_eq_some_of_mem hids hu
  rw [← Db.task?, hrow] at heq
  cases heq
  exact hstatus

theorem Ready.not_completed {db : Db} (hids : (b.db.tasks.map (·.id)).Nodup)
    (h : b.Ready id now db) : ¬ b.Completed id := by
  obtain ⟨t, hrow, hopen, -⟩ := h.opened
  rw [completed_iff_of_row hids hrow]
  intro hstatus
  simp [Task.closed, hstatus] at hopen

/-- A deferral completes no task, and closes none that was completed. -/
theorem completed_deferred (id : String) {db : Db} {i : String} (htasks : db.tasks = b.db.tasks) :
    (b.deferred id db).Completed i ↔ b.Completed i := by
  simp only [Completed, deferred, Db.deferReportedSubtasks, Db.updateTasks, htasks, List.mem_map]
  constructor
  · rintro ⟨_, ⟨t, ht, rfl⟩, hid, hstatus⟩
    split at hstatus
    · cases hstatus
    · rename_i hkept
      rw [if_neg hkept] at hid
      exact ⟨t, ht, hid, hstatus⟩
  · rintro ⟨t, ht, hid, hstatus⟩
    have hclosed : t.closed = true := by simp [Task.closed, hstatus]
    exact ⟨t, ⟨t, ht, by simp [hclosed]⟩, hid, hstatus⟩

/-- Completing a task leaves the others completed, or not, as they were. -/
theorem completed_complete {db : Db} {i : String} (htasks : db.tasks = b.db.tasks) (hi : i ≠ id) :
    (b.complete id db).Completed i ↔ b.Completed i := by
  rw [← completed_deferred id htasks]
  simp only [Completed, complete, deferred, Db.updateTasks, List.mem_map]
  constructor
  · rintro ⟨_, ⟨t, ht, rfl⟩, hid, hstatus⟩
    split at hid
    · rename_i hset
      simp only [Bool.and_eq_true, decide_eq_true_eq] at hset
      exact absurd (hid.symm.trans hset.1) hi
    · rename_i hkept
      rw [if_neg hkept] at hstatus
      exact ⟨t, ht, hid, hstatus⟩
  · rintro ⟨t, ht, hid, hstatus⟩
    exact ⟨t, ⟨t, ht, if_neg (by simp [hid, hi])⟩, hid, hstatus⟩

end Board

namespace AtMostReopens

variable {id i : String} {b b' : Board}

theorem ids (h : AtMostReopens id b b') : b'.db.tasks.map (·.id) = b.db.tasks.map (·.id) := by
  obtain ⟨status, htasks⟩ := h
  rw [htasks, List.map_map]
  exact List.map_congr_left fun t _ => by dsimp only [Function.comp]; split <;> rfl

theorem completed (h : AtMostReopens id b b') (hi : i ≠ id) : b'.Completed i ↔ b.Completed i := by
  obtain ⟨status, htasks⟩ := h
  simp only [Board.Completed, htasks, List.mem_map]
  constructor
  · rintro ⟨_, ⟨t, ht, rfl⟩, hid, hstatus⟩
    by_cases heq : t.id = id
    · rw [if_pos heq] at hid
      exact absurd (hid.symm.trans heq) hi
    · rw [if_neg heq] at hid hstatus
      exact ⟨t, ht, hid, hstatus⟩
  · rintro ⟨t, ht, rfl, hstatus⟩
    exact ⟨t, ⟨t, ht, if_neg hi⟩, rfl, hstatus⟩

end AtMostReopens

/-- The tasks completed between two boards, each once. -/
structure Rolled (b : Board) (ts : List Task) (b' : Board) : Prop where
  ids : b'.db.tasks.map (·.id) = b.db.tasks.map (·.id)
  completed : ∀ i, b'.Completed i ↔ b.Completed i ∨ i ∈ ts.map (·.id)
  nodup : (ts.map (·.id)).Nodup
  fresh : ∀ i ∈ ts.map (·.id), ¬ b.Completed i
  known : ts.map (·.id) ⊆ b.db.tasks.map (·.id)

section Climb

variable {now : ℕ → ℤ} {onCompleted : Callback} {n m : ℕ} {b b' : Board} {id : String} {t : Task}
  {db : Db}

theorem called_completed (hcall : ∀ n t b, AtMostReopens t.id b (onCompleted n t b).2)
    (hready : b.Ready id (now n) db) (hrow : b.db.task? id = some t) :
    (onCompleted n t.complete (b.complete id db)).2.db.tasks.map (·.id) = b.db.tasks.map (·.id) ∧
      ∀ i ≠ id, (onCompleted n t.complete (b.complete id db)).2.Completed i ↔ b.Completed i := by
  have htasks := Db.reconcile_tasks hready.told
  have hreopens := hcall n t.complete (b.complete id db)
  rw [Task.complete_id, show t.id = id from Table.key_of_get hrow] at hreopens
  refine ⟨hreopens.ids.trans (Board.complete_ids htasks), fun i hi => ?_⟩
  exact (hreopens.completed hi).trans (Board.completed_complete htasks hi)

/-- **A chain completes its tasks**, each once. -/
theorem Chain.rolled (hcall : ∀ n t b, AtMostReopens t.id b (onCompleted n t b).2)
    {ts : List Task} {next next' : Option String} (h : Chain now onCompleted n b next ts m b' next')
    (hids : (b.db.tasks.map (·.id)).Nodup) : Rolled b ts b' := by
  induction h with
  | nil => exact ⟨rfl, by simp, by simp, by simp, by simp⟩
  | cons hready hown hrow hcalled hstays hup ih =>
    rename_i n m b b₁ b' id db t ts next
    obtain ⟨hb₁, hothers⟩ := called_completed hcall hready hrow
    rw [hcalled] at hb₁ hothers
    have hr := ih (hb₁ ▸ hids)
    have hid : t.complete.id = id := (Task.complete_id t).trans (Table.key_of_get hrow)
    have hb (i : String) : b₁.Completed i ↔ b.Completed i ∨ i = id := by
      by_cases hi : i = id
      · simp [hi, hstays]
      · simp [hi, hothers i hi]
    refine ⟨hr.ids.trans hb₁, fun i => ?_, ?_, ?_, ?_⟩
    · rw [hr.completed, hb, List.map_cons, List.mem_cons, hid, or_assoc]
    · rw [List.map_cons, List.nodup_cons, hid]
      exact ⟨fun hmem => hr.fresh id hmem hstays, hr.nodup⟩
    · intro i hi
      rw [List.map_cons, List.mem_cons, hid] at hi
      rcases hi with rfl | hi
      · exact hready.not_completed hids
      · exact fun hdone => hr.fresh i hi ((hb i).2 (Or.inl hdone))
    · rw [List.map_cons, hid]
      refine List.cons_subset.2 ⟨?_, hb₁ ▸ hr.known⟩
      exact Table.get_isSome_iff.1 (Option.isSome_iff_exists.2 ⟨t, hrow⟩)

theorem Rolled.length_le {ts : List Task} (h : Rolled b ts b') :
    ts.length ≤ b.db.tasks.length := by
  simpa using (h.nodup.subperm h.known).length_le

/-- A chain goes on for any number of rounds, or stops before. -/
theorem exists_chain (now : ℕ → ℤ)
    (hcall : ∀ n t b, AtMostReopens t.id b (onCompleted n t b).2) (k n : ℕ)
    (b : Board) (next : Option String) (hids : (b.db.tasks.map (·.id)).Nodup) :
    (∃ ts m b' next', Chain now onCompleted n b next ts m b' next' ∧ ts.length = k) ∨
      ∃ ts m mid next' last r b', Chain now onCompleted n b next ts m mid next' ∧
        Stop now onCompleted m mid next' last r b' := by
  induction k generalizing n b next with
  | zero => exact Or.inl ⟨[], n, b, next, .nil, rfl⟩
  | succ k ih =>
    cases next with
    | none => exact Or.inr ⟨[], n, b, none, [], _, b, .nil, .root⟩
    | some id =>
      rcases b.ready_or_not id (now n) with
        ⟨e, he⟩ | ⟨t, hrow, hclosed⟩ | ⟨t, db, hrow, hopen, htold, hnot⟩ | ⟨t, db, hrow, hready⟩
      · exact Or.inr ⟨[], n, b, some id, [], _, b, .nil, .unreadable he⟩
      · exact Or.inr ⟨[], n, b, some id, [], _, b, .nil, .closed hrow hclosed⟩
      · exact Or.inr ⟨[], n, b, some id, [], _, _, .nil, .notReady hrow hopen htold hnot⟩
      · by_cases hown : b.OwnStep id
        · exact Or.inr ⟨[], n, b, some id, [], _, _, .nil, .ownStep hready hown⟩
        cases hcalled : onCompleted n t.complete (b.complete id db) with
        | mk r b₁ =>
          cases r with
          | error e =>
            exact Or.inr
              ⟨[], n, b, some id, _, _, b₁, .nil, .failed hready hown hrow hcalled⟩
          | ok u =>
            by_cases hstays : b₁.Completed id
            · have hb₁ := (called_completed hcall hready hrow).1
              rw [hcalled] at hb₁
              rcases ih (n + 1) b₁ t.parentTaskId (hb₁ ▸ hids) with
                ⟨ts, m, b', next', hchain, hlength⟩ |
                  ⟨ts, m, mid, next', last, r, b', hchain, hstop⟩
              · exact Or.inl ⟨t.complete :: ts, m, b', next',
                  .cons hready hown hrow hcalled hstays hchain, congrArg (· + 1) hlength⟩
              · exact Or.inr ⟨t.complete :: ts, m, mid, next', last, r, b',
                  .cons hready hown hrow hcalled hstays hchain, hstop⟩
            · exact Or.inr ⟨[], n, b, some id, _, _, b₁, .nil,
                .reopened hready hown hrow hcalled hstays⟩

/-! ## The loop -/

theorem called_row (hcall : ∀ n t b, AtMostReopens t.id b (onCompleted n t b).2)
    (hids : (b.db.tasks.map (·.id)).Nodup) (hready : b.Ready id (now n) db)
    (hrow : b.db.task? id = some t) :
    ∃ t', (onCompleted n t.complete (b.complete id db)).2.db.task? t.complete.id = some t' ∧
      ((onCompleted n t.complete (b.complete id db)).2.Completed id ↔ t'.status = .completed) := by
  have hid : t.complete.id = id := (Task.complete_id t).trans (Table.key_of_get hrow)
  have hb' := (called_completed hcall hready hrow).1
  have hmem : id ∈ b.db.tasks.map (·.id) :=
    Table.get_isSome_iff.1 (Option.isSome_iff_exists.2 ⟨t, hrow⟩)
  obtain ⟨t', ht'⟩ := Option.isSome_iff_exists.1 (Table.get_isSome_iff.2 (hb' ▸ hmem))
  rw [hid]
  exact ⟨t', ht', Board.completed_iff_of_row (hb' ▸ hids) ht'⟩

/-- The loop answers for the task it has completed when it stops. -/
theorem Stop.rollUp {next : Option String} {last : List Task} {r : Except Error Unit}
    (hcall : ∀ n t b, AtMostReopens t.id b (onCompleted n t b).2)
    (h : Stop now onCompleted n b next last r b') (hids : (b.db.tasks.map (·.id)).Nodup)
    (fuel : ℕ) :
    rollUp now onCompleted (fuel + 1) n next b = some (r.map fun _ => last, b') := by
  cases h with
  | root => rfl
  | unreadable he => simp only [Tasks.rollUp, Board.completeIfReady_unreadable he, Except.map]
  | closed hrow hclosed =>
    simp only [Tasks.rollUp, Board.completeIfReady_closed hrow hclosed, Except.map]
  | notReady hrow hopen htold hnot =>
    simp only [Tasks.rollUp, Board.completeIfReady_notReady hrow hopen htold hnot, Except.map]
  | ownStep hready hown =>
    simp only [Tasks.rollUp, Board.completeIfReady_ownStep hids hready hown, Except.map]
  | failed hready hown hrow hcalled =>
    simp only [Tasks.rollUp, Board.completeIfReady_ready hids hready hown hrow, hcalled,
      Except.map]
  | reopened hready hown hrow hcalled hreopened =>
    obtain ⟨t', ht', hstatus⟩ := called_row hcall hids hready hrow
    rw [hcalled] at ht' hstatus
    simp only [Tasks.rollUp, Board.completeIfReady_ready hids hready hown hrow, hcalled, ht',
      if_neg (mt hstatus.2 hreopened), Except.map]

/-- The loop goes up a chain, a round for each of its tasks. -/
theorem Chain.rollUp {ts : List Task} {next next' : Option String}
    (hcall : ∀ n t b, AtMostReopens t.id b (onCompleted n t b).2)
    (h : Chain now onCompleted n b next ts m b' next') (hids : (b.db.tasks.map (·.id)).Nodup)
    (fuel : ℕ) :
    rollUp now onCompleted (ts.length + fuel) n next b =
      (rollUp now onCompleted fuel m next' b').map fun r => (r.1.map (ts ++ ·), r.2) := by
  induction h with
  | nil =>
    rw [List.length_nil, Nat.zero_add]
    cases Tasks.rollUp now onCompleted fuel _ _ _ with
    | none => rfl
    | some r => obtain ⟨_ | _, _⟩ := r <;> rfl
  | cons hready hown hrow hcalled hstays hup ih =>
    rename_i n m b b₁ b' id db t ts next
    obtain ⟨t', ht', hstatus⟩ := called_row hcall hids hready hrow
    have hb₁ := (called_completed hcall hready hrow).1
    rw [hcalled] at ht' hstatus hb₁
    rw [List.length_cons, Nat.add_right_comm]
    simp only [Tasks.rollUp, Board.completeIfReady_ready hids hready hown hrow, hcalled, ht',
      if_pos (hstatus.1 hstays)]
    rw [show t.complete.parentTaskId = t.parentTaskId from rfl, ih (hb₁ ▸ hids), Option.map_map]
    refine congrArg (Option.map · _) (funext fun r => ?_)
    obtain ⟨_ | _, _⟩ := r <;> rfl

/-- Where the loop stops, it leaves the tasks completed, or not, as they were, but for the one
whose callback it called last. -/
theorem Stop.completed {next : Option String} {last : List Task} {r : Except Error Unit}
    (hcall : ∀ n t b, AtMostReopens t.id b (onCompleted n t b).2)
    (h : Stop now onCompleted n b next last r b') (hids : (b.db.tasks.map (·.id)).Nodup) :
    (∀ i ∉ last.map (·.id), b'.Completed i ↔ b.Completed i) ∧ (last.map (·.id)).Nodup ∧
      ∀ i ∈ last.map (·.id), ¬ b.Completed i := by
  have hnone {b' : Board} (hb' : ∀ i, b'.Completed i ↔ b.Completed i) :
      (∀ i ∉ ([] : List Task).map (·.id), b'.Completed i ↔ b.Completed i) ∧
        (([] : List Task).map (·.id)).Nodup ∧
          ∀ i ∈ ([] : List Task).map (·.id), ¬ b.Completed i :=
    ⟨fun i _ => hb' i, by simp, by simp⟩
  have hlast {id : String} {db : Db} {t : Task} (hready : b.Ready id (now n) db)
      (hrow : b.db.task? id = some t) :
      (∀ i ∉ [t.complete].map (·.id),
        (onCompleted n t.complete (b.complete id db)).2.Completed i ↔ b.Completed i) ∧
        ([t.complete].map (·.id)).Nodup ∧ ∀ i ∈ [t.complete].map (·.id), ¬ b.Completed i := by
    have hid : t.complete.id = id := (Task.complete_id t).trans (Table.key_of_get hrow)
    have hothers := (called_completed hcall hready hrow).2
    simp only [List.map_cons, List.map_nil, List.mem_singleton, hid]
    refine ⟨hothers, List.nodup_singleton id, ?_⟩
    rintro _ rfl
    exact hready.not_completed hids
  cases h with
  | root => exact hnone fun _ => Iff.rfl
  | unreadable => exact hnone fun _ => Iff.rfl
  | closed => exact hnone fun _ => Iff.rfl
  | notReady hrow hopen htold hnot =>
    refine hnone fun i => ?_
    rw [Board.Completed, Board.Completed, Db.reconcile_tasks htold]
  | ownStep hready hown =>
    exact hnone fun i => Board.completed_deferred _ (Db.reconcile_tasks hready.told)
  | failed hready hown hrow hcalled =>
    have hfailed := hlast hready hrow
    rwa [hcalled] at hfailed
  | reopened hready hown hrow hcalled hreopened =>
    have hreopens := hlast hready hrow
    rwa [hcalled] at hreopens

/-- **A roll-up ends, and completes the ready tasks from the given one up.**  The chain of tasks
that are ready, each read when the ones below were completed and none a reported step of itself,
is completed in order, each task once; it ends with a task whose callback failed or reopened it,
or below one that is not completed. -/
theorem roll_up_completes_chain (hcall : ∀ n t b, AtMostReopens t.id b (onCompleted n t b).2)
    (hids : (b.db.tasks.map (·.id)).Nodup) (id : String) :
    ∃ ts n mid next last r b',
      Chain now onCompleted 0 b (some id) ts n mid next ∧
      Stop now onCompleted n mid next last r b' ∧
      (∀ fuel > b.db.tasks.length, completeAndRollUpWith now onCompleted fuel id b =
        some (r.map fun _ => ts ++ last, b')) ∧
      ((ts ++ last).map (·.id)).Nodup ∧
      ∀ i ∉ last.map (·.id), b'.Completed i ↔ b.Completed i ∨ i ∈ ts.map (·.id) := by
  rcases exists_chain now hcall (b.db.tasks.length + 1) 0 b (some id) hids with
    ⟨ts, n, mid, next, hchain, hlength⟩ | ⟨ts, n, mid, next, last, r, b', hchain, hstop⟩
  · -- a chain has no more tasks than the table
    have hle := (hchain.rolled hcall hids).length_le
    omega
  · have hr := hchain.rolled hcall hids
    have hmid : (mid.db.tasks.map (·.id)).Nodup := hr.ids ▸ hids
    obtain ⟨hothers, hnodup, hfresh⟩ := hstop.completed hcall hmid
    refine ⟨ts, n, mid, next, last, r, b', hchain, hstop, fun fuel hfuel => ?_, ?_, fun i hi => ?_⟩
    · have hle := hr.length_le
      obtain ⟨rest, rfl⟩ : ∃ rest, fuel = ts.length + (rest + 1) :=
        ⟨fuel - ts.length - 1, by omega⟩
      rw [completeAndRollUpWith, hchain.rollUp hcall hids, hstop.rollUp hcall hmid, Option.map_some]
      cases r <;> rfl
    · rw [List.map_append]
      refine hr.nodup.append hnodup fun i hi hlast => hfresh i hlast ?_
      exact (hr.completed i).2 (Or.inr hi)
    · rw [hothers i hi, hr.completed]

end Climb

/-- A callback that does nothing. -/
def ignoreCompletion : Callback := fun _ _ b => (.ok (), b)

theorem ignoreCompletion_atMostReopens (n : ℕ) (t : Task) (b : Board) :
    AtMostReopens t.id b (ignoreCompletion n t b).2 := by
  refine ⟨(·.status), ?_⟩
  rw [List.map_congr_left (g := id) fun u _ => ite_self u, List.map_id]
  rfl

/-- A child that blocks its parent. -/
def childAndParent : Board where
  db := { tasks := [{ id := "parent" }, { id := "child", parentTaskId := some "parent" }] }
  pulls := []

theorem roll_up_completes_parent : ∃ ts n mid next last r b',
    Chain (fun _ => 0) ignoreCompletion 0 childAndParent (some "child") ts n mid next ∧
    Stop (fun _ => 0) ignoreCompletion n mid next last r b' ∧
    (ts ++ last).map (·.id) = ["child", "parent"] := by
  obtain ⟨ts, n, mid, next, last, r, b', hchain, hstop, hloop, -⟩ :=
    @roll_up_completes_chain (fun _ => 0) ignoreCompletion childAndParent
      ignoreCompletion_atMostReopens (by decide) "child"
  refine ⟨ts, n, mid, next, last, r, b', hchain, hstop, ?_⟩
  have hrun : (completeAndRollUpWith (fun _ => 0) ignoreCompletion 3 "child" childAndParent).map
      (fun r => (r.1.map fun ts => ts.map (·.id)).toOption) = some (some ["child", "parent"]) := by
    rfl
  rw [hloop 3 (by decide)] at hrun
  cases r with
  | error e => cases hrun
  | ok u => simpa [Except.map, Except.toOption] using hrun

/-- A reported step that is its own parent. -/
def stepOfItself : Board where
  db :=
    { tasks :=
        [{ id := "task", parentTaskId := some "task", provenance := "native_plan",
           blocksParent := false }] }
  pulls := []

/-- A reported step of itself is ready, but the deferral cancels it before it is completed. -/
theorem stepOfItself_not_completed :
    (stepOfItself.db.tasks.map (·.id)).Nodup ∧ stepOfItself.Ready "task" 0 stepOfItself.db ∧
      completeAndRollUpWith (fun _ => 0) ignoreCompletion 2 "task" stepOfItself =
        some (.ok [], stepOfItself.deferred "task" stepOfItself.db) := by
  refine ⟨by decide, ⟨⟨_, rfl, rfl, rfl⟩, by simp [stepOfItself], by simp [stepOfItself], rfl,
    by simp [stepOfItself]⟩, rfl⟩

end XpressClaw.Tasks
