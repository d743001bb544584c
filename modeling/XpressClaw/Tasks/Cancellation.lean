import XpressClaw.Tasks.Worker

/-!
# A user's cancellation and the worker

The worker looks at its attempt and writes the task status in another transaction, and
`update_status` does not look at the status it replaces.  Everything else it does to a
cancelled task leaves the task alone: its attempt has ended, so that no transition, no reply
and no completion goes through.

* `Db.Cancelled` — the task is cancelled and none of its attempts is live.
* `Worker.step_writes` — a status that the worker writes replaces whatever status there is.
* `cancellation_wins` — once a cancellation has committed, the task stays cancelled in every
  run in which the worker writes no task status over it.
-/

namespace XpressClaw.Tasks

open Lib

/-! ## Runs -/

/-- A worker and the database. -/
structure Duty where
  worker : Worker
  db : Db

/-- One transaction. -/
inductive DutyOp where
  | work (told : Told)
  /-- `cancel_task_attempts` for the task of the worker. -/
  | cancel (now : ℤ)
  /-- Others leave another database behind. -/
  | others (db : Db)

variable (needsUserInput : String → Bool)

def Duty.step (d : Duty) : DutyOp → Duty
  | .work told =>
      let (worker, db) := d.worker.step needsUserInput told d.db
      ⟨worker, db⟩
  | .cancel now =>
      match d.db.cancelTaskAttempts d.worker.taskId now with
      | .ok (_, db) => ⟨d.worker, db⟩
      | .error _ => d
  | .others db => ⟨d.worker, db⟩

/-- The task is cancelled, and all its attempts have ended. -/
structure Db.Cancelled (db : Db) (taskId : String) : Prop where
  status : (db.task? taskId).map (·.status) = some .cancelled
  attempts : db.hasOpenAttempt taskId = false

/-- The task status that the worker is about to write. -/
def WorkerStage.written : WorkerStage → Option TaskStatus
  | .prepared => some .inProgress
  | .writing status | .blocking status => some status
  | _ => none

/-- Others leave the task and its attempts as they are, and the worker writes no status over
the status of a cancelled task. -/
def DutyOp.Heedful (d : Duty) : DutyOp → Prop
  | .work _ => d.worker.stage.written ≠ none →
      (d.db.task? d.worker.taskId).map (·.status) ≠ some .cancelled
  | .cancel _ => True
  | .others db => db.task? d.worker.taskId = d.db.task? d.worker.taskId ∧
      db.hasOpenAttempt d.worker.taskId = d.db.hasOpenAttempt d.worker.taskId

instance (d : Duty) : ∀ op : DutyOp, Decidable (op.Heedful d)
  | .work _ => inferInstanceAs (Decidable (_ → _))
  | .cancel _ => inferInstanceAs (Decidable True)
  | .others _ => inferInstanceAs (Decidable (_ ∧ _))

namespace Db

variable {db db' : Db} {taskId : String}

/-! ## What leaves a cancelled task alone -/

theorem Cancelled.of_eq (h : db.Cancelled taskId) (ht : db'.task? taskId = db.task? taskId)
    (ha : db'.hasOpenAttempt taskId = db.hasOpenAttempt taskId) : db'.Cancelled taskId :=
  ⟨by rw [ht]; exact h.status, by rw [ha]; exact h.attempts⟩

/-- Attempts that have ended already are all there is to the task. -/
theorem updateAttempts_hasOpenAttempt {w : WorkAttempt → Bool} {set : WorkAttempt → WorkAttempt}
    (htask : ∀ a, (set a).taskId = a.taskId)
    (hw : ∀ a ∈ db.attempts, w a = true → a.taskId = some taskId → (set a).status.terminal = true)
    (h : db.hasOpenAttempt taskId = false) :
    (db.updateAttempts w set).hasOpenAttempt taskId = false := by
  simp only [hasOpenAttempt, List.any_eq_false] at h ⊢
  intro a' ha'
  obtain ⟨a, ha, rfl⟩ := List.mem_map.1 ha'
  have hold := h a ha
  by_cases hwa : w a = true
  · rw [if_pos hwa]
    simp only [Bool.and_eq_true, decide_eq_true_eq, Bool.not_eq_true', not_and, htask] at hold ⊢
    intro hid hlive
    rw [hw a ha hwa hid] at hlive
    cases hlive
  · rw [if_neg hwa]
    exact hold

theorem terminal_of_cancelled (h : db.Cancelled taskId) {a : WorkAttempt} (ha : a ∈ db.attempts)
    (hid : a.taskId = some taskId) : a.status.terminal = true := by
  have hnone := List.any_eq_false.1 h.attempts a ha
  simpa [hid] using hnone

theorem transitionAttempt_cancelled {attemptId : ℕ} {status : AttemptStatus}
    {result error : Option String} {now : ℤ} (h : db.Cancelled taskId)
    (htx : Db.transitionAttempt attemptId status result error now db = .ok ((), db')) :
    db'.Cancelled taskId := by
  unfold transitionAttempt at htx
  split at htx
  · cases htx
  · cases htx
    refine ⟨h.status, updateAttempts_hasOpenAttempt (fun _ => rfl) ?_ h.attempts⟩
    intro a ha hwa hid
    simp [terminal_of_cancelled h ha hid] at hwa

theorem container_cancelled {w : WorkAttempt → Bool} {set : WorkAttempt → WorkAttempt}
    (hset : ∀ a, (set a).taskId = a.taskId ∧ (set a).status = a.status) (h : db.Cancelled taskId) :
    (db.updateAttempts w set).Cancelled taskId := by
  refine ⟨h.status, updateAttempts_hasOpenAttempt (fun a => (hset a).1) ?_ h.attempts⟩
  intro a ha _ hid
  rw [(hset a).2]
  exact terminal_of_cancelled h ha hid

/-- Rows of other tasks, and rows that the update leaves alone. -/
theorem task?_updateTasks {w : Task → Bool} {set : Task → Task} (hset : ∀ t, (set t).id = t.id)
    (hw : ∀ t, db.task? taskId = some t → w t = false) :
    (db.updateTasks w set).task? taskId = db.task? taskId := by
  have hkey : ∀ t, (if w t then set t else t).id = t.id := by
    intro t
    split
    · exact hset t
    · rfl
  rw [task?, updateTasks, Table.get_map hkey]
  cases ht : db.task? taskId with
  | none => rw [task?] at ht; rw [ht]; rfl
  | some t =>
    have hfound := ht
    rw [task?] at hfound
    rw [hfound, Option.map_some, hw t ht]
    rfl

theorem closed_of_cancelled (h : db.Cancelled taskId) {t : Task} (ht : db.task? taskId = some t) :
    t.closed = true := by
  have hstatus := h.status
  rw [ht, Option.map_some, Option.some.injEq] at hstatus
  simp [Task.closed, hstatus]

theorem deferReportedSubtasks_cancelled {parentId : String} (h : db.Cancelled taskId) :
    (db.deferReportedSubtasks parentId).Cancelled taskId := by
  refine h.of_eq (task?_updateTasks (fun _ => rfl) ?_) rfl
  intro t ht
  simp [closed_of_cancelled h ht]

theorem completeFinal_cancelled {queueId attemptId : ℕ} {content : String} {now : ℤ}
    {published : Bool} (h : db.Cancelled taskId)
    (htx : Db.completeFinalAssistantAttempt taskId queueId attemptId content now db =
      .ok (published, db')) : published = false ∧ db' = db := by
  unfold completeFinalAssistantAttempt at htx
  have hnone : (db.queue.any fun q => q.id = queueId && q.attemptId = some attemptId &&
      q.status = .running && (db.attempt? attemptId).any fun a => a.taskId = some taskId &&
        a.queueId = some queueId && !a.status.terminal) = false := by
    rw [List.any_eq_false]
    rintro q -
    cases ha : db.attempt? attemptId with
    | none => simp
    | some a =>
      intro hrow
      simp only [Option.any_some, Bool.and_eq_true, decide_eq_true_eq, Bool.not_eq_true'] at hrow
      obtain ⟨-, ⟨hid, -⟩, hlive⟩ := hrow
      rw [terminal_of_cancelled h (Table.mem_of_get ha) hid] at hlive
      cases hlive
  rw [hnone] at htx
  cases htx
  exact ⟨rfl, rfl⟩

theorem completeIfReady_cancelled {gateSatisfied : Bool} {now : ℤ} {completed : Bool}
    (h : db.Cancelled taskId)
    (htx : Db.completeIfReady taskId gateSatisfied now db = .ok (completed, db')) : db' = db := by
  unfold completeIfReady at htx
  cases ht : db.task? taskId with
  | none =>
    rw [ht] at htx
    cases htx
  | some t =>
    rw [ht] at htx
    dsimp only at htx
    rw [if_pos (closed_of_cancelled h ht)] at htx
    cases htx
    rfl

theorem insertTextMessage_cancelled {id role : String} {messageId : ℕ} (h : db.Cancelled taskId)
    (htx : Db.insertTextMessage id role db = .ok (messageId, db')) : db'.Cancelled taskId := by
  unfold insertTextMessage at htx
  cases hok : db.ensureTaskProjectAcceptsWork id with
  | error e => rw [hok] at htx; cases htx
  | ok u =>
    rw [hok] at htx
    cases htx
    exact h.of_eq rfl rfl

/-! ## The cancellation itself -/

theorem foldl_retirePrompt (prompt : WorkAttempt → Db → Option ℕ) (attempts : List WorkAttempt)
    (db : Db) :
    (attempts.foldl (fun db a => db.retirePrompt a (prompt a db)) db).tasks = db.tasks ∧
      (attempts.foldl (fun db a => db.retirePrompt a (prompt a db)) db).attempts =
        db.attempts := by
  induction attempts generalizing db with
  | nil => exact ⟨rfl, rfl⟩
  | cons a attempts ih =>
    have hone : (db.retirePrompt a (prompt a db)).tasks = db.tasks ∧
        (db.retirePrompt a (prompt a db)).attempts = db.attempts := by
      unfold retirePrompt
      split
      · split <;> exact ⟨rfl, rfl⟩
      · exact ⟨rfl, rfl⟩
    obtain ⟨ht, ha⟩ := ih (db.retirePrompt a (prompt a db))
    exact ⟨ht.trans hone.1, ha.trans hone.2⟩

theorem map_status_releaseChildReviews {parentId : String} :
    ((db.releaseChildReviews parentId).task? taskId).map (·.status) =
      (db.task? taskId).map (·.status) := by
  rw [task?, releaseChildReviews, updateTasks, Table.get_map]
  · rw [Option.map_map]
    refine congrArg₂ Option.map (funext fun t => ?_) rfl
    rw [Function.comp_apply]
    split <;> rfl
  · intro t
    split <;> rfl

/-- `cancel_task_attempts` cancels the task, unless it is completed. -/
theorem cancelTaskAttempts_cancelled {now : ℤ} {r : Option (List WorkAttempt)} {t : Task}
    (ht : db.task? taskId = some t) (hopen : t.status ≠ .completed)
    (htx : Db.cancelTaskAttempts taskId now db = .ok (r, db')) : db'.Cancelled taskId := by
  unfold cancelTaskAttempts at htx
  rw [ht] at htx
  dsimp only at htx
  rw [if_neg hopen] at htx
  cases htx
  have hfold := foldl_retirePrompt (fun a db => db.promptOf a.id taskId)
    (db.attempts.filter fun a => a.taskId = some taskId && !a.status.terminal)
    (db.updateAttempts (fun a => a.taskId = some taskId && !a.status.terminal)
      (cancelled none now))
  constructor
  · show (((updateTasks _ _ _).releaseChildReviews taskId).task? taskId).map _ = _
    rw [map_status_releaseChildReviews, task?, updateTasks, updateQueue]
    dsimp only
    rw [hfold.1, Table.get_map]
    · have hrow : Table.get (·.id) db.tasks taskId = some t := ht
      show ((Table.get (·.id) db.tasks taskId).map _).map _ = _
      rw [hrow, Option.map_some, Option.map_some]
      simp [Table.key_of_get hrow, hopen]
    · intro u
      split <;> rfl
  · show (List.any _ _) = false
    rw [List.any_eq_false]
    intro a' ha'
    have hmem : a' ∈ (db.updateAttempts (fun a => a.taskId = some taskId && !a.status.terminal)
        (cancelled none now)).attempts := hfold.2 ▸ ha'
    obtain ⟨a, -, rfl⟩ := List.mem_map.1 hmem
    by_cases hlive : (decide (a.taskId = some taskId) && !a.status.terminal) = true
    · rw [if_pos hlive]
      simp [cancelled, AttemptStatus.terminal]
    · rw [if_neg hlive]
      exact hlive

/-- A status that is written is there, whatever was there before. -/
theorem updateStatus_status {status : TaskStatus} {agentId : Option String} {agentFits : Bool}
    (htx : Db.updateStatus taskId status agentId agentFits db = .ok ((), db')) :
    (db'.task? taskId).map (·.status) = some status := by
  have hwritten : ∀ t, db.task? taskId = some t →
      ((db.updateTasks (·.id = taskId) fun t => { t with status := status }).task? taskId).map
        (·.status) = some status := by
    intro t ht
    have hrow : Table.get (·.id) db.tasks taskId = some t := ht
    rw [task?, updateTasks, Table.get_map]
    · rw [hrow]
      simp [Table.key_of_get hrow]
    · intro u
      split <;> rfl
  have hassigned : ∀ (d : Db) (agent : String),
      ((d.assignAgent taskId agent).task? taskId).map (·.status) =
        (d.task? taskId).map (·.status) := by
    intro d agent
    have hassign : ∀ d : Db, ((d.updateTasks (·.id = taskId) fun t =>
        { t with agentId := some agent }).task? taskId).map (·.status) =
          (d.task? taskId).map (·.status) := by
      intro d
      rw [task?, updateTasks, Table.get_map]
      · rw [Option.map_map]
        refine congrArg₂ Option.map (funext fun t => ?_) rfl
        rw [Function.comp_apply]
        split <;> rfl
      · intro t
        split <;> rfl
    rw [assignAgent]
    split
    · rw [synchronizeAgent, hassign]
      rfl
    · exact hassign d
  unfold updateStatus at htx
  cases ht : db.task? taskId with
  | none =>
    rw [ht] at htx
    cases htx
  | some t =>
    rw [ht] at htx
    dsimp only at htx
    split at htx
    · cases htx
    · split at htx
      · cases htx
        show ((releaseChildReviews _ _).task? taskId).map _ = _
        rw [map_status_releaseChildReviews]
        exact hwritten t ht
      · cases hok : db.ensureTaskProjectAcceptsWork taskId with
        | error e => rw [hok] at htx; cases htx
        | ok u =>
          rw [hok] at htx
          dsimp only [bind, Except.bind] at htx
          split at htx
          · split at htx
            · split at htx
              · cases htx
                rw [hassigned]
                exact hwritten t ht
              · cases htx
            · cases htx
              exact hwritten t ht
          · cases htx
            exact hwritten t ht

end Db

/-! ## The worker -/

namespace Worker

variable {needsUserInput} {w : Worker} {told : Told} {db : Db}

theorem attempt_taskId {α : Type} (tx : Tx α) (next : α → Db → WorkerStage)
    (error : WorkerStage) : (w.attempt tx db next error).1.taskId = w.taskId := by
  unfold attempt
  split <;> rfl

theorem attempt_cancelled {α : Type} {tx : Tx α} {next : α → Db → WorkerStage}
    {error : WorkerStage} {taskId : String} (h : db.Cancelled taskId)
    (htx : ∀ a db', tx db = .ok (a, db') → db'.Cancelled taskId) :
    (w.attempt tx db next error).2.Cancelled taskId := by
  unfold attempt
  split
  · rename_i a db' hok
    exact htx a db' hok
  · exact h

theorem transition_cancelled {status : AttemptStatus} {now : ℤ} {ended next : WorkerStage}
    {taskId : String} (h : db.Cancelled taskId) :
    (w.transition status now ended next db).2.Cancelled taskId :=
  attempt_cancelled h fun _ _ htx => Db.transitionAttempt_cancelled h htx

theorem step_taskId : (w.step needsUserInput told db).1.taskId = w.taskId := by
  unfold step
  split <;> first
    | rfl
    | exact attempt_taskId _ _ _
    | (split <;> first | rfl | exact attempt_taskId _ _ _)
    | (split <;> first | rfl | (split <;> first | rfl | (split <;> rfl)))

/-- A worker that does not write the task status leaves a cancelled task alone. -/
theorem step_cancelled (h : db.Cancelled w.taskId) (hwrites : w.stage.written = none) :
    (w.step needsUserInput told db).2.Cancelled w.taskId := by
  unfold step
  cases hs : w.stage with
  | claimed =>
    dsimp only
    split
    · exact h
    · exact transition_cancelled h
  | prepared =>
    rw [hs] at hwrites
    cases hwrites
  | starting =>
    dsimp only
    split
    · exact h
    · split
      · exact h
      · split <;> exact h
  | mounting =>
    dsimp only
    split
    · exact h
    · exact Db.container_cancelled (fun _ => ⟨rfl, rfl⟩) h
  | started => exact transition_cancelled h
  | clearing => exact Db.container_cancelled (fun _ => ⟨rfl, rfl⟩) h
  | turning => exact Db.container_cancelled (fun _ => ⟨rfl, rfl⟩) h
  | turned =>
    dsimp only
    split
    · exact h
    · split <;> exact h
  | replying =>
    refine attempt_cancelled h fun published db' htx => ?_
    rw [(Db.completeFinal_cancelled h htx).2]
    exact h
  | published =>
    dsimp only
    split
    · exact h
    · split <;> exact h
  | deferring => exact Db.deferReportedSubtasks_cancelled h
  | gating active =>
    dsimp only
    split
    · exact h
    · split
      · exact h
      · split <;> exact h
  | counting =>
    dsimp only
    split <;> exact h
  | writing status =>
    rw [hs] at hwrites
    cases hwrites
  | completing =>
    refine attempt_cancelled h fun completed db' htx => ?_
    rw [Db.completeIfReady_cancelled h htx]
    exact h
  | failing =>
    dsimp only
    split <;> exact h
  | failed => exact attempt_cancelled h fun _ _ htx => Db.transitionAttempt_cancelled h htx
  | dropping => exact h.of_eq rfl rfl
  | telling => exact attempt_cancelled h fun _ _ htx => Db.insertTextMessage_cancelled h htx
  | surviving => exact h
  | blocking status =>
    rw [hs] at hwrites
    cases hwrites
  | leaving => exact h.of_eq rfl rfl
  | returned => exact h

/-- A status that the worker writes replaces whatever status the task has. -/
theorem step_writes {status : TaskStatus} (hwrites : w.stage.written = some status) :
    (w.step needsUserInput told db).2 = db ∨
      ((w.step needsUserInput told db).2.task? w.taskId).map (·.status) = some status := by
  have hattempt (s : TaskStatus) (next : Unit → Db → WorkerStage) (error : WorkerStage) :
      (w.attempt (Db.updateStatus w.taskId s (some w.agentId) told.agentFits) db next error).2 =
          db ∨
        (((w.attempt (Db.updateStatus w.taskId s (some w.agentId) told.agentFits) db next
          error).2.task? w.taskId).map (·.status)) = some s := by
    unfold attempt
    split
    · rename_i a db' htx
      exact Or.inr (Db.updateStatus_status htx)
    · exact Or.inl rfl
  unfold step
  cases hs : w.stage with
  | prepared =>
    rw [hs] at hwrites
    cases hwrites
    exact hattempt _ _ _
  | writing s =>
    rw [hs] at hwrites
    cases hwrites
    exact hattempt _ _ _
  | blocking s =>
    rw [hs] at hwrites
    cases hwrites
    exact hattempt _ _ _
  | _ =>
    rw [hs] at hwrites
    cases hwrites

end Worker

/-! ## The result -/

variable {needsUserInput}

theorem step_keeps_cancelled {d : Duty} {op : DutyOp} {taskId : String}
    (h : d.worker.taskId = taskId ∧ d.db.Cancelled taskId) (hop : op.Heedful d) :
    (d.step needsUserInput op).worker.taskId = taskId ∧
      (d.step needsUserInput op).db.Cancelled taskId := by
  obtain ⟨rfl, hc⟩ := h
  cases op with
  | work told =>
    refine ⟨Worker.step_taskId, Worker.step_cancelled hc ?_⟩
    by_contra hw
    exact hop hw hc.status
  | cancel now =>
    unfold Duty.step
    dsimp only
    split
    · rename_i r db htx
      have hstatus := hc.status
      cases ht : d.db.task? d.worker.taskId with
      | none =>
        rw [ht] at hstatus
        cases hstatus
      | some t =>
        rw [ht, Option.map_some, Option.some.injEq] at hstatus
        have hopen : t.status ≠ .completed := by simp [hstatus]
        exact ⟨rfl, Db.cancelTaskAttempts_cancelled ht hopen htx⟩
    · exact ⟨rfl, hc⟩
  | others db => exact ⟨rfl, hc.of_eq hop.1 hop.2⟩

/-- **A user's cancellation wins.**  Once `cancel_task_attempts` has committed for a task that
is not completed, the task is cancelled and has no live attempt at every later point of every
run in which others leave it alone and the worker writes no task status over the cancelled
one. -/
theorem cancellation_wins (needsUserInput : String → Bool) (d : Duty) (now : ℤ) {t : Task}
    (ht : d.db.task? d.worker.taskId = some t) (hopen : t.status ≠ .completed)
    (ops : List DutyOp)
    (hrun : Along (Duty.step needsUserInput) (fun d op => op.Heedful d)
      (d.step needsUserInput (.cancel now)) ops) :
    (runOps (Duty.step needsUserInput) (d.step needsUserInput (.cancel now)) ops).db.Cancelled
      d.worker.taskId := by
  have hstart : (d.step needsUserInput (.cancel now)).worker.taskId = d.worker.taskId ∧
      (d.step needsUserInput (.cancel now)).db.Cancelled d.worker.taskId := by
    obtain ⟨r, db, htx⟩ : ∃ r db, Db.cancelTaskAttempts d.worker.taskId now d.db =
        .ok (r, db) := by
      unfold Db.cancelTaskAttempts
      rw [ht]
      dsimp only
      split
      · exact ⟨_, _, rfl⟩
      · exact ⟨_, _, rfl⟩
    have hstep : d.step needsUserInput (.cancel now) = ⟨d.worker, db⟩ := by
      unfold Duty.step
      dsimp only
      rw [htx]
    rw [hstep]
    exact ⟨rfl, Db.cancelTaskAttempts_cancelled ht hopen htx⟩
  have hend := hrun.invariant
    (I := fun e => e.worker.taskId = d.worker.taskId ∧ e.db.Cancelled d.worker.taskId)
    (fun _ _ h hop => step_keeps_cancelled h hop) hstart
  exact hend.2

/-- A claimed dispatch of one task. -/
def claimedDuty : Duty where
  worker := { taskId := "task", agentId := "agent", queueId := 1, attemptId := 0 }
  db :=
    { tasks := [{ id := "task", agentId := some "agent" }]
      queue := [{ id := 1, taskId := "task", agentId := "agent", status := .running,
                  attemptId := some 0 }]
      attempts := [{ id := 0, sessionId := "agent", taskId := some "task", queueId := some 1 }]
      nextQueueId := 2
      nextAttemptId := 1 }

/-- The duty after the worker has taken some steps. -/
def after (needsUserInput : String → Bool) (ops : List DutyOp) : Duty :=
  runOps (Duty.step needsUserInput) claimedDuty ops

/-- A step in which nothing is amiss. -/
def smooth : DutyOp := .work { now := 10 }

theorem cancelled_before_start :
    (runOps (Duty.step fun _ => false)
      ((after (fun _ => false) [smooth, smooth]).step (fun _ => false) (.cancel 20))
      [smooth, smooth, .cancel 30]).db.Cancelled "task" :=
  cancellation_wins (fun _ => false) (after (fun _ => false) [smooth, smooth]) 20
    (t := { id := "task", agentId := some "agent", status := .inProgress })
    (by decide +kernel) (by decide) [smooth, smooth, .cancel 30] (by decide +kernel)

/-- The task as a user sees it, and whether the worker has returned. -/
def Duty.seen (d : Duty) : Option TaskStatus × Bool :=
  ((d.db.task? d.worker.taskId).map (·.status), d.worker.stage = .returned)

/-- The cancellation commits between the transition to `preparing` and the task status. -/
def cancelledWhilePreparing : List DutyOp := [smooth, .cancel 20, smooth, smooth, smooth]

/-- The cancellation commits while `fail_item` has looked at the attempt. -/
def cancelledWhileFailing : List DutyOp :=
  [smooth, smooth, .work { now := 10, fails := true }, smooth, .cancel 20, smooth, smooth, smooth,
    smooth, smooth]

/-- The cancellation commits after the reply, which asks the user, was published. -/
def cancelledWhileAsking : List DutyOp :=
  [smooth, smooth, smooth, smooth, smooth, smooth, smooth, smooth, .cancel 20, smooth, smooth,
    smooth]

theorem cancellation_overwritten :
    (after (fun _ => false) cancelledWhilePreparing).seen = (some .inProgress, true) ∧
      (after (fun _ => false) cancelledWhileFailing).seen = (some .blocked, true) ∧
      (after (fun _ => true) cancelledWhileAsking).seen = (some .waitingForInput, true) := by
  decide +kernel

end XpressClaw.Tasks
