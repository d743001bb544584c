import XpressClaw.Tasks.Dispatch

/-!
# Ended attempts stay as they ended

Every transaction keeps the status and the result of an attempt that has ended, except the
second transaction of recovery: it resets the attempts of a list that an earlier transaction
read, without looking at them again.  It keeps them too as long as none of the listed
attempts has ended in between (`Op.Current`), which holds when recovery runs alone, as the
server runs it at startup.

`terminal_attempts_are_final` says so for all runs, and that recovery moves a task only for a
listed dispatch whose attempt is under way.
-/

namespace XpressClaw.Tasks

open Lib

namespace Db

/-- No attempt that recovery has listed as in flight has ended. -/
def ListCurrent (db : Db) : Prop :=
  ∀ o ∈ db.orphaned, ∀ a ∈ db.attempts, a.id = o.attemptId → ¬a.ended

instance (db : Db) : Decidable db.ListCurrent :=
  inferInstanceAs (Decidable (∀ o ∈ db.orphaned, ∀ a ∈ db.attempts, a.id = o.attemptId → ¬a.ended))

/-- The attempts that have ended are as they ended. -/
def EndedKept (db db' : Db) : Prop :=
  ∀ a ∈ db.attempts, a.ended → ∃ a' ∈ db'.attempts, AttemptKept a a'

variable {db db' db'' : Db}

theorem Kept.endedKept (h : db.Kept db') : db.EndedKept db' := fun a ha _ => h.attempts a ha

theorem EndedKept.refl (db : Db) : db.EndedKept db := fun a ha _ => ⟨a, ha, .refl a⟩

theorem EndedKept.trans (h : db.EndedKept db') (h' : db'.EndedKept db'') : db.EndedKept db'' := by
  intro a ha he
  obtain ⟨b, hb, hab⟩ := h a ha he
  obtain ⟨c, hc, hbc⟩ := h' b hb (by rw [WorkAttempt.ended, (hab.ended he).1]; exact he)
  exact ⟨c, hc, hab.trans hbc⟩

/-! ## Recovery -/

theorem mem_requeue_attempts {o : Orphan} {a' : WorkAttempt}
    (h : a' ∈ (db.requeue o).attempts) :
    a' ∈ db.attempts ∨ (a'.id = o.attemptId ∧ ¬a'.ended) := by
  obtain ⟨a, ha, rfl⟩ := List.mem_map.1 h
  by_cases hid : a.id = o.attemptId
  · right
    simp [hid, WorkAttempt.ended, AttemptStatus.terminal]
  · left
    rw [if_neg (by simpa using hid)]
    exact ha

theorem requeue_endedKept {o : Orphan}
    (h : ∀ a ∈ db.attempts, a.id = o.attemptId → ¬a.ended) : db.EndedKept (db.requeue o) := by
  intro a ha he
  have hid : a.id ≠ o.attemptId := fun hid => h a ha hid he
  refine ⟨a, List.mem_map.2 ⟨a, ha, ?_⟩, .refl a⟩
  simp [hid]

theorem recoverRequeue_endedKept (hs : db.Schema) (hc : db.ListCurrent) :
    db.EndedKept db.recoverRequeue := by
  have hkeep := foldl_requeue
    (I := fun db' => db.EndedKept db' ∧
      ∀ o ∈ db.orphaned, ∀ a ∈ db'.attempts, a.id = o.attemptId → ¬a.ended)
    (fun db' _ o _ hmem h => by
      refine ⟨h.1.trans (requeue_endedKept (h.2 o hmem)), fun o' ho' a ha hid => ?_⟩
      rcases mem_requeue_attempts ha with ha | ⟨-, hopen⟩
      · exact h.2 o' ho' a ha hid
      · exact hopen) hs (fun _ ho => ho) ⟨.refl db, hc⟩
  exact hkeep.1

/-- Recovery moves the tasks of the dispatches it lists only. -/
theorem recoverRequeue_tasks {t : Task} (ht : t ∈ db.tasks)
    (h : ∀ o ∈ db.orphaned, o.taskId ≠ t.id) : t ∈ db.recoverRequeue.tasks := by
  suffices hfold : ∀ (os : List Orphan) (db : Db), (∀ o ∈ os, o.taskId ≠ t.id) → t ∈ db.tasks →
      t ∈ (os.foldl (fun db o => db.requeue o) db).tasks from hfold db.orphaned db h ht
  intro os
  induction os with
  | nil => exact fun _ _ ht => ht
  | cons o os ih =>
    intro db h ht
    apply ih _ fun o' ho' => h o' (List.mem_cons_of_mem o ho')
    refine List.mem_map.2 ⟨t, ht, ?_⟩
    have hne : t.id ≠ o.taskId := fun heq => h o List.mem_cons_self heq.symm
    simp [hne]

end Db

/-! ## Runs -/

variable {needsUserInput : String → Bool}

/-- The transaction queues the listed dispatches again. -/
def Op.requeues : Op → Bool
  | .recoverRequeue => true
  | _ => false

/-- Recovery acts on a list that is still current. -/
def Op.Current (db : Db) (op : Op) : Prop := op.requeues = true → db.ListCurrent

instance (db : Db) (op : Op) : Decidable (op.Current db) :=
  inferInstanceAs (Decidable (op.requeues = true → db.ListCurrent))

theorem step_endedKept {db : Db} {op : Op} (hs : db.Schema) (h : op.Current db) :
    db.EndedKept (step needsUserInput db op) := by
  by_cases hop : op.Stirs
  · cases op with
    | claim a now =>
      obtain ⟨r, hc⟩ | hc := step_cases needsUserInput db (.claim a now)
      · obtain ⟨⟨item, db₁⟩, h1, h2⟩ := bind_ok hc
        cases h2
        exact (Db.claimAt_kept hs h1).endedKept
      · rw [hc]
        exact .refl db
    | recoverRequeue => exact Db.recoverRequeue_endedKept hs (h rfl)
    | setContainer a c => exact (Db.setContainer_kept a c).endedKept
    | _ => exact hop.elim
  · exact (step_calm hs hop).kept.endedKept

theorem run_endedKept {db : Db} (hs : db.Schema) {ops : List Op}
    (h : Along (step needsUserInput) (fun db op => op.Current db) db ops) :
    db.EndedKept (runOps (step needsUserInput) db ops) := by
  induction ops generalizing db with
  | nil => exact .refl db
  | cons op ops ih => exact (step_endedKept hs h.1).trans (ih (step_schema op hs) h.2)

/-- **Ended attempts are final.**  In every run in which recovery acts on current lists, an
attempt that has ended keeps its status and result for good, and recovery leaves alone every
task for which it does not list an attempt under way. -/
theorem terminal_attempts_are_final {db : Db} (hs : db.Schema) (ops : List Op)
    (hrun : Along (step needsUserInput) (fun db op => op.Current db) db ops) :
    (∀ before after, ops = before ++ after →
      ∀ a ∈ (runOps (step needsUserInput) db before).attempts, a.status.terminal = true →
        ∃ a' ∈ (runOps (step needsUserInput) db ops).attempts,
          a'.id = a.id ∧ a'.status = a.status ∧ a'.result = a.result) ∧
    ∀ before after, ops = before ++ .recoverRequeue :: after →
      ∀ t ∈ (runOps (step needsUserInput) db before).tasks,
        t ∈ (runOps (step needsUserInput) db (before ++ [.recoverRequeue])).tasks ∨
          ∃ o ∈ (runOps (step needsUserInput) db before).orphaned, o.taskId = t.id ∧
            ∃ a ∈ (runOps (step needsUserInput) db before).attempts,
              a.id = o.attemptId ∧ a.status.terminal = false := by
  constructor
  · rintro before after rfl a ha he
    have hs₀ := run_schema needsUserInput hs before
    obtain ⟨a', ha', hkept⟩ := run_endedKept hs₀ (along_append.1 hrun).2 a ha he
    rw [runOps_append]
    exact ⟨a', ha', hkept.id, (hkept.ended he).1, (hkept.ended he).2⟩
  · rintro before after rfl t ht
    have hs₀ := run_schema needsUserInput hs before
    have hcurrent : (runOps (step needsUserInput) db before).ListCurrent :=
      (along_append.1 hrun).2.1 rfl
    by_cases hlisted : ∃ o ∈ (runOps (step needsUserInput) db before).orphaned, o.taskId = t.id
    · obtain ⟨o, ho, htask⟩ := hlisted
      obtain ⟨a, ha, hid, -⟩ := hs₀.orphans o ho
      right
      exact ⟨o, ho, htask, a, ha, hid, by simpa using hcurrent o ho a ha hid⟩
    · left
      rw [runOps_concat]
      exact Db.recoverRequeue_tasks ht fun o ho htask => hlisted ⟨o, ho, htask⟩

/-- One task in progress. -/
def oneTaskStarted : Db where
  projects := [{ id := "home" }]
  agents := [{ id := "atlas", projectId := some "home" }]
  tasks :=
    [{ id := "report", status := .inProgress, agentId := some "atlas", projectId := some "home" }]

theorem schema_oneTaskStarted : oneTaskStarted.Schema := by
  constructor <;> simp [oneTaskStarted]

/-- The attempt completes, and the program restarts. -/
def completedThenRestarted : List Op :=
  [.enqueue "report" "atlas" 1000, .claim none 2000, .transition 0 .completed (some "done") none 3000,
   .recoverFinalize 4000, .recoverRead, .recoverRequeue]

theorem completed_attempt_survives_restart :
    ∃ a ∈ (runOps (step fun _ => false) oneTaskStarted completedThenRestarted).attempts,
      a.id = 0 ∧ a.status = .completed ∧ a.result = some "done" := by
  have hfinal := terminal_attempts_are_final schema_oneTaskStarted completedThenRestarted
    (show Along (step fun _ => false) (fun db op => op.Current db) _ _ by decide +kernel)
  obtain ⟨a, ha, hkept⟩ := hfinal.1 (completedThenRestarted.take 3)
    (completedThenRestarted.drop 3) rfl
    { id := 0, sessionId := "atlas", taskId := some "report", queueId := some 1,
      status := .completed, result := some "done", createdAt := 1000, completedAt := some 3000 }
    (by decide +kernel) rfl
  exact ⟨a, ha, hkept⟩

/-- The attempt completes between the read of recovery and what recovery then writes. -/
def completedDuringRecovery : List Op :=
  [.enqueue "report" "atlas" 1000, .claim none 2000, .recoverRead,
   .transition 0 .completed (some "done") none 3000]

theorem recovery_reopens_completed_attempt :
    let before := runOps (step fun _ => false) oneTaskStarted completedDuringRecovery
    let after := step (fun _ => false) before .recoverRequeue
    before.attempts.map (·.status) = [.completed] ∧ after.attempts.map (·.status) = [.queued] ∧
      before.tasks.map (·.status) = [.inProgress] ∧
      after.tasks.map (·.status) = [.pending] := by
  decide +kernel

end XpressClaw.Tasks
