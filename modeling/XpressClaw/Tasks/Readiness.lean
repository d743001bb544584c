import XpressClaw.Tasks.Calm

/-!
# No task starts early

`Ready` says what a dispatch needs in order to start, over the tables alone.  In every run,
whatever queued a dispatch and however the plan changed since, the database that the claim
commits satisfies it for the dispatch it hands out (`no_task_starts_early`).
-/

namespace XpressClaw.Tasks

open Lib

namespace Db

/-- The task is not the work of a Connect command, and dispatch and attempt are for the agent
that owns it. -/
structure Owned (db : Db) (q : QueueItem) (t : Task) (a : WorkAttempt) : Prop where
  assigned : t.agentId = some q.agentId
  session : a.sessionId = q.agentId
  unconnected : db.connected t.id = false

/-- The dispatch answers a notification that still tells a child's current outcome. -/
def RecoveryGranted (db : Db) (q : QueueItem) (t : Task) (a : WorkAttempt) : Prop :=
  db.Owned q t a ∧ ∃ n ∈ db.notifications, n.parentTaskId = t.id ∧
    n.parentAgentId = q.agentId ∧ db.current n ∧
    ∃ r ∈ db.responses, r.notificationId = n.id ∧ q.attemptId = some r.responseAttemptId

/-- The dispatch answers a message a user wrote to the task, which is not the prompt a workflow
continued the attempt with. -/
def UserReplied (db : Db) (q : QueueItem) (t : Task) (a : WorkAttempt) : Prop :=
  db.Owned q t a ∧
    (∃ m ∈ db.messages, a.triggerMessageId = some m.id ∧ m.taskId = t.id ∧ m.role = "user") ∧
    ∀ e ∈ db.executions, e.continuationAttemptId = some a.id →
      ∃ prompt, e.continuationPromptMessageId = some prompt ∧ a.triggerMessageId ≠ some prompt

/-- **What a claimed dispatch has to satisfy.** -/
structure Ready (db : Db) (now : ℤ) (q : QueueItem) (t : Task) (a : WorkAttempt) : Prop where
  opened : t.status ≠ .completed ∧ t.status ≠ .cancelled
  started : ∀ s, t.startAfter = some s → s ≤ now
  planned : t.backlog = false
  dependencies : ∀ d ∈ db.dependencies, d.taskId = t.id →
    ∀ u ∈ db.tasks, u.id = d.dependsOnId → u.status = .completed
  children : (∀ child ∈ db.tasks, child.parentTaskId = some t.id → child.blocksParent = true →
    child.status = .completed) ∨ db.RecoveryGranted q t a ∨ db.UserReplied q t a
  project : ∀ p ∈ db.projects, t.projectId = some p.id → p.deleting = false

/-- The dispatch runs, and its task and attempt are ready. -/
def Started (db : Db) (now : ℤ) (item : QueueItem) : Prop :=
  item ∈ db.queue ∧ item.status = .running ∧
    ∃ t a, db.task? item.taskId = some t ∧ db.attemptOf item = some a ∧ db.Ready now item t a

variable {db : Db} {now : ℤ} {q : QueueItem} {t : Task} {a : WorkAttempt}

/-! ## Eligibility is readiness -/

theorem dependenciesDone_iff {taskId : String} : db.dependenciesDone taskId = true ↔
    ∀ d ∈ db.dependencies, d.taskId = taskId → ∀ u ∈ db.tasks, u.id = d.dependsOnId →
      u.status = .completed := by
  simp only [dependenciesDone, Bool.not_eq_true', List.any_eq_false, Bool.and_eq_true,
    decide_eq_true_eq, List.any_eq_true, not_and, not_exists, not_not]

theorem childrenBlock_eq_false_iff {taskId : String} : db.childrenBlock taskId = false ↔
    ∀ child ∈ db.tasks, child.parentTaskId = some taskId → child.blocksParent = true →
      child.status = .completed := by
  simp only [childrenBlock, List.any_eq_false, Bool.and_eq_true, decide_eq_true_eq, and_imp,
    not_and, not_not]

theorem projectDeleting_eq_false_iff : db.projectDeleting t = false ↔
    ∀ p ∈ db.projects, t.projectId = some p.id → p.deleting = false := by
  simp only [projectDeleting, List.any_eq_false, Bool.and_eq_true, decide_eq_true_eq, not_and,
    Bool.not_eq_true]
  exact ⟨fun h p hp hid => h p hp hid.symm, fun h p hp hid => h p hp hid.symm⟩

theorem granted_of_recoveryGrant (h : db.recoveryGrant q t a = true) :
    db.RecoveryGranted q t a := by
  simp only [recoveryGrant, List.any_eq_true, Bool.and_eq_true, decide_eq_true_eq,
    Bool.not_eq_true'] at h
  obtain ⟨n, hn, ⟨⟨⟨⟨⟨⟨r, hr, hrn, hrq⟩, hcurrent⟩, hparent⟩, hagent⟩, howner⟩, hsession⟩,
    hconnected⟩ := h
  exact ⟨⟨hagent, hsession, hconnected⟩, n, hn, hparent, howner, hcurrent, r, hr, hrn, hrq.symm⟩

theorem replied_of_userReply (h : db.userReply q t a = true) : db.UserReplied q t a := by
  simp only [userReply, Bool.and_eq_true, decide_eq_true_eq, List.any_eq_true,
    Bool.not_eq_true', List.any_eq_false, Bool.or_eq_true, not_and, not_or] at h
  obtain ⟨⟨⟨⟨hsession, hagent⟩, m, hm, ⟨hid, htask⟩, hrole⟩, hconnected⟩, hprompts⟩ := h
  have howner : a.sessionId = q.agentId := Option.some.inj (hsession.symm.trans hagent)
  refine ⟨⟨hagent, howner, hconnected⟩, ⟨m, hm, hid, htask, hrole⟩, fun e he hattempt => ?_⟩
  obtain ⟨hsome, hne⟩ := hprompts e he hattempt
  obtain ⟨prompt, hprompt⟩ := Option.ne_none_iff_exists'.1 hsome
  exact ⟨prompt, hprompt, fun h => hne (hprompt.trans h.symm)⟩

theorem ready_of_eligible (h : db.eligible now q t a = true) : db.Ready now q t a := by
  simp only [eligible, Bool.and_eq_true, Bool.not_eq_true', Bool.or_eq_true] at h
  obtain ⟨⟨⟨⟨⟨hclosed, hbacklog⟩, hstart⟩, hproject⟩, hdeps⟩, hchildren⟩ := h
  constructor
  · simpa [Task.closed] using hclosed
  · intro s hs
    simpa [hs] using hstart
  · exact hbacklog
  · exact dependenciesDone_iff.1 hdeps
  · rcases hchildren with (hfree | hgrant) | hreply
    · exact Or.inl (childrenBlock_eq_false_iff.1 hfree)
    · exact Or.inr (Or.inl (granted_of_recoveryGrant hgrant))
    · exact Or.inr (Or.inr (replied_of_userReply hreply))
  · exact projectDeleting_eq_false_iff.1 hproject

theorem ready_of_claimable {agentId : Option String}
    (h : db.claimable agentId now q t a = true) : db.Ready now q t a := by
  simp only [claimable, Bool.and_eq_true] at h
  exact ready_of_eligible h.1.1.1.1.1.1.1.2

/-! ## The claim keeps it -/

/-- What `dispatch` does to a task. -/
def markReview (db : Db) (item : QueueItem) (t : Task) : Task :=
  if t.id = item.taskId && db.requireParentReview t then { t with parentReviewRequired := true }
  else t

theorem dispatch_tasks {item : QueueItem} :
    (db.dispatch item now).tasks = db.tasks.map (db.markReview item) := rfl

section MarkReview

variable {item : QueueItem}

@[simp] theorem markReview_id : (db.markReview item t).id = t.id := by
  unfold markReview
  split <;> rfl

@[simp] theorem markReview_status : (db.markReview item t).status = t.status := by
  unfold markReview
  split <;> rfl

@[simp] theorem markReview_agentId : (db.markReview item t).agentId = t.agentId := by
  unfold markReview
  split <;> rfl

@[simp] theorem markReview_projectId : (db.markReview item t).projectId = t.projectId := by
  unfold markReview
  split <;> rfl

@[simp] theorem markReview_parentTaskId :
    (db.markReview item t).parentTaskId = t.parentTaskId := by
  unfold markReview
  split <;> rfl

@[simp] theorem markReview_blocksParent :
    (db.markReview item t).blocksParent = t.blocksParent := by
  unfold markReview
  split <;> rfl

@[simp] theorem markReview_backlog : (db.markReview item t).backlog = t.backlog := by
  unfold markReview
  split <;> rfl

@[simp] theorem markReview_startAfter : (db.markReview item t).startAfter = t.startAfter := by
  unfold markReview
  split <;> rfl

theorem report_markReview :
    (db.dispatch item now).report (db.markReview item t) = db.report t := by
  unfold markReview
  split <;> rfl

theorem task?_dispatch {id : String} :
    (db.dispatch item now).task? id = (db.task? id).map (db.markReview item) := by
  rw [task?, dispatch_tasks, Table.get_map (fun _ => markReview_id)]
  rfl

theorem reviewed_dispatch (o : Outcome) : (db.dispatch item now).reviewed o = db.reviewed o := by
  have hparent (n : DelegationNotification) : ((db.dispatch item now).task? o.parentId).any
      (fun parent => parent.agentId = some n.parentAgentId) =
        (db.task? o.parentId).any fun parent => parent.agentId = some n.parentAgentId := by
    rw [task?_dispatch]
    cases db.task? o.parentId <;> simp
  simp only [reviewed, hparent]
  rfl

theorem outcomes_dispatch : (db.dispatch item now).outcomes = db.outcomes := by
  have hreports : (db.dispatch item now).tasks.filterMap (db.dispatch item now).report =
      db.tasks.filterMap db.report := by
    rw [dispatch_tasks, List.filterMap_map]
    exact List.filterMap_congr fun t _ => report_markReview
  rw [outcomes, hreports, outcomes]
  exact List.filter_congr fun o _ => by rw [reviewed_dispatch]

theorem current_dispatch (n : DelegationNotification) :
    (db.dispatch item now).current n = db.current n := by
  rw [current, outcomes_dispatch]
  rfl

theorem Owned.dispatch {q' : QueueItem} (h : db.Owned q t a) (hagent : q'.agentId = q.agentId) :
    (db.dispatch item now).Owned q' (db.markReview item t) a where
  assigned := by simpa [hagent] using h.assigned
  session := h.session.trans hagent.symm
  unconnected := by
    rw [markReview_id]
    exact h.unconnected

/-- The dispatched row, in the database after the dispatch. -/
theorem Ready.dispatch {q' : QueueItem} (h : db.Ready now q t a) (hagent : q'.agentId = q.agentId)
    (hattempt : q'.attemptId = q.attemptId) :
    (db.dispatch item now).Ready now q' (db.markReview item t) a := by
  constructor
  · simpa using h.opened
  · simpa using h.started
  · simpa using h.planned
  · intro d hd htask u hu hid
    rw [dispatch_tasks] at hu
    obtain ⟨u₀, hu₀, rfl⟩ := List.mem_map.1 hu
    simpa using h.dependencies d hd (by simpa using htask) u₀ hu₀ (by simpa using hid)
  · rcases h.children with hfree | ⟨howned, n, hn, hparent, howner, hcurrent, r, hr, hrn, hrq⟩ |
      ⟨howned, ⟨m, hm, hid, htask, hrole⟩, hprompts⟩
    · left
      intro child hc hparent hblocks
      rw [dispatch_tasks] at hc
      obtain ⟨child₀, hc₀, rfl⟩ := List.mem_map.1 hc
      simpa using hfree child₀ hc₀ (by simpa using hparent) (by simpa using hblocks)
    · right; left
      refine ⟨howned.dispatch hagent, n, hn, by simpa using hparent, howner.trans hagent.symm, ?_,
        r, hr, hrn, ?_⟩
      · rw [current_dispatch]
        exact hcurrent
      · rw [hattempt]
        exact hrq
    · right; right
      exact ⟨howned.dispatch hagent, ⟨m, hm, hid, by simpa using htask, hrole⟩, hprompts⟩
  · intro p hp hid
    exact h.project p hp (by simpa using hid)

end MarkReview

end Db

/-! ## Every claim of every run -/

variable (needsUserInput : String → Bool)

/-- **No task starts early.** -/
theorem no_task_starts_early {db : Db} (hs : db.Schema) (ops : List Op)
    {agentId : Option String} {now : ℤ} {item : QueueItem}
    (h : reply needsUserInput (runOps (step needsUserInput) db ops) (.claim agentId now) =
      some (.claimed (some item))) :
    (runOps (step needsUserInput) db (ops ++ [.claim agentId now])).Started now item := by
  have hexec := exec_of_reply h
  obtain ⟨⟨r, db₁⟩, h1, h2⟩ := bind_ok hexec
  obtain ⟨hr, hdb⟩ := Prod.mk.inj (Except.ok.inj h2)
  cases hr
  have hs₀ := run_schema needsUserInput hs ops
  rw [runOps_concat, ← hdb]
  obtain ⟨db₂, hcalm, ⟨hnone, -⟩ | ⟨next, hnext, rfl, hitem⟩⟩ := Db.claimAt_cases hs₀ h1
  · cases hnone
  obtain ⟨hmem, t, a, ht, ha, hclaim⟩ := Db.nextClaim_claimable hnext
  have hs₂ := hcalm.schema hs₀
  obtain ⟨hq, hid⟩ := Db.item?_mem hitem.symm
  -- the row with the selected identifier is the selected row, now running
  have hrow : item = { next with status := .running, startedAt := some now } := by
    rw [Db.dispatch_queue] at hq
    obtain ⟨q, hqmem, hqe⟩ := List.mem_map.1 hq
    have hqid : q.id = next.id := by
      rw [← hid, ← hqe]
      split <;> rfl
    have heq : q = next := by
      have hget := hs₂.item?_of_mem hqmem
      rw [hqid, hs₂.item?_of_mem hmem] at hget
      exact (Option.some.inj hget).symm
    have hqueued : next.status = .queued := by
      simp only [Db.claimable, Bool.and_eq_true, decide_eq_true_eq] at hclaim
      exact hclaim.1.1.1.1.1.1.1.1
    rw [← hqe, heq, if_pos ⟨rfl, hqueued⟩]
  refine ⟨hq, by rw [hrow], db₂.markReview next t, a, ?_, ?_, ?_⟩
  · rw [Db.task?_dispatch, hrow, ht]
    rfl
  · rw [hrow]
    exact ha
  · exact (Db.ready_of_claimable hclaim).dispatch (by rw [hrow]) (by rw [hrow])

/-- A fresh database with one assigned task of a project. -/
def oneTask : Db where
  projects := [{ id := "home" }]
  agents := [{ id := "atlas", projectId := some "home" }]
  tasks := [{ id := "report", agentId := some "atlas", projectId := some "home" }]

theorem schema_oneTask : oneTask.Schema := by
  constructor <;> simp [oneTask]

/-- The dispatch of the task, once claimed. -/
def claimedReport : QueueItem where
  id := 1
  taskId := "report"
  agentId := "atlas"
  status := .running
  queuedAt := 1000
  startedAt := some 2000
  attemptId := some 0

theorem enqueued_report_ready :
    (runOps (step fun _ => false) oneTask
      ([.enqueue "report" "atlas" 1000] ++ [.claim none 2000])).Started 2000 claimedReport :=
  no_task_starts_early (fun _ => false) schema_oneTask [.enqueue "report" "atlas" 1000]
    (by decide +kernel)

end XpressClaw.Tasks
