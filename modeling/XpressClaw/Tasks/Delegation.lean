import XpressClaw.Tasks.Calm

/-!
# What a reconciliation does

The outcome a child reports depends on its row, on its turns (the identifiers, statuses and
times of its attempts) and on the decisions of the journal.  A delivery adds a row to the
journal and at most one queued attempt of the parent; a retirement ends queued attempts.

* `report_eq_of_turns` — what a report depends on.
* `Db.Delivery`, `deliver_delivery` — everything one round of `reconcile_in_transaction` can
  do, guards included.
-/

namespace XpressClaw.Tasks

open Lib

namespace Db

variable {db db' db'' : Db}

/-! ## Turns -/

/-- The identifier, the status and the time of an attempt. -/
def turnOf (a : WorkAttempt) : ℕ × AttemptStatus × ℤ := (a.id, a.status, a.createdAt)

/-- The turns of a task. -/
def turns (db : Db) (taskId : String) : List (ℕ × AttemptStatus × ℤ) :=
  (db.attempts.filter (·.taskId = some taskId)).map turnOf

theorem latestAttempt_turn (db : Db) (taskId : String) :
    (db.latestAttempt taskId).map turnOf = Table.latest (·.2.2) (db.turns taskId) := by
  have hlatest := @Table.latest_map _ _ WorkAttempt.createdAt (fun t => t.2.2) turnOf
    (fun _ => rfl) (db.attempts.filter (·.taskId = some taskId))
  exact hlatest.symm

theorem responding_iff_turns (db : Db) (taskId : String) :
    db.responding taskId = (db.turns taskId).any fun t =>
      t.2.1 = .queued || t.2.1 = .preparing || t.2.1 = .running || t.2.1 = .review := by
  rw [turns, List.any_map, List.any_filter]
  rfl

/-- The report of a child depends on its row and its turns. -/
theorem report_eq_of_turns {child : Task} (h : db'.turns child.id = db.turns child.id) :
    db'.report child = db.report child := by
  have hlatest : (db'.latestAttempt child.id).map turnOf =
    (db.latestAttempt child.id).map turnOf := by
    rw [latestAttempt_turn, latestAttempt_turn, h]
  have hresponding : db'.responding child.id = db.responding child.id := by
    rw [responding_iff_turns, responding_iff_turns, h]
  have hid : (db'.latestAttempt child.id).map (·.id) = (db.latestAttempt child.id).map (·.id) := by
    have := congrArg (Option.map Prod.fst) hlatest
    simpa [Option.map_map, Function.comp_def, turnOf] using this
  have hstatus : (db'.latestAttempt child.id).map (·.status) =
      (db.latestAttempt child.id).map (·.status) := by
    have := congrArg (Option.map fun t => t.2.1) hlatest
    simpa [Option.map_map, Function.comp_def, turnOf] using this
  unfold report
  split
  · rfl
  · dsimp only
    rw [hresponding, hid, hstatus]

theorem report_eq_none {child : Task} (h : ∃ t ∈ db.turns child.id, t.2.1 = .queued) :
    db.report child = none := by
  have hresponding : db.responding child.id = true := by
    rw [responding_iff_turns, List.any_eq_true]
    obtain ⟨t, ht, hq⟩ := h
    exact ⟨t, ht, by simp [hq]⟩
  unfold report
  split
  · rfl
  · rw [hresponding]
    simp

/-! ## Triggers -/

/-- Only the trigger of an attempt changes. -/
def Retriggers (g : WorkAttempt → WorkAttempt) : Prop :=
  ∀ a, ∃ m, g a = { a with triggerMessageId := m }

namespace Retriggers

variable {g : WorkAttempt → WorkAttempt} (h : Retriggers g) (a : WorkAttempt)

include h

theorem id : (g a).id = a.id := by obtain ⟨m, hm⟩ := h a; rw [hm]

theorem taskId : (g a).taskId = a.taskId := by obtain ⟨m, hm⟩ := h a; rw [hm]

theorem status : (g a).status = a.status := by obtain ⟨m, hm⟩ := h a; rw [hm]

theorem sessionId : (g a).sessionId = a.sessionId := by obtain ⟨m, hm⟩ := h a; rw [hm]

theorem startedAt : (g a).startedAt = a.startedAt := by obtain ⟨m, hm⟩ := h a; rw [hm]

theorem containerId : (g a).containerId = a.containerId := by obtain ⟨m, hm⟩ := h a; rw [hm]

theorem turn : turnOf (g a) = turnOf a := by obtain ⟨m, hm⟩ := h a; rw [hm]; rfl

end Retriggers

/-! ## One delivery -/

/-- Parent, owner, child, attempt and outcome. -/
abbrev ReportKey := String × String × String × Option ℕ × TaskStatus

/-- What a row of the journal tells. -/
def noticeKey (n : DelegationNotification) : ReportKey :=
  (n.parentTaskId, n.parentAgentId, n.childTaskId, n.childAttemptId, n.childStatus)

/-- What a delivery tells. -/
def reportKey (r : Outcome × TaskStatus × String) : ReportKey :=
  (r.1.parentId, r.2.2, r.1.childId, r.1.attemptId, r.2.1)

/-- A dispatch of a response that was just queued. -/
structure NewResponse (taskId agentId : String) (q : QueueItem) (a : WorkAttempt) : Prop where
  row : q.taskId = taskId ∧ q.agentId = agentId ∧ q.status = .queued ∧ q.attemptId = some a.id
  attempt : a.taskId = some taskId ∧ a.sessionId = agentId ∧ a.status = .queued ∧
    a.startedAt = none ∧ a.containerId = none

/-- **What one round of the reconciliation does.** -/
structure Delivery (o : Outcome) (status : TaskStatus) (owner : String) (db db' : Db) :
    Prop where
  tasks : db'.tasks = db.tasks
  projects : db'.projects = db.projects
  agents : db'.agents = db.agents
  work : db'.work = db.work
  executions : db'.executions = db.executions
  journal : ∃ n, db'.notifications = db.notifications ++ [n] ∧
    noticeKey n = reportKey (o, status, owner) ∧ n.decision = none
  next : db.nextAttemptId ≤ db'.nextAttemptId
  rows : (∃ g, Retriggers g ∧ (db.sharedResponse o.parentId owner).isSome ∧
      db'.queue = db.queue ∧ db'.attempts = db.attempts.map g ∧
      db'.automaticResponses = db.automaticResponses) ∨
    ∃ g q a, Retriggers g ∧ db.sharedResponse o.parentId owner = none ∧
      db'.queue = db.queue ++ [q] ∧ db'.attempts = db.attempts.map g ++ [a] ∧
      db'.automaticResponses = db.automaticResponses ++ [a.id] ∧
      NewResponse o.parentId owner q a ∧ a.id = db.nextAttemptId

theorem retriggers_if (i m : ℕ) : Retriggers fun a =>
    if decide (a.id = i) = true then
      { a with triggerMessageId := some (max (a.triggerMessageId.getD 0) m) } else a := by
  intro a
  dsimp only
  split
  · exact ⟨_, rfl⟩
  · exact ⟨a.triggerMessageId, rfl⟩

/-- What `enqueue_new_in_transaction` leaves behind. -/
theorem enqueueNew_ok {taskId agentId : String} {now : ℤ} {item : QueueItem} (hs : db.Schema)
    (h : enqueueNew taskId agentId now db = .ok (item, db')) :
    ∃ q a, db' = { db with
      queue := db.queue ++ [q]
      attempts := db.attempts ++ [a]
      nextQueueId := db.nextQueueId + 1
      nextAttemptId := db.nextAttemptId + 1 } ∧
      NewResponse taskId agentId q a ∧ a.id = db.nextAttemptId := by
  unfold enqueueNew at h
  split at h
  · cases h
  · dsimp only at h
    split at h
    · cases h
    · cases h
      refine ⟨{ id := db.nextQueueId
                taskId := taskId
                agentId := agentId
                queuedAt := now
                attemptId := some db.nextAttemptId },
        { id := db.nextAttemptId
          sessionId := agentId
          taskId := some taskId
          queueId := some db.nextQueueId
          createdAt := now }, ?_, ⟨⟨rfl, rfl, rfl, rfl⟩, rfl, rfl, rfl, rfl, rfl⟩, rfl⟩
      have hold : db.queue.map (fun q => if decide (q.id = db.nextQueueId) = true then
          { q with attemptId := some db.nextAttemptId } else q) = db.queue := by
        refine (List.map_congr_left fun q hq => ?_).trans (List.map_id _)
        have hlt := hs.itemIds q hq
        rw [if_neg (by simp; omega)]
        rfl
      simp [insertAttempt, insertItem, updateQueue]
      exact hold

theorem deliver_delivery {o : Outcome} {status : TaskStatus} {owner : String} {now : ℤ}
    (hs : db.Schema) (h : deliver o status owner now db = .ok ((), db')) :
    Delivery o status owner db db' := by
  obtain ⟨⟨m, db₁⟩, h1, h⟩ := bind_ok h
  obtain ⟨⟨i, db₂⟩, h2, h⟩ := bind_ok h
  cases h
  obtain ⟨_, -, h1⟩ := bind_ok h1
  cases h1
  obtain ⟨_, -, h2⟩ := bind_ok h2
  obtain ⟨_, -, h2⟩ := bind_ok h2
  obtain ⟨⟨j, db₃⟩, h3, h2⟩ := bind_ok h2
  obtain ⟨db₄, h4, h2⟩ := bind_ok h2
  cases h2
  obtain ⟨-, rfl⟩ := associateResponseTrigger_eq h4
  have hcalm : db.Calm (db.insertMessageRow o.parentId "system").2 :=
    insertMessageRow_calm o.parentId "system"
  have hschema : (db.insertMessageRow o.parentId "system").2.Schema := hcalm.schema hs
  have hshared : (db.insertMessageRow o.parentId "system").2.sharedResponse o.parentId owner =
      db.sharedResponse o.parentId owner := rfl
  unfold notificationResponse at h3
  split at h3
  · rename_i response hr
    cases h3
    have hfound : db.sharedResponse o.parentId owner = some i := hr
    refine ⟨rfl, rfl, rfl, rfl, rfl, ⟨_, rfl, rfl, rfl⟩, le_rfl,
      Or.inl ⟨_, retriggers_if _ _, ?_, rfl, rfl, rfl⟩⟩
    rw [hfound]
    rfl
  · rename_i hr
    have hnone : db.sharedResponse o.parentId owner = none := hr
    obtain ⟨⟨item, db₅⟩, h5, h3⟩ := bind_ok h3
    obtain ⟨q, a, rfl, hnew, hid⟩ := enqueueNew_ok hschema h5
    have hitem := enqueueNew_attempt h5
    dsimp only at h3
    rw [hitem] at h3
    cases h3
    have hg := retriggers_if db.nextAttemptId db.nextMessageId
    refine ⟨rfl, rfl, rfl, rfl, rfl, ⟨_, rfl, rfl, rfl⟩, Nat.le_succ _,
      Or.inr ⟨_, q, _, hg, hnone, rfl, List.map_append, ?_, ?_, ?_⟩⟩
    · exact congrArg (fun i => db.automaticResponses ++ [i]) ((hg.id a).trans hid).symm
    · obtain ⟨⟨hq, hqa, hqs, hqi⟩, hat, has, hst, hstarted, hcontainer⟩ := hnew
      exact ⟨⟨hq, hqa, hqs, hqi.trans (congrArg some (hg.id a).symm)⟩, (hg.taskId a).trans hat,
        (hg.sessionId a).trans has, (hg.status a).trans hst, (hg.startedAt a).trans hstarted,
        (hg.containerId a).trans hcontainer⟩
    · exact (hg.id a).trans hid

/-! ## All deliveries -/

/-- What all rounds together do to the journal and to the turns. -/
structure Deliveries (reports : List (Outcome × TaskStatus × String)) (db db' : Db) : Prop where
  tasks : db'.tasks = db.tasks
  projects : db'.projects = db.projects
  agents : db'.agents = db.agents
  work : db'.work = db.work
  executions : db'.executions = db.executions
  journal : ∃ new, db'.notifications = db.notifications ++ new ∧
    new.map noticeKey = reports.map reportKey ∧ ∀ n ∈ new, n.decision = none
  turns : ∀ c, ∃ new, db'.turns c = db.turns c ++ new ∧ ∀ t ∈ new, t.2.1 = .queued
  statuses : ∀ i, (db.attempt? i).isSome →
    (db'.attempt? i).map (·.status) = (db.attempt? i).map (·.status)

theorem turns_map {g : WorkAttempt → WorkAttempt} (hg : Retriggers g) (attempts : List WorkAttempt)
    (c : String) : ((attempts.map g).filter (·.taskId = some c)).map turnOf =
      (attempts.filter (·.taskId = some c)).map turnOf := by
  rw [List.filter_map, List.map_map]
  have hturn : turnOf ∘ g = turnOf := funext hg.turn
  have htask : ((fun a : WorkAttempt => decide (a.taskId = some c)) ∘ g) =
      fun a => decide (a.taskId = some c) := funext fun a => by simp [hg.taskId]
  rw [hturn, htask]

theorem Delivery.turns {o : Outcome} {status : TaskStatus} {owner : String}
    (h : Delivery o status owner db db') (c : String) :
    ∃ new, db'.turns c = db.turns c ++ new ∧ ∀ t ∈ new, t.2.1 = .queued := by
  rcases h.rows with ⟨g, hg, -, -, ha, -⟩ | ⟨g, q, a, hg, -, -, ha, -, hnew, -⟩
  · refine ⟨[], ?_, by simp⟩
    rw [Db.turns, ha, turns_map hg, List.append_nil, Db.turns]
  · refine ⟨([a].filter (·.taskId = some c)).map turnOf, ?_, ?_⟩
    · rw [Db.turns, ha, List.filter_append, List.map_append, turns_map hg, Db.turns]
    · intro t ht
      obtain ⟨b, hb, rfl⟩ := List.mem_map.1 ht
      obtain rfl := List.mem_singleton.1 (List.mem_filter.1 hb).1
      exact hnew.attempt.2.2.1

theorem Delivery.statuses {o : Outcome} {status : TaskStatus} {owner : String}
    (h : Delivery o status owner db db') {i : ℕ} (hi : (db.attempt? i).isSome) :
    (db'.attempt? i).map (·.status) = (db.attempt? i).map (·.status) := by
  obtain ⟨a, ha⟩ := Option.isSome_iff_exists.1 hi
  have hmap {g : WorkAttempt → WorkAttempt} (hg : Retriggers g) :
      Table.get (·.id) (db.attempts.map g) i = some (g a) := by
    rw [Table.get_map hg.id]
    exact congrArg (Option.map g) ha
  rw [ha]
  rcases h.rows with ⟨g, hg, -, -, hrows, -⟩ | ⟨g, q, b, hg, -, -, hrows, -⟩
  · rw [attempt?, hrows, hmap hg]
    exact congrArg some (hg.status a)
  · rw [attempt?, hrows, Table.get_append_of_some (hmap hg)]
    exact congrArg some (hg.status a)

theorem Delivery.deliveries {o : Outcome} {status : TaskStatus} {owner : String}
    {reports : List (Outcome × TaskStatus × String)} (h : Delivery o status owner db db')
    (h' : Deliveries reports db' db'') : Deliveries ((o, status, owner) :: reports) db db'' where
  tasks := h'.tasks.trans h.tasks
  projects := h'.projects.trans h.projects
  agents := h'.agents.trans h.agents
  work := h'.work.trans h.work
  executions := h'.executions.trans h.executions
  journal := by
    obtain ⟨n, hn, hkey, hnone⟩ := h.journal
    obtain ⟨new, hnew, hkeys, hnones⟩ := h'.journal
    refine ⟨n :: new, ?_, ?_, ?_⟩
    · rw [hnew, hn, List.append_assoc]
      rfl
    · rw [List.map_cons, List.map_cons, hkey, hkeys]
    · intro m hm
      rcases List.mem_cons.1 hm with rfl | hm
      · exact hnone
      · exact hnones m hm
  turns c := by
    obtain ⟨new, ht, hq⟩ := h.turns c
    obtain ⟨new', ht', hq'⟩ := h'.turns c
    refine ⟨new ++ new', by rw [ht', ht, List.append_assoc], fun t hmem => ?_⟩
    rcases List.mem_append.1 hmem with hmem | hmem
    · exact hq t hmem
    · exact hq' t hmem
  statuses i hi := by
    have hone := h.statuses hi
    refine (h'.statuses i ?_).trans hone
    rw [← Option.isSome_map, hone, Option.isSome_map]
    exact hi

theorem deliverAll_deliveries {now : ℤ} {reports : List (Outcome × TaskStatus × String)}
    (hs : db.Schema) (h : deliverAll now reports db = .ok ((), db')) :
    Deliveries reports db db' := by
  induction reports generalizing db with
  | nil =>
    cases h
    exact ⟨rfl, rfl, rfl, rfl, rfl, ⟨[], by simp⟩, fun c => ⟨[], by simp⟩, fun _ _ => rfl⟩
  | cons report reports ih =>
    obtain ⟨⟨_, db₁⟩, h1, h⟩ := bind_ok h
    have hone := deliver_delivery hs h1
    have hs₁ := (deliver_calm _ _ _ now db hs _ _ h1).schema hs
    exact hone.deliveries (ih hs₁ h)

/-! ## Nothing is left to report -/

/-- A row of the journal tells what the report says. -/
theorem unreported_isSome {o : Outcome} {r : Outcome × TaskStatus × String}
    (h : db.unreported o = some r) : r.1 = o ∧ o.outcome = some r.2.1 ∧
      reportKey r ∉ db.notifications.map noticeKey := by
  obtain ⟨status, hstatus, h⟩ := Option.bind_eq_some_iff.1 h
  obtain ⟨parent, hparent, h⟩ := Option.bind_eq_some_iff.1 h
  obtain ⟨owner, howner, h⟩ := Option.bind_eq_some_iff.1 h
  split at h
  · rename_i hcond
    cases h
    refine ⟨rfl, hstatus, fun hmem => ?_⟩
    obtain ⟨n, hn, hkey⟩ := List.mem_map.1 hmem
    simp only [noticeKey, reportKey, Prod.mk.injEq] at hkey
    have hid : parent.id = o.parentId := Table.key_of_get hparent
    have hany : (db.notifications.any fun n => n.parentTaskId = parent.id &&
        n.parentAgentId = owner && n.childTaskId = o.childId &&
        n.childAttemptId = o.attemptId && n.childStatus = status) = true := by
      rw [List.any_eq_true]
      exact ⟨n, hn, by simp [hid, hkey]⟩
    rw [hany] at hcond
    simp at hcond
  · cases h

/-- The same report of a database with a longer journal. -/
theorem unreported_mono {o : Outcome} {r : Outcome × TaskStatus × String}
    (htasks : db'.tasks = db.tasks) (hprojects : db'.projects = db.projects)
    (hagents : db'.agents = db.agents) (hwork : db'.work = db.work)
    (hjournal : db.notifications ⊆ db'.notifications) (h : db'.unreported o = some r) :
    db.unreported o = some r := by
  unfold unreported at h ⊢
  obtain ⟨status, hstatus, h⟩ := Option.bind_eq_some_iff.1 h
  obtain ⟨parent, hparent, h⟩ := Option.bind_eq_some_iff.1 h
  obtain ⟨owner, howner, h⟩ := Option.bind_eq_some_iff.1 h
  rw [task?, htasks] at hparent
  have hparent' : db.task? o.parentId = some parent := hparent
  split at h
  · rename_i hcond
    cases h
    simp only [hstatus, hparent', howner, Option.bind_eq_bind, Option.bind_some]
    rw [if_pos]
    simp only [projectDeleting, connected, hprojects, hagents, hwork, Bool.and_eq_true,
      Bool.not_eq_true', List.any_eq_false] at hcond ⊢
    exact ⟨hcond.1, fun n hn => hcond.2 n (hjournal hn)⟩
  · cases h

variable {reports : List (Outcome × TaskStatus × String)}

theorem Deliveries.notifications (h : Deliveries reports db db') :
    db.notifications ⊆ db'.notifications := by
  obtain ⟨new, hnew, -⟩ := h.journal
  rw [hnew]
  exact List.subset_append_left _ _

theorem Deliveries.turns_eq (h : Deliveries reports db db') {child : Task} {o : Outcome}
    (hr : db'.report child = some o) : db'.turns child.id = db.turns child.id := by
  obtain ⟨new, hnew, hq⟩ := h.turns child.id
  cases new with
  | nil => rw [hnew, List.append_nil]
  | cons t new =>
    have hnone : db'.report child = none :=
      report_eq_none ⟨t, by rw [hnew]; simp, hq t List.mem_cons_self⟩
    rw [hnone] at hr
    cases hr

theorem Deliveries.report (h : Deliveries reports db db') {child : Task} {o : Outcome}
    (hr : db'.report child = some o) : db.report child = some o := by
  rw [← report_eq_of_turns (h.turns_eq hr)]
  exact hr

/-- Deliveries decide nothing. -/
theorem Deliveries.reviewed (h : Deliveries reports db db') (o : Outcome) :
    db'.reviewed o = db.reviewed o := by
  obtain ⟨new, hnew, -, hnone⟩ := h.journal
  have htask : db'.task? o.parentId = db.task? o.parentId := by rw [task?, h.tasks, task?]
  unfold Db.reviewed
  rw [hnew, List.any_append, htask]
  have hfresh : (new.any fun n => n.childTaskId = o.childId && n.parentTaskId = o.parentId &&
      (db.task? o.parentId).any (fun parent => parent.agentId = some n.parentAgentId) &&
      n.childAttemptId = o.attemptId && n.decision.isSome &&
      (o.outcome = some n.childStatus ||
        (n.decision = some .wait && n.childStatus = .completed && o.taskStatus = .blocked &&
          o.responseStatus = some .completed))) = false := by
    rw [List.any_eq_false]
    intro n hn
    simp [hnone n hn]
  rw [hfresh, Bool.or_false]

theorem Deliveries.outcomes (h : Deliveries reports db db') : db'.outcomes ⊆ db.outcomes := by
  intro o ho
  obtain ⟨hmem, hreviewed⟩ := List.mem_filter.1 ho
  obtain ⟨child, hchild, hr⟩ := List.mem_filterMap.1 hmem
  rw [h.tasks] at hchild
  rw [h.reviewed] at hreviewed
  exact List.mem_filter.2 ⟨List.mem_filterMap.2 ⟨child, hchild, h.report hr⟩, hreviewed⟩

theorem mem_reports {r : Outcome × TaskStatus × String} :
    r ∈ db.reports ↔ ∃ o ∈ db.outcomes, db.unreported o = some r := by
  rw [Db.reports, List.mem_insertionSort, List.mem_filterMap]

theorem Deliveries.unreported (h : Deliveries db.reports db db') {o : Outcome}
    (ho : o ∈ db'.outcomes) : db'.unreported o = none := by
  cases hr : db'.unreported o with
  | none => rfl
  | some r =>
    have hold := unreported_mono h.tasks h.projects h.agents h.work h.notifications hr
    have hmem : r ∈ db.reports := mem_reports.2 ⟨o, h.outcomes ho, hold⟩
    obtain ⟨new, hnew, hkeys, -⟩ := h.journal
    refine absurd ?_ (unreported_isSome hr).2.2
    rw [hnew, List.map_append, hkeys]
    exact List.mem_append_right _ (List.mem_map_of_mem hmem)

/-! ## Retirement -/

theorem retireAll_frame (now : ℤ) (stale : List (ℕ × ℕ)) (db : Db) :
    (retireAll now stale db).tasks = db.tasks ∧
      (retireAll now stale db).projects = db.projects ∧
      (retireAll now stale db).agents = db.agents ∧
      (retireAll now stale db).work = db.work ∧
      (retireAll now stale db).executions = db.executions ∧
      (retireAll now stale db).notifications = db.notifications ∧
      (retireAll now stale db).responses = db.responses ∧
      (retireAll now stale db).automaticResponses = db.automaticResponses := by
  induction stale generalizing db with
  | nil => exact ⟨rfl, rfl, rfl, rfl, rfl, rfl, rfl, rfl⟩
  | cons p stale ih => exact ih _

/-- What a retirement does to the attempts. -/
def Retires (ids : List ℕ) (g : WorkAttempt → WorkAttempt) : Prop :=
  ∀ a, (g a).id = a.id ∧ (g a).taskId = a.taskId ∧ (g a).createdAt = a.createdAt ∧
    (g a = a ∧ a.id ∉ ids ∨ a.id ∈ ids ∧ (g a).status = .cancelled)

theorem retireAll_attempts (now : ℤ) (stale : List (ℕ × ℕ)) (db : Db) :
    ∃ g, (retireAll now stale db).attempts = db.attempts.map g ∧
      Retires (stale.map (·.1)) g := by
  induction stale generalizing db with
  | nil => exact ⟨id, (List.map_id _).symm, fun a => ⟨rfl, rfl, rfl, Or.inl ⟨rfl, by simp⟩⟩⟩
  | cons p stale ih =>
    obtain ⟨g, hg, hr⟩ := ih ((db.updateAttempts (·.id = p.1) (superseded now)).updateQueue
      (·.id = p.2) (failed supersededReason now))
    refine ⟨fun a => g (if decide (a.id = p.1) = true then superseded now a else a), ?_, ?_⟩
    · rw [retireAll, hg]
      exact List.map_map
    · intro a
      by_cases hi : a.id = p.1
      · obtain ⟨h1, h2, h3, h4⟩ := hr (superseded now a)
        simp only [hi, decide_true, if_true]
        refine ⟨h1.trans hi, h2, h3, Or.inr ⟨by simp, ?_⟩⟩
        rcases h4 with h4 | h4
        · rw [h4.1]
          rfl
        · exact h4.2
      · obtain ⟨h1, h2, h3, h4⟩ := hr a
        simp only [hi, decide_false, Bool.false_eq_true, if_false]
        refine ⟨h1, h2, h3, h4.imp (fun h => ⟨h.1, ?_⟩) fun h => ⟨by simp [h.1], h.2⟩⟩
        simpa [hi] using h.2

/-- The attempts that `retire_stale_in_transaction` selects are queued. -/
theorem mem_staleResponses {taskId : Option String} {i j : ℕ}
    (h : (i, j) ∈ db.staleResponses taskId) : i ∈ db.automaticResponses ∧
      ∃ q ∈ db.queue, q.id = j ∧ q.attemptId = some i ∧ q.status = .queued ∧
        ∃ candidate, db.attempt? i = some candidate ∧ candidate.status = .queued ∧
          candidate.startedAt = none ∧ candidate.containerId = none ∧
          candidate.taskId = some q.taskId ∧ db.workflowOwned (some i) = false ∧
          ∃ t, db.task? q.taskId = some t ∧ (∀ id ∈ taskId, t.id = id) ∧
            (t.closed = true ∨ db.recoveryGrant q t candidate = false) := by
  obtain ⟨a, ha, h⟩ := List.mem_flatMap.1 h
  obtain ⟨q, hq, heq⟩ := List.mem_map.1 h
  cases heq
  obtain ⟨hmem, hq⟩ := List.mem_filter.1 hq
  simp only [Bool.and_eq_true, decide_eq_true_eq, Option.any_eq_true, Option.isNone_iff_eq_none,
    Bool.not_eq_true', Bool.or_eq_true, Option.all_eq_true] at hq
  obtain ⟨⟨hattempt, hqueued⟩, candidate, hc, ⟨⟨⟨⟨hcs, hst⟩, hct⟩, htask⟩, howned⟩, t, ht, htid,
    hstale⟩ := hq
  exact ⟨ha, q, hmem, rfl, hattempt, hqueued, candidate, hc, hcs, hst, hct, htask, howned, t, ht,
    htid, hstale⟩

end Db

end XpressClaw.Tasks
