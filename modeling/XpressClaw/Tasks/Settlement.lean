import XpressClaw.Tasks.Delegation
import XpressClaw.Tasks.Review

/-!
# A review and what is reported afterwards

A later reconciliation reports a child again when the outcome that its row and its attempt
now give is in no row of the journal and was not excluded by a decision.  A review changes the
row of the child, and with it the outcome, but it decides on the row of the journal that tells
the old outcome.

* `Db.Settled` — the journal answers for the outcome that a task status and a response give.
* `reports_settled` — what is settled is not reported.
* `ReviewRequest.Settles` — when the outcome after a review is settled.
* `review_settles` — after such a review no reconciliation adds a notification about the child
  and its attempt, whatever others do to other rows.
-/

namespace XpressClaw.Tasks

open Lib

/-- An attempt of a child, as a parent and its owner are told about it. -/
structure Matter where
  parentId : String
  owner : String
  childId : String
  attemptId : Option ℕ
  deriving DecidableEq

/-- What the review of a request is about. -/
def ReviewRequest.matter (request : ReviewRequest) (caller childId : String) : Matter :=
  ⟨request.parentTaskId, caller, childId, request.expectedAttemptId⟩

/-- The status of the child after a decision. -/
def ReviewDecision.statusAfter (active : Bool) (status : TaskStatus) : ReviewDecision → TaskStatus
  | accept => .completed
  | revise => status
  | wait => if active then status else .blocked

namespace Db

variable {db db' : Db} {m : Matter} {status : TaskStatus} {response : Option AttemptStatus}

/-- The rows of the journal about a matter. -/
def about (db : Db) (m : Matter) : List DelegationNotification :=
  db.noticesAbout m.parentId m.owner m.childId m.attemptId

/-- The status of the attempt. -/
def responseOf (db : Db) (attemptId : Option ℕ) : Option AttemptStatus :=
  (attemptId.bind db.attempt?).map (·.status)

/-- The journal answers for the outcome that a task status and a response give. -/
def Settled (db : Db) (m : Matter) (status : TaskStatus) (response : Option AttemptStatus) :
    Prop :=
  outcomeOf status response = none ∨
    (∃ n ∈ db.about m, outcomeOf status response = some n.childStatus) ∨
    (status = .blocked ∧ response = some .completed) ∧
      ∃ n ∈ db.about m, n.decision = some .wait ∧ n.childStatus = .completed

instance : Decidable (db.Settled m status response) := inferInstanceAs (Decidable (_ ∨ _ ∨ _))

/-- All rows with the key of the child have the status. -/
def ChildIs (db : Db) (childId : String) (status : TaskStatus) : Prop :=
  ∀ t ∈ db.tasks, t.id = childId → t.status = status

theorem mem_about {n : DelegationNotification} : n ∈ db.about m ↔ n ∈ db.notifications ∧
    noticeKey n = (m.parentId, m.owner, m.childId, m.attemptId, n.childStatus) := by
  simp only [about, noticesAbout, List.mem_filter, noticeKey, Bool.and_eq_true,
    decide_eq_true_eq, Prod.mk.injEq, and_true]
  constructor
  · rintro ⟨hn, ⟨⟨hc, ha⟩, hp⟩, ho⟩
    exact ⟨hn, hp, ho, hc, ha⟩
  · rintro ⟨hn, hp, ho, hc, ha⟩
    exact ⟨hn, ⟨⟨hc, ha⟩, hp⟩, ho⟩

theorem Settled.mono (h : db.Settled m status response) (hsub : db.about m ⊆ db'.about m) :
    db'.Settled m status response := by
  rcases h with h | ⟨n, hn, h⟩ | ⟨hb, n, hn, h⟩
  · exact Or.inl h
  · exact Or.inr (Or.inl ⟨n, hsub hn, h⟩)
  · exact Or.inr (Or.inr ⟨hb, n, hsub hn, h⟩)

/-! ## Reports -/

theorem responseOf_congr (h : db'.attempts = db.attempts) (attemptId : Option ℕ) :
    db'.responseOf attemptId = db.responseOf attemptId := by
  have hget : db'.attempt? = db.attempt? := by
    funext i
    rw [attempt?, h, attempt?]
  rw [responseOf, hget, responseOf]

/-- What a report says of the child's row and attempt. -/
theorem report_gives (hs : db.Schema) {t : Task} {o : Outcome} (h : db.report t = some o) :
    o.childId = t.id ∧ o.taskStatus = t.status ∧ o.responseStatus = db.responseOf o.attemptId ∧
      o.outcome = outcomeOf t.status (db.responseOf o.attemptId) := by
  have hresponse : db.responseOf ((db.latestAttempt t.id).map (·.id)) =
      (db.latestAttempt t.id).map (·.status) := by
    cases ha : db.latestAttempt t.id with
    | none => rfl
    | some a =>
      have hmem := (List.mem_filter.1 (Table.mem_of_latest ha)).1
      have hfound := hs.attempt?_of_mem hmem
      simp [responseOf, hfound]
  unfold report at h
  split at h
  · cases h
  · split at h
    · cases h
    · cases h
      exact ⟨rfl, rfl, hresponse.symm, by rw [hresponse]⟩

theorem unreported_owner {o : Outcome} {r : Outcome × TaskStatus × String}
    (h : db.unreported o = some r) :
    ∃ parent, db.task? o.parentId = some parent ∧ parent.agentId = some r.2.2 := by
  obtain ⟨status, hstatus, h⟩ := Option.bind_eq_some_iff.1 h
  obtain ⟨parent, hparent, h⟩ := Option.bind_eq_some_iff.1 h
  obtain ⟨owner, howner, h⟩ := Option.bind_eq_some_iff.1 h
  split at h
  · cases h
    exact ⟨parent, hparent, howner⟩
  · cases h

/-- A report about a matter tells the outcome that the child's row and attempt give. -/
theorem report_outcome (hs : db.Schema) (hc : db.ChildIs m.childId status)
    {r : Outcome × TaskStatus × String} (hr : r ∈ db.reports)
    (hkey : reportKey r = (m.parentId, m.owner, m.childId, m.attemptId, r.2.1)) :
    outcomeOf status (db.responseOf m.attemptId) = some r.2.1 ∧
      r.1.taskStatus = status ∧ r.1.responseStatus = db.responseOf m.attemptId := by
  obtain ⟨o, ho, hu⟩ := mem_reports.1 hr
  obtain ⟨t, ht, hreport⟩ := List.mem_filterMap.1 (List.mem_filter.1 ho).1
  obtain ⟨rfl, hout, -⟩ := unreported_isSome hu
  obtain ⟨hid, hts, hrs, hgives⟩ := report_gives hs hreport
  simp only [reportKey, Prod.mk.injEq] at hkey
  obtain ⟨-, -, hchild, hattempt, -⟩ := hkey
  have hstatus : t.status = status := hc t ht (hid.symm.trans hchild)
  rw [hattempt, hstatus] at hgives
  rw [hattempt] at hrs
  exact ⟨hgives.symm.trans hout, hts.trans hstatus, hrs⟩

/-- **What is settled is not reported.** -/
theorem reports_settled (hs : db.Schema) (hc : db.ChildIs m.childId status)
    (h : db.Settled m status (db.responseOf m.attemptId)) {r : Outcome × TaskStatus × String}
    (hr : r ∈ db.reports) :
    reportKey r ≠ (m.parentId, m.owner, m.childId, m.attemptId, r.2.1) := by
  intro hkey
  obtain ⟨hout, hts, hrs⟩ := report_outcome hs hc hr hkey
  obtain ⟨o, ho, hu⟩ := mem_reports.1 hr
  obtain ⟨rfl, hoo, hfresh⟩ := unreported_isSome hu
  rcases h with h | ⟨n, hn, h⟩ | ⟨⟨hb, hcompleted⟩, n, hn, hwait, hstatus⟩
  · rw [h] at hout
    cases hout
  · -- the journal has a row with this key
    obtain ⟨hmem, hnkey⟩ := mem_about.1 hn
    have heq : n.childStatus = r.2.1 := Option.some.inj (h.symm.trans hout)
    rw [heq] at hnkey
    exact hfresh (List.mem_map.2 ⟨n, hmem, hnkey.trans hkey.symm⟩)
  · -- the parent keeps the child waiting
    obtain ⟨hmem, hnkey⟩ := mem_about.1 hn
    obtain ⟨parent, hparent, hagent⟩ := unreported_owner hu
    have hnot := (List.mem_filter.1 ho).2
    simp only [reportKey, noticeKey, Prod.mk.injEq] at hkey hnkey
    rw [hkey.1] at hparent
    rw [hkey.2.1] at hagent
    have hreviewed : db.reviewed r.1 = true := by
      rw [Db.reviewed, List.any_eq_true]
      refine ⟨n, hmem, ?_⟩
      simp [hnkey, hkey, hparent, hagent, hwait, hstatus, hts, hrs, hb, hcompleted]
    rw [hreviewed] at hnot
    cases hnot

/-! ## Reconciling -/

theorem retireStale_attempts (hs : db.Schema) (taskId : Option String) (now : ℤ) :
    ∃ g, (db.retireStale taskId now).attempts = db.attempts.map g ∧
      (∀ a, (g a).id = a.id ∧ (g a).taskId = a.taskId ∧ (g a).createdAt = a.createdAt) ∧
      ∀ a ∈ db.attempts, g a = a ∨ a.status = .queued ∧ (g a).status = .cancelled := by
  obtain ⟨g, hg, hr⟩ := retireAll_attempts now (db.staleResponses taskId) db
  refine ⟨g, hg, fun a => ⟨(hr a).1, (hr a).2.1, (hr a).2.2.1⟩, fun a ha => ?_⟩
  refine (hr a).2.2.2.imp And.left fun ⟨hmem, hcancelled⟩ => ⟨?_, hcancelled⟩
  obtain ⟨⟨i, j⟩, hp, rfl⟩ := List.mem_map.1 hmem
  obtain ⟨-, -, -, -, -, -, candidate, hc, hqueued, -⟩ := mem_staleResponses hp
  obtain ⟨hcmem, hcid⟩ := attempt?_mem hc
  rw [hs.eq_of_id ha hcmem hcid.symm]
  exact hqueued

theorem retireStale_responseOf (hs : db.Schema) (taskId : Option String) (now : ℤ)
    {attemptId : Option ℕ} (hq : db.responseOf attemptId ≠ some .queued) :
    (db.retireStale taskId now).responseOf attemptId = db.responseOf attemptId := by
  obtain ⟨g, hg, hkeep, hr⟩ := retireStale_attempts hs taskId now
  cases attemptId with
  | none => rfl
  | some i =>
    have hget : (db.retireStale taskId now).attempt? i = (db.attempt? i).map g := by
      rw [attempt?, hg]
      exact Table.get_map fun a => (hkeep a).1
    cases ha : db.attempt? i with
    | none => simp [responseOf, hget, ha]
    | some a =>
      rcases hr a (attempt?_mem ha).1 with h | ⟨hqueued, -⟩
      · simp [responseOf, hget, ha, h]
      · exact absurd (by simp [responseOf, ha, hqueued]) hq

theorem retireStale_responding (hs : db.Schema) (taskId : Option String) (now : ℤ) {c : String}
    (h : (db.retireStale taskId now).responding c = true) : db.responding c = true := by
  obtain ⟨g, hg, hkeep, hr⟩ := retireStale_attempts hs taskId now
  obtain ⟨a', ha', hc⟩ := List.any_eq_true.1 h
  rw [hg] at ha'
  obtain ⟨a, ha, rfl⟩ := List.mem_map.1 ha'
  refine List.any_eq_true.2 ⟨a, ha, ?_⟩
  rcases hr a ha with heq | ⟨-, hcancelled⟩
  · rw [heq] at hc
    exact hc
  · simp [hcancelled] at hc

theorem retireStale_latest (hs : db.Schema) (taskId : Option String) (now : ℤ) (c : String) :
    ((db.retireStale taskId now).latestAttempt c).map (·.id) =
      (db.latestAttempt c).map (·.id) := by
  obtain ⟨g, hg, hkeep, -⟩ := retireStale_attempts hs taskId now
  have hfilter : ((db.attempts.map g).filter (·.taskId = some c)) =
      (db.attempts.filter (·.taskId = some c)).map g := by
    rw [List.filter_map]
    exact congrArg _ (List.filter_congr fun a _ => by simp [hkeep a])
  rw [latestAttempt, latestAttempt, hg, hfilter, Table.latest_map fun a => (hkeep a).2.2,
    Option.map_map]
  exact Option.map_congr fun a _ => (hkeep a).1

theorem reconcile_deliveries {now : ℤ} (hs : db.Schema) (h : reconcile now db = .ok ((), db')) :
    Deliveries (db.retireStale none now).reports (db.retireStale none now) db' := by
  obtain ⟨⟨_, db₁⟩, h1, h⟩ := bind_ok h
  cases h
  have hd := deliverAll_deliveries ((retireStale_calm hs none now).schema hs) h1
  exact ⟨hd.tasks, hd.projects, hd.agents, hd.work, hd.executions, hd.journal, hd.turns,
    hd.statuses⟩

variable {reports : List (Outcome × TaskStatus × String)}

/-- The rows that deliveries add about a matter. -/
theorem Deliveries.about (h : Deliveries reports db db') (m : Matter) :
    ∃ more, db'.about m = db.about m ++ more ∧ ∀ n ∈ more, n.decision = none ∧
      ∃ r ∈ reports, r.2.1 = n.childStatus ∧
        reportKey r = (m.parentId, m.owner, m.childId, m.attemptId, r.2.1) := by
  obtain ⟨new, hnew, hkeys, hnone⟩ := h.journal
  refine ⟨_, by rw [Db.about, noticesAbout, hnew, List.filter_append]; rfl, fun n hn => ?_⟩
  have hmem := (List.mem_filter.1 hn).1
  have hkey := (mem_about.1 (show n ∈ ({ db with notifications := new } : Db).about m from hn)).2
  have hr : noticeKey n ∈ reports.map reportKey := hkeys ▸ List.mem_map_of_mem hmem
  obtain ⟨r, hr, heq⟩ := List.mem_map.1 hr
  have hstatus : r.2.1 = n.childStatus :=
    congrArg (fun k : ReportKey => k.2.2.2.2) (heq.trans hkey)
  exact ⟨hnone n hmem, r, hr, hstatus, hstatus ▸ heq.trans hkey⟩

theorem Deliveries.mem_about (h : Deliveries reports db db') {r : Outcome × TaskStatus × String}
    (hr : r ∈ reports) (hkey : reportKey r = (m.parentId, m.owner, m.childId, m.attemptId, r.2.1)) :
    ∃ n ∈ db'.about m, n.childStatus = r.2.1 := by
  obtain ⟨new, hnew, hkeys, -⟩ := h.journal
  have hmem : reportKey r ∈ new.map noticeKey := hkeys ▸ List.mem_map_of_mem hr
  obtain ⟨n, hn, heq⟩ := List.mem_map.1 hmem
  have hstatus : n.childStatus = r.2.1 :=
    congrArg (fun k : ReportKey => k.2.2.2.2) (heq.trans hkey)
  refine ⟨n, Db.mem_about.2 ⟨by rw [hnew]; exact List.mem_append_right _ hn, ?_⟩, hstatus⟩
  rw [heq, hkey, hstatus]

theorem Deliveries.responseOf (h : Deliveries reports db db') {attemptId : Option ℕ}
    (ha : attemptId.isSome → (db.responseOf attemptId).isSome) :
    db'.responseOf attemptId = db.responseOf attemptId := by
  cases attemptId with
  | none => rfl
  | some i =>
    refine h.statuses i ?_
    have hsome := ha rfl
    rw [Db.responseOf, Option.isSome_map] at hsome
    exact hsome

/-- What a reconciliation finds settled it leaves settled, and tells nothing of. -/
theorem reconcile_settled {now : ℤ} (hs : db.Schema) (hc : db.ChildIs m.childId status)
    (hq : db.responseOf m.attemptId ≠ some .queued)
    (ha : m.attemptId.isSome → (db.responseOf m.attemptId).isSome)
    (hset : db.Settled m status (db.responseOf m.attemptId))
    (h : reconcile now db = .ok ((), db')) :
    db'.about m = db.about m ∧ db'.ChildIs m.childId status ∧
      db'.responseOf m.attemptId = db.responseOf m.attemptId := by
  have hd := reconcile_deliveries hs h
  have hs₁ := (retireStale_calm hs none now).schema hs
  obtain ⟨htasks, -, -, -, -, hnotes, -⟩ := retireAll_frame now (db.staleResponses none) db
  have habout : (db.retireStale none now).about m = db.about m := by
    rw [Db.about, noticesAbout, retireStale, hnotes]
    rfl
  have hchild : (db.retireStale none now).ChildIs m.childId status := by
    rw [ChildIs, retireStale, htasks]
    exact hc
  have hresponse := retireStale_responseOf hs none now hq
  refine ⟨?_, ?_, (hd.responseOf (by rw [hresponse]; exact ha)).trans hresponse⟩
  · obtain ⟨more, hmore, hnew⟩ := hd.about m
    rw [hmore, habout]
    cases more with
    | nil => rw [List.append_nil]
    | cons n more =>
      obtain ⟨-, r, hr, -, hkey⟩ := hnew n List.mem_cons_self
      refine absurd hkey (reports_settled hs₁ hchild ?_ hr)
      rw [hresponse]
      exact hset.mono (by rw [habout]; exact List.Subset.refl _)
  · rw [ChildIs, hd.tasks]
    exact hchild

/-! ## The review -/

/-- The primary keys of tasks and projects. -/
structure Keys (db : Db) : Prop where
  tasks : (db.tasks.map (·.id)).Nodup
  projects : (db.projects.map (·.id)).Nodup

theorem Keys.task?_of_mem (hk : db.Keys) {t : Task} (ht : t ∈ db.tasks) :
    db.task? t.id = some t :=
  Table.get_eq_some_of_mem hk.tasks ht

/-- What a review has checked about the parent and the child. -/
structure Reviewable (db : Db) (caller childId : String) (request : ReviewRequest)
    (parent child : Task) : Prop where
  parentRow : db.task? request.parentTaskId = some parent
  childRow : db.task? childId = some child
  childOf : child.parentTaskId = some request.parentTaskId
  owner : parent.agentId = some caller
  agent : db.agents.any fun a => a.id = caller && a.projectId.isSome &&
    a.projectId = parent.projectId
  accepts : parent.closed = false ∧ parent.hidden = false ∧ parent.provenance ≠ "native_plan" ∧
    db.projectDeleting parent = false ∧ db.connected request.parentTaskId = false
  visible : child.hidden = false ∧ child.provenance ≠ "native_plan"
  latest : (db.latestAttempt childId).map (·.id) = request.expectedAttemptId
  waits : db.hasActiveResponse childId = true → request.decision = .wait

theorem reviewable_ok (hk : db.Keys) {caller childId : String} {request : ReviewRequest}
    (h : db.reviewable caller childId request = .ok ()) :
    ∃ parent child, db.Reviewable caller childId request parent child := by
  obtain ⟨_, -, h⟩ := bind_ok h
  obtain ⟨project, hproject, h⟩ := bind_ok h
  obtain ⟨_, hp, h⟩ := bind_ok h
  obtain ⟨_, hc, h⟩ := bind_ok h
  obtain ⟨_, hdelegated, h⟩ := bind_ok h
  obtain ⟨_, -, h⟩ := bind_ok h
  obtain ⟨_, hlocal, h⟩ := bind_ok h
  obtain ⟨_, -, h⟩ := bind_ok h
  obtain ⟨_, hlatest, hactive⟩ := bind_ok h
  have hp := ensure_ok hp
  have hc := ensure_ok hc
  have hdelegated := ensure_ok hdelegated
  simp only [List.any_eq_true, Bool.and_eq_true, decide_eq_true_eq, Bool.not_eq_true'] at hp hc
  obtain ⟨parent, hpm, ⟨⟨hpid, hpproject⟩, hphidden⟩, hpplan⟩ := hp
  obtain ⟨child, hcm, ⟨⟨hcid, -⟩, hchidden⟩, hcplan⟩ := hc
  -- the rows that are joined are the rows with these keys
  simp only [delegated, List.any_eq_true, Bool.and_eq_true, decide_eq_true_eq,
    Bool.not_eq_true'] at hdelegated
  obtain ⟨parent', hpm', ⟨⟨hpid', howner⟩, hopen⟩, child', hcm', hcid', hchildOf⟩ := hdelegated
  have hparent := hk.task?_of_mem hpm
  have hchild := hk.task?_of_mem hcm
  have hpp : parent' = parent := by
    have heq := hk.task?_of_mem hpm'
    rw [hpid', ← hpid, hparent] at heq
    exact (Option.some.inj heq).symm
  have hcc : child' = child := by
    have heq := hk.task?_of_mem hcm'
    rw [hcid', ← hcid, hchild] at heq
    exact (Option.some.inj heq).symm
  subst hpp hcc
  -- the Agent's project accepts work
  unfold agentProject at hproject
  split at hproject
  · cases hproject
  rename_i p hagent
  obtain ⟨_, haccepts, hp⟩ := bind_ok hproject
  cases hp
  obtain ⟨agent, hfound, hap⟩ := Option.bind_eq_some_iff.1 hagent
  have hdeleting : db.projectDeleting parent' = false := by
    unfold ensureProjectAcceptsWork at haccepts
    split at haccepts
    · cases haccepts
    · rename_i row hrow
      split at haccepts
      · cases haccepts
      · rename_i hkept
        rw [projectDeleting, List.any_eq_false]
        intro p' hp' hdel
        simp only [Bool.and_eq_true, decide_eq_true_eq, hpproject, Option.some.injEq] at hdel
        have heq : db.project? p'.id = some p' := Table.get_eq_some_of_mem hk.projects hp'
        rw [hdel.1, hrow] at heq
        cases heq
        exact hkept hdel.2
  have hconnected : db.connected request.parentTaskId = false := by
    unfold ensureLocallyScheduled at hlocal
    split at hlocal
    · cases hlocal
    · rename_i hfree
      simpa using hfree
  refine ⟨parent', child', ?_, ?_, by rw [← hpid]; exact hchildOf, howner, ?_,
    ⟨hopen, hphidden, hpplan, hdeleting, hconnected⟩, ⟨hchidden, hcplan⟩, ?_, ?_⟩
  · rw [← hpid]
    exact hparent
  · rw [← hcid]
    exact hchild
  · rw [List.any_eq_true]
    refine ⟨agent, Table.mem_of_get hfound, ?_⟩
    have hid : agent.id = caller := @Table.key_of_get _ _ _ Agent.id _ _ _ hfound
    simp [hid, hap, hpproject]
  · simpa using ensure_ok hlatest
  · intro hact
    simpa [hact] using ensure_ok hactive

theorem retireStale_about (taskId : Option String) (now : ℤ) (m : Matter) :
    (db.retireStale taskId now).about m = db.about m := by
  obtain ⟨-, -, -, -, -, hnotes, -⟩ := retireAll_frame now (db.staleResponses taskId) db
  rw [Db.about, noticesAbout, retireStale, hnotes]
  rfl

theorem retireStale_childIs (taskId : Option String) (now : ℤ) {c : String}
    (h : db.ChildIs c status) : (db.retireStale taskId now).ChildIs c status := by
  obtain ⟨htasks, -⟩ := retireAll_frame now (db.staleResponses taskId) db
  rw [ChildIs, retireStale, htasks]
  exact h

/-- A retirement leaves what a review has checked. -/
theorem Reviewable.retire {caller childId : String} {request : ReviewRequest}
    {parent child : Task} (hs : db.Schema)
    (hr : db.Reviewable caller childId request parent child) (now : ℤ) :
    (db.retireStale none now).task? request.parentTaskId = some parent ∧
      child ∈ (db.retireStale none now).tasks ∧
      (db.retireStale none now).agents = db.agents ∧
      (db.retireStale none now).projectDeleting parent = false ∧
      (db.retireStale none now).connected request.parentTaskId = false ∧
      ((db.retireStale none now).latestAttempt childId).map (·.id) =
        request.expectedAttemptId := by
  obtain ⟨htasks, hprojects, hagents, hwork, -⟩ :=
    retireAll_frame now (db.staleResponses none) db
  refine ⟨?_, ?_, hagents, ?_, ?_, (retireStale_latest hs none now childId).trans hr.latest⟩
  · rw [task?, retireStale, htasks]
    exact hr.parentRow
  · rw [retireStale, htasks]
    exact Table.mem_of_get hr.childRow
  · rw [projectDeleting, retireStale, hprojects]
    exact hr.accepts.2.2.2.1
  · rw [connected, retireStale, hwork]
    exact hr.accepts.2.2.2.2

/-- What a review has checked is enough for a report of the child to be delivered. -/
theorem unreported_of_reviewable {caller childId : String} {request : ReviewRequest}
    {parent child : Task} {o : Outcome} {s : TaskStatus} {d : Db}
    (hr : db.Reviewable caller childId request parent child)
    (hparent : d.task? request.parentTaskId = some parent) (hagents : d.agents = db.agents)
    (hdeleting : d.projectDeleting parent = false)
    (hconnected : d.connected request.parentTaskId = false)
    (hp : o.parentId = request.parentTaskId) (hs : o.outcome = some s)
    (hnew : ∀ n ∈ d.notifications,
      noticeKey n ≠ (request.parentTaskId, caller, o.childId, o.attemptId, s)) :
    d.unreported o = some (o, s, caller) := by
  have hpid : parent.id = request.parentTaskId := Table.key_of_get hr.parentRow
  have hfresh : (d.notifications.any fun n => n.parentTaskId = parent.id &&
      n.parentAgentId = caller && n.childTaskId = o.childId &&
      n.childAttemptId = o.attemptId && n.childStatus = s) = false := by
    rw [List.any_eq_false]
    intro n hn hkey
    simp only [Bool.and_eq_true, decide_eq_true_eq] at hkey
    obtain ⟨⟨⟨⟨h1, h2⟩, h3⟩, h4⟩, h5⟩ := hkey
    exact hnew n hn (by simp only [noticeKey, h1, h2, h3, h4, h5, hpid])
  obtain ⟨hopen, hhidden, hplan, -⟩ := hr.accepts
  unfold unreported
  simp only [hs, hp, hparent, hr.owner, Option.bind_eq_bind, Option.bind_some]
  rw [if_pos]
  simp only [hagents, hr.agent, hopen, hhidden, hdeleting, hpid, hconnected]
  rw [← hpid, hfresh]
  simp [hplan]

/-- Once a child that does not respond was looked at, its outcome is settled. -/
theorem reconcile_settles {caller childId : String} {request : ReviewRequest}
    {parent child : Task} {now : ℤ} (hs : db.Schema)
    (hr : db.Reviewable caller childId request parent child)
    (hidle : (db.retireStale none now).responding childId = false)
    (h : reconcile now db = .ok ((), db')) :
    db'.Settled (request.matter caller childId) child.status
      ((db.retireStale none now).responseOf request.expectedAttemptId) := by
  have hd := reconcile_deliveries hs h
  have hs₁ := (retireStale_calm hs none now).schema hs
  obtain ⟨hparent, hcmem, hagents, hdeleting, hconnected, hlatest⟩ := hr.retire hs now
  generalize db.retireStale none now = d at *
  have hcid : child.id = childId := Table.key_of_get hr.childRow
  obtain ⟨o, hreport, hp, ha⟩ : ∃ o, d.report child = some o ∧
      o.parentId = request.parentTaskId ∧ o.attemptId = request.expectedAttemptId := by
    unfold report
    rw [hr.childOf]
    simp [hr.visible, hcid, hidle, hlatest]
  obtain ⟨hoc, hts, hrs, hout⟩ := report_gives hs₁ hreport
  rw [hcid] at hoc
  rw [ha] at hrs hout
  have hgrow : d.about (request.matter caller childId) ⊆
      db'.about (request.matter caller childId) := by
    obtain ⟨more, hmore, -⟩ := hd.about (request.matter caller childId)
    rw [hmore]
    exact List.subset_append_left _ _
  cases hs' : o.outcome with
  | none => exact Or.inl (hout.symm.trans hs')
  | some s =>
    have hgives := hout.symm.trans hs'
    by_cases hknown : ∃ n ∈ d.notifications,
        noticeKey n = (request.parentTaskId, caller, o.childId, o.attemptId, s)
    · -- the outcome was told already
      obtain ⟨n, hn, hkey⟩ := hknown
      have hstatus : n.childStatus = s := congrArg (fun k : ReportKey => k.2.2.2.2) hkey
      rw [hoc, ha, ← hstatus] at hkey
      exact Or.inr (Or.inl ⟨n, hgrow (mem_about.2 ⟨hn, hkey⟩), by rw [hgives, hstatus]⟩)
    · have hu := unreported_of_reviewable hr hparent hagents hdeleting hconnected hp hs'
        fun n hn hkey => hknown ⟨n, hn, hkey⟩
      cases hrev : d.reviewed o with
      | false =>
        -- the outcome is told now
        have hmem : (o, s, caller) ∈ d.reports := mem_reports.2
          ⟨o, List.mem_filter.2 ⟨List.mem_filterMap.2 ⟨child, hcmem, hreport⟩, by simp [hrev]⟩,
            hu⟩
        have hkey : reportKey (o, s, caller) =
            (request.parentTaskId, caller, childId, request.expectedAttemptId, s) := by
          simp only [reportKey, hp, hoc, ha]
        obtain ⟨n, hn, hstatus⟩ := hd.mem_about (m := request.matter caller childId) hmem hkey
        exact Or.inr (Or.inl ⟨n, hn, by rw [hgives, hstatus]⟩)
      | true =>
        -- the parent has decided on it
        obtain ⟨n, hn, hdecided⟩ := List.any_eq_true.1 hrev
        simp only [Bool.and_eq_true, decide_eq_true_eq, Bool.or_eq_true, hp, hparent, hoc, ha,
          Option.any_some, hr.owner, Option.some.injEq] at hdecided
        obtain ⟨⟨⟨⟨⟨h1, h2⟩, h3⟩, h4⟩, -⟩, h6⟩ := hdecided
        have hn' : n ∈ db'.about (request.matter caller childId) :=
          hgrow (mem_about.2 ⟨hn, by simp [noticeKey, h1, h2, h3, h4, ReviewRequest.matter]⟩)
        rcases h6 with h6 | ⟨⟨⟨hw, hc⟩, hb⟩, hresp⟩
        · exact Or.inr (Or.inl ⟨n, hn', hout.symm.trans h6⟩)
        · exact Or.inr (Or.inr ⟨⟨hts.symm.trans hb, hrs.symm.trans hresp⟩, n, hn', hw, hc⟩)

/-! ## Decisions -/

variable {needsUserInput : String → Bool} {facts : ChildFacts}

theorem acceptResult_ok {childId : String} (h : acceptResult facts childId response db =
    .ok ((), db')) : db'.notifications = db.notifications ∧ db'.attempts = db.attempts ∧
      db'.ChildIs childId .completed ∧ db.Calm db' := by
  obtain ⟨_, -, h⟩ := bind_ok h
  obtain ⟨_, -, h⟩ := bind_ok h
  cases h
  refine ⟨rfl, rfl, ?_, .plan rfl rfl rfl rfl rfl rfl⟩
  intro t ht hid
  obtain ⟨t₀, -, rfl⟩ := List.mem_map.1 ht
  by_cases h₀ : t₀.id = childId
  · simp [h₀]
  · simp [h₀] at hid

theorem keepWaiting_ok {childId : String} {active : Bool} (hc : db.ChildIs childId status)
    (h : keepWaiting childId active db = .ok ((), db')) :
    db'.notifications = db.notifications ∧ db'.attempts = db.attempts ∧
      db'.ChildIs childId (if active then status else .blocked) ∧ db.Calm db' := by
  obtain ⟨⟨_, db₁⟩, h1, h⟩ := bind_ok h
  cases h
  obtain ⟨_, -, h1⟩ := bind_ok h1
  cases h1
  refine ⟨rfl, rfl, ?_, .plan rfl rfl rfl rfl rfl rfl⟩
  intro t ht hid
  obtain ⟨t₀, ht₀, rfl⟩ := List.mem_map.1 ht
  by_cases hw : (decide (t₀.id = childId) && !active) = true
  · have hactive : active = false := by
      simp only [Bool.and_eq_true, Bool.not_eq_true'] at hw
      exact hw.2
    rw [if_pos hw, hactive]
    rfl
  · rw [if_neg hw] at hid ⊢
    have hactive : active = true := by simpa [hid] using hw
    rw [hactive]
    exact hc t₀ ht₀ hid

theorem applyDecision_ok {childId : String} {decision : ReviewDecision} {active : Bool} {now : ℤ}
    (hd : decision ≠ .revise) (hc : db.ChildIs childId status)
    (h : applyDecision needsUserInput facts childId decision response active now db =
      .ok ((), db')) :
    db'.notifications = db.notifications ∧ db'.attempts = db.attempts ∧
      db'.ChildIs childId (decision.statusAfter active status) ∧ db.Calm db' := by
  cases decision with
  | accept => exact acceptResult_ok h
  | revise => exact absurd rfl hd
  | wait => exact keepWaiting_ok hc h

theorem about_recordReview (id : ℕ) (decision : ReviewDecision) (note : String) :
    (db.recordReview id decision note).about m = (db.about m).map fun n =>
      if n.id = id then { n with decision := some decision, reviewNote := some note } else n := by
  rw [Db.about, noticesAbout, recordReview, List.filter_map]
  refine congrArg _ (List.filter_congr fun n _ => ?_)
  rw [Function.comp_apply]
  split <;> rfl

/-- A decision that is recorded leaves an outcome settled. -/
theorem Settled.recordReview {id : ℕ} {decision : ReviewDecision} {note : String}
    (h : db.Settled m status response) (hd : decision = .wait ∨ status ≠ .blocked) :
    (db.recordReview id decision note).Settled m status response := by
  rcases h with h | ⟨n, hn, h⟩ | ⟨hb, n, hn, hw, hc⟩
  · exact Or.inl h
  · refine Or.inr (Or.inl ⟨_, by rw [about_recordReview]; exact List.mem_map_of_mem hn, ?_⟩)
    rw [h]
    split <;> rfl
  · have hwait : decision = .wait := hd.resolve_right fun hne => hne hb.1
    refine Or.inr (Or.inr ⟨hb, _, by rw [about_recordReview]; exact List.mem_map_of_mem hn, ?_⟩)
    split
    · exact ⟨congrArg some hwait, hc⟩
    · exact ⟨hw, hc⟩

theorem reviewNotice_cases {childId : String} {request : ReviewRequest} {active : Bool} {now : ℤ}
    {n : DelegationNotification}
    (h : reviewNotice needsUserInput facts childId request response active now n db =
      .ok ((), db')) :
    (n.decision = some request.decision ∧ n.reviewNote = some request.note ∧ db' = db) ∨
      ¬(n.decision = some request.decision ∧ n.reviewNote = some request.note) ∧
        ∃ db₁, applyDecision needsUserInput facts childId request.decision response active now db =
          .ok ((), db₁) ∧ db' = (db₁.recordReview n.id request.decision request.note).retireStale
            (some request.parentTaskId) now := by
  unfold reviewNotice at h
  split at h
  · rename_i hsame
    cases h
    simp only [Bool.and_eq_true, decide_eq_true_eq] at hsame
    exact Or.inl ⟨hsame.1, hsame.2, rfl⟩
  · rename_i hsame
    simp only [Bool.and_eq_true, decide_eq_true_eq] at hsame
    obtain ⟨_, -, h⟩ := bind_ok h
    obtain ⟨⟨_, db₁⟩, h1, h⟩ := bind_ok h
    cases h
    exact Or.inr ⟨hsame, db₁, h1, rfl⟩

/-- **What a review does.** -/
theorem review_cases {caller childId : String} {request : ReviewRequest} {now : ℤ}
    {output : String} (hk : db.Keys)
    (h : review needsUserInput facts caller childId request now db = .ok (output, db')) :
    ∃ parent child db₁ n, db.Reviewable caller childId request parent child ∧
      reconcile now db = .ok ((), db₁) ∧
      (db₁.about (request.matter caller childId)).getLast? = some n ∧
      reviewNotice needsUserInput facts childId request
        ((db.latestAttempt childId).map (·.status)) (db.hasActiveResponse childId) now n db₁ =
          .ok ((), db') := by
  obtain ⟨_, hr, h⟩ := bind_ok h
  obtain ⟨⟨_, db₁⟩, hreconcile, h⟩ := bind_ok h
  obtain ⟨parent, child, hr⟩ := reviewable_ok hk hr
  dsimp only at h
  split at h
  · cases h
  · rename_i n hn
    obtain ⟨⟨_, db₂⟩, hnotice, h⟩ := bind_ok h
    cases h
    exact ⟨parent, child, db₁, n, hr, hreconcile, hn, hnotice⟩

end Db

/-! ## Runs -/

/-- One transaction after the review. -/
inductive Later where
  | reconcile (now : ℤ)
  /-- Others leave another database behind. -/
  | others (db : Db)

def Later.step (db : Db) : Later → Db
  | reconcile now =>
      match db.reconcile now with
      | .ok (_, db') => db'
      | .error _ => db
  | others db' => db'

/-- Others leave the status of the child, its attempt and the rows of the journal about it as
they are. -/
structure Leaves (m : Matter) (db db' : Db) : Prop where
  schema : db'.Schema
  child : ∀ status, db.ChildIs m.childId status → db'.ChildIs m.childId status
  response : db'.responseOf m.attemptId = db.responseOf m.attemptId
  journal : db'.about m = db.about m

def Later.Elsewhere (m : Matter) (db : Db) : Later → Prop
  | reconcile _ => True
  | others db' => Leaves m db db'

/-- What the journal says of the matter is all that will be said of it. -/
structure Closed (m : Matter) (rows : List DelegationNotification) (status : TaskStatus)
    (response : Option AttemptStatus) (db : Db) : Prop where
  schema : db.Schema
  child : db.ChildIs m.childId status
  responded : db.responseOf m.attemptId = response
  told : db.about m = rows
  settled : db.Settled m status response

theorem step_closed {m : Matter} {rows : List DelegationNotification} {status : TaskStatus}
    {response : Option AttemptStatus} (hq : response ≠ some .queued)
    (ha : m.attemptId.isSome → response.isSome) {db : Db} {later : Later}
    (h : Closed m rows status response db) (hl : later.Elsewhere m db) :
    Closed m rows status response (later.step db) := by
  obtain ⟨hs, hc, rfl, rfl, hset⟩ := h
  cases later with
  | reconcile now =>
    unfold Later.step
    dsimp only
    split
    · rename_i u db' hok
      obtain ⟨habout, hchild, hresponse⟩ := Db.reconcile_settled hs hc hq ha hset hok
      refine ⟨(Db.reconcile_calm now db hs _ _ hok).schema hs, hchild, hresponse, habout, ?_⟩
      exact hset.mono (by rw [habout]; exact List.Subset.refl _)
    · exact ⟨hs, hc, rfl, rfl, hset⟩
  | others db' =>
    have hkeep : (Later.step db (.others db')).about m = db.about m := hl.journal
    refine ⟨hl.schema, hl.child status hc, hl.response, hkeep, ?_⟩
    exact hset.mono (by rw [hkeep]; exact List.Subset.refl _)

/-! ## The result -/

/-- The condition under which a review settles what was reported.  The attempt is not waiting
in the queue again, and either the journal answers for the outcome that the child has after the
review, or the review leaves the outcome as it is and the child does not respond, or a
completed result is kept waiting, or the same review was recorded already. -/
def ReviewRequest.Settles (request : ReviewRequest) (db : Db) (caller childId : String)
    (now : ℤ) : Prop :=
  db.responseOf request.expectedAttemptId ≠ some .queued ∧
    ∃ child ∈ db.task? childId,
      db.Settled (request.matter caller childId)
          (request.decision.statusAfter (db.hasActiveResponse childId) child.status)
          (db.responseOf request.expectedAttemptId) ∨
        (outcomeOf (request.decision.statusAfter (db.hasActiveResponse childId) child.status)
            (db.responseOf request.expectedAttemptId) =
          outcomeOf child.status (db.responseOf request.expectedAttemptId) ∧
          (db.retireStale none now).responding childId = false) ∨
        (request.decision = .wait ∧ db.hasActiveResponse childId = false ∧
          db.responseOf request.expectedAttemptId = some .completed ∧
          outcomeOf child.status (db.responseOf request.expectedAttemptId) = some .completed ∧
          ((∃ n ∈ (db.about (request.matter caller childId)).getLast?,
              n.childStatus = .completed) ∨
            ∀ n ∈ db.about (request.matter caller childId), n.childStatus ≠ .completed)) ∨
        (db.Settled (request.matter caller childId) child.status
            (db.responseOf request.expectedAttemptId) ∧
          ∃ n ∈ (db.about (request.matter caller childId)).getLast?,
            n.decision = some request.decision ∧ n.reviewNote = some request.note)

namespace Db

variable {db db' : Db} {m : Matter} {status : TaskStatus}

/-- A recorded decision leaves the matter closed. -/
theorem closed_of_recorded {request : ReviewRequest} {n : ℕ} {now : ℤ}
    {response : Option AttemptStatus} (hs : db.Schema) (hc : db.ChildIs m.childId status)
    (hr : db.responseOf m.attemptId = response) (hq : response ≠ some .queued)
    (hset : (db.recordReview n request.decision request.note).Settled m status response) :
    Closed m (((db.recordReview n request.decision request.note).retireStale
        (some request.parentTaskId) now).about m) status response
      ((db.recordReview n request.decision request.note).retireStale
        (some request.parentTaskId) now) := by
  have hcalm : db.Calm (db.recordReview n request.decision request.note) :=
    .plan rfl rfl rfl rfl rfl rfl
  have hs₁ := hcalm.schema hs
  have hr₁ : (db.recordReview n request.decision request.note).responseOf m.attemptId =
      response := hr
  refine ⟨(retireStale_calm hs₁ _ now).schema hs₁, retireStale_childIs _ now hc, ?_, rfl, ?_⟩
  · rw [retireStale_responseOf hs₁ _ now (by rw [hr₁]; exact hq)]
    exact hr₁
  · exact hset.mono (by rw [retireStale_about]; exact List.Subset.refl _)

theorem Settled.of_outcome {response : Option AttemptStatus} {before after : TaskStatus}
    (h : db.Settled m before response)
    (ho : outcomeOf after response = outcomeOf before response)
    (hb : before = .blocked → response = some .completed → after = .blocked) :
    db.Settled m after response := by
  rcases h with h | ⟨n, hn, h⟩ | ⟨⟨hblocked, hcompleted⟩, n, hn, h⟩
  · exact Or.inl (ho.trans h)
  · exact Or.inr (Or.inl ⟨n, hn, ho.trans h⟩)
  · exact Or.inr (Or.inr ⟨⟨hb hblocked hcompleted, hcompleted⟩, n, hn, h⟩)

theorem hasActiveResponse_of_responding {c : String} (h : db.responding c = true) :
    db.hasActiveResponse c = true := by
  obtain ⟨a, ha, hc⟩ := List.any_eq_true.1 h
  simp only [Bool.and_eq_true, decide_eq_true_eq, Bool.or_eq_true] at hc
  rw [hasActiveResponse, Bool.or_eq_true]
  refine Or.inr (List.any_eq_true.2 ⟨a, ha, ?_⟩)
  rcases hc with ⟨hc, ((hstatus | hstatus) | hstatus) | hstatus⟩ <;>
    simp [hc, hstatus, AttemptStatus.terminal]

theorem Reviewable.response_isSome {caller childId : String} {request : ReviewRequest}
    {parent child : Task} (hs : db.Schema)
    (hr : db.Reviewable caller childId request parent child)
    (h : request.expectedAttemptId.isSome) :
    (db.responseOf request.expectedAttemptId).isSome := by
  rw [← hr.latest] at h ⊢
  cases ha : db.latestAttempt childId with
  | none => simp [ha] at h
  | some a =>
    have hmem := (List.mem_filter.1 (Table.mem_of_latest ha)).1
    simp [responseOf, hs.attempt?_of_mem hmem]

/-- A completed result that is kept waiting: the row that is decided on tells of it. -/
theorem last_completed {rows : List DelegationNotification} {more : List DelegationNotification}
    {n : DelegationNotification} (hn : (rows ++ more).getLast? = some n)
    (hmore : ∀ k ∈ more, k.childStatus = .completed)
    (hrows : (∃ k ∈ rows.getLast?, k.childStatus = .completed) ∨ more ≠ []) :
    n.childStatus = .completed := by
  rw [List.getLast?_append] at hn
  cases hl : more.getLast? with
  | some k =>
    rw [hl] at hn
    cases hn
    exact hmore _ (List.mem_of_getLast? hl)
  | none =>
    rw [hl] at hn
    rcases hrows with ⟨k, hk, hc⟩ | hne
    · rw [Option.none_or] at hn
      rw [Option.mem_def.1 hk] at hn
      cases hn
      exact hc
    · exact absurd (List.getLast?_eq_none_iff.1 hl) hne

/-- A review that meets the condition leaves the matter closed. -/
theorem review_closed {needsUserInput : String → Bool} {facts : ChildFacts}
    {caller childId : String} {request : ReviewRequest} {now : ℤ} {output : String}
    (hs : db.Schema) (hk : db.Keys) (hd : request.decision ≠ .revise)
    (hw : request.Settles db caller childId now)
    (h : review needsUserInput facts caller childId request now db = .ok (output, db')) :
    ∃ status response, response ≠ some .queued ∧
      (request.expectedAttemptId.isSome → response.isSome) ∧
      Closed (request.matter caller childId) (db'.about (request.matter caller childId)) status
        response db' := by
  obtain ⟨parent, child, db₁, n, hr, hrec, hn, hnotice⟩ := review_cases hk h
  obtain ⟨hq, child', hchild', hwhen⟩ := hw
  obtain rfl : child' = child := Option.some.inj ((Option.mem_def.1 hchild').symm.trans hr.childRow)
  have ha := hr.response_isSome hs
  have hdel := reconcile_deliveries hs hrec
  have hs₁ := (reconcile_calm now db hs _ _ hrec).schema hs
  have hretired := retireStale_responseOf hs none now hq
  have hresp : db₁.responseOf request.expectedAttemptId = db.responseOf request.expectedAttemptId :=
    (hdel.responseOf (by rw [hretired]; exact ha)).trans hretired
  have hc : db.ChildIs childId child'.status := by
    intro t ht hid
    have heq := hk.task?_of_mem ht
    rw [hid, hr.childRow] at heq
    rw [Option.some.inj heq]
  have hcr := retireStale_childIs none now hc
  have hc₁ : db₁.ChildIs childId child'.status := by
    rw [ChildIs, hdel.tasks]
    exact hcr
  obtain ⟨more, hmore, hnew⟩ := hdel.about (request.matter caller childId)
  rw [retireStale_about] at hmore
  have hgrow : db.about (request.matter caller childId) ⊆
      db₁.about (request.matter caller childId) := by
    rw [hmore]
    exact List.subset_append_left _ _
  -- the outcome before the decision is settled, unless the child responds
  have hidle (hno : (db.retireStale none now).responding childId = false) :
      db₁.Settled (request.matter caller childId) child'.status
        (db.responseOf request.expectedAttemptId) := by
    have hset := reconcile_settles hs hr hno hrec
    rw [hretired] at hset
    exact hset
  have hsame (hset : db.Settled (request.matter caller childId) child'.status
      (db.responseOf request.expectedAttemptId)) :
      db₁.about (request.matter caller childId) = db.about (request.matter caller childId) :=
    (reconcile_settled (m := request.matter caller childId) hs hc hq ha hset hrec).1
  rcases reviewNotice_cases hnotice with ⟨-, -, rfl⟩ | ⟨hfresh, db₂, hdecide, rfl⟩
  · -- the same review was recorded already: nothing changes
    refine ⟨child'.status, _, hq, ha, hs₁, hc₁, hresp, rfl, ?_⟩
    cases hno : (db.retireStale none now).responding childId with
    | false => exact hidle hno
    | true =>
      have hactive := hasActiveResponse_of_responding (retireStale_responding hs none now hno)
      have hwait := hr.waits hactive
      simp only [hwait, hactive, ReviewDecision.statusAfter, if_true, hno] at hwhen
      rcases hwhen with hset | ⟨-, hfalse⟩ | ⟨-, hfalse, -⟩ | ⟨hset, -⟩
      · exact hset.mono hgrow
      · cases hfalse
      · cases hfalse
      · exact hset.mono hgrow
  · obtain ⟨hnotes, hattempts, hchild, hcalm⟩ := applyDecision_ok hd hc₁ hdecide
    have habout : db₂.about (request.matter caller childId) =
        db₁.about (request.matter caller childId) := by
      rw [Db.about, noticesAbout, hnotes]
      rfl
    have hresp₂ : db₂.responseOf request.expectedAttemptId =
        db.responseOf request.expectedAttemptId := by
      rw [← hresp]
      exact responseOf_congr hattempts _
    refine ⟨_, _, hq, ha, closed_of_recorded (hcalm.schema hs₁) hchild hresp₂ hq ?_⟩
    have hkeep (hset : db₁.Settled (request.matter caller childId)
        (request.decision.statusAfter (db.hasActiveResponse childId) child'.status)
        (db.responseOf request.expectedAttemptId)) :
        (db₂.recordReview n.id request.decision request.note).Settled
          (request.matter caller childId)
          (request.decision.statusAfter (db.hasActiveResponse childId) child'.status)
          (db.responseOf request.expectedAttemptId) := by
      refine (hset.mono (by rw [habout]; exact List.Subset.refl _)).recordReview ?_
      cases hdec : request.decision with
      | accept => exact Or.inr (by simp [ReviewDecision.statusAfter])
      | revise => exact absurd hdec hd
      | wait => exact Or.inl rfl
    rcases hwhen with hset | ⟨ho, hno⟩ | ⟨hwait, hinactive, hcompleted, hout, hrows⟩ |
      ⟨hset, k, hk, hdec, hnote⟩
    · exact hkeep (hset.mono hgrow)
    · refine hkeep ((hidle hno).of_outcome ho fun hblocked hcompleted => ?_)
      cases hdec : request.decision with
      | accept =>
        rw [hdec, hblocked, hcompleted] at ho
        cases ho
      | revise => exact absurd hdec hd
      | wait => simp [ReviewDecision.statusAfter, hblocked]
    · -- a completed result is kept waiting: the row that is decided on tells of it
      have hno : (db.retireStale none now).responding childId = false := by
        by_contra hyes
        have hactive := hasActiveResponse_of_responding
          (retireStale_responding hs none now (eq_true_of_ne_false hyes))
        rw [hinactive] at hactive
        cases hactive
      have hmorec : ∀ k ∈ more, k.childStatus = .completed := by
        intro k hk
        obtain ⟨-, r, hrep, hrk, hkey⟩ := hnew k hk
        have hgives := (report_outcome (m := request.matter caller childId)
          ((retireStale_calm hs none now).schema hs) hcr hrep hkey).1
        rw [← hrk]
        exact (Option.some.inj ((hretired ▸ hgives).symm.trans hout))
      have hrows' : (∃ k ∈ (db.about (request.matter caller childId)).getLast?,
          k.childStatus = .completed) ∨ more ≠ [] := by
        refine hrows.imp_right fun hnone hnil => ?_
        rw [hnil, List.append_nil] at hmore
        rcases hidle hno with hset | ⟨k, hk, hset⟩ | ⟨⟨hblocked, -⟩, -⟩
        · rw [hset] at hout
          cases hout
        · rw [hmore] at hk
          exact hnone k hk (Option.some.inj (hset.symm.trans hout))
        · rw [hblocked, hcompleted] at hout
          cases hout
      have hlast := last_completed (hmore ▸ hn) hmorec hrows'
      have hmem := List.mem_of_getLast? hn
      rw [← habout] at hmem
      refine Or.inr (Or.inr ⟨⟨?_, hcompleted⟩,
        { n with decision := some request.decision, reviewNote := some request.note }, ?_⟩)
      · simp [hwait, hinactive, ReviewDecision.statusAfter]
      · refine ⟨?_, congrArg some hwait, hlast⟩
        rw [about_recordReview]
        exact List.mem_map.2 ⟨n, hmem, by simp⟩
    · -- the last row has the same review already
      rw [hsame hset, Option.mem_def.1 hk] at hn
      cases hn
      exact absurd ⟨hdec, hnote⟩ hfresh

end Db

instance (request : ReviewRequest) (db : Db) (caller childId : String) (now : ℤ) :
    Decidable (request.Settles db caller childId now) :=
  inferInstanceAs (Decidable (_ ∧ ∃ child ∈ db.task? childId, _ ∨ _ ∨ _ ∨ _))

/-- **A parent's review settles the reported result.**  After a review that accepts a child or
keeps it waiting, and that meets the condition, no reconciliation adds a notification to the
same parent and owner about the child and its attempt, as long as others leave the child, its
attempt and the rows of the journal about it as they are. -/
theorem review_settles {needsUserInput : String → Bool} {facts : ChildFacts}
    {caller childId : String} {request : ReviewRequest} {now : ℤ} {output : String} {db db' : Db}
    (hs : db.Schema) (hk : db.Keys) (hd : request.decision ≠ .revise)
    (h : db.review needsUserInput facts caller childId request now = .ok (output, db'))
    (hw : request.Settles db caller childId now) (later : List Later)
    (hl : Along Later.step (fun db l => l.Elsewhere (request.matter caller childId) db) db'
      later) :
    (runOps Later.step db' later).about (request.matter caller childId) =
      db'.about (request.matter caller childId) := by
  obtain ⟨status, response, hq, ha, hclosed⟩ := Db.review_closed hs hk hd hw h
  have hend := hl.invariant
    (I := Closed (request.matter caller childId) (db'.about (request.matter caller childId)) status
      response) (fun _ _ hc hop => step_closed hq ha hc hop) hclosed
  exact hend.told

/-- A parent task and a delegated child. -/
def delegation : Db where
  projects := [{ id := "home" }]
  agents := [{ id := "atlas", projectId := some "home" }, { id := "rhea", projectId := some "home" }]
  tasks :=
    [{ id := "plan", agentId := some "atlas", projectId := some "home" },
      { id := "report", agentId := some "rhea", projectId := some "home",
        parentTaskId := some "plan" }]

theorem schema_delegation : delegation.Schema := by
  constructor <;> simp [delegation]

/-- The child has responded and was left in a status. -/
def responded (status : TaskStatus) : List Op :=
  [.enqueue "report" "rhea" 1000, .claim none 2000,
    .transition 0 .completed (some "done") none 3000, .complete 1 "done" 3000,
    .replan { delegation with
      tasks := delegation.tasks.map fun t =>
        if t.id = "report" then { t with status := status } else t }]

/-- The parent reviews the response. -/
def reviewOf (status : TaskStatus) (decision : ReviewDecision) : Except Error (String × Db) :=
  (runOps (step fun _ => false) delegation (responded status)).review (fun _ => false) {} "atlas"
    "report" ⟨"plan", some 0, 0, decision, some "see the notes"⟩ 4000

theorem accepted_report_settles :
    match reviewOf .inProgress .accept with
    | .ok (_, db) => (runOps Later.step db [.reconcile 5000, .reconcile 6000]).about
        ⟨"plan", "atlas", "report", some 0⟩ = db.about ⟨"plan", "atlas", "report", some 0⟩
    | .error _ => False := by
  have hok : (reviewOf .inProgress .accept).toBool = true := by decide +kernel
  cases h : reviewOf .inProgress .accept with
  | error e =>
      rw [h] at hok
      cases hok
  | ok r =>
      have hs := run_schema (fun _ => false) schema_delegation (responded .inProgress)
      exact review_settles hs ⟨by decide +kernel, by decide +kernel⟩ (by decide) h
        (by decide +kernel) [.reconcile 5000, .reconcile 6000] ⟨trivial, trivial, trivial⟩

/-- How often the parent was told right after the review, and after a reconciliation. -/
def tellings (status : TaskStatus) (decision : ReviewDecision) : Option (ℕ × ℕ) :=
  match reviewOf status decision with
  | .ok (_, db) =>
      some ((db.about ⟨"plan", "atlas", "report", some 0⟩).length,
        ((Later.step db (.reconcile 5000)).about ⟨"plan", "atlas", "report", some 0⟩).length)
  | .error _ => none

theorem settled_report_told_again : tellings .blocked .accept = some (1, 2) ∧
    tellings .waitingForInput .wait = some (1, 2) := by
  decide +kernel

end XpressClaw.Tasks
