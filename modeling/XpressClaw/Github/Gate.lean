import XpressClaw.Github.Review

/-!
# The gate stays closed

A row of a pull request that waits or needs attention keeps its task from being completed.  What
opens the gate is listed in `Released`; three writes open it besides, and `Fit` excludes them.

* `Guarded` — the task is not finished, and the row of the pull request is active.
* `guarded_step` — an action that is fit keeps that, or releases the row.
* `kept_step` — the row of a publication goes with the command that began it.
* `gate_fail_closed` — both for every run.
-/

namespace XpressClaw.Github

open Lib Tasks

variable {db db' : Db} {k : PullKey} {id taskId : String} {s s' : State}

/-! ## What is guarded -/

/-- The task is there and not finished. -/
def Open (id : String) (db : Db) : Prop := ∃ t, db.task? id = some t ∧ finished t.status = false

def Cancelled (id : String) (db : Db) : Prop := ∃ t, db.task? id = some t ∧ t.status = .cancelled

/-- The row of the key is active. -/
def Armed (k : PullKey) (db : Db) : Prop := ∃ r ∈ db.pulls, r.key = k ∧ r.status.active = true

/-- The row of the key is approved or merged. -/
def Satisfied (k : PullKey) (db : Db) : Prop :=
  ∃ r ∈ db.pulls, r.key = k ∧ r.status.satisfied = true

structure Guarded (k : PullKey) (db : Db) : Prop where
  isOpen : Open k.taskId db
  armed : Armed k db

/-- The action is that of the command which began the publication of a row. -/
def Action.owns (r : TaskPullRequest) : Action → Bool
  | .deleteRegistration c => c.matches r
  | .register taskId agentId owner repo _ _ (some c) =>
      Registration.matches ⟨taskId, agentId, owner, repo, c.1, c.2⟩ r
  | _ => false

/-- The row became approved or merged, the task was cancelled or was completed from outside, or
the command that began the publication registered or cancelled it. -/
def Released (k : PullKey) (s : State) (a : Action) : Prop :=
  Satisfied k (s.step a).db ∨ Cancelled k.taskId (s.step a).db ∨
    (¬ Open k.taskId (s.step a).db ∧ ∃ agentId, a = .updateStatus k.taskId .completed agentId) ∨
    (¬ Armed k (s.step a).db ∧ ∃ r ∈ s.db.pulls, r.key = k ∧ a.owns r = true)

/-- None of the writes that open the gate by mistake: `begin_registration` that finds its row as a
cancellation of the task left it, a pull request with number 0 over the row of a publication, and
`cancel` of a row that has been registered again. -/
def Fit (s : State) : Action → Prop
  | .beginRegistration taskId _ owner repo _ key =>
      ∀ r ∈ s.db.pulls, r.key = ⟨taskId, owner, repo, 0⟩ → r.registrationKey = some key →
        r.status ≠ .cancelled
  | .register taskId _ owner repo number _ _ =>
      number = 0 → ∀ r ∈ s.db.pulls, r.key ≠ ⟨taskId, owner, repo, number⟩
  | .cancel item =>
      (∀ t, s.db.task? item.key.taskId = some t → finished t.status = true) ∨
        ∀ r ∈ s.db.pulls, r.key = item.key → r.status.active = false
  | _ => True

/-! ## Statements -/

theorem active_not_satisfied {p : PullStatus} (h : p.active = true) :
    p.satisfied = false ∧ p ≠ .cancelled := by
  cases p <;> simp_all [PullStatus.active, PullStatus.satisfied]

theorem task?_updateTasks {w : Task → Bool} {f : Task → Task} (hf : ∀ t, (f t).id = t.id) :
    (db.updateTasks w f).task? id = (db.task? id).map fun t => if w t then f t else t := by
  refine Table.get_map fun t => ?_
  split
  · exact hf t
  · rfl

theorem Open.updateTasks (h : Open id db) {w : Task → Bool} {f : Task → Task}
    (hf : ∀ t, (f t).id = t.id)
    (hopen : ∀ t, t.id = id → finished t.status = false → w t = true →
      finished (f t).status = false) : Open id (db.updateTasks w f) := by
  obtain ⟨t, ht, hstatus⟩ := h
  refine ⟨_, (task?_updateTasks hf).trans (congrArg _ ht), ?_⟩
  show finished (if w t then f t else t).status = false
  by_cases hw : w t = true
  · rw [if_pos hw]
    exact hopen t (Table.key_of_get ht) hstatus hw
  · rw [if_neg hw]
    exact hstatus

theorem Open.setStatus (h : Open id db) {status : TaskStatus}
    (hstatus : taskId = id → finished status = false) : Open id (db.setStatus taskId status) := by
  refine h.updateTasks (fun _ => rfl) fun t hid _ hw => ?_
  have htask : t.id = taskId := by simpa using hw
  exact hstatus (htask.symm.trans hid)

theorem Armed.updatePulls (h : Armed k db) {w : TaskPullRequest → Bool}
    {f : TaskPullRequest → TaskPullRequest} (hf : ∀ r, (f r).key = r.key)
    (hactive : ∀ r, r.key = k → r.status.active = true → w r = true →
      (f r).status.active = true) : Armed k (db.updatePulls w f) := by
  obtain ⟨r, hr, hk, hstatus⟩ := h
  refine ⟨if w r then f r else r, List.mem_map_of_mem hr, ?_⟩
  by_cases hw : w r = true
  · rw [if_pos hw]
    exact ⟨(hf r).trans hk, hactive r hk hstatus hw⟩
  · rw [if_neg hw]
    exact ⟨hk, hstatus⟩

theorem Armed.gateSatisfied (h : Armed k db) : db.gateSatisfied k.taskId = false := by
  obtain ⟨r, hr, rfl, hstatus⟩ := h
  obtain ⟨hnot, hcancelled⟩ := active_not_satisfied hstatus
  rw [Db.gateSatisfied, List.all_eq_false]
  exact ⟨r, hr, by simp [hnot, hcancelled]⟩

theorem task?_setStatuses (w : Task → Bool) (status : TaskStatus) :
    (db.updateTasks w fun t => { t with status := status }).task? id =
      (db.task? id).map fun t => if w t then { t with status := status } else t :=
  task?_updateTasks fun _ => rfl

theorem open_deferReportedSubtasks (h : Open id db) (taskId : String) :
    Open id (db.deferReportedSubtasks taskId) ∨ Cancelled id (db.deferReportedSubtasks taskId) := by
  obtain ⟨t, ht, hstatus⟩ := h
  unfold Open Cancelled Db.deferReportedSubtasks
  simp only [task?_setStatuses, ht, Option.map_some, Option.some.injEq, exists_eq_left']
  by_cases hplan : (t.parentTaskId = some taskId && t.nativePlan && !finished t.status) = true
  · right
    rw [if_pos hplan]
  · left
    rw [if_neg hplan]
    exact hstatus

theorem open_complete (h : Open id db ∨ Cancelled id db) (hne : id ≠ taskId) :
    Open id (db.complete taskId) ∨ Cancelled id (db.complete taskId) := by
  have hsame : (db.complete taskId).task? id = db.task? id := by
    unfold Db.complete
    rw [task?_setStatuses]
    cases ht : db.task? id with
    | none => rfl
    | some t => simp [Table.key_of_get ht, hne]
  unfold Open Cancelled
  rw [hsame]
  exact h

/-! ## Transactions -/

theorem guarded_updateStatus (h : Guarded k db) {status : TaskStatus} {agentId : Option String}
    (hstatus : taskId = k.taskId → finished status = false) :
    Guarded k (db.updateStatus taskId status agentId) := by
  have hset : Open k.taskId (db.setStatus taskId status) := h.isOpen.setStatus hstatus
  have hreleased : Guarded k (if status = .cancelled then
      (db.setStatus taskId status).releasePulls taskId else db.setStatus taskId status) := by
    split
    · rename_i hcancelled
      refine ⟨hset, h.armed.updatePulls (fun _ => rfl) fun r hk _ hw => ?_⟩
      rw [hcancelled] at hstatus
      have htask : r.key.taskId = taskId := by
        simp only [Bool.and_eq_true, decide_eq_true_eq] at hw
        exact hw.1
      rw [hk] at htask
      exact absurd (hstatus htask.symm) (by decide)
    · exact ⟨hset, h.armed⟩
  unfold Db.updateStatus
  split
  · exact h
  · split
    · exact h
    · cases agentId with
      | none => exact hreleased
      | some a =>
        dsimp only
        split
        · refine ⟨?_, hreleased.armed.updatePulls (fun _ => rfl) fun _ _ hactive _ => hactive⟩
          exact hreleased.isOpen.updateTasks (fun _ => rfl) fun _ _ hopen _ => hopen
        · exact hreleased

theorem cancelled_setStatus (h : Open id db) : Cancelled id (db.setStatus id .cancelled) := by
  obtain ⟨t, ht, -⟩ := h
  refine ⟨{ t with status := .cancelled }, ?_, rfl⟩
  refine (task?_setStatuses _ _).trans ?_
  rw [ht, Option.map_some, if_pos (by simp [Table.key_of_get ht])]

theorem cancelled_updateStatus (h : Open id db) {agentId : Option String} :
    Cancelled id (db.updateStatus id .cancelled agentId) := by
  have hset := cancelled_setStatus h
  obtain ⟨t, ht, -⟩ := h
  unfold Db.updateStatus
  rw [ht]
  cases agentId with
  | none => exact hset
  | some a => exact hset

theorem armed_updateStatus_completed (h : Armed k db) {agentId : Option String} :
    Armed k (db.updateStatus taskId .completed agentId) := by
  unfold Db.updateStatus
  split
  · exact h
  · split
    · exact h
    · cases agentId with
      | none => exact h
      | some a => exact h

theorem guarded_completeIfReady (h : Guarded k db) {reviewRequired : Bool} :
    Guarded k (db.completeIfReady taskId reviewRequired) ∨
      Cancelled k.taskId (db.completeIfReady taskId reviewRequired) := by
  unfold Db.completeIfReady
  split
  · exact Or.inl h
  · split
    · exact Or.inl h
    · split
      · exact Or.inl h
      · rename_i hready
        have hne : k.taskId ≠ taskId := by
          rintro rfl
          rw [h.armed.gateSatisfied] at hready
          exact hready rfl
        rcases open_complete (open_deferReportedSubtasks h.isOpen taskId) hne with
          hopen | hcancelled
        · exact Or.inl ⟨hopen, h.armed⟩
        · exact Or.inr hcancelled

theorem guarded_finalizeAttempt (h : Guarded k db) {agentId : String} {f : Finalization}
    {reviewRequired : Bool} :
    Guarded k (db.finalizeAttempt taskId agentId f reviewRequired) ∨
      Cancelled k.taskId (db.finalizeAttempt taskId agentId f reviewRequired) := by
  have hprogress : Guarded k (db.updateStatus taskId .inProgress (some agentId)) :=
    guarded_updateStatus h fun _ => rfl
  have hwaiting : Guarded k (db.updateStatus taskId .waitingForInput (some agentId)) :=
    guarded_updateStatus h fun _ => rfl
  unfold Db.finalizeAttempt
  split
  · exact Or.inl hprogress
  · split
    · exact Or.inl hwaiting
    · split
      · exact Or.inl hprogress
      · split
        · exact Or.inl hwaiting
        · split
          · exact guarded_completeIfReady h
          · exact Or.inl hprogress

theorem guarded_cancelTask (h : Guarded k db) :
    Guarded k (db.cancelTask taskId) ∨ Cancelled k.taskId (db.cancelTask taskId) := by
  unfold Db.cancelTask
  split
  · exact Or.inl h
  · split
    · exact Or.inl h
    · by_cases hid : taskId = k.taskId
      · right
        rw [hid]
        exact cancelled_setStatus h.isOpen
      · left
        refine ⟨?_, ?_⟩
        · have hset : Open k.taskId (db.setStatus taskId .cancelled) :=
            h.isOpen.setStatus fun he => absurd he hid
          exact hset
        · have hreleased : Armed k ((db.setStatus taskId .cancelled).releasePulls taskId) := by
            refine h.armed.updatePulls (fun _ => rfl) fun r hk _ hw => ?_
            simp only [Bool.and_eq_true, decide_eq_true_eq] at hw
            exact absurd (hw.1.symm.trans (congrArg PullKey.taskId hk)) hid
          exact hreleased

theorem guarded_cancelFinished (h : Guarded k db) {item : TaskPullRequest} {t : Task}
    (ht : db.task? item.key.taskId = some t) (hfinished : finished t.status = true) :
    Guarded k (db.cancelFinished item) := by
  refine ⟨h.isOpen, h.armed.updatePulls (fun _ => rfl) fun r hk _ hw => ?_⟩
  simp only [Bool.and_eq_true, decide_eq_true_eq] at hw
  obtain ⟨t', ht', hopen⟩ := h.isOpen
  rw [← hk, hw.1, ht] at ht'
  cases ht'
  rw [hfinished] at hopen
  cases hopen

theorem guarded_requireUserAttention (h : Guarded k db) {item : TaskPullRequest} :
    Guarded k (db.requireUserAttention item) := by
  unfold Db.requireUserAttention
  split
  · exact h
  · rename_i t ht
    split
    · rename_i hfinished
      exact guarded_cancelFinished h ht hfinished
    · split
      · exact h
      · split
        · exact h
        · split
          · refine ⟨?_, h.armed.updatePulls (fun _ => rfl) fun _ _ _ _ => rfl⟩
            have hset : Open k.taskId (db.setStatus item.key.taskId .waitingForInput) :=
              h.isOpen.setStatus fun _ => rfl
            exact hset
          · exact h

theorem guarded_synchronizeAssignment (h : Guarded k db) {item : TaskPullRequest} :
    Guarded k (db.synchronizeAssignment item) := by
  unfold Db.synchronizeAssignment
  split
  · exact h
  · split
    · exact h
    · exact ⟨h.isOpen, h.armed.updatePulls (fun _ => rfl) fun _ _ hactive _ => hactive⟩

/-- The outcome of a review satisfies the row, or leaves the gate of its task closed. -/
theorem guarded_finalizeIfSatisfied (h : Guarded k db) {item : TaskPullRequest}
    {outcome : ReviewOutcome} :
    Guarded k (db.finalizeIfSatisfied item outcome) ∨
      Satisfied k (db.finalizeIfSatisfied item outcome) ∨
      Cancelled k.taskId (db.finalizeIfSatisfied item outcome) := by
  unfold Db.finalizeIfSatisfied
  split
  · exact Or.inl h
  · rename_i t ht
    split
    · rename_i hfinished
      exact Or.inl (guarded_cancelFinished h ht hfinished)
    · let db₁ : Db := db.updatePulls (fun r => r.key = item.key && r.status = .waiting)
        fun r => { r with status := outcome.status }
      have hrow : Armed k db₁ ∨ Satisfied k db₁ := by
        obtain ⟨r, hr, hk, hactive⟩ := h.armed
        by_cases hw : (r.key = item.key && r.status = .waiting) = true
        · refine Or.inr ⟨{ r with status := outcome.status }, ?_, hk, ?_⟩
          · refine List.mem_map.2 ⟨r, hr, ?_⟩
            rw [if_pos hw]
          · cases outcome <;> rfl
        · refine Or.inl ⟨r, ?_, hk, hactive⟩
          refine List.mem_map.2 ⟨r, hr, ?_⟩
          rw [if_neg hw]
      rcases hrow with harmed | hsatisfied
      · have hguarded : Guarded k db₁ := ⟨h.isOpen, harmed⟩
        dsimp only
        split
        · exact Or.inl hguarded
        · rename_i hgate
          have hne : k.taskId ≠ item.key.taskId := by
            intro he
            rw [← he] at hgate
            have hclosed : db₁.gateSatisfied k.taskId = false := harmed.gateSatisfied
            simp only [Bool.or_eq_true, not_or] at hgate
            exact hgate.2 (by rw [hclosed]; rfl)
          have hdeferred := open_deferReportedSubtasks hguarded.isOpen item.key.taskId
          split
          · rcases hdeferred with hopen | hcancelled
            · exact Or.inl ⟨hopen, harmed⟩
            · exact Or.inr (Or.inr hcancelled)
          · rcases open_complete hdeferred hne with hopen | hcancelled
            · exact Or.inl ⟨hopen, harmed⟩
            · exact Or.inr (Or.inr hcancelled)
      · right
        left
        dsimp only
        split
        · exact hsatisfied
        · split
          · exact hsatisfied
          · exact hsatisfied

/-! ## Registrations -/

theorem activateRegistrationTask_ok {agentId : String}
    (h : db.activateRegistrationTask taskId agentId = .ok db') :
    db' = db.setStatus taskId .inProgress ∧ ∃ t, db.task? taskId = some t := by
  obtain ⟨_, hvalid, h⟩ := bind_ok h
  cases h
  refine ⟨rfl, ?_⟩
  unfold Db.validateRegistrationTask at hvalid
  split at hvalid
  · cases hvalid
  · exact ⟨_, ‹_›⟩

theorem pulls_activateRegistrationTask {agentId : String}
    (h : db.activateRegistrationTask taskId agentId = .ok db') : db'.pulls = db.pulls := by
  obtain ⟨rfl, -⟩ := activateRegistrationTask_ok h
  rfl

theorem open_activated {agentId : String}
    (h : db.activateRegistrationTask taskId agentId = .ok db') : Open taskId db' := by
  obtain ⟨rfl, t, ht⟩ := activateRegistrationTask_ok h
  refine ⟨{ t with status := .inProgress }, ?_, rfl⟩
  refine (task?_setStatuses _ _).trans ?_
  rw [ht, Option.map_some, if_pos (by simp [Table.key_of_get ht])]

theorem Guarded.activate {agentId : String} (h : Guarded k db)
    (hactivate : db.activateRegistrationTask taskId agentId = .ok db') : Guarded k db' := by
  obtain ⟨rfl, -⟩ := activateRegistrationTask_ok hactivate
  exact ⟨h.isOpen.setStatus fun _ => rfl, h.armed⟩

/-- A publication begins with a new row, or with the row that is there. -/
theorem beginRegistration_ok {agentId owner repo registrationId registrationKey : String}
    {r : String × Bool}
    (h : db.beginRegistration taskId agentId owner repo registrationId registrationKey =
      .ok (r, db')) :
    ∃ db₁ more, db.activateRegistrationTask taskId agentId = .ok db₁ ∧
      db' = { db₁ with pulls := db.pulls ++ more } ∧
      ∃ p ∈ db.pulls ++ more, p.key = ⟨taskId, owner, repo, 0⟩ ∧
        p.registrationKey = some registrationKey ∧ (p ∉ db.pulls → p.status = .attention) := by
  obtain ⟨db₁, hactivate, h⟩ := bind_ok h
  have hpulls := pulls_activateRegistrationTask hactivate
  dsimp only at h
  split at h
  · rename_i p hp
    split at h
    · cases h
    · rename_i hkey
      cases h
      refine ⟨_, [], hactivate, ?_, p, ?_, Table.key_of_get hp, not_not.1 hkey, fun hnot => ?_⟩
      · rw [List.append_nil, ← hpulls]
      · rw [List.append_nil, ← hpulls]
        exact Table.mem_of_get hp
      · rw [← hpulls] at hnot
        exact absurd (Table.mem_of_get hp) hnot
  · cases h
    let row : TaskPullRequest :=
      { key := ⟨taskId, owner, repo, 0⟩
        agentId := agentId
        url := registrationId
        status := .attention
        registrationKey := some registrationKey }
    refine ⟨db₁, [row], hactivate, ?_, row, List.mem_append_right _ (List.mem_singleton_self _),
      rfl, rfl, fun _ => rfl⟩
    rw [hpulls]

/-- The rows of other publications stay. -/
theorem mem_dropRegistration {c : Option Registration} {error : Error}
    (h : db.dropRegistration c error = .ok db') {r : TaskPullRequest} (hr : r ∈ db.pulls) :
    r ∈ db'.pulls ∨ ∃ reg, c = some reg ∧ reg.matches r = true := by
  unfold Db.dropRegistration at h
  split at h
  · cases h
    exact Or.inl hr
  · rename_i reg
    split at h
    · cases h
      by_cases hmatch : reg.matches r = true
      · exact Or.inr ⟨reg, rfl, hmatch⟩
      · exact Or.inl (List.mem_filter.2 ⟨hr, by simp [hmatch]⟩)
    · cases h

theorem tasks_dropRegistration {c : Option Registration} {error : Error}
    (h : db.dropRegistration c error = .ok db') : db'.tasks = db.tasks := by
  unfold Db.dropRegistration at h
  split at h
  · cases h
    rfl
  · split at h
    · cases h
      rfl
    · cases h

/-- A registration writes its row, and deletes at most the row of its publication. -/
theorem register_ok {agentId owner repo : String} {number : ℕ} {url : String}
    {c : Option (String × String)}
    (h : db.register taskId agentId owner repo number url c = .ok db') :
    ∃ db₁ pulls error, db.activateRegistrationTask taskId agentId = .ok db₁ ∧
      (∀ reg ∈ c, ∃ r ∈ db.pulls,
        Registration.matches ⟨taskId, agentId, owner, repo, reg.1, reg.2⟩ r = true) ∧
      pulls = Table.upsert (·.key) ⟨taskId, owner, repo, number⟩
        { key := ⟨taskId, owner, repo, number⟩, agentId := agentId, url := url }
        (rearm agentId url) db.pulls ∧
      ({ db₁ with pulls := pulls } : Db).dropRegistration
        (c.map fun r => ⟨taskId, agentId, owner, repo, r.1, r.2⟩) error = .ok db' := by
  obtain ⟨db₁, hactivate, h⟩ := bind_ok h
  obtain ⟨_, hcheck, h⟩ := bind_ok h
  have hpulls := pulls_activateRegistrationTask hactivate
  dsimp only at h
  rw [hpulls] at h
  refine ⟨db₁, _, _, hactivate, ?_, rfl, h⟩
  rintro reg hreg
  rw [Option.mem_def] at hreg
  subst hreg
  rw [← hpulls]
  unfold Db.dropRegistration at hcheck
  dsimp only [Option.map_some] at hcheck
  split at hcheck
  · rename_i hany
    exact List.any_eq_true.1 hany
  · cases hcheck

/-- A registration of another pull request leaves a row, and one of the same rearms it. -/
theorem armed_upsert {row : TaskPullRequest} {pulls : List TaskPullRequest} {agentId url : String}
    {r : TaskPullRequest} (hr : r ∈ pulls) :
    ∃ r' ∈ Table.upsert (·.key) row.key row (rearm agentId url) pulls, r'.key = r.key ∧
      (r.status.active = true → r'.status.active = true) ∧ (r.key ≠ row.key → r' = r) := by
  unfold Table.upsert
  split
  · refine ⟨if r.key = row.key then rearm agentId url r else r, List.mem_map_of_mem hr, ?_⟩
    by_cases hk : r.key = row.key
    · rw [if_pos hk]
      refine ⟨rfl, fun hactive => ?_, fun hne => absurd hk hne⟩
      unfold rearm
      rw [(active_not_satisfied hactive).1]
      rfl
    · rw [if_neg hk]
      exact ⟨rfl, fun h => h, fun _ => rfl⟩
  · exact ⟨r, List.mem_append_left _ hr, rfl, fun h => h, fun _ => rfl⟩

/-- The row of a registration waits, or is approved or merged already. -/
theorem exists_upsert {row : TaskPullRequest} (hrow : row.status = .waiting)
    (pulls : List TaskPullRequest) (agentId url : String) :
    ∃ p ∈ Table.upsert (·.key) row.key row (rearm agentId url) pulls, p.key = row.key ∧
      (p.status.active = true ∨ p.status.satisfied = true) := by
  unfold Table.upsert
  split
  · rename_i hsome
    obtain ⟨r, hr⟩ := Option.isSome_iff_exists.1 hsome
    have hk := Table.key_of_get hr
    refine ⟨rearm agentId url r, List.mem_map.2 ⟨r, Table.mem_of_get hr, if_pos hk⟩, hk, ?_⟩
    unfold rearm
    by_cases hsatisfied : r.status.satisfied = true
    · right
      rw [if_pos hsatisfied]
      exact hsatisfied
    · left
      rw [if_neg hsatisfied]
      rfl
  · refine ⟨row, List.mem_append_right _ (List.mem_singleton_self _), rfl, Or.inl ?_⟩
    rw [hrow]
    rfl

theorem open_register {agentId owner repo : String} {number : ℕ} {url : String}
    {c : Option (String × String)}
    (hopen : ∀ db₁, db.activateRegistrationTask taskId agentId = .ok db₁ → Open id db₁)
    (h : db.register taskId agentId owner repo number url c = .ok db') : Open id db' := by
  obtain ⟨db₁, pulls, error, hactivate, -, -, hdrop⟩ := register_ok h
  show ∃ t, Table.get _ db'.tasks _ = some t ∧ _
  rw [tasks_dropRegistration hdrop]
  exact hopen db₁ hactivate

theorem step_register {agentId owner repo : String} {number : ℕ} {url : String}
    {c : Option (String × String)}
    (h : s.db.register taskId agentId owner repo number url c = .ok db') :
    (s.step (.register taskId agentId owner repo number url c)).db = db' := by
  show committed s.db (s.db.register taskId agentId owner repo number url c) = db'
  rw [h]
  rfl

/-- A registration leaves the rows there are, but for the row of its publication. -/
theorem register_keeps {agentId owner repo : String} {number : ℕ} {url : String}
    {c : Option (String × String)}
    (hnumber : number = 0 → ∀ r ∈ db.pulls, r.key ≠ ⟨taskId, owner, repo, number⟩)
    (h : db.register taskId agentId owner repo number url c = .ok db') {r : TaskPullRequest}
    (hr : r ∈ db.pulls) :
    (∃ r' ∈ db'.pulls, r'.key = r.key ∧ (r.status.active = true → r'.status.active = true) ∧
        (r.key.number = 0 → r' = r)) ∨
      (Action.register taskId agentId owner repo number url c).owns r = true := by
  obtain ⟨db₁, pulls, error, hactivate, -, rfl, hdrop⟩ := register_ok h
  let row : TaskPullRequest :=
    { key := ⟨taskId, owner, repo, number⟩
      agentId := agentId
      url := url }
  have hrow : ∃ r' ∈ Table.upsert (·.key) row.key row (rearm agentId url) db.pulls,
      r'.key = r.key ∧ (r.status.active = true → r'.status.active = true) ∧
        (r.key ≠ row.key → r' = r) := armed_upsert hr
  obtain ⟨r', hr', hk, hactive, hsame⟩ := hrow
  have hother : r.key.number = 0 → r' = r := by
    intro hzero
    refine hsame fun he => ?_
    rw [he] at hzero
    exact hnumber hzero r hr he
  rcases mem_dropRegistration hdrop hr' with hmem | ⟨reg, hreg, hmatch⟩
  · exact Or.inl ⟨r', hmem, hk, hactive, hother⟩
  · right
    obtain ⟨c, rfl, rfl⟩ := Option.map_eq_some_iff.1 hreg
    have hzero : r.key.number = 0 := by
      simp only [Registration.matches, Bool.and_eq_true, decide_eq_true_eq] at hmatch
      rw [← hk, hmatch.1.1.1]
    rw [hother hzero] at hmatch
    exact hmatch

/-! ## Steps -/

/-- An action that is fit keeps the gate closed, or releases the row. -/
theorem guarded_step (h : Guarded k s.db) {a : Action} (hfit : Fit s a) :
    Guarded k (s.step a).db ∨ Released k s a := by
  cases a with
  | beginRegistration taskId agentId owner repo id key =>
    left
    show Guarded k (committed s.db ((s.db.beginRegistration taskId agentId owner repo id key).map
      Prod.snd))
    cases hbegin : s.db.beginRegistration taskId agentId owner repo id key with
    | error e => exact h
    | ok r =>
      obtain ⟨db₁, more, hactivate, hdb, -⟩ := beginRegistration_ok hbegin
      obtain ⟨p, hp, hk, hactive⟩ := h.armed
      show Guarded k r.2
      rw [hdb]
      exact ⟨(h.activate hactivate).isOpen, p, List.mem_append_left _ hp, hk, hactive⟩
  | deleteRegistration c =>
    obtain ⟨r, hr, hk, hactive⟩ := h.armed
    by_cases harmed : Armed k (s.db.deleteRegistration c)
    · exact Or.inl ⟨h.isOpen, harmed⟩
    · refine Or.inr (Or.inr (Or.inr (Or.inr ⟨harmed, r, hr, hk, ?_⟩)))
      show c.matches r = true
      by_contra hmatch
      exact harmed ⟨r, List.mem_filter.2 ⟨hr, by simp [hmatch]⟩, hk, hactive⟩
  | register taskId agentId owner repo number url c =>
    cases hregister : s.db.register taskId agentId owner repo number url c with
    | error e =>
      left
      show Guarded k (committed s.db (s.db.register taskId agentId owner repo number url c))
      rw [hregister]
      exact h
    | ok db' =>
      obtain ⟨r, hr, hk, hactive⟩ := h.armed
      have hopen : Open k.taskId db' :=
        open_register (fun _ hactivate => (h.activate hactivate).isOpen) hregister
      unfold Released
      rw [step_register hregister]
      by_cases harmed : Armed k db'
      · exact Or.inl ⟨hopen, harmed⟩
      · rcases register_keeps hfit hregister hr with ⟨r', hr', hk', hactive', -⟩ | howns
        · exact absurd ⟨r', hr', hk'.trans hk, hactive' hactive⟩ harmed
        · exact Or.inr (Or.inr (Or.inr (Or.inr ⟨harmed, r, hr, hk, howns⟩)))
  | waiting => exact Or.inl h
  | seeFinished item =>
    left
    show Guarded k (if _ then { s with seenFinished := item :: s.seenFinished } else s : State).db
    split
    · exact h
    · exact h
  | cancel item =>
    left
    show Guarded k (if _ then { s with db := s.db.cancel item } else s : State).db
    split
    · refine ⟨h.isOpen, h.armed.updatePulls (fun _ => rfl) fun r hk _ hw => ?_⟩
      have hitem : k = item.key := hk.symm.trans (of_decide_eq_true hw)
      subst hitem
      rcases hfit with hfinished | hinactive
      · obtain ⟨t, ht, hopen⟩ := h.isOpen
        rw [hfinished t ht] at hopen
        cases hopen
      · obtain ⟨r', hr', hk', hactive⟩ := h.armed
        rw [hinactive r' hr' hk'] at hactive
        cases hactive
    · exact h
  | synchronizeAssignment item =>
    left
    show Guarded k (if _ then { s with db := s.db.synchronizeAssignment item } else s : State).db
    split
    · exact guarded_synchronizeAssignment h
    · exact h
  | requireUserAttention item =>
    left
    show Guarded k (if _ then { s with db := s.db.requireUserAttention item } else s : State).db
    split
    · exact guarded_requireUserAttention h
    · exact h
  | finalizeIfSatisfied item outcome =>
    by_cases hheld : item ∈ s.held
    · have hstep : s.step (.finalizeIfSatisfied item outcome) =
          { s with db := s.db.finalizeIfSatisfied item outcome } := if_pos hheld
      unfold Released
      rw [hstep]
      rcases guarded_finalizeIfSatisfied h with hguarded | hsatisfied | hcancelled
      · exact Or.inl hguarded
      · exact Or.inr (Or.inl hsatisfied)
      · exact Or.inr (Or.inr (Or.inl hcancelled))
    · have hstep : s.step (.finalizeIfSatisfied item outcome) = s := if_neg hheld
      rw [hstep]
      exact Or.inl h
  | finalizeAttempt taskId agentId f reviewRequired =>
    exact (guarded_finalizeAttempt h).imp_right fun hc => Or.inr (Or.inl hc)
  | completeIfReady taskId reviewRequired =>
    exact (guarded_completeIfReady h).imp_right fun hc => Or.inr (Or.inl hc)
  | deferReportedSubtasks taskId =>
    rcases open_deferReportedSubtasks h.isOpen taskId with hopen | hcancelled
    · exact Or.inl ⟨hopen, h.armed⟩
    · exact Or.inr (Or.inr (Or.inl hcancelled))
  | updateStatus taskId status agentId =>
    by_cases hid : taskId = k.taskId
    · subst hid
      by_cases hcompleted : status = .completed
      · subst hcompleted
        by_cases hopen : Open k.taskId (s.db.updateStatus k.taskId .completed agentId)
        · exact Or.inl ⟨hopen, armed_updateStatus_completed h.armed⟩
        · exact Or.inr (Or.inr (Or.inr (Or.inl ⟨hopen, agentId, rfl⟩)))
      · by_cases hcancelled : status = .cancelled
        · subst hcancelled
          exact Or.inr (Or.inr (Or.inl (cancelled_updateStatus h.isOpen)))
        · refine Or.inl (guarded_updateStatus h fun _ => ?_)
          simp [finished, hcompleted, hcancelled]
    · exact Or.inl (guarded_updateStatus h fun he => absurd he hid)
  | cancelTask taskId => exact (guarded_cancelTask h).imp_right fun hc => Or.inr (Or.inl hc)
  | other db =>
    left
    show Guarded k (if _ then { s with db := db } else s : State).db
    split
    · rename_i hsame
      obtain ⟨t, ht, hstatus⟩ := h.isOpen
      have hrow := hsame.2 t (Table.mem_of_get ht)
      rw [Table.key_of_get ht, ht] at hrow
      refine ⟨?_, ?_⟩
      · cases hnew : db.task? k.taskId with
        | none =>
          rw [hnew] at hrow
          cases hrow
        | some t' =>
          rw [hnew, Option.map_some, Option.map_some, Option.some_inj] at hrow
          exact ⟨t', hnew, by rw [hrow]; exact hstatus⟩
      · show ∃ r ∈ db.pulls, _
        rw [hsame.1]
        exact h.armed
    · exact h

/-! ## The row of a publication -/

/-- What identifies the row of a publication stays. -/
def Same (r r' : TaskPullRequest) : Prop :=
  r'.key = r.key ∧ r'.url = r.url ∧ r'.registrationKey = r.registrationKey

/-- The rows are changed one by one, and none is deleted. -/
def Rewrites (db db' : Db) : Prop := ∃ f, db'.pulls = db.pulls.map f ∧ ∀ r, Same r (f r)

theorem Rewrites.refl (db : Db) : Rewrites db db :=
  ⟨fun r => r, (List.map_id' _).symm, fun _ => ⟨rfl, rfl, rfl⟩⟩

theorem rewrites_updatePulls (w : TaskPullRequest → Bool)
    {f : TaskPullRequest → TaskPullRequest} (hf : ∀ r, Same r (f r)) :
    Rewrites db (db.updatePulls w f) := by
  refine ⟨fun r => if w r then f r else r, rfl, fun r => ?_⟩
  show Same r (if w r then f r else r)
  by_cases hw : w r = true
  · rw [if_pos hw]
    exact hf r
  · rw [if_neg hw]
    exact ⟨rfl, rfl, rfl⟩

theorem Rewrites.of_pulls (h : Rewrites db db') {db'' : Db} (hpulls : db''.pulls = db'.pulls) :
    Rewrites db db'' := by
  obtain ⟨f, hf, hsame⟩ := h
  exact ⟨f, hpulls.trans hf, hsame⟩

theorem Rewrites.trans {db'' : Db} (h : Rewrites db db') (h' : Rewrites db' db'') :
    Rewrites db db'' := by
  obtain ⟨f, hf, hsame⟩ := h
  obtain ⟨g, hg, hsame'⟩ := h'
  refine ⟨g ∘ f, ?_, fun r => ?_⟩
  · rw [hg, hf, List.map_map]
  · obtain ⟨h1, h2, h3⟩ := hsame r
    obtain ⟨h1', h2', h3'⟩ := hsame' (f r)
    exact ⟨h1'.trans h1, h2'.trans h2, h3'.trans h3⟩

theorem rewrites_updateStatus {status : TaskStatus} {agentId : Option String} :
    Rewrites db (db.updateStatus taskId status agentId) := by
  have hreleased : Rewrites db (if status = .cancelled then
      (db.setStatus taskId status).releasePulls taskId else db.setStatus taskId status) := by
    split
    · exact rewrites_updatePulls _ fun _ => ⟨rfl, rfl, rfl⟩
    · exact (Rewrites.refl db).of_pulls rfl
  unfold Db.updateStatus
  split
  · exact .refl db
  · split
    · exact .refl db
    · cases agentId with
      | none => exact hreleased
      | some a =>
        dsimp only
        split
        · exact hreleased.trans (rewrites_updatePulls _ fun _ => ⟨rfl, rfl, rfl⟩)
        · exact hreleased

theorem rewrites_completeIfReady {reviewRequired : Bool} :
    Rewrites db (db.completeIfReady taskId reviewRequired) := by
  unfold Db.completeIfReady
  split
  · exact .refl db
  · split
    · exact .refl db
    · split
      · exact .refl db
      · exact (Rewrites.refl db).of_pulls rfl

theorem rewrites_finalizeAttempt {agentId : String} {f : Finalization} {reviewRequired : Bool} :
    Rewrites db (db.finalizeAttempt taskId agentId f reviewRequired) := by
  unfold Db.finalizeAttempt
  split
  · exact rewrites_updateStatus
  · split
    · exact rewrites_updateStatus
    · split
      · exact rewrites_updateStatus
      · split
        · exact rewrites_updateStatus
        · split
          · exact rewrites_completeIfReady
          · exact rewrites_updateStatus

theorem rewrites_cancelTask : Rewrites db (db.cancelTask taskId) := by
  unfold Db.cancelTask
  split
  · exact .refl db
  · split
    · exact .refl db
    · exact rewrites_updatePulls _ fun _ => ⟨rfl, rfl, rfl⟩

theorem rewrites_synchronizeAssignment {item : TaskPullRequest} :
    Rewrites db (db.synchronizeAssignment item) := by
  unfold Db.synchronizeAssignment
  split
  · exact .refl db
  · split
    · exact .refl db
    · exact rewrites_updatePulls _ fun _ => ⟨rfl, rfl, rfl⟩

theorem rewrites_cancelFinished {item : TaskPullRequest} : Rewrites db (db.cancelFinished item) :=
  rewrites_updatePulls _ fun _ => ⟨rfl, rfl, rfl⟩

theorem rewrites_requireUserAttention {item : TaskPullRequest} :
    Rewrites db (db.requireUserAttention item) := by
  unfold Db.requireUserAttention
  split
  · exact .refl db
  · split
    · exact rewrites_cancelFinished
    · split
      · exact .refl db
      · split
        · exact .refl db
        · split
          · exact rewrites_updatePulls _ fun _ => ⟨rfl, rfl, rfl⟩
          · exact .refl db

theorem rewrites_finalizeIfSatisfied {item : TaskPullRequest} {outcome : ReviewOutcome} :
    Rewrites db (db.finalizeIfSatisfied item outcome) := by
  have houtcome : Rewrites db (db.updatePulls (fun r => r.key = item.key && r.status = .waiting)
      fun r => { r with status := outcome.status }) :=
    rewrites_updatePulls _ fun _ => ⟨rfl, rfl, rfl⟩
  unfold Db.finalizeIfSatisfied
  split
  · exact .refl db
  · split
    · exact rewrites_cancelFinished
    · dsimp only
      split
      · exact houtcome
      · split
        · exact houtcome.of_pulls rfl
        · exact houtcome.of_pulls rfl

/-- The row of a publication is deleted only by the command that began it. -/
theorem kept_step {r : TaskPullRequest} (hr : r ∈ s.db.pulls) (hnumber : r.key.number = 0)
    {a : Action} (hfit : Fit s a) :
    (∃ r' ∈ (s.step a).db.pulls, Same r r') ∨ a.owns r = true := by
  have hrewritten : Rewrites s.db (s.step a).db → ∃ r' ∈ (s.step a).db.pulls, Same r r' := by
    rintro ⟨f, hf, hsame⟩
    rw [hf]
    exact ⟨f r, List.mem_map_of_mem hr, hsame r⟩
  have hguard : ∀ (p : Prop) [Decidable p] (s' : State), Rewrites s.db s'.db →
      Rewrites s.db (if p then s' else s).db := by
    intro p _ s' h
    split
    · exact h
    · exact .refl s.db
  cases a with
  | beginRegistration taskId agentId owner repo id key =>
    left
    show ∃ r' ∈ (committed s.db ((s.db.beginRegistration taskId agentId owner repo id key).map
      Prod.snd)).pulls, _
    cases hbegin : s.db.beginRegistration taskId agentId owner repo id key with
    | error e => exact ⟨r, hr, rfl, rfl, rfl⟩
    | ok q =>
      obtain ⟨db₁, more, hactivate, hdb, -⟩ := beginRegistration_ok hbegin
      show ∃ r' ∈ q.2.pulls, _
      rw [hdb]
      exact ⟨r, List.mem_append_left _ hr, rfl, rfl, rfl⟩
  | deleteRegistration c =>
    by_cases hmatch : c.matches r = true
    · exact Or.inr hmatch
    · exact Or.inl ⟨r, List.mem_filter.2 ⟨hr, by simp [hmatch]⟩, rfl, rfl, rfl⟩
  | register taskId agentId owner repo number url c =>
    have hstep : (s.step (.register taskId agentId owner repo number url c)).db =
      committed s.db (s.db.register taskId agentId owner repo number url c) := rfl
    rw [hstep]
    cases hregister : s.db.register taskId agentId owner repo number url c with
    | error e => exact Or.inl ⟨r, hr, rfl, rfl, rfl⟩
    | ok db' =>
      rcases register_keeps hfit hregister hr with ⟨r', hr', -, -, hsame⟩ | howns
      · obtain rfl := hsame hnumber
        exact Or.inl ⟨r', hr', rfl, rfl, rfl⟩
      · exact Or.inr howns
  | waiting => exact Or.inl (hrewritten (.refl s.db))
  | seeFinished item => exact Or.inl (hrewritten (hguard _ _ (.refl s.db)))
  | cancel item =>
    have hcancel : Rewrites s.db (s.db.cancel item) :=
      rewrites_updatePulls _ fun _ => ⟨rfl, rfl, rfl⟩
    exact Or.inl (hrewritten (hguard _ { s with db := s.db.cancel item } hcancel))
  | synchronizeAssignment item =>
    exact Or.inl (hrewritten (hguard _ _ rewrites_synchronizeAssignment))
  | requireUserAttention item =>
    exact Or.inl (hrewritten (hguard _ _ rewrites_requireUserAttention))
  | finalizeIfSatisfied item outcome =>
    exact Or.inl (hrewritten (hguard _ _ rewrites_finalizeIfSatisfied))
  | finalizeAttempt taskId agentId f reviewRequired =>
    exact Or.inl (hrewritten rewrites_finalizeAttempt)
  | completeIfReady taskId reviewRequired => exact Or.inl (hrewritten rewrites_completeIfReady)
  | deferReportedSubtasks taskId =>
    exact Or.inl (hrewritten ((Rewrites.refl s.db).of_pulls rfl))
  | updateStatus taskId status agentId => exact Or.inl (hrewritten rewrites_updateStatus)
  | cancelTask taskId => exact Or.inl (hrewritten rewrites_cancelTask)
  | other db =>
    left
    unfold State.step
    dsimp only
    split
    · rename_i hsame
      show ∃ r' ∈ db.pulls, _
      rw [hsame.1]
      exact ⟨r, hr, rfl, rfl, rfl⟩
    · exact ⟨r, hr, rfl, rfl, rfl⟩

/-! ## Runs -/

/-- The action registered the pull request or the publication. -/
def Registers (k : PullKey) (s : State) : Action → Prop
  | .beginRegistration taskId agentId owner repo id key =>
      k = ⟨taskId, owner, repo, 0⟩ ∧
        ∃ r, s.db.beginRegistration taskId agentId owner repo id key = .ok r
  | .register taskId agentId owner repo number url c =>
      k = ⟨taskId, owner, repo, number⟩ ∧
        ∃ db, s.db.register taskId agentId owner repo number url c = .ok db
  | _ => False

/-- Actions that are fit, none of which releases the row. -/
inductive Run (k : PullKey) : State → List Action → State → Prop where
  | nil (s : State) : Run k s [] s
  | cons {s s' : State} {a : Action} {actions : List Action} (fit : Fit s a)
      (unreleased : ¬ Released k s a) (rest : Run k (s.step a) actions s') :
      Run k s (a :: actions) s'

theorem Run.guarded {actions : List Action} (h : Run k s actions s') (hs : Guarded k s.db) :
    Guarded k s'.db := by
  induction h with
  | nil s => exact hs
  | cons fit unreleased rest ih => exact ih ((guarded_step hs fit).resolve_right unreleased)

/-- A registration closes the gate, unless the pull request is approved or merged already. -/
theorem guarded_of_registers {a : Action} (h : Registers k s a) (hfit : Fit s a) :
    Guarded k (s.step a).db ∨ Satisfied k (s.step a).db := by
  cases a with
  | beginRegistration taskId agentId owner repo id key =>
    obtain ⟨rfl, r, hbegin⟩ := h
    obtain ⟨db₁, more, hactivate, hdb, p, hp, hk, hkey, hnew⟩ := beginRegistration_ok hbegin
    have hstep : (s.step (.beginRegistration taskId agentId owner repo id key)).db = r.2 := by
      show committed s.db ((s.db.beginRegistration taskId agentId owner repo id key).map
        Prod.snd) = r.2
      rw [hbegin]
      rfl
    have hopen : Open taskId db₁ := open_activated hactivate
    rw [hstep, hdb]
    by_cases hmem : p ∈ s.db.pulls
    · have hcancelled := hfit p hmem hk hkey
      by_cases hactive : p.status.active = true
      · exact Or.inl ⟨hopen, p, hp, hk, hactive⟩
      · refine Or.inr ⟨p, hp, hk, ?_⟩
        cases hp : p.status <;> simp_all [PullStatus.active, PullStatus.satisfied]
    · exact Or.inl ⟨hopen, p, hp, hk, by rw [hnew hmem]; rfl⟩
  | register taskId agentId owner repo number url c =>
    obtain ⟨rfl, db', hregister⟩ := h
    obtain ⟨db₁, pulls, error, hactivate, hcheck, rfl, hdrop⟩ := register_ok hregister
    let row : TaskPullRequest :=
      { key := ⟨taskId, owner, repo, number⟩
        agentId := agentId
        url := url }
    obtain ⟨p, hp, hk, hstatus⟩ :=
      exists_upsert (show row.status = .waiting from rfl) s.db.pulls agentId url
    have hkept : p ∈ db'.pulls := by
      refine (mem_dropRegistration hdrop hp).resolve_right ?_
      rintro ⟨reg, hreg, hmatch⟩
      simp only [Registration.matches, Bool.and_eq_true, decide_eq_true_eq] at hmatch
      have hzero : number = 0 := congrArg PullKey.number (hk.symm.trans hmatch.1.1.1)
      obtain ⟨c, hc, -⟩ := Option.map_eq_some_iff.1 hreg
      obtain ⟨r, hr, hmatch'⟩ := hcheck c hc
      simp only [Registration.matches, Bool.and_eq_true, decide_eq_true_eq] at hmatch'
      refine hfit hzero r hr ?_
      rw [hmatch'.1.1.1, hzero]
    have hopen : Open taskId db' := open_register (fun _ => open_activated) hregister
    rw [step_register hregister]
    rcases hstatus with hactive | hsatisfied
    · exact Or.inl ⟨hopen, p, hkept, hk, hactive⟩
    · exact Or.inr ⟨p, hkept, hk, hsatisfied⟩
  | _ => exact h.elim

/-- In a run of fit actions, a task is not completed after a pull request or a publication of it
was registered, as long as nothing releases the row; and the row of a publication goes only with
the command that began it. -/
theorem gate_fail_closed {a : Action} (h : Registers k s a) (hfit : Fit s a) :
    (Satisfied k (s.step a).db ∨ ∀ actions s', Run k (s.step a) actions s' →
      Open k.taskId s'.db ∧ Armed k s'.db) ∧
    ∀ s' b r, Fit s' b → r ∈ s'.db.pulls → r.key.number = 0 →
      (∃ r' ∈ (s'.step b).db.pulls, Same r r') ∨ b.owns r = true := by
  refine ⟨?_, fun s' b r hfit' hr hnumber => kept_step hr hnumber hfit'⟩
  rcases guarded_of_registers h hfit with hguarded | hsatisfied
  · right
    intro actions s' hrun
    have hend := hrun.guarded hguarded
    exact ⟨hend.isOpen, hend.armed⟩
  · exact Or.inl hsatisfied

/-! The task `port` of the Agent `atlas`, with pull request 7 of `XpressAI/example`. -/

def porting : State where
  db := { tasks := [{ id := "port", status := .inProgress, agentId := some "atlas" }] }

def pullSeven : TaskPullRequest where
  key := ⟨"port", "XpressAI", "example", 7⟩
  agentId := "atlas"
  url := "https://github.com/XpressAI/example/pull/7"

def registerSeven : Action :=
  .register "port" "atlas" "XpressAI" "example" 7 "https://github.com/XpressAI/example/pull/7" none

/-- An action that satisfies no row and cancels no task, and is neither a completion from outside
nor that of a command, releases nothing. -/
theorem not_released {a : Action} (hpulls : ∀ r ∈ (s.step a).db.pulls, r.status.satisfied = false)
    (htasks : ∀ t ∈ (s.step a).db.tasks, t.status ≠ .cancelled)
    (houtside : ∀ agentId, a ≠ .updateStatus k.taskId .completed agentId)
    (howns : ∀ r, a.owns r = false) : ¬ Released k s a := by
  rintro (⟨r, hr, -, h⟩ | ⟨t, ht, h⟩ | ⟨-, agentId, h⟩ | ⟨-, r, -, -, h⟩)
  · rw [hpulls r hr] at h
    cases h
  · exact htasks t (Table.mem_of_get ht) h
  · exact houtside agentId h
  · rw [howns r] at h
    cases h

/-- A publication has begun. -/
def publishing : State :=
  porting.run [.beginRegistration "port" "atlas" "XpressAI" "example" "first" "branch"]

/-- A finalization that read the gate before the pull request was registered. -/
def staleFinalization : Action :=
  .finalizeAttempt "port" "atlas"
    { responseActive := false, waitingForUser := false, gate := .satisfied,
      subtasksComplete := true } false

/-- A poll, the stale finalization and another try to complete leave the task open; and the row of
the publication is there after the next try too. -/
theorem gate_fail_closed_seven :
    Run pullSeven.key (publishing.step registerSeven)
        [.waiting, staleFinalization, .completeIfReady "port" false]
        (publishing.run [registerSeven, .waiting, staleFinalization,
          .completeIfReady "port" false]) ∧
      Open "port" (publishing.run [registerSeven, .waiting, staleFinalization,
        .completeIfReady "port" false]).db ∧
      Armed pullSeven.key (publishing.run [registerSeven, .waiting, staleFinalization,
        .completeIfReady "port" false]).db ∧
      ∃ r ∈ (publishing.step registerSeven).db.pulls, r.key.number = 0 ∧
        ∃ r' ∈ ((publishing.step registerSeven).step staleFinalization).db.pulls, Same r r' := by
  have hregisters : Registers pullSeven.key publishing registerSeven := ⟨rfl, _, rfl⟩
  have hfit : Fit publishing registerSeven := fun h => absurd h (by decide)
  have hrun : Run pullSeven.key (publishing.step registerSeven)
      [.waiting, staleFinalization, .completeIfReady "port" false]
      (publishing.run [registerSeven, .waiting, staleFinalization,
        .completeIfReady "port" false]) := by
    refine .cons trivial (not_released ?_ ?_ ?_ ?_) (.cons trivial (not_released ?_ ?_ ?_ ?_)
      (.cons trivial (not_released ?_ ?_ ?_ ?_) (.nil _)))
    all_goals first | decide +kernel | (intro _ h; cases h) | (intro _; rfl)
  obtain ⟨hgate, hkept⟩ := gate_fail_closed hregisters hfit
  obtain ⟨hopen, harmed⟩ := (hgate.resolve_left (by unfold Satisfied; decide +kernel)) _ _ hrun
  have hrow : ∃ r ∈ (publishing.step registerSeven).db.pulls, r.key.number = 0 := by
    decide +kernel
  obtain ⟨r, hr, hnumber⟩ := hrow
  exact ⟨hrun, hopen, harmed, r, hr, hnumber,
    (hkept _ staleFinalization r trivial hr hnumber).resolve_right Bool.false_ne_true⟩

/-- The statuses of the tasks and of the pull requests. -/
def State.statuses (s : State) : List TaskStatus × List PullStatus :=
  (s.db.tasks.map (·.status), s.db.pulls.map (·.status))

/-- A poller saw the task cancelled; then it was reopened, and its pull request registered
again. -/
def reopened : State :=
  porting.run [registerSeven, .waiting, .updateStatus "port" .cancelled none,
    .seeFinished pullSeven, .updateStatus "port" .inProgress none, registerSeven]

/-- The task was cancelled and reopened after a publication had begun. -/
def republished : State :=
  porting.run [.beginRegistration "port" "atlas" "XpressAI" "example" "first" "branch",
    .updateStatus "port" .cancelled none, .updateStatus "port" .inProgress none]

/-- The poller cancels the row that was registered again, or `begin_registration` is tried again
and leaves its row cancelled: both times the task is completed. -/
theorem gate_opened_by_mistake :
    (reopened.statuses = ([.inProgress], [.waiting]) ∧
      (reopened.run [.cancel pullSeven]).statuses = ([.inProgress], [.cancelled]) ∧
      (reopened.run [.cancel pullSeven, .completeIfReady "port" false]).statuses =
        ([.completed], [.cancelled])) ∧
    (republished.db.beginRegistration "port" "atlas" "XpressAI" "example" "second" "branch").map Prod.fst =
        .ok ("first", true) ∧
      (republished.run [.beginRegistration "port" "atlas" "XpressAI" "example" "second" "branch",
        .completeIfReady "port" false]).statuses = ([.completed], [.cancelled]) := by
  refine ⟨⟨?_, ?_, ?_⟩, ?_, ?_⟩
  · decide +kernel
  · decide +kernel
  · decide +kernel
  · rfl
  · decide +kernel

end XpressClaw.Github
