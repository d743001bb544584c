import XpressClaw.Memory.Index
import XpressClaw.Projects.Members

/-!
# Moving the last agent out of a Project

`assign_agent` deletes the Project that an agent leaves when it counts nothing in it any more.
`delete` deletes a Project on request, and counts more tables before it does.

* `assignAgent_base` — on the tables of `Projects.Store` the call is `Db.assignAgent`.
* `ownedRecords_eq_zero_iff` — what is left, of all that `delete` counts, in a Project that
  `assign_agent` has found empty and whose memory has moved.
* `removed_owns_nothing_iff` — a Project that `assign_agent` deletes owns nothing exactly when it
  had no run, no synchronization and no associated workflow before the call.
-/

namespace XpressClaw.Projects

open Lib

/-! ## The tables -/

/-- A row of `workflows`. -/
structure Workflow where
  id : String
  projectId : Option String := none
  deriving DecidableEq

/-- A row of `workflow_instances`. -/
structure WorkflowRun where
  id : String
  workflowId : String
  status : String
  projectId : Option String := none
  conversationId : Option String := none
  deriving DecidableEq

/-- A row of `workflow_step_executions`. -/
structure StepExecution where
  instanceId : String
  taskId : Option String := none
  deriving DecidableEq

/-- A row of `workflow_instance_agent_bindings`. -/
structure AgentBinding where
  instanceId : String
  agentId : String
  projectId : String
  deriving DecidableEq

/-- A row of `work_attempts`. -/
structure WorkAttempt where
  sessionId : String
  taskId : Option String := none
  status : String
  deriving DecidableEq

/-- A row of `conversation_turns`. -/
structure AgentTurn where
  agentId : String
  status : String
  deriving DecidableEq

/-- A row of `schedules`. -/
structure Schedule where
  agentId : String
  continuationTaskId : Option String := none
  conversationId : Option String := none
  deriving DecidableEq

/-- A row of `project_sync_state`. -/
structure SyncState where
  projectId : String
  remote : String
  branch : String
  storePath : String
  deriving DecidableEq

/-- A row of `project_workflows`. -/
structure ProjectWorkflow where
  projectId : String
  workflowId : String
  deriving DecidableEq

/-- The tables of Projects with those that `assign_agent` and `delete` count.  `memory` has the
notes and their index; its other tables are not looked at. -/
structure Records where
  base : Db := {}
  memory : Sync.Db := {}
  attempts : List WorkAttempt := []
  turns : List AgentTurn := []
  workflows : List Workflow := []
  runs : List WorkflowRun := []
  executions : List StepExecution := []
  bindings : List AgentBinding := []
  schedules : List Schedule := []
  syncState : List SyncState := []
  projectWorkflows : List ProjectWorkflow := []

namespace Records

variable (s : Records)

/-! ## `assign_agent` -/

/-- `has_live_turn`. -/
def hasLiveTurn (agentId : String) : Bool :=
  s.attempts.any (fun attempt =>
    attempt.status ∈ ["preparing", "running", "review"] &&
      (attempt.sessionId = agentId ||
        s.base.tasks.any fun t => some t.id = attempt.taskId && t.agentId = some agentId)) ||
    s.turns.any fun turn => turn.agentId = agentId && turn.status = "running"

/-- `has_active_workflow`. -/
def hasActiveWorkflow (agentId : String) (previousProjectId : Option String) : Bool :=
  s.runs.any fun run =>
    run.status ∈ ["running", "waiting"] &&
      (previousProjectId.any (fun p => run.projectId = some p) ||
        run.conversationId.any (fun c => s.base.agentParticipates c agentId) ||
        s.executions.any (fun execution =>
          execution.instanceId = run.id &&
            s.base.tasks.any fun t => some t.id = execution.taskId && t.agentId = some agentId) ||
        s.bindings.any fun binding => binding.instanceId = run.id && binding.agentId = agentId)

/-- `previous_project_id`. -/
def previousProject (agentId : String) : Option String :=
  (s.base.agent? agentId).bind (·.projectId)

/-- `SELECT COUNT(*) FROM workflows WHERE project_id = …`. -/
def workflowsIn (projectId : String) : ℕ :=
  (s.workflows.filter (·.projectId = some projectId)).length

/-- `assign_agent` up to the question whether anything is left in the previous project: what
`Db.assignAgent` leaves when a workflow keeps that project. -/
def move (projectId agentId : String) : Except Error Records := do
  let base ← s.base.assignAgent projectId agentId (s.hasLiveTurn agentId)
    (s.hasActiveWorkflow agentId (s.previousProject agentId)) 1
  return { s with base := base }

/-- `remaining`. -/
def remaining (projectId : String) : ℕ :=
  (s.base.agents.filter (·.projectId = some projectId)).length +
    (s.base.conversations.filter (·.projectId = some projectId)).length +
    (s.base.tasks.filter (·.projectId = some projectId)).length +
    s.workflowsIn projectId

/-- `DELETE FROM projects`, of a project that no agent, conversation, task or workflow belongs
to: a run forgets it, and what else refers to it is deleted with it. -/
def deleteProject (projectId : String) : Records :=
  { s with
    base := { s.base with projects := s.base.projects.filter (·.id ≠ projectId) }
    memory := { s.memory with notes := s.memory.notes.filter (·.projectId ≠ projectId) }
    runs := s.runs.map fun run =>
      if run.projectId = some projectId then { run with projectId := none } else run
    bindings := s.bindings.filter (·.projectId ≠ projectId)
    syncState := s.syncState.filter (·.projectId ≠ projectId)
    projectWorkflows := s.projectWorkflows.filter (·.projectId ≠ projectId) }

/-- `move_project_memory` on the table of the notes. -/
def moveMemory (formats : Memory.Formats) (source target : String) : Except Error Records :=
  match Memory.moveProjectMemory formats s.memory source target with
  | .ok memory => .ok { s with memory := memory }
  | .error _ => .error .database

/-- The database when `assign_agent` has moved the memory of the previous project. -/
def moveAll (formats : Memory.Formats) (projectId agentId previous : String) :
    Except Error Records := do
  let moved ← s.move projectId agentId
  moved.moveMemory formats previous projectId

/-- `assign_agent`. -/
def assignAgent (formats : Memory.Formats) (projectId agentId : String) :
    Except Error Records := do
  let moved ← s.move projectId agentId
  match s.previousProject agentId with
  | none => return moved
  | some previous =>
      -- an agent that is in the project already returns early, before the count
      if previous = projectId ∨ moved.remaining previous ≠ 0 then return moved
      else do
        let moved ← moved.moveMemory formats previous projectId
        return moved.deleteProject previous

/-! ## `delete` -/

def agentsIn (projectId : String) : List String :=
  (s.base.agents.filter (·.projectId = some projectId)).map (·.id)

def conversationsIn (projectId : String) : List String :=
  (s.base.conversations.filter (·.projectId = some projectId)).map (·.id)

def tasksIn (projectId : String) : List String :=
  (s.base.tasks.filter (·.projectId = some projectId)).map (·.id)

/-- A run without project and conversation that a task or a binding puts into a project. -/
def ownsLoose (projectId : String) (run : WorkflowRun) : Bool :=
  run.projectId = none && run.conversationId = none &&
    (s.executions.any (fun execution =>
        execution.instanceId = run.id && execution.taskId.any (· ∈ s.tasksIn projectId)) ||
      s.bindings.any fun binding =>
        binding.instanceId = run.id && binding.projectId = projectId)

/-- The runs that `delete` counts. -/
def ownsRun (projectId : String) (run : WorkflowRun) : Bool :=
  run.projectId = some projectId ||
    run.conversationId.any (· ∈ s.conversationsIn projectId) || s.ownsLoose projectId run

/-- The schedules that `delete` counts. -/
def ownsSchedule (projectId : String) (schedule : Schedule) : Bool :=
  schedule.agentId ∈ s.agentsIn projectId ||
    schedule.continuationTaskId.any (· ∈ s.tasksIn projectId) ||
    schedule.conversationId.any (· ∈ s.conversationsIn projectId)

/-- `owned_records`. -/
def ownedRecords (projectId : String) : ℕ :=
  s.remaining projectId +
    (s.memory.notes.filter (·.projectId = projectId)).length +
    (s.runs.filter (s.ownsRun projectId)).length +
    (s.schedules.filter (s.ownsSchedule projectId)).length +
    (s.syncState.filter (·.projectId = projectId)).length +
    (s.projectWorkflows.filter (·.projectId = projectId)).length

/-- `ProjectManager::delete`. -/
def delete (projectId : String) : Except Error Records :=
  match s.base.project? projectId with
  | none => .error (.projectNotFound projectId)
  | some project => do
      require (¬ project.deleting)
        (.project "Project deletion is already in progress; retry with explicit cascade acknowledgement")
      require (s.ownedRecords projectId = 0)
        (.project "this Project is not empty; use explicit cascade acknowledgement to permanently delete its Agents, tasks, conversations, memory, workflow definitions, runs or schedules, and sync configuration")
      return s.deleteProject projectId

end Records

/-! ## The move -/

section

variable {db db' : Db} {projectId agentId : String} {live active : Bool}

theorem dropEmptied_one (previous : Option String) : db.dropEmptied 1 previous = db := by
  cases previous with
  | none => rfl
  | some previous => simp [Db.dropEmptied]

/-- The number of workflows of the previous project is looked at last. -/
theorem Db.assignAgent_eq (workflows : ℕ) :
    db.assignAgent projectId agentId live active workflows =
      (fun moved =>
        if (db.agent? agentId).bind (·.projectId) = some projectId then moved
        else moved.dropEmptied workflows ((db.agent? agentId).bind (·.projectId))) <$>
      db.assignAgent projectId agentId live active 1 := by
  cases hagent : db.agent? agentId with
  | none =>
    unfold Db.assignAgent Db.projectOfAgent
    rw [hagent, map_bind]
    rfl
  | some agent =>
    have hproject : db.projectOfAgent agentId = pure agent.projectId := by
      unfold Db.projectOfAgent
      rw [hagent]
      rfl
    unfold Db.assignAgent
    rw [hproject, Option.bind_some]
    by_cases hsame : agent.projectId = some projectId
    · simp only [pure_bind, map_bind, map_pure, if_pos hsame]
    · simp only [pure_bind, map_bind, map_pure, if_neg hsame, dropEmptied_one]

/-- A move leaves the projects alone, and the previous one accepts work. -/
theorem projects_of_assignAgent (h : db.assignAgent projectId agentId live active 1 = .ok db') :
    db'.projects = db.projects ∧ ∀ p, (db.agent? agentId).bind (·.projectId) = some p →
      ∃ project, db.project? p = some project ∧ project.deleting = false := by
  obtain ⟨_, -, h⟩ := bind_ok h
  obtain ⟨previous, hprevious, h⟩ := bind_ok h
  obtain ⟨_, haccepts, h⟩ := bind_ok h
  have hbound : (db.agent? agentId).bind (·.projectId) = previous := by
    unfold Db.projectOfAgent at hprevious
    split at hprevious
    · cases hprevious
    · rename_i agent hagent
      rw [hagent]
      exact Except.ok.inj hprevious
  constructor
  · split at h
    · rw [← Except.ok.inj h]
    · obtain ⟨_, -, h⟩ := bind_ok h
      obtain ⟨_, -, h⟩ := bind_ok h
      obtain ⟨_, -, h⟩ := bind_ok h
      obtain ⟨_, -, h⟩ := bind_ok h
      obtain ⟨_, -, h⟩ := bind_ok h
      rw [← Except.ok.inj h, dropEmptied_one]
      rfl
  · intro p hp
    rw [hbound] at hp
    rw [hp] at haccepts
    unfold Db.ensureAcceptsWork Db.ensureProjectAcceptsWork at haccepts
    dsimp only at haccepts
    split at haccepts
    · cases haccepts
    · rename_i project hproject
      refine ⟨project, hproject, ?_⟩
      split at haccepts
      · cases haccepts
      · rename_i hdeleting
        simpa using hdeleting

end

namespace Records

variable {s s' moved : Records} {formats : Memory.Formats}
  {projectId agentId previous source target : String}

theorem move_ok (h : s.move projectId agentId = .ok moved) : ∃ base,
    s.base.assignAgent projectId agentId (s.hasLiveTurn agentId)
        (s.hasActiveWorkflow agentId (s.previousProject agentId)) 1 = .ok base ∧
      moved = { s with base := base } := by
  obtain ⟨base, hbase, h⟩ := bind_ok h
  exact ⟨base, hbase, (Except.ok.inj h).symm⟩

theorem moveMemory_ok (h : s.moveMemory formats source target = .ok moved) : ∃ memory,
    Memory.moveProjectMemory formats s.memory source target = .ok memory ∧
      moved = { s with memory := memory } := by
  unfold moveMemory at h
  split at h
  · rename_i memory hmemory
    exact ⟨memory, hmemory, (Except.ok.inj h).symm⟩
  · cases h

theorem moveAll_ok (h : s.moveAll formats projectId agentId previous = .ok moved) :
    ∃ base memory, moved = { s with base := base, memory := memory } := by
  obtain ⟨_, hmove, h⟩ := bind_ok h
  obtain ⟨base, -, rfl⟩ := move_ok hmove
  obtain ⟨memory, -, rfl⟩ := moveMemory_ok h
  exact ⟨base, memory, rfl⟩

theorem remaining_eq_zero_iff : s.remaining previous = 0 ↔
    (∀ a ∈ s.base.agents, a.projectId ≠ some previous) ∧
      (∀ c ∈ s.base.conversations, c.projectId ≠ some previous) ∧
      (∀ t ∈ s.base.tasks, t.projectId ≠ some previous) ∧ s.workflowsIn previous = 0 := by
  unfold remaining
  rw [Nat.add_eq_zero_iff, Nat.add_eq_zero_iff, Nat.add_eq_zero_iff]
  simp [List.length_eq_zero_iff, List.filter_eq_nil_iff, and_assoc]

theorem dropEmptied_eq : s.base.dropEmptied (s.workflowsIn previous) (some previous) =
    if s.remaining previous = 0 then
      { s.base with projects := s.base.projects.filter (·.id ≠ previous) }
    else s.base := by
  unfold Db.dropEmptied
  dsimp only
  by_cases hremaining : s.remaining previous = 0
  · rw [if_pos hremaining]
    obtain ⟨hagents, hconversations, htasks, hworkflows⟩ := remaining_eq_zero_iff.1 hremaining
    simp_all
  · rw [if_neg hremaining, if_neg]
    intro hall
    apply hremaining
    rw [remaining_eq_zero_iff]
    simpa [and_assoc] using hall

/-- **On the tables of Projects, agents, conversations and tasks the call is
`Db.assignAgent`**. -/
theorem assignAgent_base (h : s.assignAgent formats projectId agentId = .ok s') :
    s.base.assignAgent projectId agentId (s.hasLiveTurn agentId)
      (s.hasActiveWorkflow agentId (s.previousProject agentId))
      ((s.previousProject agentId).elim 0 s.workflowsIn) = .ok s'.base := by
  obtain ⟨_, hmove, h⟩ := bind_ok h
  obtain ⟨base, hbase, rfl⟩ := move_ok hmove
  rw [Db.assignAgent_eq, hbase]
  show Except.ok (if s.previousProject agentId = some projectId then base
    else base.dropEmptied _ (s.previousProject agentId)) = _
  cases hprevious : s.previousProject agentId with
  | none =>
    rw [hprevious] at h
    rw [← Except.ok.inj h]
    rfl
  | some previous =>
    rw [hprevious] at h
    have hdrop : base.dropEmptied (s.workflowsIn previous) (some previous) = _ :=
      dropEmptied_eq (s := { s with base := base })
    rw [Option.elim_some, hdrop]
    dsimp only at h
    split at h
    · rename_i hkept
      rw [← Except.ok.inj h]
      by_cases hsame : previous = projectId
      · rw [if_pos (by rw [hsame])]
      · rw [if_neg (by simpa using hsame), if_neg (by simpa [hsame] using hkept)]
    · rename_i hempty
      obtain ⟨hsame, hremaining⟩ := not_or.1 hempty
      rw [if_neg (by simpa using hsame), if_pos (by simpa using hremaining)]
      obtain ⟨_, hmemory, h⟩ := bind_ok h
      obtain ⟨memory, -, rfl⟩ := moveMemory_ok hmemory
      rw [← Except.ok.inj h]
      rfl

/-! ## What is left -/

variable (s) in
/-- The project has a row of synchronization, an associated workflow, or a run: one that names
it, or one without project and conversation that is bound to it. -/
def leavesRecords (projectId : String) : Prop :=
  (∃ row ∈ s.syncState, row.projectId = projectId) ∨
    (∃ row ∈ s.projectWorkflows, row.projectId = projectId) ∨
    ∃ run ∈ s.runs, run.projectId = some projectId ∨
      run.projectId = none ∧ run.conversationId = none ∧
        ∃ binding ∈ s.bindings, binding.instanceId = run.id ∧ binding.projectId = projectId

/-- Without agents, conversations and tasks, a run belongs to the project by itself or by a
binding. -/
theorem ownsRun_iff (hremaining : s.remaining previous = 0) (run : WorkflowRun) :
    s.ownsRun previous run = true ↔ run.projectId = some previous ∨
      run.projectId = none ∧ run.conversationId = none ∧
        ∃ binding ∈ s.bindings, binding.instanceId = run.id ∧ binding.projectId = previous := by
  obtain ⟨-, hconversations, htasks, -⟩ := remaining_eq_zero_iff.1 hremaining
  have hnone : s.conversationsIn previous = [] := by
    simpa [conversationsIn, List.filter_eq_nil_iff] using hconversations
  have hidle : s.tasksIn previous = [] := by
    simpa [tasksIn, List.filter_eq_nil_iff] using htasks
  simp [ownsRun, ownsLoose, hnone, hidle, and_assoc]

theorem ownsSchedule_eq_false (hremaining : s.remaining previous = 0) (schedule : Schedule) :
    s.ownsSchedule previous schedule = false := by
  obtain ⟨hagents, hconversations, htasks, -⟩ := remaining_eq_zero_iff.1 hremaining
  have hnobody : s.agentsIn previous = [] := by
    simpa [agentsIn, List.filter_eq_nil_iff] using hagents
  have hnone : s.conversationsIn previous = [] := by
    simpa [conversationsIn, List.filter_eq_nil_iff] using hconversations
  have hidle : s.tasksIn previous = [] := by
    simpa [tasksIn, List.filter_eq_nil_iff] using htasks
  simp [ownsSchedule, hnobody, hnone, hidle]

/-- **What `delete` would still count**, in a project that `assign_agent` counts empty and that
has no notes. -/
theorem ownedRecords_eq_zero_iff (hremaining : s.remaining previous = 0)
    (hnotes : ∀ n ∈ s.memory.notes, n.projectId ≠ previous) :
    s.ownedRecords previous = 0 ↔ ¬ s.leavesRecords previous := by
  have hmemory : s.memory.notes.filter (·.projectId = previous) = [] := by
    simpa [List.filter_eq_nil_iff] using hnotes
  have hschedules : s.schedules.filter (s.ownsSchedule previous) = [] := by
    rw [List.filter_eq_nil_iff]
    intro schedule _
    simp [ownsSchedule_eq_false hremaining schedule]
  have hruns : s.runs.filter (s.ownsRun previous) = [] ↔ ∀ run ∈ s.runs,
      ¬ (run.projectId = some previous ∨ run.projectId = none ∧ run.conversationId = none ∧
        ∃ binding ∈ s.bindings,
          binding.instanceId = run.id ∧ binding.projectId = previous) := by
    rw [List.filter_eq_nil_iff]
    exact forall₂_congr fun run _ => not_congr (ownsRun_iff hremaining run)
  have hsync : s.syncState.filter (·.projectId = previous) = [] ↔
      ∀ row ∈ s.syncState, row.projectId ≠ previous := by
    simp [List.filter_eq_nil_iff]
  have hassociated : s.projectWorkflows.filter (·.projectId = previous) = [] ↔
      ∀ row ∈ s.projectWorkflows, row.projectId ≠ previous := by
    simp [List.filter_eq_nil_iff]
  have hzero : s.ownedRecords previous = 0 ↔ s.runs.filter (s.ownsRun previous) = [] ∧
      s.syncState.filter (·.projectId = previous) = [] ∧
      s.projectWorkflows.filter (·.projectId = previous) = [] := by
    simp only [ownedRecords, hremaining, hmemory, hschedules, List.length_nil,
      Nat.add_eq_zero_iff, List.length_eq_zero_iff, true_and, and_true, and_assoc]
  rw [hzero, hruns, hsync, hassociated]
  simp only [leavesRecords, not_or, not_exists, not_and]
  tauto

theorem notes_of_moveMemory (hne : source ≠ target)
    (h : s.moveMemory formats source target = .ok moved) :
    ∀ n ∈ moved.memory.notes, n.projectId ≠ source := by
  obtain ⟨memory, hmemory, rfl⟩ := moveMemory_ok h
  rw [Memory.moveProjectMemory_ok hmemory]
  intro n hn
  obtain ⟨r, -, rfl⟩ := List.mem_map.1 hn
  split
  · exact hne.symm
  · assumption

/-- A call that removes the previous project has counted it empty and moved its memory. -/
theorem removed_of_assignAgent (h : s.assignAgent formats projectId agentId = .ok s')
    (hprevious : s.previousProject agentId = some previous)
    (hremoved : s'.base.project? previous = none) :
    ∃ moved, s.moveAll formats projectId agentId previous = .ok moved ∧
      s' = moved.deleteProject previous ∧ moved.remaining previous = 0 ∧
      (∀ n ∈ moved.memory.notes, n.projectId ≠ previous) ∧
      ∃ project, moved.base.project? previous = some project ∧ project.deleting = false := by
  obtain ⟨moved, hmove, h⟩ := bind_ok h
  obtain ⟨base, hbase, rfl⟩ := move_ok hmove
  obtain ⟨hprojects, hthere⟩ := projects_of_assignAgent hbase
  obtain ⟨project, hproject, hdeleting⟩ := hthere previous hprevious
  have hkept : base.project? previous = some project := by
    unfold Db.project?
    rw [hprojects]
    exact hproject
  rw [hprevious] at h
  dsimp only at h
  split at h
  · rw [← Except.ok.inj h, hkept] at hremoved
    cases hremoved
  · rename_i hempty
    obtain ⟨hsame, hremaining⟩ := not_or.1 hempty
    obtain ⟨moved, hmemory, h⟩ := bind_ok h
    have hmoved : s.moveAll formats projectId agentId previous = .ok moved := by
      unfold moveAll
      rw [hmove]
      exact hmemory
    have hnotes := notes_of_moveMemory hsame hmemory
    obtain ⟨memory, -, rfl⟩ := moveMemory_ok hmemory
    exact ⟨_, hmoved, (Except.ok.inj h).symm, not_not.1 hremaining, hnotes, project, hkept,
      hdeleting⟩

theorem leavesRecords_moveAll (h : s.moveAll formats projectId agentId source = .ok moved) :
    moved.leavesRecords previous ↔ s.leavesRecords previous := by
  obtain ⟨base, memory, rfl⟩ := moveAll_ok h
  exact Iff.rfl

/-- **What the removed project owned**: nothing that `delete` counts, exactly when the project
had no synchronization, no associated workflow and no run before the call. -/
theorem removed_owns_nothing_iff (formats : Memory.Formats) (s s' : Records)
    (projectId agentId previous : String)
    (h : s.assignAgent formats projectId agentId = .ok s')
    (hprevious : s.previousProject agentId = some previous)
    (hremoved : s'.base.project? previous = none) :
    ∃ moved, s.moveAll formats projectId agentId previous = .ok moved ∧
      s' = moved.deleteProject previous ∧
      (moved.ownedRecords previous = 0 ↔ ¬ s.leavesRecords previous) := by
  obtain ⟨moved, hmoved, hs', hremaining, hnotes, -⟩ :=
    removed_of_assignAgent h hprevious hremoved
  refine ⟨moved, hmoved, hs', ?_⟩
  rw [ownedRecords_eq_zero_iff hremaining hnotes, leavesRecords_moveAll hmoved]

/-- The agent of a project without runs and synchronization moves, and a note moves with it. -/
def lastAgent : Records where
  base :=
    { projects := [{ id := "source" }, { id := "target" }]
      agents := [{ id := "atlas", projectId := some "source" }] }
  memory := { notes := [{ id := "note", projectId := "source" }] }

theorem removed_owns_nothing_lastAgent : ∃ moved s',
    lastAgent.moveAll Memory.smallLetters "target" "atlas" "source" = .ok moved ∧
      s' = moved.deleteProject "source" ∧
      (moved.ownedRecords "source" = 0 ↔ ¬ lastAgent.leavesRecords "source") := by
  obtain ⟨moved, hmoved, hs', hiff⟩ := removed_owns_nothing_iff Memory.smallLetters lastAgent
    ((lastAgent.assignAgent Memory.smallLetters "target" "atlas").toOption.getD {}) "target"
    "atlas" "source" rfl rfl rfl
  exact ⟨moved, _, hmoved, hs', hiff⟩

/-- A project whose only run is completed and that is synchronized. -/
def completedRun : Records where
  base :=
    { projects := [{ id := "source" }, { id := "target" }]
      agents := [{ id := "atlas", projectId := some "source" }] }
  runs := [⟨"run", "review", "completed", some "source", none⟩]
  syncState := [⟨"source", "origin", "main", ".xpressclaw"⟩]
  projectWorkflows := [⟨"source", "review"⟩]

/-- A project with a completed run, a synchronization and an associated workflow is removed. -/
theorem removed_owns_completedRun : ∃ s' moved,
    completedRun.assignAgent Memory.smallLetters "target" "atlas" = .ok s' ∧
      completedRun.previousProject "atlas" = some "source" ∧
      s'.base.project? "source" = none ∧ s'.syncState = [] ∧ s'.projectWorkflows = [] ∧
      completedRun.moveAll Memory.smallLetters "target" "atlas" "source" = .ok moved ∧
      s' = moved.deleteProject "source" ∧ moved.ownedRecords "source" = 3 := by
  refine ⟨_, _, rfl, rfl, rfl, rfl, rfl, rfl, rfl, ?_⟩
  decide +kernel

/-! ## Next to `delete` -/

theorem delete_ok_iff : s.delete previous = .ok s' ↔
    (∃ project, s.base.project? previous = some project ∧ project.deleting = false) ∧
      s.ownedRecords previous = 0 ∧ s' = s.deleteProject previous := by
  unfold delete
  cases s.base.project? previous with
  | none => simp
  | some project =>
    dsimp only
    constructor
    · intro h
      obtain ⟨_, hdeleting, h⟩ := bind_ok h
      obtain ⟨_, howned, h⟩ := bind_ok h
      exact ⟨⟨project, rfl, by simpa using require_ok.1 hdeleting⟩, require_ok.1 howned,
        (Except.ok.inj h).symm⟩
    · rintro ⟨⟨_, hproject, hdeleting⟩, howned, rfl⟩
      cases hproject
      rw [require, if_pos (by simp [hdeleting]), require, if_pos howned]
      rfl

/-- **The two paths differ on runs, synchronization and associated workflows only**: without
them `delete` removes the project just as `assign_agent` does, and with them it refuses. -/
theorem delete_removed_iff (h : s.assignAgent formats projectId agentId = .ok s')
    (hprevious : s.previousProject agentId = some previous)
    (hremoved : s'.base.project? previous = none) :
    ∃ moved, s.moveAll formats projectId agentId previous = .ok moved ∧
      (moved.delete previous = .ok s' ↔ ¬ s.leavesRecords previous) := by
  obtain ⟨moved, hmoved, hs', hremaining, hnotes, hproject⟩ :=
    removed_of_assignAgent h hprevious hremoved
  refine ⟨moved, hmoved, ?_⟩
  rw [delete_ok_iff, ownedRecords_eq_zero_iff hremaining hnotes, leavesRecords_moveAll hmoved]
  exact ⟨fun h => h.2.1, fun h => ⟨hproject, h, hs'⟩⟩

end Records

end XpressClaw.Projects
