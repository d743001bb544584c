import XpressClaw.Projects.Deletion

/-!
# What a deleted Project leaves behind

`finish_cascade` deletes what a Project owns, and takes the records of other Projects out of its
Conversations and Agents before it deletes those.  Runs of workflows it does not take out.

* `Preserved` — the records of other Projects are there afterwards, up to references to deleted
  rows.
* `Apart` — no run of another Project hangs below the deleted one, and whoever works for one of
  its Agents does so with that Agent's session and attempt.
* `finish_preserves_iff` — the first holds exactly when the second does.
-/

namespace XpressClaw.Projects.Deletion

variable {db db' : Db} {id : String}

/-! ## The statement -/

/-- The primary keys that references go to. -/
structure Db.Keys (db : Db) : Prop where
  agents : (db.agents.map (·.id)).Nodup
  sessions : (db.sessions.map (·.id)).Nodup
  attempts : (db.attempts.map (·.id)).Nodup
  conversations : (db.conversations.map (·.id)).Nodup
  tasks : (db.tasks.map (·.id)).Nodup
  instances : (db.instances.map (·.id)).Nodup

/-- The owner is another Project. -/
def Foreign (id : String) (owner : Option String) : Prop := ∃ other, owner = some other ∧ other ≠ id

/-- A reference stays, or it is cleared because no row with its id is left. -/
def RefKept (left : List String) (ref ref' : Option String) : Prop :=
  ref' = ref ∨ ref' = none ∧ ∃ k, ref = some k ∧ k ∉ left

/-- A task stays up to references to deleted rows; when one is cleared, the row also gets a new
time and a new revision. -/
structure TaskKept (db' : Db) (t t' : Task) : Prop where
  id : t'.id = t.id
  projectId : t'.projectId = t.projectId
  columns : t'.columns = t.columns
  conversationId : RefKept (db'.conversations.map (·.id)) t.conversationId t'.conversationId
  agentId : RefKept (db'.agents.map (·.id)) t.agentId t'.agentId
  sessionId : RefKept (db'.sessions.map (·.id)) t.sessionId t'.sessionId
  activeAttemptId : RefKept (db'.attempts.map (·.id)) t.activeAttemptId t'.activeAttemptId
  parentTaskId : RefKept (db'.tasks.map (·.id)) t.parentTaskId t'.parentTaskId
  same : t'.conversationId = t.conversationId → t'.agentId = t.agentId →
    t'.parentTaskId = t.parentTaskId → t' = t

/-- The records of other Projects are there, up to references to deleted rows. -/
structure Preserved (id : String) (db db' : Db) : Prop where
  agents : ∀ a ∈ db.agents, Foreign id a.projectId → a ∈ db'.agents
  conversations : ∀ c ∈ db.conversations, Foreign id c.projectId → c ∈ db'.conversations
  messages : ∀ m ∈ db.messages, ∀ c ∈ db.conversations, c.id = m.conversationId →
    Foreign id c.projectId → ∃ linked, RefKept (db'.tasks.map (·.id)) m.linkedTaskId linked ∧
      { m with linkedTaskId := linked } ∈ db'.messages
  tasks : ∀ t ∈ db.tasks, Foreign id t.projectId → ∃ t' ∈ db'.tasks, TaskKept db' t t'
  taskMessages : ∀ m ∈ db.taskMessages, ∀ t ∈ db.tasks, t.id = m.taskId →
    Foreign id t.projectId → ∃ agent, RefKept (db'.agents.map (·.id)) m.agentId agent ∧
      { m with agentId := agent } ∈ db'.taskMessages
  workflows : ∀ w ∈ db.workflows, Foreign id w.projectId → w ∈ db'.workflows
  runs : ∀ i ∈ db.instances, Foreign id i.projectId → ∃ conversation,
    RefKept (db'.conversations.map (·.id)) i.conversationId conversation ∧
      { i with conversationId := conversation } ∈ db'.instances
  notes : ∀ n ∈ db.notes, n.projectId ≠ id → ∃ task attempt,
    RefKept (db'.tasks.map (·.id)) n.sourceTaskId task ∧
      RefKept (db'.attempts.map (·.id)) n.sourceAttemptId attempt ∧
      { n with sourceTaskId := task, sourceAttemptId := attempt } ∈ db'.notes

/-- No run of another Project hangs below the Project, and a task of another Project that is
assigned to one of its Agents has the session and the attempt of such an Agent. -/
structure Apart (id : String) (db : Db) : Prop where
  runs : ∀ i ∈ db.instances, Foreign id i.projectId →
    (∀ c ∈ i.conversationId, c ∉ db.conversationsOf id) ∧
      (∀ t ∈ i.sourceTaskId, t ∉ db.tasksOf id) ∧ i.workflowId ∉ db.workflowsOf id
  sessions : ∀ t ∈ db.tasks, Foreign id t.projectId → (∃ a ∈ t.agentId, a ∈ db.agentsOf id) →
    ∀ x ∈ db.sessions, t.sessionId = some x.id → x.id ∈ db.sessionsOf id
  attempts : ∀ t ∈ db.tasks, Foreign id t.projectId → (∃ a ∈ t.agentId, a ∈ db.agentsOf id) →
    ∀ a ∈ db.attempts, t.activeAttemptId = some a.id →
      (∃ k ∈ a.taskId, k ∈ db.tasksOf id) ∨ a.sessionId ∈ db.sessionsOf id

/-! ## References -/

theorem Foreign.ne {owner : Option String} (h : Foreign id owner) : owner ≠ some id := by
  obtain ⟨other, rfl, hne⟩ := h
  simpa using hne

theorem RefKept.refl (left : List String) (ref : Option String) : RefKept left ref ref := Or.inl rfl

theorem RefKept.eq_of_mem {left : List String} {k : String} {ref' : Option String}
    (h : RefKept left (some k) ref') (hk : k ∈ left) : ref' = some k := by
  rcases h with h | ⟨-, k', hk', hgone⟩
  · exact h
  · cases hk'
    exact absurd hk hgone

theorem setNull_kept {left gone : List String} (hgone : ∀ k ∈ gone, k ∉ left)
    (ref : Option String) : RefKept left ref (setNull gone ref) := by
  unfold setNull
  cases ref with
  | none => exact Or.inl rfl
  | some k =>
    by_cases hk : k ∈ gone
    · exact Or.inr ⟨by simp [hk], k, rfl, hgone k hk⟩
    · exact Or.inl (by simp [hk])

theorem any_of_notMem {gone : List String} {ref : Option String} (h : ∀ k ∈ ref, k ∉ gone) :
    ref.any (· ∈ gone) = false := by
  cases ref with
  | none => rfl
  | some k => simp [h k rfl]

theorem any_of_setNull {gone : List String} {ref : Option String} (h : setNull gone ref = ref) :
    ref.any (· ∈ gone) = false := by
  cases ref with
  | none => rfl
  | some k =>
    by_contra hany
    rw [setNull, if_pos (by simpa using hany)] at h
    cases h

theorem notMem_left {ρ : Type} {key : ρ → String} {goes : ρ → Prop} [DecidablePred goes]
    {rows : List ρ} (hkeys : (rows.map key).Nodup) {k : String}
    (hk : k ∈ (rows.filter fun r => goes r).map key) :
    ∀ r ∈ rows, key r = k → goes r := by
  obtain ⟨r₀, hr₀, rfl⟩ := List.mem_map.1 hk
  obtain ⟨hr₀, hgoes⟩ := List.mem_filter.1 hr₀
  intro r hr hsame
  rw [List.inj_on_of_nodup_map hkeys hr hr₀ hsame]
  simpa using hgoes

theorem setNull_of_notMem {gone : List String} {ref : Option String}
    (h : ∀ k ∈ ref, k ∉ gone) : setNull gone ref = ref := by
  unfold setNull
  cases ref with
  | none => rfl
  | some k => simp [h k rfl]

/-! ## The tables afterwards -/

namespace Db

/-- The database after the Conversations of a Project are deleted. -/
def withoutConversations (db : Db) (id : String) : Db :=
  ((db.detach id).deleteWork id).deleteConversations id

/-- The database before the row of a Project is deleted. -/
def beforeProject (db : Db) (id : String) : Db :=
  let db := (((db.withoutConversations id).deleteTasks id).deleteSessions id).deleteAgents id
  { db with notes := db.notes.filter (·.projectId ≠ id) }

theorem cascade_eq : db.cascade id = (db.beforeProject id).deleteProject id := rfl

theorem detach_same : (db.detach id).agents = db.agents ∧
    (db.detach id).sessions = db.sessions ∧ (db.detach id).conversations = db.conversations ∧
    (db.detach id).workflows = db.workflows ∧ (db.detach id).taskMessages = db.taskMessages :=
  ⟨rfl, rfl, rfl, rfl, rfl⟩

theorem deleteWork_same : (db.deleteWork id).agents = db.agents ∧
    (db.deleteWork id).sessions = db.sessions ∧
    (db.deleteWork id).conversations = db.conversations ∧
    (db.deleteWork id).workflows = db.workflows ∧
    (db.deleteWork id).taskMessages = db.taskMessages :=
  ⟨rfl, rfl, rfl, rfl, rfl⟩

theorem deleteConversations_same : (db.deleteConversations id).agents = db.agents ∧
    (db.deleteConversations id).sessions = db.sessions ∧
    (db.deleteConversations id).workflows = db.workflows ∧
    (db.deleteConversations id).taskMessages = db.taskMessages :=
  ⟨rfl, rfl, rfl, rfl⟩

theorem deleteTasks_same : (db.deleteTasks id).agents = db.agents ∧
    (db.deleteTasks id).sessions = db.sessions ∧
    (db.deleteTasks id).conversations = db.conversations ∧
    (db.deleteTasks id).workflows = db.workflows :=
  ⟨rfl, rfl, rfl, rfl⟩

theorem deleteSessions_same : (db.deleteSessions id).agents = db.agents ∧
    (db.deleteSessions id).conversations = db.conversations ∧
    (db.deleteSessions id).workflows = db.workflows ∧
    (db.deleteSessions id).taskMessages = db.taskMessages :=
  ⟨rfl, rfl, rfl, rfl⟩

theorem withoutConversations_same : (db.withoutConversations id).agents = db.agents ∧
    (db.withoutConversations id).sessions = db.sessions ∧
    (db.withoutConversations id).conversations =
      db.conversations.filter (·.projectId ≠ some id) ∧
    (db.withoutConversations id).workflows = db.workflows ∧
    (db.withoutConversations id).taskMessages = db.taskMessages := by
  have hconversations (d : Db) : (d.deleteConversations id).conversations =
      d.conversations.filter (·.projectId ≠ some id) := rfl
  simp only [withoutConversations, deleteConversations_same, hconversations, deleteWork_same,
    detach_same, and_self]

theorem agents_beforeProject :
    (db.beforeProject id).agents = db.agents.filter (·.projectId ≠ some id) := by
  simp only [beforeProject, deleteAgents, deleteSessions_same, deleteTasks_same,
    withoutConversations_same]

theorem conversations_beforeProject :
    (db.beforeProject id).conversations = db.conversations.filter (·.projectId ≠ some id) := by
  simp only [beforeProject, deleteAgents, deleteSessions_same, deleteTasks_same,
    withoutConversations_same]

theorem workflows_beforeProject : (db.beforeProject id).workflows = db.workflows := by
  simp only [beforeProject, deleteAgents, deleteSessions_same, deleteTasks_same,
    withoutConversations_same]

theorem sessions_beforeProject :
    (db.beforeProject id).sessions = db.sessions.filter (·.agentId ∉ db.agentsOf id) := by
  have hagents : ((db.withoutConversations id).deleteTasks id).agentsOf id = db.agentsOf id := by
    simp only [agentsOf, deleteTasks_same, withoutConversations_same]
  simp only [beforeProject, deleteAgents, deleteSessions, deleteAttempts, hagents,
    deleteTasks_same, withoutConversations_same]

theorem agents_deleteProject : (db.deleteProject id).agents =
    db.agents.map fun a => { a with projectId := setNull [id] a.projectId } := rfl

theorem conversations_deleteProject : (db.deleteProject id).conversations =
    db.conversations.filter (·.projectId ≠ some id) := rfl

theorem workflows_deleteProject :
    (db.deleteProject id).workflows = db.workflows.filter (·.projectId ≠ some id) := rfl

theorem sessions_deleteProject : (db.deleteProject id).sessions = db.sessions := rfl

theorem agents_cascade : (db.cascade id).agents = db.agents.filter (·.projectId ≠ some id) := by
  have hagents : (db.cascade id).agents = (db.agents.filter (·.projectId ≠ some id)).map
      fun a => { a with projectId := setNull [id] a.projectId } := by
    rw [cascade_eq, agents_deleteProject, agents_beforeProject]
  rw [hagents]
  conv_rhs => rw [← List.map_id (db.agents.filter _)]
  refine List.map_congr_left fun a ha => ?_
  have hne : a.projectId ≠ some id := by simpa using (List.mem_filter.1 ha).2
  have hsame : setNull [id] a.projectId = a.projectId :=
    setNull_of_notMem fun k hk hmem => hne (by rw [← List.mem_singleton.1 hmem]; exact hk)
  rw [hsame]
  rfl

theorem conversations_cascade :
    (db.cascade id).conversations = db.conversations.filter (·.projectId ≠ some id) := by
  rw [cascade_eq, conversations_deleteProject, conversations_beforeProject, List.filter_filter]
  simp

theorem workflows_cascade :
    (db.cascade id).workflows = db.workflows.filter (·.projectId ≠ some id) := by
  rw [cascade_eq, workflows_deleteProject, workflows_beforeProject]

theorem sessions_cascade :
    (db.cascade id).sessions = db.sessions.filter (·.agentId ∉ db.agentsOf id) := by
  rw [cascade_eq, sessions_deleteProject, sessions_beforeProject]

/-- A task that is taken out of the Project. -/
def detachTask (db : Db) (id : String) (t : Task) : Task :=
  let t :=
    if t.projectId ≠ some id ∧ t.conversationId.any (· ∈ db.conversationsOf id) then
      { t with conversationId := none, updatedAt := db.now }.bump
    else t
  if t.projectId ≠ some id ∧ t.agentId.any (· ∈ db.agentsOf id) then
    { t with agentId := none, sessionId := none, activeAttemptId := none, updatedAt := db.now }.bump
  else t

theorem tasks_detach : (db.detach id).tasks = db.tasks.map (db.detachTask id) := by
  show (db.tasks.map _).map _ = _
  rw [List.map_map]
  rfl

theorem id_detachTask (t : Task) : (db.detachTask id t).id = t.id ∧
    (db.detachTask id t).projectId = t.projectId ∧ (db.detachTask id t).columns = t.columns ∧
    (db.detachTask id t).parentTaskId = t.parentTaskId := by
  unfold detachTask
  dsimp only
  split <;> split <;> exact ⟨rfl, rfl, rfl, rfl⟩

theorem tasksOf_detach : (db.detach id).tasksOf id = db.tasksOf id := by
  unfold tasksOf
  rw [tasks_detach, List.filter_map, List.map_map]
  have hfilter : db.tasks.filter ((fun t => decide (t.projectId = some id)) ∘ db.detachTask id) =
      db.tasks.filter (·.projectId = some id) :=
    List.filter_congr fun t _ => by simp [(id_detachTask t).2.1]
  rw [hfilter]
  exact List.map_congr_left fun t _ => (id_detachTask t).1

/-- A task whose parent is deleted. -/
def orphan (db : Db) (id : String) (t : Task) : Task :=
  if t.parentTaskId.any (· ∈ db.tasksOf id) then { t with parentTaskId := none }.bump else t

theorem id_orphan (t : Task) :
    (db.orphan id t).id = t.id ∧ (db.orphan id t).projectId = t.projectId := by
  unfold orphan
  split <;> exact ⟨rfl, rfl⟩

theorem tasks_cascade : (db.cascade id).tasks =
    (db.tasks.filter (·.projectId ≠ some id)).map fun t => db.orphan id (db.detachTask id t) := by
  have horphan : (db.detach id).orphan id = db.orphan id := by
    funext t
    rw [orphan, tasksOf_detach, orphan]
  show (((db.detach id).tasks.filter (·.projectId ≠ some id)).map ((db.detach id).orphan id)).map
    (fun t => if t.projectId = some id then { t with projectId := none }.bump else t) = _
  rw [horphan, tasks_detach, List.filter_map, List.map_map, List.map_map]
  have hfilter : db.tasks.filter ((fun t => decide (t.projectId ≠ some id)) ∘ db.detachTask id) =
      db.tasks.filter (·.projectId ≠ some id) :=
    List.filter_congr fun t _ => by simp [(id_detachTask t).2.1]
  rw [hfilter]
  refine List.map_congr_left fun t ht => ?_
  have hne : t.projectId ≠ some id := by simpa using (List.mem_filter.1 ht).2
  simp [(id_orphan _).2, (id_detachTask t).2.1, hne]

/-- An attempt is deleted with its task or its session. -/
def losesAttempt (db : Db) (id : String) (a : Attempt) : Bool :=
  a.taskId.any (· ∈ db.tasksOf id) || a.sessionId ∈ db.sessionsOf id

theorem losesAttempt_detach : (fun a : Attempt => a.taskId.any (· ∈ (db.detach id).tasksOf id) ||
    decide (a.sessionId ∈ (db.detach id).sessionsOf id)) = db.losesAttempt id := by
  funext a
  rw [tasksOf_detach]
  rfl

theorem attempts_cascade : ∃ f : Attempt → Attempt, (∀ a, (f a).id = a.id ∧
    (f a).sessionId = a.sessionId) ∧ (db.cascade id).attempts =
      ((db.attempts.filter fun a => !db.losesAttempt id a).map f).filter
        fun a => !decide (a.sessionId ∈ db.sessionsOf id) := by
  refine ⟨fun a => { a with
    taskId := setNull ((((db.detach id).deleteWork id).deleteConversations id).tasksOf id)
      a.taskId }, fun a => ⟨rfl, rfl⟩, ?_⟩
  unfold cascade deleteProject deleteAgents deleteSessions deleteTasks deleteConversations
    deleteWork
  rw [losesAttempt_detach]
  rfl

theorem mem_attempts_cascade {k : String} : k ∈ (db.cascade id).attempts.map (·.id) ↔
    ∃ a ∈ db.attempts, a.id = k ∧ db.losesAttempt id a = false := by
  obtain ⟨f, hf, heq⟩ := @attempts_cascade db id
  rw [heq]
  constructor
  · intro hk
    obtain ⟨a', ha', rfl⟩ := List.mem_map.1 hk
    obtain ⟨a, ha, rfl⟩ := List.mem_map.1 (List.mem_filter.1 ha').1
    obtain ⟨ha, hkept⟩ := List.mem_filter.1 ha
    exact ⟨a, ha, (hf a).1.symm, by simpa using hkept⟩
  · rintro ⟨a, ha, rfl, hkept⟩
    refine List.mem_map.2 ⟨f a, List.mem_filter.2 ⟨List.mem_map_of_mem
      (List.mem_filter.2 ⟨ha, by simp [hkept]⟩), ?_⟩, (hf a).1⟩
    have hsession : a.sessionId ∉ db.sessionsOf id := by
      simp only [losesAttempt, Bool.or_eq_false_iff, decide_eq_false_iff_not] at hkept
      exact hkept.2
    simp [(hf a).2, hsession]

theorem instances_beforeProject : (db.beforeProject id).instances =
    (db.withoutConversations id).instances.filter
      fun i => !i.sourceTaskId.any (· ∈ (db.withoutConversations id).tasksOf id) := by
  unfold beforeProject deleteAgents deleteSessions deleteTasks
  rfl

theorem tasksOf_withoutConversations :
    (db.withoutConversations id).tasksOf id = db.tasksOf id :=
  tasksOf_detach

theorem workflowsOf_beforeProject : (db.beforeProject id).workflowsOf id = db.workflowsOf id := by
  rw [workflowsOf, workflows_beforeProject, workflowsOf]

theorem instances_withoutConversations : ∃ owns : Instance → Bool,
    (∀ i, i.projectId ≠ some id → i.projectId ≠ none →
      owns i = i.conversationId.any (· ∈ db.conversationsOf id)) ∧
    (∀ i, i.conversationId.any (· ∈ db.conversationsOf id) = true → owns i = true) ∧
    (db.withoutConversations id).instances = (db.instances.filter fun i => !owns i).map fun i =>
      { i with conversationId := setNull (db.conversationsOf id) i.conversationId } := by
  refine ⟨fun i => ((db.detach id).deleteAttempts fun a =>
    a.taskId.any (· ∈ (db.detach id).tasksOf id) || a.sessionId ∈ (db.detach id).sessionsOf id
    ).ownsInstance id i, fun i hproject hnone => ?_, fun i hconversation => ?_, ?_⟩
  · simp only [ownsInstance, ownsLoose, hproject, hnone, decide_false, Bool.false_and,
      Bool.false_or, Bool.or_false]
    rfl
  · have hany : i.conversationId.any (· ∈ ((db.detach id).deleteAttempts fun a =>
        a.taskId.any (· ∈ (db.detach id).tasksOf id) ||
          a.sessionId ∈ (db.detach id).sessionsOf id).conversationsOf id) = true := hconversation
    simp only [ownsInstance, hany, Bool.or_true, Bool.true_or]
  · unfold withoutConversations deleteConversations deleteWork
    rfl

theorem conversationsOf_beforeProject : (db.beforeProject id).conversationsOf id = [] := by
  rw [conversationsOf, conversations_beforeProject, List.filter_filter]
  simp

theorem instances_deleteProject (d : Db) : (d.deleteProject id).instances =
    ((d.instances.map fun i =>
      { i with conversationId := setNull (d.conversationsOf id) i.conversationId }).filter
        fun i => !decide (i.workflowId ∈ d.workflowsOf id)).map
          fun i => { i with projectId := setNull [id] i.projectId } := by
  unfold deleteProject deleteConversations deleteInstances
  rfl

/-- A run is deleted with its Conversation, its source task or its workflow. -/
def losesRun (db : Db) (id : String) (i : Instance) : Bool :=
  i.conversationId.any (· ∈ db.conversationsOf id) || i.sourceTaskId.any (· ∈ db.tasksOf id) ||
    decide (i.workflowId ∈ db.workflowsOf id)

theorem notMem_of_any {gone : List String} {ref : Option String}
    (h : ref.any (· ∈ gone) = false) : ∀ k ∈ ref, k ∉ gone := by
  rintro k rfl
  simpa using h

/-- A run of another Project that hangs nowhere below the Project is left alone. -/
theorem mem_instances_cascade {i : Instance} (hi : i ∈ db.instances)
    (hforeign : Foreign id i.projectId) (hkept : db.losesRun id i = false) :
    i ∈ (db.cascade id).instances := by
  simp only [losesRun, Bool.or_eq_false_iff, decide_eq_false_iff_not] at hkept
  obtain ⟨⟨hconversation, hsource⟩, hworkflow⟩ := hkept
  obtain ⟨owns, hforeignOwns, -, hinstances⟩ :=
    @instances_withoutConversations db id
  have hproject : i.projectId ≠ some id := hforeign.ne
  have hstays : i ∈ (db.withoutConversations id).instances := by
    have hnone : i.projectId ≠ none := by
      obtain ⟨other, hother, -⟩ := hforeign
      simp [hother]
    rw [hinstances]
    refine List.mem_map.2 ⟨i, List.mem_filter.2 ⟨hi, ?_⟩, ?_⟩
    · rw [hforeignOwns i hproject hnone, hconversation]
      rfl
    · rw [setNull_of_notMem (notMem_of_any hconversation)]
  have hbefore : i ∈ (db.beforeProject id).instances := by
    rw [instances_beforeProject, tasksOf_withoutConversations]
    exact List.mem_filter.2 ⟨hstays, by rw [hsource]; rfl⟩
  rw [cascade_eq, instances_deleteProject, conversationsOf_beforeProject,
    workflowsOf_beforeProject]
  refine List.mem_map.2 ⟨i, List.mem_filter.2 ⟨List.mem_map.2 ⟨i, hbefore, ?_⟩, ?_⟩, ?_⟩
  · rw [setNull_of_notMem (by simp)]
  · simp [hworkflow]
  · rw [setNull_of_notMem fun k hk hmem => hproject (by rw [← List.mem_singleton.1 hmem]; exact hk)]

/-- A run that is left hangs nowhere below the Project. -/
theorem losesRun_of_mem {i' : Instance} (h : i' ∈ (db.cascade id).instances) :
    ∃ i ∈ db.instances, i.id = i'.id ∧ db.losesRun id i = false := by
  obtain ⟨owns, -, howns, hinstances⟩ := @instances_withoutConversations db id
  rw [cascade_eq, instances_deleteProject, workflowsOf_beforeProject] at h
  obtain ⟨i₃, h₃, rfl⟩ := List.mem_map.1 h
  obtain ⟨h₃, hworkflow⟩ := List.mem_filter.1 h₃
  obtain ⟨i₂, h₂, rfl⟩ := List.mem_map.1 h₃
  rw [instances_beforeProject, tasksOf_withoutConversations, hinstances] at h₂
  obtain ⟨h₂, hsource⟩ := List.mem_filter.1 h₂
  obtain ⟨i, h₁, rfl⟩ := List.mem_map.1 h₂
  obtain ⟨hi, hkept⟩ := List.mem_filter.1 h₁
  refine ⟨i, hi, rfl, ?_⟩
  have hconversation : i.conversationId.any (· ∈ db.conversationsOf id) = false := by
    by_contra hany
    rw [howns i (by simpa using hany)] at hkept
    cases hkept
  simp only [losesRun, hconversation, Bool.false_or, Bool.or_eq_false_iff]
  exact ⟨by simpa using hsource, by simpa using hworkflow⟩

/-! ### Messages and notes -/

theorem messages_beforeProject : (db.beforeProject id).messages =
    (db.messages.filter (·.conversationId ∉ db.conversationsOf id)).map fun m =>
      { m with linkedTaskId :=
          setNull ((db.withoutConversations id).tasksOf id) m.linkedTaskId } := by
  unfold beforeProject deleteAgents deleteSessions deleteTasks
  rfl

theorem mem_messages_cascade {m : ConversationMessage} (hm : m ∈ db.messages)
    (hkept : m.conversationId ∉ db.conversationsOf id) :
    { m with linkedTaskId := setNull (db.tasksOf id) m.linkedTaskId } ∈
      (db.cascade id).messages := by
  have hmessages : (db.cascade id).messages = (db.beforeProject id).messages.filter
      (·.conversationId ∉ (db.beforeProject id).conversationsOf id) := by
    rw [cascade_eq]
    unfold deleteProject deleteConversations deleteInstances
    rfl
  rw [hmessages, conversationsOf_beforeProject, messages_beforeProject,
    tasksOf_withoutConversations]
  refine List.mem_filter.2 ⟨List.mem_map.2 ⟨m, List.mem_filter.2 ⟨hm, ?_⟩, rfl⟩, by simp⟩
  simpa using hkept

theorem mem_taskMessages_cascade {m : TaskMessage} (hm : m ∈ db.taskMessages)
    (hkept : m.taskId ∉ db.tasksOf id) :
    { m with agentId := setNull (db.agentsOf id) m.agentId } ∈ (db.cascade id).taskMessages := by
  have hmessages : (db.cascade id).taskMessages =
      (db.taskMessages.filter (·.taskId ∉ (db.withoutConversations id).tasksOf id)).map fun m =>
        { m with agentId := setNull (db.agentsOf id) m.agentId } := by
    rw [cascade_eq]
    unfold deleteProject deleteConversations deleteInstances beforeProject deleteAgents
      deleteSessions deleteTasks
    rfl
  rw [hmessages, tasksOf_withoutConversations]
  exact List.mem_map.2 ⟨m, List.mem_filter.2 ⟨hm, by simpa using hkept⟩, rfl⟩

/-- The attempts that go with the sessions of a Project went before. -/
def latestAttempts (db : Db) (id : String) : List String :=
  ((((db.withoutConversations id).deleteTasks id).attempts.filter
    fun a => decide (a.sessionId ∈ db.sessionsOf id))).map (·.id)

theorem latestAttempts_eq : db.latestAttempts id = [] := by
  have hattempts : ((db.withoutConversations id).deleteTasks id).attempts =
      (db.attempts.filter fun a => !db.losesAttempt id a).map fun a => { a with
        taskId := setNull ((db.withoutConversations id).tasksOf id) a.taskId } := by
    rw [← losesAttempt_detach]
    unfold deleteTasks deleteInstances
    rfl
  unfold latestAttempts
  rw [hattempts, List.map_eq_nil_iff, List.filter_eq_nil_iff]
  intro a' ha'
  obtain ⟨a, ha, rfl⟩ := List.mem_map.1 ha'
  have hkept := (List.mem_filter.1 ha).2
  simp only [losesAttempt, Bool.not_eq_true', Bool.or_eq_false_iff] at hkept
  simpa using hkept.2

/-- A note whose attempt or task is deleted. -/
def forgetAttempts (gone : List String) (n : MemoryNote) : MemoryNote :=
  { n with sourceAttemptId := setNull gone n.sourceAttemptId }

def forgetTasks (gone : List String) (n : MemoryNote) : MemoryNote :=
  { n with sourceTaskId := setNull gone n.sourceTaskId }

theorem mem_notes_cascade {n : MemoryNote} (hn : n ∈ db.notes) (hkept : n.projectId ≠ id) :
    { n with
      sourceTaskId := setNull (db.tasksOf id) n.sourceTaskId
      sourceAttemptId :=
        setNull ((db.attempts.filter (db.losesAttempt id)).map (·.id)) n.sourceAttemptId } ∈
          (db.cascade id).notes := by
  have hnotes : (db.cascade id).notes =
      ((((db.notes.map (forgetAttempts ((db.attempts.filter (db.losesAttempt id)).map (·.id)))).map
        (forgetTasks ((db.withoutConversations id).tasksOf id))).map
        (forgetAttempts (db.latestAttempts id))).filter (·.projectId ≠ id)).filter
        (·.projectId ≠ id) := by
    rw [← losesAttempt_detach, cascade_eq]
    unfold deleteProject deleteConversations deleteInstances beforeProject deleteAgents
      deleteSessions deleteTasks
    rfl
  rw [hnotes, latestAttempts_eq, tasksOf_withoutConversations, List.map_map, List.map_map]
  refine List.mem_filter.2 ⟨List.mem_filter.2 ⟨List.mem_map.2 ⟨n, hn, ?_⟩, ?_⟩, ?_⟩
  · simp only [Function.comp_apply, forgetAttempts, forgetTasks]
    rw [setNull_of_notMem fun k _ hk => absurd hk List.not_mem_nil]
  · simpa using hkept
  · simpa using hkept

/-! ### The columns of a task -/

/-- The Agent of a task is one of the Project's. -/
def assigned (db : Db) (id : String) (t : Task) : Bool := t.agentId.any (· ∈ db.agentsOf id)

theorem detachTask_columns {t : Task} (hproject : t.projectId ≠ some id) :
    (db.detachTask id t).conversationId = setNull (db.conversationsOf id) t.conversationId ∧
      (db.detachTask id t).agentId = setNull (db.agentsOf id) t.agentId ∧
      (db.detachTask id t).sessionId = (if db.assigned id t then none else t.sessionId) ∧
      (db.detachTask id t).activeAttemptId =
        if db.assigned id t then none else t.activeAttemptId := by
  unfold detachTask setNull assigned Task.bump
  by_cases hconversation : t.conversationId.any (· ∈ db.conversationsOf id) = true <;>
    by_cases hagent : t.agentId.any (· ∈ db.agentsOf id) = true <;>
    simp [hproject, hconversation, hagent]

theorem detachTask_eq_self {t : Task}
    (hconversation : t.conversationId.any (· ∈ db.conversationsOf id) = false)
    (hagent : db.assigned id t = false) : db.detachTask id t = t := by
  unfold assigned at hagent
  simp [detachTask, hconversation, hagent]

theorem orphan_columns (t : Task) :
    (db.orphan id t).columns = t.columns ∧ (db.orphan id t).conversationId = t.conversationId ∧
      (db.orphan id t).agentId = t.agentId ∧ (db.orphan id t).sessionId = t.sessionId ∧
      (db.orphan id t).activeAttemptId = t.activeAttemptId ∧
      (db.orphan id t).parentTaskId = setNull (db.tasksOf id) t.parentTaskId := by
  unfold orphan setNull
  split <;> exact ⟨rfl, rfl, rfl, rfl, rfl, rfl⟩

/-! ### What is gone -/

theorem Keys.agents_gone (h : db.Keys) :
    ∀ k ∈ db.agentsOf id, k ∉ (db.cascade id).agents.map (·.id) := by
  intro k hk hleft
  rw [agents_cascade] at hleft
  obtain ⟨a, ha, hid⟩ := List.mem_map.1 hleft
  obtain ⟨ha, hne⟩ := List.mem_filter.1 ha
  have hgoes := notMem_left h.agents hk a ha hid
  simp [hgoes] at hne

theorem Keys.conversations_gone (h : db.Keys) :
    ∀ k ∈ db.conversationsOf id, k ∉ (db.cascade id).conversations.map (·.id) := by
  intro k hk hleft
  rw [conversations_cascade] at hleft
  obtain ⟨c, hc, hid⟩ := List.mem_map.1 hleft
  obtain ⟨hc, hne⟩ := List.mem_filter.1 hc
  have hgoes := notMem_left h.conversations hk c hc hid
  simp [hgoes] at hne

theorem Keys.tasks_gone (h : db.Keys) :
    ∀ k ∈ db.tasksOf id, k ∉ (db.cascade id).tasks.map (·.id) := by
  intro k hk hleft
  rw [tasks_cascade, List.map_map] at hleft
  obtain ⟨t, ht, hid⟩ := List.mem_map.1 hleft
  obtain ⟨ht, hne⟩ := List.mem_filter.1 ht
  have hgoes := notMem_left h.tasks hk t ht
    (by rw [← hid, Function.comp_apply, (id_orphan _).1, (id_detachTask t).1])
  simp [hgoes] at hne

theorem Keys.sessions_gone (h : db.Keys) :
    ∀ k ∈ db.sessionsOf id, k ∉ (db.cascade id).sessions.map (·.id) := by
  intro k hk hleft
  rw [sessions_cascade] at hleft
  obtain ⟨x, hx, hid⟩ := List.mem_map.1 hleft
  obtain ⟨hx, hne⟩ := List.mem_filter.1 hx
  have hgoes := notMem_left h.sessions hk x hx hid
  simp [hgoes] at hne

theorem Keys.attempts_gone (h : db.Keys) :
    ∀ k ∈ (db.attempts.filter (db.losesAttempt id)).map (·.id),
      k ∉ (db.cascade id).attempts.map (·.id) := by
  intro k hk hleft
  obtain ⟨a, ha, hid, hkept⟩ := mem_attempts_cascade.1 hleft
  obtain ⟨a₀, ha₀, rfl⟩ := List.mem_map.1 hk
  obtain ⟨ha₀, hloses⟩ := List.mem_filter.1 ha₀
  rw [List.inj_on_of_nodup_map h.attempts ha ha₀ hid, hloses] at hkept
  cases hkept

end Db

/-! ## The result -/

/-- What a task of another Project becomes. -/
theorem taskKept_cascade (hkeys : db.Keys) (hapart : Apart id db) {t : Task} (ht : t ∈ db.tasks)
    (hforeign : Foreign id t.projectId) :
    TaskKept (db.cascade id) t (db.orphan id (db.detachTask id t)) := by
  obtain ⟨hconversation, hagent, hsession, hattempt⟩ :=
    @Db.detachTask_columns db id _ hforeign.ne
  obtain ⟨hid, hproject, hcolumns, hparent⟩ := @Db.id_detachTask db id t
  obtain ⟨hcolumns', hconversation', hagent', hsession', hattempt', hparent'⟩ :=
    @Db.orphan_columns db id (db.detachTask id t)
  have hclears : ∀ {left : List String} {ref : Option String},
      ((∃ a ∈ t.agentId, a ∈ db.agentsOf id) → ∀ k, ref = some k → k ∉ left) →
      RefKept left ref (if db.assigned id t then none else ref) := by
    intro left ref hleft
    split
    · next hassigned =>
        have hagent : ∃ a ∈ t.agentId, a ∈ db.agentsOf id := by
          simpa [Db.assigned, Option.any_eq_true] using hassigned
        cases ref with
        | none => exact Or.inl rfl
        | some k => exact Or.inr ⟨rfl, k, rfl, hleft hagent k rfl⟩
    · exact .refl _ _
  constructor
  case id => rw [(Db.id_orphan _).1, hid]
  case projectId => rw [(Db.id_orphan _).2, hproject]
  case columns => rw [hcolumns', hcolumns]
  case conversationId =>
    rw [hconversation', hconversation]
    exact setNull_kept hkeys.conversations_gone _
  case agentId =>
    rw [hagent', hagent]
    exact setNull_kept hkeys.agents_gone _
  case sessionId =>
    rw [hsession', hsession]
    refine hclears fun hassigned k hk hleft => ?_
    obtain ⟨x, hx, rfl⟩ := List.mem_map.1 hleft
    rw [Db.sessions_cascade] at hx
    exact hkeys.sessions_gone _ (hapart.sessions t ht hforeign hassigned x
      (List.mem_filter.1 hx).1 hk) hleft
  case activeAttemptId =>
    rw [hattempt', hattempt]
    refine hclears fun hassigned k hk hleft => ?_
    obtain ⟨a, ha, rfl, hkept⟩ := Db.mem_attempts_cascade.1 hleft
    have hloses := hapart.attempts t ht hforeign hassigned a ha hk
    have hany : db.losesAttempt id a = true := by
      simpa [Db.losesAttempt, Option.any_eq_true] using hloses
    rw [hany] at hkept
    cases hkept
  case parentTaskId =>
    rw [hparent', hparent]
    exact setNull_kept hkeys.tasks_gone _
  case same =>
    intro hsame₁ hsame₂ hsame₃
    rw [hconversation', hconversation] at hsame₁
    rw [hagent', hagent] at hsame₂
    rw [hparent', hparent] at hsame₃
    have hkept := Db.detachTask_eq_self (any_of_setNull hsame₁) (any_of_setNull hsame₂)
    rw [hkept, Db.orphan, any_of_setNull hsame₃]
    rfl

theorem finishCascade_ok (h : db.finishCascade id = .ok db') : db' = db.cascade id := by
  unfold Db.finishCascade at h
  split at h
  · cases h
  · split at h
    · cases h
    · cases h
      rfl

theorem losesRun_of_apart (hapart : Apart id db) {i : Instance} (hi : i ∈ db.instances)
    (hforeign : Foreign id i.projectId) : db.losesRun id i = false := by
  obtain ⟨hconversation, hsource, hworkflow⟩ := hapart.runs i hi hforeign
  simp only [Db.losesRun, Bool.or_eq_false_iff, decide_eq_false_iff_not]
  exact ⟨⟨any_of_notMem hconversation, any_of_notMem hsource⟩, hworkflow⟩

theorem preserved_of_apart (hkeys : db.Keys) (hapart : Apart id db) :
    Preserved id db (db.cascade id) := by
  constructor
  case agents =>
    intro a ha hforeign
    rw [Db.agents_cascade]
    exact List.mem_filter.2 ⟨ha, by simpa using hforeign.ne⟩
  case conversations =>
    intro c hc hforeign
    rw [Db.conversations_cascade]
    exact List.mem_filter.2 ⟨hc, by simpa using hforeign.ne⟩
  case messages =>
    intro m hm c hc hid hforeign
    refine ⟨_, setNull_kept hkeys.tasks_gone _, Db.mem_messages_cascade hm fun hgone => ?_⟩
    exact hforeign.ne (notMem_left hkeys.conversations hgone c hc hid)
  case tasks =>
    intro t ht hforeign
    refine ⟨_, ?_, taskKept_cascade hkeys hapart ht hforeign⟩
    rw [Db.tasks_cascade]
    exact List.mem_map.2 ⟨t, List.mem_filter.2 ⟨ht, by simpa using hforeign.ne⟩, rfl⟩
  case taskMessages =>
    intro m hm t ht hid hforeign
    refine ⟨_, setNull_kept hkeys.agents_gone _, Db.mem_taskMessages_cascade hm fun hgone => ?_⟩
    exact hforeign.ne (notMem_left hkeys.tasks hgone t ht hid)
  case workflows =>
    intro w hw hforeign
    rw [Db.workflows_cascade]
    exact List.mem_filter.2 ⟨hw, by simpa using hforeign.ne⟩
  case runs =>
    intro i hi hforeign
    exact ⟨i.conversationId, .refl _ _,
      Db.mem_instances_cascade hi hforeign (losesRun_of_apart hapart hi hforeign)⟩
  case notes =>
    intro n hn hne
    exact ⟨_, _, setNull_kept hkeys.tasks_gone _, setNull_kept hkeys.attempts_gone _,
      Db.mem_notes_cascade hn hne⟩

/-- A task of another Project has lost its session and its attempt with its Agent. -/
theorem apart_of_taskKept (hkeys : db.Keys)
    (h : Preserved id db (db.cascade id)) {t : Task} (ht : t ∈ db.tasks)
    (hforeign : Foreign id t.projectId) (hassigned : ∃ a ∈ t.agentId, a ∈ db.agentsOf id) :
    RefKept ((db.cascade id).sessions.map (·.id)) t.sessionId none ∧
      RefKept ((db.cascade id).attempts.map (·.id)) t.activeAttemptId none := by
  obtain ⟨t', ht', hkept⟩ := h.tasks t ht hforeign
  rw [Db.tasks_cascade] at ht'
  obtain ⟨t₀, ht₀, rfl⟩ := List.mem_map.1 ht'
  obtain ⟨ht₀, -⟩ := List.mem_filter.1 ht₀
  have hid : t₀.id = t.id := by
    rw [← hkept.id, (Db.id_orphan _).1, (Db.id_detachTask t₀).1]
  obtain rfl := List.inj_on_of_nodup_map hkeys.tasks ht₀ ht hid
  obtain ⟨-, -, -, hsession, hattempt, -⟩ :=
    @Db.orphan_columns db id (db.detachTask id t₀)
  obtain ⟨-, -, hsession', hattempt'⟩ := @Db.detachTask_columns db id _ hforeign.ne
  have hany : db.assigned id t₀ = true := by
    simpa [Db.assigned, Option.any_eq_true] using hassigned
  have hsessionKept := hkept.sessionId
  have hattemptKept := hkept.activeAttemptId
  rw [hsession, hsession', if_pos hany] at hsessionKept
  rw [hattempt, hattempt', if_pos hany] at hattemptKept
  exact ⟨hsessionKept, hattemptKept⟩

theorem apart_of_preserved (hkeys : db.Keys) (h : Preserved id db (db.cascade id)) :
    Apart id db := by
  constructor
  case runs =>
    intro i hi hforeign
    obtain ⟨c, -, hleft⟩ := h.runs i hi hforeign
    obtain ⟨i₀, hi₀, hid, hkept⟩ := Db.losesRun_of_mem hleft
    rw [List.inj_on_of_nodup_map hkeys.instances hi₀ hi hid] at hkept
    simp only [Db.losesRun, Bool.or_eq_false_iff, decide_eq_false_iff_not] at hkept
    exact ⟨Db.notMem_of_any hkept.1.1, Db.notMem_of_any hkept.1.2, hkept.2⟩
  case sessions =>
    intro t ht hforeign hassigned x hx hsession
    obtain ⟨hkept, -⟩ := apart_of_taskKept hkeys h ht hforeign hassigned
    rw [hsession] at hkept
    by_contra hnot
    have hleft : x.id ∈ (db.cascade id).sessions.map (·.id) := by
      rw [Db.sessions_cascade]
      refine List.mem_map_of_mem (List.mem_filter.2 ⟨hx, ?_⟩)
      simpa using fun hagent => hnot (List.mem_map_of_mem
        (List.mem_filter.2 ⟨hx, by simpa using hagent⟩))
    exact absurd (hkept.eq_of_mem hleft) (by simp)
  case attempts =>
    intro t ht hforeign hassigned a ha hattempt
    obtain ⟨-, hkept⟩ := apart_of_taskKept hkeys h ht hforeign hassigned
    rw [hattempt] at hkept
    by_contra hnot
    have hstays : db.losesAttempt id a = false := by
      rw [← Bool.not_eq_true]
      intro hloses
      exact hnot (by simpa [Db.losesAttempt, Option.any_eq_true] using hloses)
    have hleft := Db.mem_attempts_cascade.2 ⟨a, ha, rfl, hstays⟩
    exact absurd (hkept.eq_of_mem hleft) (by simp)

/-- **A deleted Project leaves other Projects alone exactly when they are apart from it.** -/
theorem finish_preserves_iff (db db' : Db) (id : String) (hkeys : db.Keys)
    (h : db.finishCascade id = .ok db') : Preserved id db db' ↔ Apart id db := by
  rw [finishCascade_ok h]
  exact ⟨apart_of_preserved hkeys, preserved_of_apart hkeys⟩

/-! A run of one Project in a Conversation of another, which is being deleted. -/

def strayRun : Db where
  projects := [{ id := "garden", deletionStartedAt := some "2026-01-01 00:00:00" },
    { id := "orchard" }]
  conversations := [{ id := "planning", projectId := some "garden" }]
  tasks := [{ id := "prune", projectId := some "orchard", conversationId := some "planning" }]
  workflows := [{ id := "weekly" }]
  instances := [
    { id := "week-one"
      workflowId := "weekly"
      projectId := some "orchard"
      conversationId := some "planning" }]

theorem keys_strayRun : strayRun.Keys :=
  ⟨by decide, by decide, by decide, by decide, by decide, by decide⟩

theorem finish_preserves_iff_strayRun :
    Preserved "garden" strayRun (strayRun.cascade "garden") ↔ Apart "garden" strayRun :=
  finish_preserves_iff strayRun _ "garden" keys_strayRun rfl

/-- The task is only taken out of the Conversation, but the run is deleted with it. -/
theorem finish_deletes_strayRun :
    (strayRun.cascade "garden").tasks.map (·.id) = ["prune"] ∧
      (strayRun.cascade "garden").instances = [] ∧
      ¬ ∀ (db db' : Db) (id : String), db.Keys → db.finishCascade id = .ok db' →
        Preserved id db db' := by
  refine ⟨by rw [Db.tasks_cascade]; decide +kernel, by decide +kernel, fun h => ?_⟩
  obtain ⟨c, -, hleft⟩ := (h strayRun _ "garden" keys_strayRun rfl).runs _ List.mem_cons_self
    ⟨"orchard", rfl, by decide⟩
  have hnone : (strayRun.cascade "garden").instances = [] := by decide +kernel
  rw [hnone] at hleft
  cases hleft

end XpressClaw.Projects.Deletion
