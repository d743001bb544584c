import XpressClaw.Projects.Runs

/-!
# What a call does

Every successful call is a sequence of a few kinds of writes, each under what the call has
checked before it.  `Effect` lists the kinds with those checks, and `exec_effects` says that
there are no others; an invariant has to be checked against `Effect` only.
-/

namespace XpressClaw.Projects

open Lib Relation

/-- The row may be inserted: its id is new, its parent exists and has the same project, and
neither its agent nor its conversation belongs to another one. -/
structure Fits (db : Db) (t : Task) : Prop where
  fresh : t.id ∉ db.tasks.map (·.id)
  parent : ∀ p, t.parentTaskId = some p → ∃ r, db.task? p = some r ∧ r.projectId = t.projectId
  agent : ∀ a, t.agentId = some a →
    ∃ r, db.agent? a = some r ∧ ∀ q, r.projectId = some q → t.projectId = some q
  conversation : ∀ c, t.conversationId = some c →
    ∃ r, db.conversation? c = some r ∧ ∀ q, r.projectId = some q → t.projectId = some q

/-- The agent may be assigned: it is the empty string, which unassigns, or it exists and does
not belong to another project than the task. -/
def Assignable (db : Db) (taskId agentId : String) : Prop :=
  agentId = "" ∨ ∃ r, db.agent? agentId = some r ∧
    ∀ t, db.task? taskId = some t → ∀ q, r.projectId = some q → t.projectId = some q

/-- What `assign_agent` has checked before it moves an agent. -/
structure Movable (db : Db) (projectId agentId : String) : Prop where
  agent : ∃ a, db.agent? agentId = some a ∧ a.projectId ≠ some projectId
  unshared : db.sharedConversation projectId agentId = false
  whole : ∀ t ∈ db.tasks, db.splitFromAgent projectId agentId t = false ∧
    db.splitFromConversation projectId agentId t = false
  hierarchy : db.splitsHierarchy projectId agentId = false

/-- One write of a call. -/
inductive Effect (db : Db) : Db → Prop
  | insertTask (t : Task) (h : Fits db t) : Effect db { db with tasks := db.tasks ++ [t] }
  | connect (work : List String) : Effect db { db with connectWork := work }
  | depend (taskId dependsOnId : String) (htask : taskId ∈ db.tasks.map (·.id))
      (hdep : dependsOnId ∈ db.tasks.map (·.id))
      (hcycle : db.wouldCreateCycle taskId dependsOnId = false) :
      Effect db { db with dependencies := db.dependencies ++ [⟨taskId, dependsOnId⟩] }
  | adopt (taskId projectId : String)
      (h : ∀ t ∈ db.tasks, db.inHierarchy taskId t.id = true → db.conflicts projectId t = false) :
      Effect db (db.adopt taskId projectId)
  | setAgent (taskId agentId : String) (h : Assignable db taskId agentId) :
      Effect db (db.setAgent taskId agentId)
  | setStatus (taskId : String) (status : Tasks.TaskStatus) :
      Effect db (db.updateTasks (·.id = taskId) fun t => { t with status := status })
  | release (taskId : String) (released : List String) :
      Effect db (db.releaseChildParentReviews taskId released)
  | setConversation (taskId conversationId projectId : String)
      (hconversation : ∃ c, db.conversation? conversationId = some c ∧ c.projectId = some projectId)
      (htask : ∃ t, db.task? taskId = some t ∧ t.projectId = some projectId) :
      Effect db (db.updateTasks (·.id = taskId) fun t =>
        { t with conversationId := some conversationId, projectId := some projectId })
  | removeTask (taskId : String) : Effect db (db.removeTask taskId)
  | insertConversation (c : Conversations.Conversation)
      (h : c.id ∉ db.conversations.map (·.id)) :
      Effect db { db with conversations := db.conversations ++ [c] }
  | join (m : Conversations.Participant)
      (hconversation : ∃ c, db.conversation? m.conversationId = some c ∧
        (m.participantType = "agent" → ∀ q, c.projectId = some q →
          ∃ a, db.agent? m.participantId = some a ∧ a.projectId = some q)) :
      Effect db { db with participants := db.participants ++ [m] }
  | leave (m : Conversations.Participant) :
      Effect db (db.removeParticipant m.conversationId m.participantType m.participantId)
  | removeConversation (id : String) :
      Effect db { db.updateTasks (·.conversationId = some id)
          (fun t => { t with conversationId := none }) with
        conversations := db.conversations.filter (·.id ≠ id)
        participants := db.participants.filter (·.conversationId ≠ id) }
  | move (projectId agentId : String) (h : Movable db projectId agentId) :
      Effect db (((db.moveConversations projectId agentId).moveTasks projectId agentId).moveAgent
        projectId agentId)
  | forget (projects : List Tasks.Project) : Effect db { db with projects := projects }

/-- The writes of a call, one after the other. -/
abbrev Effects : Db → Db → Prop := ReflTransGen Effect

theorem Effects.keeps {I : Db → Prop} (heffect : ∀ db db', Effect db db' → I db → I db')
    {db db' : Db} (h : Effects db db') (hdb : I db) : I db' := by
  induction h with
  | refl => exact hdb
  | tail _ hstep ih => exact heffect _ _ hstep ih

/-! ## Lookups -/

section Lookups

variable {db : Db}

theorem mem_ids_of_task? {id : String} {t : Task} (h : db.task? id = some t) :
    id ∈ db.tasks.map (·.id) :=
  List.mem_map.2 ⟨t, Table.mem_of_get h, Table.key_of_get h⟩

theorem mem_removeTask {taskId : String} {t' : Task} (h : t' ∈ (db.removeTask taskId).tasks) :
    ∃ t ∈ db.tasks, t.id ≠ taskId ∧ t' = { t with parentTaskId := t'.parentTaskId } ∧
      ∀ p, t'.parentTaskId = some p → t.parentTaskId = some p ∧ p ≠ taskId := by
  obtain ⟨t, ht, rfl⟩ := List.mem_map.1 h
  obtain ⟨ht, hne⟩ := List.mem_filter.1 ht
  have hne' : t.id ≠ taskId := by simpa using hne
  by_cases hp : t.parentTaskId = some taskId
  · exact ⟨t, ht, hne', by simp [hp], by simp [hp]⟩
  · refine ⟨t, ht, hne', by simp [hp], fun p hp' => ?_⟩
    rw [if_neg hp] at hp'
    refine ⟨hp', fun heq => hp ?_⟩
    rw [hp', heq]

theorem mem_releaseChildParentReviews {taskId : String} {released : List String} {t' : Task}
    (h : t' ∈ (db.releaseChildParentReviews taskId released).tasks) :
    ∃ t ∈ db.tasks, t' = { t with parentTaskId := t'.parentTaskId } ∧
      ∀ p, t'.parentTaskId = some p → t.parentTaskId = some p := by
  obtain ⟨t, ht, rfl⟩ := List.mem_map.1 h
  refine ⟨t, ht, ?_⟩
  split
  · exact ⟨rfl, fun p hp => nomatch hp⟩
  · exact ⟨rfl, fun p hp => hp⟩

theorem ids_removeTask (taskId : String) : (db.removeTask taskId).tasks.map (·.id) =
    (db.tasks.filter (·.id ≠ taskId)).map (·.id) := by
  show ((db.tasks.filter (·.id ≠ taskId)).map fun t => if t.parentTaskId = some taskId then
    { t with parentTaskId := none } else t).map (·.id) = _
  rw [List.map_map]
  refine List.map_congr_left fun t _ => ?_
  by_cases hp : t.parentTaskId = some taskId <;> simp [hp]

theorem ids_updateTasks {w : Task → Bool} {set : Task → Task} (hset : ∀ t, (set t).id = t.id) :
    (db.updateTasks w set).tasks.map (·.id) = db.tasks.map (·.id) := by
  show (db.tasks.map fun t => if w t then set t else t).map (·.id) = _
  rw [List.map_map]
  refine List.map_congr_left fun t _ => ?_
  by_cases hw : w t
  · simp [hw, hset]
  · simp [hw]

theorem projectOfAgent_ok {agentId : String} {p : Option String}
    (h : db.projectOfAgent agentId = .ok p) :
    ∃ a, db.agent? agentId = some a ∧ a.projectId = p := by
  unfold Db.projectOfAgent at h
  cases hagent : db.agent? agentId with
  | none => simp [hagent] at h
  | some a => exact ⟨a, rfl, by simpa [hagent] using h⟩

theorem projectOfConversation_ok {conversationId : String} {p : Option String}
    (h : db.projectOfConversation conversationId = .ok p) :
    ∃ c, db.conversation? conversationId = some c ∧ c.projectId = p := by
  unfold Db.projectOfConversation at h
  cases hconversation : db.conversation? conversationId with
  | none => simp [hconversation] at h
  | some c => exact ⟨c, rfl, by simpa [hconversation] using h⟩

theorem projectOfTask_ok {taskId : String} {p : Option String}
    (h : db.projectOfTask taskId = .ok p) : ∃ t, db.task? taskId = some t ∧ t.projectId = p := by
  unfold Db.projectOfTask at h
  cases htask : db.task? taskId with
  | none => simp [htask] at h
  | some t => exact ⟨t, rfl, by simpa [htask] using h⟩

theorem whenSome_ok {lookup : String → Except Error (Option String)} {reference p : Option String}
    (h : Db.whenSome lookup reference = .ok p) {id : String} (hid : reference = some id) :
    lookup id = .ok p := by
  subst hid
  exact h

end Lookups

/-! ## Consistent projects -/

theorem selectProject_ok {selected : Option (String × String)}
    {candidates : List (String × Option String)} {r : Option (String × String)}
    (h : selectProject selected candidates = .ok r) :
    (∀ s, selected = some s → r = some s) ∧
      (∀ label p, (label, some p) ∈ candidates → r.map Prod.snd = some p) := by
  induction candidates generalizing selected with
  | nil =>
    have hr : selected = r := by simpa [selectProject] using h
    subst hr
    exact ⟨fun _ hs => hs, by simp⟩
  | cons c candidates ih =>
    obtain ⟨label, project⟩ := c
    cases project with
    | none =>
      have h' : selectProject selected candidates = .ok r := by
        cases selected <;> simpa [selectProject] using h
      obtain ⟨hs, hc⟩ := ih h'
      refine ⟨hs, fun l p hmem => ?_⟩
      rcases List.mem_cons.1 hmem with heq | hmem
      · cases heq
      · exact hc l p hmem
    | some p =>
      cases selected with
      | none =>
        have h' : selectProject (some (label, p)) candidates = .ok r := by
          simpa [selectProject] using h
        obtain ⟨hs, hc⟩ := ih h'
        refine ⟨by simp, fun l q hmem => ?_⟩
        rcases List.mem_cons.1 hmem with heq | hmem
        · obtain ⟨rfl, hq⟩ := Prod.mk.inj heq
          rw [hs _ rfl, Option.some.inj hq]
          rfl
        · exact hc l q hmem
      | some s =>
        obtain ⟨selectedLabel, selectedProject⟩ := s
        rw [selectProject] at h
        by_cases hne : selectedProject ≠ p
        · rw [if_pos hne] at h
          cases h
        · rw [if_neg hne] at h
          have heq : selectedProject = p := not_not.1 hne
          obtain ⟨hs, hc⟩ := ih h
          refine ⟨hs, fun l q hmem => ?_⟩
          rcases List.mem_cons.1 hmem with hpair | hmem
          · obtain ⟨rfl, hq⟩ := Prod.mk.inj hpair
            rw [hs _ rfl, Option.some.inj hq, ← heq]
            rfl
          · exact hc l q hmem

theorem consistentProjectId_ok {candidates : List (String × Option String)} {r : Option String}
    (h : consistentProjectId candidates = .ok r) (label : String) {p : String}
    (hmem : (label, some p) ∈ candidates) : r = some p := by
  unfold consistentProjectId at h
  cases hs : selectProject none candidates with
  | error e => simp [hs, Except.map] at h
  | ok s =>
    have hr : s.map Prod.snd = r := by simpa [hs, Except.map] using h
    rw [← hr]
    exact (selectProject_ok hs).2 label p hmem

/-! ## Creating tasks -/

section Creating

variable {db db' : Db} {id : String}

theorem insertTask_ok {t : Task} (h : db.insertTask t = .ok db') :
    t.id ∉ db.tasks.map (·.id) ∧ db' = { db with tasks := db.tasks ++ [t] } := by
  obtain ⟨_, hfresh, h⟩ := bind_ok h
  exact ⟨require_ok.1 hfresh, (Except.ok.inj h).symm⟩

theorem createInTransaction_ok {req : CreateTask} {creator : Option String}
    (h : db.createInTransaction req creator id = .ok db') :
    ∃ projectId, Fits db (Db.newTask req projectId id) ∧
      db' = { db with tasks := db.tasks ++ [Db.newTask req projectId id] } := by
  obtain ⟨_, -, h⟩ := bind_ok h
  obtain ⟨conversationProject, hconversation, h⟩ := bind_ok h
  obtain ⟨_, -, h⟩ := bind_ok h
  obtain ⟨agentProject, hagent, h⟩ := bind_ok h
  obtain ⟨parentProject, hparent, h⟩ := bind_ok h
  obtain ⟨projectId, hconsistent, h⟩ := bind_ok h
  obtain ⟨_, -, h⟩ := bind_ok h
  obtain ⟨_, hbeneath, h⟩ := bind_ok h
  obtain ⟨hfresh, hdb'⟩ := insertTask_ok h
  refine ⟨projectId, ⟨hfresh, ?_, ?_, ?_⟩, hdb'⟩
  · intro p hp
    have hp' : req.parentTaskId = some p := hp
    obtain ⟨_, -, hproject⟩ := bind_ok (whenSome_ok hparent hp')
    obtain ⟨r, hr, hrp⟩ := projectOfTask_ok hproject
    refine ⟨r, hr, ?_⟩
    show r.projectId = projectId
    cases hpp : parentProject with
    | some q =>
      rw [hrp, hpp]
      exact (consistentProjectId_ok hconsistent "parent task" (by simp [hpp])).symm
    | none =>
      have hnone : ¬ projectId.isSome := by
        intro hsome
        exact require_ok.1 hbeneath ⟨by simp [hp'], hpp, hsome⟩
      rw [hrp, hpp]
      exact (Option.not_isSome_iff_eq_none.1 hnone).symm
  · intro a ha
    obtain ⟨r, hr, hrp⟩ := projectOfAgent_ok (whenSome_ok hagent ha)
    refine ⟨r, hr, fun q hq => ?_⟩
    exact consistentProjectId_ok hconsistent "Agent" (by simp [← hrp, hq])
  · intro c hc
    obtain ⟨r, hr, hrp⟩ := projectOfConversation_ok (whenSome_ok hconversation hc)
    refine ⟨r, hr, fun q hq => ?_⟩
    exact consistentProjectId_ok hconsistent "conversation" (by simp [← hrp, hq])

theorem createInTransaction_effects {req : CreateTask} {creator : Option String}
    (h : db.createInTransaction req creator id = .ok db') : Effects db db' := by
  obtain ⟨projectId, hfits, rfl⟩ := createInTransaction_ok h
  exact ReflTransGen.single (.insertTask _ hfits)

theorem createPlatformTask_effects {agentId projectId : String}
    (h : db.createPlatformTask agentId projectId id = .ok db') : Effects db db' := by
  obtain ⟨created, hcreated, h⟩ := bind_ok h
  obtain rfl := Except.ok.inj h
  exact (createInTransaction_effects hcreated).tail (.connect _)

theorem createIdleTask_effects {agentId : String}
    (h : db.createIdleTask agentId id = .ok db') : Effects db db' := by
  obtain ⟨projectId, hproject, h⟩ := bind_ok h
  obtain ⟨_, -, h⟩ := bind_ok h
  obtain ⟨hfresh, rfl⟩ := insertTask_ok h
  refine ReflTransGen.single (.insertTask _ ⟨hfresh, by simp, ?_, by simp⟩)
  intro a ha
  obtain rfl : agentId = a := Option.some.inj ha
  obtain ⟨r, hr, hrp⟩ := projectOfAgent_ok hproject
  exact ⟨r, hr, fun q hq => by rw [← hrp, hq]⟩

end Creating

/-! ## Dependencies -/

section Depending

variable {db db' : Db}

theorem insertDependency_effects {taskId dependsOnId : String}
    (hcycle : ¬ db.wouldCreateCycle taskId dependsOnId = true)
    (h : db.insertDependency taskId dependsOnId = .ok db') : Effects db db' := by
  obtain ⟨_, hids, h⟩ := bind_ok h
  obtain ⟨htask, hdep⟩ := require_ok.1 hids
  by_cases hmem : (⟨taskId, dependsOnId⟩ : Tasks.Dependency) ∈ db.dependencies
  · rw [if_pos hmem] at h
    obtain rfl := Except.ok.inj h
    exact ReflTransGen.refl
  · rw [if_neg hmem] at h
    obtain rfl := Except.ok.inj h
    exact ReflTransGen.single (.depend _ _ htask hdep (by simpa using hcycle))

theorem addDependency_effects {taskId dependsOnId : String}
    (h : db.addDependency taskId dependsOnId = .ok db') : Effects db db' := by
  obtain ⟨_, -, h⟩ := bind_ok h
  obtain ⟨_, -, h⟩ := bind_ok h
  obtain ⟨_, hcycle, h⟩ := bind_ok h
  exact insertDependency_effects (require_ok.1 hcycle) h

theorem createBatchTasks_effects {creator project parent : Option String}
    {tasks : List (BatchTaskInput × String)} {references : List (String × String)}
    {r : Db × List (String × String)}
    (h : Db.createBatchTasks creator project parent db references tasks = .ok r) :
    Effects db r.1 := by
  induction tasks generalizing db references with
  | nil =>
    obtain rfl := Except.ok.inj h
    exact ReflTransGen.refl
  | cons t tasks ih =>
    obtain ⟨input, id⟩ := t
    obtain ⟨next, hnext, h⟩ := bind_ok h
    obtain ⟨_, -, hnext⟩ := bind_ok hnext
    obtain ⟨_, -, hnext⟩ := bind_ok hnext
    obtain ⟨_, -, hnext⟩ := bind_ok hnext
    obtain ⟨created, hcreated, hnext⟩ := bind_ok hnext
    obtain ⟨_, -, hnext⟩ := bind_ok hnext
    obtain rfl := Except.ok.inj hnext
    exact (createInTransaction_effects hcreated).trans (ih h)

theorem addBatchDependency_effects {project : Option String} {references : List (String × String)}
    {id reference : String} (h : db.addBatchDependency project references id reference = .ok db') :
    Effects db db' := by
  obtain ⟨_, -, h⟩ := bind_ok h
  obtain ⟨_, hcycle, h⟩ := bind_ok h
  obtain ⟨_, -, h⟩ := bind_ok h
  exact insertDependency_effects (require_ok.1 hcycle) h

theorem addBatchDependencies_effects {project : Option String}
    {references pairs : List (String × String)}
    (h : Db.addBatchDependencies project references db pairs = .ok db') : Effects db db' := by
  induction pairs generalizing db with
  | nil =>
    obtain rfl := Except.ok.inj h
    exact ReflTransGen.refl
  | cons pair pairs ih =>
    obtain ⟨id, reference⟩ := pair
    obtain ⟨next, hnext, h⟩ := bind_ok h
    exact (addBatchDependency_effects hnext).trans (ih h)

theorem createBatchInner_effects {tasks : List (BatchTaskInput × String)}
    {parent creator : Option String} {ok : Bool}
    (h : db.createBatchInner tasks parent creator ok = .ok db') : Effects db db' := by
  obtain ⟨_, -, h⟩ := bind_ok h
  obtain ⟨project, -, h⟩ := bind_ok h
  obtain ⟨_, -, h⟩ := bind_ok h
  obtain ⟨created, hcreated, h⟩ := bind_ok h
  obtain ⟨linked, hlinked, h⟩ := bind_ok h
  obtain ⟨_, -, h⟩ := bind_ok h
  obtain rfl := Except.ok.inj h
  exact (createBatchTasks_effects hcreated).trans (addBatchDependencies_effects hlinked)

end Depending

/-! ## Assignment -/

section Assigning

variable {db db' : Db} {taskId projectId : String}

theorem task?_updateTasks {w : Task → Bool} {set : Task → Task} (hset : ∀ t, (set t).id = t.id)
    (id : String) :
    (db.updateTasks w set).task? id = (db.task? id).map fun t => if w t then set t else t := by
  refine Table.get_map fun t => ?_
  by_cases hw : w t <;> simp [hw, hset]

theorem task?_adopt (id : String) :
    (db.adopt taskId projectId).task? id = (db.task? id).map fun t =>
      if t.projectId = none && db.inHierarchy taskId t.id then
        { t with projectId := some projectId } else t := by
  have hset : ∀ t : Task, ({ t with projectId := some projectId } : Task).id = t.id := fun _ => rfl
  exact task?_updateTasks hset id

/-- A task that nothing in its hierarchy ties to another project has the project afterwards. -/
theorem adopt_project
    (h : ∀ t ∈ db.tasks, db.inHierarchy taskId t.id = true → db.conflicts projectId t = false)
    {t' : Task} (ht' : (db.adopt taskId projectId).task? taskId = some t') :
    t'.projectId = some projectId := by
  rw [task?_adopt] at ht'
  obtain ⟨t, ht, rfl⟩ := Option.map_eq_some_iff.1 ht'
  have hid : t.id = taskId := Table.key_of_get ht
  have hin : db.inHierarchy taskId t.id = true := by
    rw [hid]
    exact Graph.reaches_iff.2 ReflTransGen.refl
  have hno := h t (Table.mem_of_get ht) hin
  cases hp : t.projectId with
  | none => simp [hin]
  | some q =>
    have hq : q = projectId := by
      by_contra hne
      simp [Db.conflicts, hp, hne] at hno
    simp [hp, hq]

theorem ensureTaskHierarchyProject_ok
    (h : db.ensureTaskHierarchyProject taskId projectId = .ok db') :
    (∀ t ∈ db.tasks, db.inHierarchy taskId t.id = true → db.conflicts projectId t = false) ∧
      db' = db.adopt taskId projectId := by
  obtain ⟨_, hnone, h⟩ := bind_ok h
  refine ⟨fun t ht hin => ?_, (Except.ok.inj h).symm⟩
  have hall := require_ok.1 hnone
  simp only [List.any_eq_true, not_exists, not_and, Bool.and_eq_true, Bool.not_eq_true] at hall
  exact hall t ht hin

theorem ensureCommonProject_effects {taskProject agentProject : Option String}
    (h : db.ensureCommonProject taskId taskProject agentProject = .ok db') :
    Effects db db' ∧ (∀ id, db'.agent? id = db.agent? id) ∧
      ∀ t, db'.task? taskId = some t → ∀ q, agentProject = some q → t.projectId = some q := by
  obtain ⟨projectId, hconsistent, h⟩ := bind_ok h
  cases projectId with
  | none =>
    obtain rfl := Except.ok.inj h
    refine ⟨ReflTransGen.refl, fun _ => rfl, fun t _ q hq => ?_⟩
    have hnone := consistentProjectId_ok hconsistent "Agent" (p := q) (by simp [hq])
    cases hnone
  | some projectId =>
    obtain ⟨_, -, h⟩ := bind_ok h
    obtain ⟨hno, rfl⟩ := ensureTaskHierarchyProject_ok h
    refine ⟨ReflTransGen.single (.adopt _ _ hno), fun _ => rfl, fun t ht q hq => ?_⟩
    have hsome := consistentProjectId_ok hconsistent "Agent" (p := q) (by simp [hq])
    rw [adopt_project hno ht, hsome]

theorem ensureTaskAgentProject_effects {agentId : String}
    (h : db.ensureTaskAgentProject taskId agentId = .ok db') :
    Effects db db' ∧ Assignable db' taskId agentId := by
  unfold Db.ensureTaskAgentProject at h
  cases htask : db.task? taskId with
  | none => simp [htask] at h
  | some task =>
    simp only [htask] at h
    obtain ⟨_, -, h⟩ := bind_ok h
    by_cases hempty : agentId = ""
    · rw [if_pos hempty] at h
      obtain rfl := Except.ok.inj h
      exact ⟨ReflTransGen.refl, Or.inl hempty⟩
    · rw [if_neg hempty] at h
      obtain ⟨agentProject, hagent, h⟩ := bind_ok h
      obtain ⟨r, hr, hrp⟩ := projectOfAgent_ok hagent
      obtain ⟨heffects, hagents, hproject⟩ := ensureCommonProject_effects h
      refine ⟨heffects, Or.inr ⟨r, by rw [hagents, hr], fun t ht q hq => ?_⟩⟩
      exact hproject t ht q (by rw [← hrp, hq])

theorem ensureTaskAgentProject_setAgent {agentId : String}
    (h : db.ensureTaskAgentProject taskId agentId = .ok db') :
    Effects db (db'.setAgent taskId agentId) := by
  obtain ⟨heffects, hassignable⟩ := ensureTaskAgentProject_effects h
  exact heffects.tail (.setAgent _ _ hassignable)

theorem update_effects {agentId : Option String} {ok : Bool}
    (h : db.update taskId agentId ok = .ok db') : Effects db db' := by
  obtain ⟨_, -, h⟩ := bind_ok h
  obtain ⟨_, -, h⟩ := bind_ok h
  cases agentId with
  | none =>
    obtain rfl := Except.ok.inj h
    exact ReflTransGen.refl
  | some agentId =>
    obtain ⟨adopted, hadopted, h⟩ := bind_ok h
    obtain ⟨_, -, h⟩ := bind_ok h
    obtain rfl := Except.ok.inj h
    exact ensureTaskAgentProject_setAgent hadopted

theorem updateStatus_effects {status : Tasks.TaskStatus} {agentId : Option String}
    {released : List String} {ok : Bool}
    (h : db.updateStatus taskId status agentId released ok = .ok db') : Effects db db' := by
  obtain ⟨_, -, h⟩ := bind_ok h
  obtain ⟨_, -, h⟩ := bind_ok h
  obtain ⟨_, -, h⟩ := bind_ok h
  refine ReflTransGen.head (.setStatus taskId status) ?_
  have hrelease : ∀ db : Db, Effects db
      (if status = .cancelled then db.releaseChildParentReviews taskId released else db) := by
    intro db
    split
    · exact ReflTransGen.single (.release taskId released)
    · exact ReflTransGen.refl
  refine (hrelease _).trans ?_
  cases agentId with
  | none =>
    obtain rfl := Except.ok.inj h
    exact ReflTransGen.refl
  | some agentId =>
    by_cases hstatus : status = .inProgress
    · simp only [hstatus, if_true] at h ⊢
      obtain ⟨adopted, hadopted, h⟩ := bind_ok h
      obtain rfl := Except.ok.inj h
      exact ensureTaskAgentProject_setAgent hadopted
    · simp only [hstatus, if_false] at h ⊢
      obtain rfl := Except.ok.inj h
      exact ReflTransGen.refl

theorem assign_effects {agentId : String} {caller : Option String} {ok : Bool}
    (h : db.assign taskId agentId caller ok = .ok db') : Effects db db' := by
  obtain ⟨_, -, h⟩ := bind_ok h
  obtain ⟨_, -, h⟩ := bind_ok h
  obtain ⟨_, -, h⟩ := bind_ok h
  obtain ⟨_, -, h⟩ := bind_ok h
  obtain ⟨_, -, h⟩ := bind_ok h
  obtain ⟨adopted, hadopted, h⟩ := bind_ok h
  obtain ⟨_, -, h⟩ := bind_ok h
  obtain rfl := Except.ok.inj h
  exact ensureTaskAgentProject_setAgent hadopted

theorem setConversationId_effects {conversationId : String}
    (h : db.setConversationId taskId conversationId = .ok db') : Effects db db' := by
  obtain ⟨conversationProject, hconversation, h⟩ := bind_ok h
  obtain ⟨_, hsome, h⟩ := bind_ok h
  obtain ⟨taskProject, htask, h⟩ := bind_ok h
  obtain ⟨projectId, hconsistent, h⟩ := bind_ok h
  obtain ⟨p, hp⟩ := Option.isSome_iff_exists.1 (require_ok.1 hsome)
  have hproject : projectId = some p :=
    consistentProjectId_ok hconsistent "conversation" (by simp [hp])
  subst hproject
  obtain ⟨_, -, h⟩ := bind_ok h
  obtain ⟨adopted, hadopted, h⟩ := bind_ok h
  obtain ⟨hno, rfl⟩ := ensureTaskHierarchyProject_ok hadopted
  obtain rfl := Except.ok.inj h
  obtain ⟨c, hc, hcp⟩ := projectOfConversation_ok hconversation
  obtain ⟨t, ht, -⟩ := projectOfTask_ok htask
  have hadopt : (db.adopt taskId p).task? taskId = some
      (if t.projectId = none && db.inHierarchy taskId t.id then { t with projectId := some p }
        else t) := by
    rw [task?_adopt, ht, Option.map_some]
  have hc' : (db.adopt taskId p).conversation? conversationId = some c := hc
  refine ReflTransGen.tail (ReflTransGen.single (.adopt _ _ hno)) (.setConversation _ _ _ ?_ ?_)
  · exact ⟨c, hc', hcp.trans hp⟩
  · exact ⟨_, hadopt, adopt_project hno hadopt⟩

theorem delete_effects (h : db.delete taskId = .ok db') : Effects db db' := by
  obtain ⟨_, -, h⟩ := bind_ok h
  obtain rfl := Except.ok.inj h
  exact ReflTransGen.single (.removeTask _)

end Assigning

/-! ## Conversations and moves -/

section Members

variable {db db' : Db}

theorem insertParticipant_effects {m : Conversations.Participant}
    (hconversation : ∃ c, db.conversation? m.conversationId = some c ∧
      (m.participantType = "agent" → ∀ q, c.projectId = some q →
        ∃ a, db.agent? m.participantId = some a ∧ a.projectId = some q)) :
    Effects db (db.insertParticipant m.conversationId m.participantType m.participantId) := by
  unfold Db.insertParticipant
  by_cases hmem : m ∈ db.participants
  · rw [if_pos hmem]
  · rw [if_neg hmem]
    exact ReflTransGen.single (.join m hconversation)

@[simp] theorem insertParticipant_conversation? {c t p id : String} :
    (db.insertParticipant c t p).conversation? id = db.conversation? id := by
  unfold Db.insertParticipant
  split <;> rfl

@[simp] theorem insertParticipant_agent? {c t p id : String} :
    (db.insertParticipant c t p).agent? id = db.agent? id := by
  unfold Db.insertParticipant
  split <;> rfl

theorem checkMember_ok {projectId : Option String} {agentId : String}
    (h : db.checkMember projectId agentId = .ok ()) {q : String} (hq : projectId = some q) :
    ∃ a, db.agent? agentId = some a ∧ a.projectId = some q := by
  obtain ⟨agentProject, hagent, h⟩ := bind_ok h
  obtain ⟨a, ha, hap⟩ := projectOfAgent_ok hagent
  refine ⟨a, ha, ?_⟩
  by_contra hne
  apply require_ok.1 h
  refine ⟨by simp [hq], ?_⟩
  rw [← hap, hq]
  exact hne

theorem checkMembers_ok {projectId : Option String} {participantIds : List String}
    (h : db.checkMembers projectId participantIds = .ok ()) :
    ∀ agentId ∈ participantIds, db.checkMember projectId agentId = .ok () := by
  induction participantIds with
  | nil => simp
  | cons agentId participantIds ih =>
    obtain ⟨u, hfirst, h⟩ := bind_ok h
    intro id hid
    rcases List.mem_cons.1 hid with rfl | hid
    · exact hfirst
    · exact ih h id hid

theorem addMembers_effects {conversationId : String} {participantIds : List String}
    {c : Conversations.Conversation} (hc : db.conversation? conversationId = some c)
    (hagents : ∀ agentId ∈ participantIds, ∀ q, c.projectId = some q →
      ∃ a, db.agent? agentId = some a ∧ a.projectId = some q) :
    Effects db (Db.addMembers conversationId db participantIds) := by
  induction participantIds generalizing db with
  | nil => exact ReflTransGen.refl
  | cons agentId participantIds ih =>
    have hfirst : Effects db (db.insertParticipant conversationId "agent" agentId) :=
      insertParticipant_effects (m := ⟨conversationId, "agent", agentId⟩)
        ⟨c, hc, fun _ => hagents agentId (List.mem_cons_self ..)⟩
    refine hfirst.trans (ih (by simpa using hc) fun id hid q hq => ?_)
    simpa using hagents id (List.mem_cons_of_mem _ hid) q hq

theorem createConversationInProject_effects {projectId : Option String}
    {participantIds : List String} {id : String}
    (h : db.createConversationInProject projectId participantIds id = .ok db') :
    Effects db db' := by
  obtain ⟨_, -, h⟩ := bind_ok h
  obtain ⟨_, hmembers, h⟩ := bind_ok h
  obtain ⟨_, hfresh, h⟩ := bind_ok h
  obtain rfl := Except.ok.inj h
  have hfresh' := require_ok.1 hfresh
  have hnone : Table.get (·.id) db.conversations id = none := by
    rw [← Option.not_isSome_iff_eq_none, Table.get_isSome_iff]
    exact hfresh'
  let created : Db := { db with conversations := db.conversations ++ [⟨id, projectId⟩] }
  have hget : created.conversation? id = some ⟨id, projectId⟩ := by
    show Table.get (·.id) (db.conversations ++ [⟨id, projectId⟩]) id = _
    rw [Table.get_append, hnone]
    simp [Table.get]
  have huser : Effects created (created.insertParticipant id "user" "local") :=
    insertParticipant_effects (m := ⟨id, "user", "local"⟩)
      ⟨_, hget, fun hagent => absurd hagent (by simp)⟩
  have hagents : Effects (created.insertParticipant id "user" "local")
      (Db.addMembers id (created.insertParticipant id "user" "local") participantIds) := by
    apply addMembers_effects (c := ⟨id, projectId⟩)
    · rw [insertParticipant_conversation?]
      exact hget
    · intro agentId hmem q hq
      rw [insertParticipant_agent?]
      exact checkMember_ok (checkMembers_ok hmembers agentId hmem) hq
  exact ReflTransGen.head (.insertConversation ⟨id, projectId⟩ hfresh') (huser.trans hagents)

theorem addParticipant_effects {m : Conversations.Participant}
    (h : db.addParticipant m.conversationId m.participantType m.participantId = .ok db') :
    Effects db db' := by
  obtain ⟨conversationProject, hconversation, h⟩ := bind_ok h
  obtain ⟨_, -, h⟩ := bind_ok h
  obtain ⟨_, hjoin, h⟩ := bind_ok h
  obtain rfl := Except.ok.inj h
  obtain ⟨c, hc, hcp⟩ := projectOfConversation_ok hconversation
  refine insertParticipant_effects ⟨c, hc, fun hagent q hq => ?_⟩
  rw [checkIf, if_pos hagent] at hjoin
  obtain ⟨agentProject, hproject, hjoin⟩ := bind_ok hjoin
  obtain ⟨_, hsame, -⟩ := bind_ok hjoin
  obtain ⟨a, ha, hap⟩ := projectOfAgent_ok hproject
  refine ⟨a, ha, ?_⟩
  by_contra hne
  apply require_ok.1 hsame
  rw [← hcp, hq, ← hap]
  exact ⟨rfl, hne⟩

theorem deleteConversation_effects {id : String} (h : db.deleteConversation id = .ok db') :
    Effects db db' := by
  obtain ⟨_, -, h⟩ := bind_ok h
  obtain rfl := Except.ok.inj h
  exact ReflTransGen.single (.removeConversation id)

theorem dropEmptied_effects {workflows : ℕ} {previous : Option String} :
    Effects db (db.dropEmptied workflows previous) := by
  unfold Db.dropEmptied
  cases previous with
  | none => exact ReflTransGen.refl
  | some previous =>
    dsimp only
    split
    · exact ReflTransGen.single (.forget _)
    · exact ReflTransGen.refl

theorem assignAgent_effects {projectId agentId : String} {liveTurn activeWorkflow : Bool}
    {previousWorkflows : ℕ}
    (h : db.assignAgent projectId agentId liveTurn activeWorkflow previousWorkflows = .ok db') :
    Effects db db' := by
  obtain ⟨_, -, h⟩ := bind_ok h
  obtain ⟨previous, hprevious, h⟩ := bind_ok h
  obtain ⟨_, -, h⟩ := bind_ok h
  by_cases hsame : previous = some projectId
  · rw [if_pos hsame] at h
    obtain rfl := Except.ok.inj h
    exact ReflTransGen.refl
  · rw [if_neg hsame] at h
    obtain ⟨_, -, h⟩ := bind_ok h
    obtain ⟨_, -, h⟩ := bind_ok h
    obtain ⟨_, hshared, h⟩ := bind_ok h
    obtain ⟨_, hlinked, h⟩ := bind_ok h
    obtain ⟨_, hhierarchy, h⟩ := bind_ok h
    obtain rfl := Except.ok.inj h
    obtain ⟨a, ha, hap⟩ := projectOfAgent_ok hprevious
    have hwhole := require_ok.1 hlinked
    simp only [List.any_eq_true, not_exists, not_and, Bool.or_eq_true, not_or,
      Bool.not_eq_true] at hwhole
    have hmovable : Movable db projectId agentId :=
      { agent := ⟨a, ha, by rw [hap]; exact hsame⟩
        unshared := by simpa using require_ok.1 hshared
        whole := hwhole
        hierarchy := by simpa using require_ok.1 hhierarchy }
    exact (ReflTransGen.single (.move _ _ hmovable)).trans dropEmptied_effects

end Members

/-- Every successful call is a sequence of the writes listed. -/
theorem exec_effects {db db' : Db} {o : Op} (h : o.exec db = .ok db') : Effects db db' := by
  cases o with
  | createTask req creator id => exact createInTransaction_effects h
  | createPlatformTask agentId projectId id => exact createPlatformTask_effects h
  | createIdleTask agentId id => exact createIdleTask_effects h
  | createBatch tasks parent creator ok => exact createBatchInner_effects h
  | addDependency taskId dependsOnId => exact addDependency_effects h
  | update taskId agentId ok => exact update_effects h
  | updateStatus taskId status agentId released ok => exact updateStatus_effects h
  | assign taskId agentId caller ok => exact assign_effects h
  | setConversationId taskId conversationId => exact setConversationId_effects h
  | deleteTask taskId => exact delete_effects h
  | createConversation participantIds id => exact createConversationInProject_effects h
  | createConversationInProject projectId participantIds id =>
    exact createConversationInProject_effects h
  | addParticipant conversationId participantType participantId =>
    exact addParticipant_effects (m := ⟨conversationId, participantType, participantId⟩) h
  | removeParticipant conversationId participantType participantId =>
    obtain rfl := Except.ok.inj h
    exact ReflTransGen.single (.leave ⟨conversationId, participantType, participantId⟩)
  | deleteConversation id => exact deleteConversation_effects h
  | assignAgent projectId agentId liveTurn activeWorkflow previousWorkflows =>
    exact assignAgent_effects h

end XpressClaw.Projects
