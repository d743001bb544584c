import XpressClaw.Projects.Graphs

/-!
# The dependencies after an import

An import validates the dependencies of the snapshot by themselves, and those of the Project
once more when they are merged with the local ones.  A dependency never crosses the boundary of
the Project, so that the local graph has no cycle after the import when it had none before.

* `Planned` — the invariant: the dependencies have no cycle, and they are between tasks.
* `importTransaction_planned` — an import keeps it, without any condition on the snapshot.
* `graph_validation_exact` — what the two validations decide, and what follows for every run.
-/

namespace XpressClaw.Projects

open Lib Relation

namespace Db

variable (db : Db)

/-- The dependencies of the tasks. -/
def dependencyEdges : List (String × String) :=
  db.dependencies.map fun d => (d.taskId, d.dependsOnId)

/-- The ids of the tasks of a Project. -/
def taskIdsOf (projectId : String) : List String :=
  (db.tasks.filter (·.projectId = some projectId)).map (·.id)

/-- The dependencies with an end among the tasks of a Project. -/
def projectEdges (projectId : String) : List (String × String) :=
  (db.dependencies.filter fun d => (db.task? d.taskId).isSome && (db.task? d.dependsOnId).isSome &&
    (d.taskId ∈ db.taskIdsOf projectId || d.dependsOnId ∈ db.taskIdsOf projectId)).map
      fun d => (d.taskId, d.dependsOnId)

end Db

/-- Ids are unique, dependencies are between tasks, and they have no cycle. -/
structure Planned (db : Db) : Prop where
  keyed : (db.tasks.map (·.id)).Nodup
  grounded : Grounded db
  acyclic : Graph.Acyclic db.dependencyEdges

/-! ## Local calls -/

section Calls

variable {db : Db}

theorem mem_dependencyEdges {e : String × String} :
    e ∈ db.dependencyEdges ↔ (⟨e.1, e.2⟩ : Tasks.Dependency) ∈ db.dependencies := by
  obtain ⟨a, b⟩ := e
  simp only [Db.dependencyEdges, List.mem_map, Prod.mk.injEq]
  constructor
  · rintro ⟨d, hd, rfl, rfl⟩
    exact hd
  · intro hd
    exact ⟨_, hd, rfl, rfl⟩

theorem Planned.of_shape {db' : Db} (h : Planned db) (hdeps : db'.dependencies = db.dependencies)
    (hshape : db'.tasks.map Task.shape = db.tasks.map Task.shape) : Planned db' where
  keyed := by
    rw [ids_of_shape hshape]
    exact h.keyed
  grounded := h.grounded.of_shape hdeps hshape
  acyclic := by
    rw [Db.dependencyEdges, hdeps]
    exact h.acyclic

theorem Planned.updateTasks (h : Planned db) {w : Task → Bool} {set : Task → Task}
    (hset : ∀ t, (set t).shape = t.shape) : Planned (db.updateTasks w set) :=
  h.of_shape rfl (shape_updateTasks hset)

theorem Planned.insertTask (h : Planned db) {t : Task} (hfits : Fits db t) :
    Planned { db with tasks := db.tasks ++ [t] } where
  keyed := by
    rw [List.map_append]
    exact h.keyed.append (List.nodup_singleton _) (by simpa using hfits.fresh)
  grounded := h.grounded.insertTask hfits
  acyclic := h.acyclic

/-- The search of `would_create_cycle` looks at more edges than the dependencies. -/
theorem Planned.depend (h : Planned db) {taskId dependsOnId : String}
    (htask : taskId ∈ db.tasks.map (·.id)) (hdep : dependsOnId ∈ db.tasks.map (·.id))
    (hcycle : db.wouldCreateCycle taskId dependsOnId = false) :
    Planned { db with dependencies := db.dependencies ++ [⟨taskId, dependsOnId⟩] } where
  keyed := h.keyed
  grounded := h.grounded.depend htask hdep
  acyclic := by
    apply h.acyclic.insert (a := taskId) (b := dependsOnId)
    · intro e he
      rcases List.mem_append.1 (mem_dependencyEdges.1 he) with hd | hd
      · exact Or.inr (mem_dependencyEdges.2 hd)
      · have heq := List.mem_singleton.1 hd
        simp only [Tasks.Dependency.mk.injEq] at heq
        exact Or.inl (Prod.ext heq.1 heq.2)
    · intro hreach
      have hmore : ∀ e ∈ db.dependencyEdges, e ∈ db.completionEdges := fun e he =>
        mem_completionEdges.2 (Or.inl (mem_dependencyEdges.1 he))
      have hreach' : Graph.Reaches db.completionEdges dependsOnId taskId :=
        ReflTransGen.mono (fun _ _ => Graph.Edge.mono hmore) _ _ hreach
      rw [Db.wouldCreateCycle, Graph.reaches_iff.2 hreach'] at hcycle
      cases hcycle

theorem Planned.removeTask (h : Planned db) (taskId : String) :
    Planned (db.removeTask taskId) where
  keyed := by
    rw [ids_removeTask]
    exact h.keyed.sublist (List.filter_sublist.map _)
  grounded := h.grounded.removeTask taskId
  acyclic := h.acyclic.mono fun e he => by
    have hd : (⟨e.1, e.2⟩ : Tasks.Dependency) ∈ (db.removeTask taskId).dependencies :=
      mem_dependencyEdges.1 he
    exact mem_dependencyEdges.2 (List.mem_of_mem_filter hd)

theorem Planned.releaseChildParentReviews (h : Planned db) (taskId : String)
    (released : List String) : Planned (db.releaseChildParentReviews taskId released) where
  keyed := by
    have hids : (db.releaseChildParentReviews taskId released).tasks.map (·.id) =
        db.tasks.map (·.id) := ids_updateTasks fun _ => rfl
    rw [hids]
    exact h.keyed
  grounded := h.grounded.releaseChildParentReviews taskId released
  acyclic := h.acyclic

/-- Every write of a local call keeps the dependencies without cycles. -/
theorem Effect.planned {db' : Db} (h : Effect db db') (hdb : Planned db) : Planned db' := by
  cases h with
  | insertTask t hfits => exact hdb.insertTask hfits
  | connect work => exact hdb.of_shape rfl rfl
  | depend taskId dependsOnId htask hdep hcycle => exact hdb.depend htask hdep hcycle
  | adopt taskId projectId hno => exact hdb.updateTasks fun _ => rfl
  | setAgent taskId agentId hassignable => exact hdb.updateTasks fun _ => rfl
  | setStatus taskId status => exact hdb.updateTasks fun _ => rfl
  | release taskId released => exact hdb.releaseChildParentReviews taskId released
  | setConversation taskId conversationId projectId hconversation htask =>
    exact hdb.updateTasks fun _ => rfl
  | removeTask taskId => exact hdb.removeTask taskId
  | insertConversation c hfresh => exact hdb.of_shape rfl rfl
  | join m hconversation => exact hdb.of_shape rfl rfl
  | leave m => exact hdb.of_shape rfl rfl
  | removeConversation id =>
    have hcleared : Planned (db.updateTasks (·.conversationId = some id)
        fun t => { t with conversationId := none }) := hdb.updateTasks fun _ => rfl
    exact hcleared.of_shape rfl rfl
  | move projectId agentId hmovable =>
    have hconversations : Planned (db.moveConversations projectId agentId) :=
      hdb.of_shape rfl rfl
    have htasks :
        Planned ((db.moveConversations projectId agentId).moveTasks projectId agentId) :=
      hconversations.updateTasks fun _ => rfl
    exact htasks.of_shape rfl rfl
  | forget projects => exact hdb.of_shape rfl rfl

theorem exec_planned {db' : Db} {o : Op} (h : o.exec db = .ok db') (hdb : Planned db) :
    Planned db' :=
  (exec_effects h).keeps (fun _ _ heffect => heffect.planned) hdb

end Calls

/-! ## Imports -/

section Imports

variable {db : Db} {s : Snapshot}

theorem keyed_upsertTask (projectId : String) (p : PortableTask) (h : (db.tasks.map (·.id)).Nodup) :
    ((Db.upsertTask projectId db p).tasks.map (·.id)).Nodup := by
  unfold Db.upsertTask
  cases hget : db.task? p.id with
  | some t =>
    show ((db.updateTasks _ _).tasks.map (·.id)).Nodup
    have hset : ∀ t, (Db.overwrite projectId p t).id = t.id := fun _ => rfl
    rw [ids_updateTasks hset]
    exact h
  | none =>
    show ((db.tasks ++ [Db.overwrite projectId p { id := p.id }]).map (·.id)).Nodup
    have hnone : p.id ∉ db.tasks.map (·.id) := by
      rw [← Table.get_isSome_iff]
      simpa [Db.task?] using hget
    rw [List.map_append]
    exact h.append (List.nodup_singleton _) (by simpa [Db.overwrite] using hnone)

/-- The row of a task that was upserted belongs to the Project. -/
theorem owner_upsertTask {projectId : String} {p : PortableTask} {t : Task}
    (ht : t ∈ (Db.upsertTask projectId db p).tasks) (hid : t.id = p.id) :
    t.projectId = some projectId := by
  unfold Db.upsertTask at ht
  cases hget : db.task? p.id with
  | some r =>
    simp only [hget] at ht
    obtain ⟨t₀, -, rfl⟩ := List.mem_map.1 ht
    by_cases hid₀ : t₀.id = p.id
    · simp [hid₀, Db.overwrite]
    · simp [hid₀] at hid
  | none =>
    simp only [hget] at ht
    rcases List.mem_append.1 ht with ht | ht
    · have hmem : p.id ∈ db.tasks.map (·.id) := hid ▸ List.mem_map_of_mem ht
      rw [← Table.get_isSome_iff] at hmem
      rw [Db.task?] at hget
      rw [hget] at hmem
      cases hmem
    · obtain rfl := List.mem_singleton.1 ht
      rfl

theorem foldl_upsertTask_owner (projectId : String) (ps : List PortableTask) (db : Db)
    (h : (db.tasks.map (·.id)).Nodup) :
    ((ps.foldl (Db.upsertTask projectId) db).tasks.map (·.id)).Nodup ∧
      ∀ t ∈ (ps.foldl (Db.upsertTask projectId) db).tasks, t.id ∈ ps.map (·.id) →
        t.projectId = some projectId := by
  induction ps generalizing db with
  | nil => exact ⟨h, by simp⟩
  | cons p ps ih =>
    obtain ⟨hkeyed, howner⟩ := ih (Db.upsertTask projectId db p) (keyed_upsertTask projectId p h)
    obtain ⟨-, hrows, -⟩ := foldl_upsertTask projectId ps (Db.upsertTask projectId db p)
    refine ⟨hkeyed, fun t ht hid => ?_⟩
    by_cases hlater : t.id ∈ ps.map (·.id)
    · exact howner t ht hlater
    · rw [List.map_cons, List.mem_cons] at hid
      rcases hrows t ht with ⟨-, ht'⟩ | ⟨p', hp', hid', -⟩
      · exact owner_upsertTask ht' (hid.resolve_right hlater)
      · exact absurd (hid' ▸ List.mem_map_of_mem hp') hlater

theorem foldl_setParent_map {β : Type} {f : Task → β}
    (hf : ∀ (t : Task) parent, f { t with parentTaskId := parent } = f t)
    (ps : List PortableTask) (db : Db) :
    (ps.foldl Db.setParent db).tasks.map f = db.tasks.map f := by
  induction ps generalizing db with
  | nil => rfl
  | cons p ps ih =>
    rw [List.foldl_cons, ih]
    unfold Db.setParent Db.updateTasks
    rw [List.map_map]
    refine List.map_congr_left fun t _ => ?_
    by_cases hid : t.id = p.id
    · rw [Function.comp_apply, if_pos (decide_eq_true hid), hf]
    · simp [hid]

/-- The merged tasks: ids are unique, and those of the snapshot belong to the Project. -/
theorem merge_owner (h : (db.tasks.map (·.id)).Nodup) (s : Snapshot) :
    ((db.merge s).tasks.map (·.id)).Nodup ∧
      ∀ t ∈ (db.merge s).tasks, t.id ∈ s.taskIds → t.projectId = some s.projectId := by
  have hbefore := (beforeTasks_graph db s).1
  obtain ⟨hkeyed, howner⟩ :=
    foldl_upsertTask_owner s.projectId s.tasks (db.beforeTasks s) (hbefore ▸ h)
  have htasks : (db.merge s).tasks = (s.tasks.foldl Db.setParent
      (s.tasks.foldl (Db.upsertTask s.projectId) (db.beforeTasks s))).tasks :=
    (foldl_importDependency s.taskDependencies _).1
  have hmap : (db.merge s).tasks.map (fun t => (t.id, t.projectId)) =
      (s.tasks.foldl (Db.upsertTask s.projectId) (db.beforeTasks s)).tasks.map
        fun t => (t.id, t.projectId) := by
    rw [htasks]
    exact foldl_setParent_map (fun _ _ => rfl) s.tasks _
  refine ⟨?_, fun t ht hid => ?_⟩
  · have hids := congrArg (List.map Prod.fst) hmap
    simp only [List.map_map, Function.comp_def] at hids
    rw [hids]
    exact hkeyed
  · have hmem : (t.id, t.projectId) ∈ (db.merge s).tasks.map fun t => (t.id, t.projectId) :=
      List.mem_map_of_mem ht
    rw [hmap] at hmem
    obtain ⟨t₀, ht₀, heq⟩ := List.mem_map.1 hmem
    obtain ⟨hid₀, howner₀⟩ := Prod.mk.inj heq
    rw [← howner₀]
    exact howner t₀ ht₀ (hid₀.symm ▸ hid)

/-- What the validation of the merged graph says about the dependencies of the Project. -/
theorem validateMergedTaskGraph_ok {projectId : String} (hkeyed : (db.tasks.map (·.id)).Nodup)
    (h : db.validateMergedTaskGraph projectId = .ok ()) :
    Graph.Acyclic (db.projectEdges projectId) ∧ ∀ e ∈ db.projectEdges projectId,
      e.1 ∈ db.taskIdsOf projectId ∧ e.2 ∈ db.taskIdsOf projectId := by
  obtain ⟨_, -, h⟩ := bind_ok h
  obtain ⟨_, -, h⟩ := bind_ok h
  obtain ⟨_, hcross, h⟩ := bind_ok h
  have hinside : ∀ e ∈ db.projectEdges projectId,
      e.1 ∈ db.taskIdsOf projectId ∧ e.2 ∈ db.taskIdsOf projectId := by
    intro e he
    have hends := List.all_eq_true.1 (require_ok.1 hcross) e he
    rwa [Bool.and_eq_true, decide_eq_true_eq, decide_eq_true_eq] at hends
  have hids : (db.taskIdsOf projectId).Nodup := hkeyed.sublist (List.filter_sublist.map _)
  exact ⟨(Kahn.validateDependencyCycles_iff hids hinside).1 h, hinside⟩

theorem importTransaction_merged {ok : Bool} {db' : Db} (h : db.importTransaction s ok = .ok db') :
    (db.merge s).validateMergedTaskGraph s.projectId = .ok () := by
  obtain ⟨_, -, h⟩ := bind_ok h
  obtain ⟨_, -, h⟩ := bind_ok h
  obtain ⟨_, -, h⟩ := bind_ok h
  obtain ⟨_, -, h⟩ := bind_ok h
  obtain ⟨_, hmerged, -⟩ := bind_ok h
  exact hmerged

/-- An edge of the merged graph is inside the Project, or an old edge outside of it. -/
theorem merged_edge (hkeyed : (db.tasks.map (·.id)).Nodup) (hgrounded : Grounded db)
    (hvalid : s.validate = .ok ())
    (hmerged : (db.merge s).validateMergedTaskGraph s.projectId = .ok ()) {a b : String}
    (he : Graph.Edge (db.merge s).dependencyEdges a b) :
    (a ∈ (db.merge s).taskIdsOf s.projectId ∧ b ∈ (db.merge s).taskIdsOf s.projectId ∧
        Graph.Edge ((db.merge s).projectEdges s.projectId) a b) ∨
      (a ∉ (db.merge s).taskIdsOf s.projectId ∧ b ∉ (db.merge s).taskIdsOf s.projectId ∧
        Graph.Edge db.dependencyEdges a b) := by
  obtain ⟨hkeyed', howner⟩ := merge_owner hkeyed s
  obtain ⟨-, hinside⟩ := validateMergedTaskGraph_ok hkeyed' hmerged
  have hd := mem_dependencyEdges.1 he
  obtain ⟨ha, hb⟩ := (merge_grounded hgrounded hvalid).dependencies _ hd
  by_cases htouch : a ∈ (db.merge s).taskIdsOf s.projectId ∨
      b ∈ (db.merge s).taskIdsOf s.projectId
  · have hedge : (a, b) ∈ (db.merge s).projectEdges s.projectId := by
      refine List.mem_map.2 ⟨⟨a, b⟩, List.mem_filter.2 ⟨hd, ?_⟩, rfl⟩
      have hta : ((db.merge s).task? a).isSome := Table.get_isSome_iff.2 ha
      have htb : ((db.merge s).task? b).isSome := Table.get_isSome_iff.2 hb
      simpa [hta, htb] using htouch
    obtain ⟨hina, hinb⟩ := hinside _ hedge
    exact Or.inl ⟨hina, hinb, hedge⟩
  · rw [not_or] at htouch
    refine Or.inr ⟨htouch.1, htouch.2, mem_dependencyEdges.2 ?_⟩
    rcases (merge_graph db s).2.2 _ hd with hold | hnew
    · exact hold
    · -- a dependency of the snapshot is between tasks of the Project
      obtain ⟨hta, -⟩ := (validate_ok hvalid).2.2 _ hnew
      obtain ⟨t, ht, hid⟩ := List.mem_map.1 ha
      have hid' : t.id = a := hid
      have hin : a ∈ (db.merge s).taskIdsOf s.projectId := by
        refine List.mem_map.2 ⟨t, List.mem_filter.2 ⟨ht, ?_⟩, hid'⟩
        simpa using howner t ht (hid' ▸ hta)
      exact absurd hin htouch.1

/-- A path of the merged graph stays inside the Project or outside of it. -/
theorem merged_path (hkeyed : (db.tasks.map (·.id)).Nodup) (hgrounded : Grounded db)
    (hvalid : s.validate = .ok ())
    (hmerged : (db.merge s).validateMergedTaskGraph s.projectId = .ok ()) {a b : String}
    (h : TransGen (Graph.Edge (db.merge s).dependencyEdges) a b) :
    (b ∈ (db.merge s).taskIdsOf s.projectId ∧
        TransGen (Graph.Edge ((db.merge s).projectEdges s.projectId)) a b) ∨
      (b ∉ (db.merge s).taskIdsOf s.projectId ∧ TransGen (Graph.Edge db.dependencyEdges) a b) := by
  induction h with
  | single he =>
    rcases merged_edge hkeyed hgrounded hvalid hmerged he with ⟨-, hb, he⟩ | ⟨-, hb, he⟩
    · exact Or.inl ⟨hb, TransGen.single he⟩
    · exact Or.inr ⟨hb, TransGen.single he⟩
  | tail _ he ih =>
    rcases merged_edge hkeyed hgrounded hvalid hmerged he with ⟨hb, hc, he⟩ | ⟨hb, hc, he⟩
    · rcases ih with ⟨-, hpath⟩ | ⟨hnot, -⟩
      · exact Or.inl ⟨hc, hpath.tail he⟩
      · exact absurd hb hnot
    · rcases ih with ⟨hin, -⟩ | ⟨-, hpath⟩
      · exact absurd hin hb
      · exact Or.inr ⟨hc, hpath.tail he⟩

theorem importTransaction_planned {ok : Bool} {db' : Db} (hdb : Planned db)
    (h : db.importTransaction s ok = .ok db') : Planned db' := by
  have hmerged := importTransaction_merged h
  obtain ⟨hvalid, rfl⟩ := importTransaction_ok h
  obtain ⟨hkeyed, -⟩ := merge_owner hdb.keyed s
  refine ⟨hkeyed, merge_grounded hdb.grounded hvalid, fun a hcycle => ?_⟩
  rcases merged_path hdb.keyed hdb.grounded hvalid hmerged hcycle with ⟨-, hpath⟩ | ⟨-, hpath⟩
  · exact (validateMergedTaskGraph_ok hkeyed hmerged).1 a hpath
  · exact hdb.acyclic a hpath

theorem syncStep_planned {o : SyncOp} (hdb : Planned db) : Planned (syncStep db o) := by
  cases o with
  | call o => exact commit_keeps hdb fun db' h => exec_planned h hdb
  | importSnapshot s ok => exact commit_keeps hdb fun db' h => importTransaction_planned hdb h

end Imports

/-! ## What the validations decide -/

/-- On a snapshot with unique task ids, whatever the order in which a hash table gives them:
the validation of the parents accepts exactly the graphs without cycles, and that of the
dependencies does so where these are between tasks of the snapshot; no counter is counted
below zero, and neither loop needs more turns than there are tasks.  In every run of local calls
and imports from a database without tasks, the dependencies have no cycle, and an import
validates those of its Project on any local tasks. -/
theorem graph_validation_exact (s : Snapshot) (hids : s.taskIds.Nodup) :
    (∀ label parents, parents.Perm s.parents →
      (validateParentCycles label parents = .ok () ↔ Graph.Acyclic (parentEdges s.parents)) ∧
      ∀ resolved start more, walkParents parents resolved (parents.length + 1 + more) [] start =
        walkParents parents resolved (parents.length + 1) [] start) ∧
    (∀ taskIds, taskIds.Perm s.taskIds →
      ((∀ e ∈ s.dependencies, e.1 ∈ s.taskIds ∧ e.2 ∈ s.taskIds) →
        (validateDependencyCycles taskIds s.dependencies = .ok () ↔
          Graph.Acyclic s.dependencies)) ∧
      (∀ fuel, Kahn.Safe s.dependencies fuel (Kahn.start taskIds s.dependencies)) ∧
      ∀ more, Kahn.drain s.dependencies ((counted taskIds s.dependencies).length + 1 + more) 0
          (Kahn.start taskIds s.dependencies) =
        Kahn.drain s.dependencies ((counted taskIds s.dependencies).length + 1) 0
          (Kahn.start taskIds s.dependencies)) ∧
    (∀ (db : Db) (ok : Bool) (db' : Db), (db.tasks.map (·.id)).Nodup →
      db.importTransaction s ok = .ok db' → Graph.Acyclic (db'.projectEdges s.projectId)) ∧
    ∀ (db : Db) (ops : List SyncOp), db.tasks = [] → db.dependencies = [] →
      Graph.Acyclic (runOps syncStep db ops).dependencyEdges := by
  have hparentIds : s.parents.map Prod.fst = s.taskIds := by
    simp [Snapshot.parents, Snapshot.taskIds, Function.comp_def]
  refine ⟨fun label parents hperm => ⟨?_, fun resolved start more => ?_⟩,
    fun taskIds hperm => ⟨fun hends => ?_, fun fuel => ?_, fun more => ?_⟩,
    fun db ok db' hkeyed himport => ?_, fun db ops htasks hdeps => ?_⟩
  · have hkeys : (parents.map Prod.fst).Nodup :=
      (hperm.map Prod.fst).nodup_iff.2 (hparentIds ▸ hids)
    have hsame : Graph.Acyclic (parentEdges parents) ↔ Graph.Acyclic (parentEdges s.parents) :=
      ⟨fun h => h.mono fun _ he => (hperm.filterMap _).mem_iff.2 he,
        fun h => h.mono fun _ he => (hperm.filterMap _).mem_iff.1 he⟩
    rw [validateParentCycles_iff hkeys, hsame]
  · exact walkParents_fuel more trivial (by simp)
  · refine Kahn.validateDependencyCycles_iff (hperm.nodup_iff.2 hids) fun e he => ?_
    exact ⟨hperm.mem_iff.2 (hends e he).1, hperm.mem_iff.2 (hends e he).2⟩
  · exact Kahn.Counting.safe Kahn.known_counted fuel
      (Kahn.counting_start _ (hperm.nodup_iff.2 hids))
  · exact Kahn.Counting.drain_eq Kahn.known_counted _ more
      (Kahn.counting_start _ (hperm.nodup_iff.2 hids)) (by simp) 0
  · have hmerged := importTransaction_merged himport
    obtain ⟨-, rfl⟩ := importTransaction_ok himport
    exact (validateMergedTaskGraph_ok (merge_owner hkeyed s).1 hmerged).1
  · have hstart : Planned db := by
      refine ⟨by simp [htasks], ⟨by simp [htasks], by simp [hdeps]⟩, ?_⟩
      rw [Db.dependencyEdges, hdeps]
      exact Graph.acyclic_nil
    have hend : Planned (runOps syncStep db ops) :=
      runOps_invariant (fun _ _ h => syncStep_planned h) hstart ops
    exact hend.acyclic

/-- Two tasks, each the child of the other and waiting for itself. -/
def tangled : Snapshot where
  projectId := "site"
  tasks := [{ id := "plan", parentTaskId := some "draft" },
    { id := "draft", parentTaskId := some "plan" }]
  taskDependencies := [⟨"plan", "plan"⟩, ⟨"draft", "plan"⟩, ⟨"draft", "plan"⟩]

theorem graph_validation_exact_tangled :
    ¬ Graph.Acyclic (parentEdges tangled.parents) ∧ ¬ Graph.Acyclic tangled.dependencies := by
  have hexact := graph_validation_exact tangled (by decide)
  constructor
  · rw [← ((hexact.1 "task" _ (List.Perm.refl _)).1)]
    exact fun h => absurd h (by decide +kernel)
  · rw [← (hexact.2.1 _ (List.Perm.refl _)).1 (by decide)]
    exact fun h => absurd h (by decide +kernel)

/-- A task that waits for one outside the snapshot is refused, although nothing waits for
itself. -/
theorem graph_validation_outside :
    ¬ ∀ s : Snapshot, s.taskIds.Nodup →
      (validateDependencyCycles s.taskIds s.dependencies = .ok () ↔
        Graph.Acyclic s.dependencies) := by
  intro h
  have hacyclic : Graph.Acyclic [("plan", "elsewhere")] := by
    refine Graph.acyclic_of_topological
      (?_ : Graph.Topological _ ["plan", "elsewhere"]) (by simp)
    simp [Graph.Topological, Graph.Edge]
  have hok := (h { projectId := "site", tasks := [{ id := "plan" }]
                   taskDependencies := [⟨"plan", "elsewhere"⟩] } (by decide)).2 hacyclic
  exact absurd hok (by decide +kernel)

end XpressClaw.Projects
