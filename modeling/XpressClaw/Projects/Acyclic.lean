import XpressClaw.Projects.Effects

/-!
# The completion graph has no cycle

A task waits for the tasks it depends on and for its blocking children.  Local calls search
the union of both kinds of edges before they add a dependency, and give new children to old
parents only; they keep the graph without cycles.  An import validates the two kinds one by
one, which lets a snapshot through whose union has a cycle.

* `Sound` — the invariant: no cycle, and every id that an edge names is the id of a task.
* `Effect.sound` — every write of a local call keeps it.
* `merge_sound` — an import keeps it when the merged edges pass the search that
  `would_create_cycle` makes for one edge.
-/

namespace XpressClaw.Projects

open Lib Relation

/-- Every id that a parent link or a dependency names is the id of a task. -/
structure Grounded (db : Db) : Prop where
  parents : ∀ t ∈ db.tasks, ∀ p, t.parentTaskId = some p → p ∈ db.tasks.map (·.id)
  dependencies : ∀ d ∈ db.dependencies,
    d.taskId ∈ db.tasks.map (·.id) ∧ d.dependsOnId ∈ db.tasks.map (·.id)

/-- The invariant of the completion graph. -/
structure Sound (db : Db) : Prop where
  grounded : Grounded db
  acyclic : Graph.Acyclic db.completionEdges

/-! ## Edges -/

theorem mem_childEdge (id : String) (parent : Option String) (blocks : Bool)
    (e : String × String) :
    e ∈ childEdge id parent blocks ↔ blocks = true ∧ parent = some e.1 ∧ e.2 = id := by
  obtain ⟨a, b⟩ := e
  cases blocks <;> cases parent <;> simp [childEdge, eq_comm]

theorem mem_completionEdges {db : Db} {e : String × String} :
    e ∈ db.completionEdges ↔ (⟨e.1, e.2⟩ : Tasks.Dependency) ∈ db.dependencies ∨
      ∃ t ∈ db.tasks, t.blocksParent = true ∧ t.parentTaskId = some e.1 ∧ t.id = e.2 := by
  obtain ⟨a, b⟩ := e
  simp only [Db.completionEdges, List.mem_append, List.mem_map, List.mem_filterMap]
  refine or_congr ⟨?_, ?_⟩ (exists_congr fun t => and_congr_right fun _ => ?_)
  · rintro ⟨d, hd, heq⟩
    obtain ⟨rfl, rfl⟩ := Prod.mk.inj heq
    exact hd
  · intro hd
    exact ⟨_, hd, rfl⟩
  · have hmem := mem_childEdge t.id t.parentTaskId t.blocksParent (a, b)
    rw [Option.mem_def] at hmem
    rw [hmem]
    exact and_congr_right fun _ => and_congr_right fun _ => eq_comm

theorem Grounded.mem_ids {db : Db} (h : Grounded db) {e : String × String}
    (he : e ∈ db.completionEdges) :
    e.1 ∈ db.tasks.map (·.id) ∧ e.2 ∈ db.tasks.map (·.id) := by
  rcases mem_completionEdges.1 he with hd | ⟨t, ht, -, hparent, hid⟩
  · exact h.dependencies _ hd
  · exact ⟨h.parents t ht _ hparent, hid ▸ List.mem_map_of_mem ht⟩

/-! ## Writes that leave the graph alone -/

/-- What the graph has of a task. -/
def Task.shape (t : Task) : String × Option String × Bool := (t.id, t.parentTaskId, t.blocksParent)

theorem ids_of_shape {db db' : Db} (hshape : db'.tasks.map Task.shape = db.tasks.map Task.shape) :
    db'.tasks.map (·.id) = db.tasks.map (·.id) := by
  simpa [Function.comp_def, Task.shape] using congrArg (List.map Prod.fst) hshape

theorem mem_of_shape {db db' : Db} (hshape : db'.tasks.map Task.shape = db.tasks.map Task.shape)
    {t' : Task} (ht' : t' ∈ db'.tasks) : ∃ t ∈ db.tasks, t.shape = t'.shape := by
  have hmem : t'.shape ∈ db.tasks.map Task.shape := hshape ▸ List.mem_map_of_mem ht'
  exact List.mem_map.1 hmem

theorem Grounded.of_shape {db db' : Db} (h : Grounded db)
    (hdeps : db'.dependencies = db.dependencies)
    (hshape : db'.tasks.map Task.shape = db.tasks.map Task.shape) : Grounded db' := by
  refine ⟨?_, ?_⟩
  · intro t' ht' p hp
    obtain ⟨t, ht, hsame⟩ := mem_of_shape hshape ht'
    have hparent : t.parentTaskId = t'.parentTaskId := congrArg (·.2.1) hsame
    rw [ids_of_shape hshape]
    exact h.parents t ht p (hparent.trans hp)
  · rw [hdeps, ids_of_shape hshape]
    exact h.dependencies

theorem Sound.of_shape {db db' : Db} (h : Sound db) (hdeps : db'.dependencies = db.dependencies)
    (hshape : db'.tasks.map Task.shape = db.tasks.map Task.shape) : Sound db' := by
  refine ⟨h.grounded.of_shape hdeps hshape, h.acyclic.mono ?_⟩
  intro e he
  rw [mem_completionEdges, hdeps] at he
  rcases he with hd | ⟨t', ht', hblocks, hparent, hid⟩
  · exact mem_completionEdges.2 (Or.inl hd)
  · obtain ⟨t, ht, hsame⟩ := mem_of_shape hshape ht'
    obtain ⟨hid', hrest⟩ := Prod.mk.inj hsame
    obtain ⟨hparent', hblocks'⟩ := Prod.mk.inj hrest
    exact mem_completionEdges.2 (Or.inr ⟨t, ht, hblocks'.trans hblocks, hparent'.trans hparent,
      hid'.trans hid⟩)

theorem shape_updateTasks {db : Db} {w : Task → Bool} {set : Task → Task}
    (hset : ∀ t, (set t).shape = t.shape) :
    (db.updateTasks w set).tasks.map Task.shape = db.tasks.map Task.shape := by
  show (db.tasks.map fun t => if w t then set t else t).map Task.shape = _
  rw [List.map_map]
  refine List.map_congr_left fun t _ => ?_
  by_cases hw : w t
  · simp [hw, hset]
  · simp [hw]

theorem Sound.updateTasks {db : Db} (h : Sound db) {w : Task → Bool} {set : Task → Task}
    (hset : ∀ t, (set t).shape = t.shape) : Sound (db.updateTasks w set) :=
  h.of_shape rfl (shape_updateTasks hset)

/-! ## Writes that add or remove edges -/

theorem Fits.parent_mem {db : Db} {t : Task} (h : Fits db t) {p : String}
    (hp : t.parentTaskId = some p) : p ∈ db.tasks.map (·.id) := by
  obtain ⟨r, hr, -⟩ := h.parent p hp
  exact mem_ids_of_task? hr

theorem Grounded.insertTask {db : Db} (h : Grounded db) {t : Task} (hfits : Fits db t) :
    Grounded { db with tasks := db.tasks ++ [t] } := by
  have hgrow : ∀ id ∈ db.tasks.map (·.id), id ∈ (db.tasks ++ [t]).map (·.id) := by
    intro id hid
    rw [List.map_append]
    exact List.mem_append_left _ hid
  refine ⟨?_, fun d hd => ?_⟩
  · intro t' ht' p hp
    rcases List.mem_append.1 ht' with ht' | ht'
    · exact hgrow p (h.parents t' ht' p hp)
    · obtain rfl := List.mem_singleton.1 ht'
      exact hgrow p (hfits.parent_mem hp)
  · exact ⟨hgrow _ (h.dependencies d hd).1, hgrow _ (h.dependencies d hd).2⟩

/-- A new task has no edge of its own; the edge from its parent closes no cycle. -/
theorem Sound.insertTask {db : Db} (h : Sound db) {t : Task} (hfits : Fits db t) :
    Sound { db with tasks := db.tasks ++ [t] } := by
  refine ⟨h.grounded.insertTask hfits, ?_⟩
  have hedges : ∀ e ∈ ({ db with tasks := db.tasks ++ [t] } : Db).completionEdges,
      e ∈ db.completionEdges ∨ (t.parentTaskId = some e.1 ∧ t.id = e.2) := by
    intro e he
    rcases mem_completionEdges.1 he with hd | ⟨t', ht', hblocks, hp, hid⟩
    · exact Or.inl (mem_completionEdges.2 (Or.inl hd))
    · rcases List.mem_append.1 ht' with ht' | ht'
      · exact Or.inl (mem_completionEdges.2 (Or.inr ⟨t', ht', hblocks, hp, hid⟩))
      · obtain rfl := List.mem_singleton.1 ht'
        exact Or.inr ⟨hp, hid⟩
  cases hp : t.parentTaskId with
  | none =>
    apply h.acyclic.mono
    intro e he
    rcases hedges e he with he | ⟨hp', -⟩
    · exact he
    · rw [hp] at hp'
      cases hp'
  | some p =>
    apply h.acyclic.insert (a := p) (b := t.id)
    · intro e he
      rcases hedges e he with he | ⟨hp', hid⟩
      · exact Or.inr he
      · rw [hp] at hp'
        exact Or.inl (Prod.ext (Option.some.inj hp').symm hid.symm)
    · -- no edge starts at an id that is not in use
      apply Graph.not_reaches_of_sink
      · intro e he heq
        exact hfits.fresh (heq ▸ (h.grounded.mem_ids he).1)
      · intro heq
        exact hfits.fresh (heq ▸ hfits.parent_mem hp)

theorem Grounded.depend {db : Db} (h : Grounded db) {taskId dependsOnId : String}
    (htask : taskId ∈ db.tasks.map (·.id)) (hdep : dependsOnId ∈ db.tasks.map (·.id)) :
    Grounded { db with dependencies := db.dependencies ++ [⟨taskId, dependsOnId⟩] } := by
  refine ⟨h.parents, fun d hd => ?_⟩
  rcases List.mem_append.1 hd with hd | hd
  · exact h.dependencies d hd
  · obtain rfl := List.mem_singleton.1 hd
    exact ⟨htask, hdep⟩

theorem Sound.depend {db : Db} (h : Sound db) {taskId dependsOnId : String}
    (htask : taskId ∈ db.tasks.map (·.id)) (hdep : dependsOnId ∈ db.tasks.map (·.id))
    (hcycle : db.wouldCreateCycle taskId dependsOnId = false) :
    Sound { db with dependencies := db.dependencies ++ [⟨taskId, dependsOnId⟩] } := by
  refine ⟨h.grounded.depend htask hdep, ?_⟩
  apply h.acyclic.insert (a := taskId) (b := dependsOnId)
  · intro e he
    rcases mem_completionEdges.1 he with hd | hchild
    · rcases List.mem_append.1 hd with hd | hd
      · exact Or.inr (mem_completionEdges.2 (Or.inl hd))
      · have heq := List.mem_singleton.1 hd
        simp only [Tasks.Dependency.mk.injEq] at heq
        exact Or.inl (Prod.ext heq.1 heq.2)
    · exact Or.inr (mem_completionEdges.2 (Or.inr hchild))
  · intro hreach
    rw [Db.wouldCreateCycle, Graph.reaches_iff.2 hreach] at hcycle
    cases hcycle

theorem Grounded.removeTask {db : Db} (h : Grounded db) (taskId : String) :
    Grounded (db.removeTask taskId) := by
  have hids : ∀ id ∈ db.tasks.map (·.id), id ≠ taskId →
      id ∈ (db.removeTask taskId).tasks.map (·.id) := by
    intro id hid hne
    obtain ⟨t, ht, rfl⟩ := List.mem_map.1 hid
    rw [ids_removeTask]
    exact List.mem_map_of_mem (List.mem_filter.2 ⟨ht, by simpa using hne⟩)
  refine ⟨?_, ?_⟩
  · intro t' ht' p hp
    obtain ⟨t, ht, -, -, hparent⟩ := mem_removeTask ht'
    obtain ⟨hp', hne⟩ := hparent p hp
    exact hids p (h.parents t ht p hp') hne
  · intro d hd
    obtain ⟨hd, hne⟩ := List.mem_filter.1 hd
    have hne' : d.taskId ≠ taskId ∧ d.dependsOnId ≠ taskId := by simpa using hne
    obtain ⟨htask, hdep⟩ := h.dependencies d hd
    exact ⟨hids _ htask hne'.1, hids _ hdep hne'.2⟩

theorem Sound.removeTask {db : Db} (h : Sound db) (taskId : String) :
    Sound (db.removeTask taskId) := by
  refine ⟨h.grounded.removeTask taskId, h.acyclic.mono ?_⟩
  intro e he
  rcases mem_completionEdges.1 he with hd | ⟨t', ht', hblocks, hp, hid⟩
  · exact mem_completionEdges.2 (Or.inl (List.mem_of_mem_filter hd))
  · obtain ⟨t, ht, -, heq, hparent⟩ := mem_removeTask ht'
    have hid' : t'.id = t.id := by rw [heq]
    have hblocks' : t'.blocksParent = t.blocksParent := by rw [heq]
    exact mem_completionEdges.2 (Or.inr ⟨t, ht, hblocks'.symm.trans hblocks, (hparent _ hp).1,
      hid'.symm.trans hid⟩)

theorem Grounded.releaseChildParentReviews {db : Db} (h : Grounded db) (taskId : String)
    (released : List String) : Grounded (db.releaseChildParentReviews taskId released) := by
  have hids : (db.releaseChildParentReviews taskId released).tasks.map (·.id) =
      db.tasks.map (·.id) := ids_updateTasks fun _ => rfl
  refine ⟨fun t' ht' p hp => ?_, fun d hd => ?_⟩
  · obtain ⟨t, ht, -, hparent⟩ := mem_releaseChildParentReviews ht'
    rw [hids]
    exact h.parents t ht p (hparent p hp)
  · rw [hids]
    exact h.dependencies d hd

theorem Sound.releaseChildParentReviews {db : Db} (h : Sound db) (taskId : String)
    (released : List String) : Sound (db.releaseChildParentReviews taskId released) := by
  refine ⟨h.grounded.releaseChildParentReviews taskId released, h.acyclic.mono ?_⟩
  intro e he
  rcases mem_completionEdges.1 he with hd | ⟨t', ht', hblocks, hp, hid⟩
  · exact mem_completionEdges.2 (Or.inl hd)
  · obtain ⟨t, ht, heq, hparent⟩ := mem_releaseChildParentReviews ht'
    have hid' : t'.id = t.id := by rw [heq]
    have hblocks' : t'.blocksParent = t.blocksParent := by rw [heq]
    exact mem_completionEdges.2 (Or.inr ⟨t, ht, hblocks'.symm.trans hblocks, hparent _ hp,
      hid'.symm.trans hid⟩)

/-- Every write of a local call keeps the graph without cycles. -/
theorem Effect.sound {db db' : Db} (h : Effect db db') (hdb : Sound db) : Sound db' := by
  cases h with
  | insertTask t hfits => exact hdb.insertTask hfits
  | connect work => exact hdb.of_shape rfl rfl
  | depend taskId dependsOnId htask hdep hcycle => exact hdb.depend htask hdep hcycle
  | adopt taskId projectId hno => exact hdb.updateTasks fun _ => rfl
  | setAgent taskId agentId hassignable => exact hdb.updateTasks fun _ => rfl
  | setStatus taskId status => exact hdb.updateTasks fun _ => rfl
  | release taskId released => exact hdb.releaseChildParentReviews taskId released
  | setConversation taskId conversationId projectId hconversation htask =>
    exact hdb.updateTasks fun _ => rfl
  | removeTask taskId => exact hdb.removeTask taskId
  | insertConversation c hfresh => exact hdb.of_shape rfl rfl
  | join m hconversation => exact hdb.of_shape rfl rfl
  | leave m => exact hdb.of_shape rfl rfl
  | removeConversation id =>
    have hcleared : Sound (db.updateTasks (·.conversationId = some id)
        fun t => { t with conversationId := none }) := hdb.updateTasks fun _ => rfl
    exact hcleared.of_shape rfl rfl
  | move projectId agentId hmovable =>
    have hconversations : Sound (db.moveConversations projectId agentId) :=
      hdb.of_shape rfl rfl
    have htasks : Sound ((db.moveConversations projectId agentId).moveTasks projectId agentId) :=
      hconversations.updateTasks fun _ => rfl
    exact htasks.of_shape rfl rfl
  | forget projects => exact hdb.of_shape rfl rfl

theorem exec_sound {db db' : Db} {o : Op} (h : o.exec db = .ok db') (hdb : Sound db) : Sound db' :=
  (exec_effects h).keeps (fun _ _ heffect => heffect.sound) hdb

/-! ## Imports -/

section Merging

variable {db : Db} {s : Snapshot}

theorem forAll_ok {ρ : Type} {check : ρ → Except Error Unit} {rows : List ρ}
    (h : Snapshot.forAll check rows = .ok ()) : ∀ r ∈ rows, check r = .ok () := by
  induction rows with
  | nil => simp
  | cons r rows ih =>
    obtain ⟨u, hfirst, h⟩ := bind_ok h
    intro r' hr'
    rcases List.mem_cons.1 hr' with rfl | hr'
    · exact hfirst
    · exact ih h r' hr'

/-- What a validated snapshot says about its tasks and dependencies. -/
theorem validate_ok (h : s.validate = .ok ()) :
    s.taskIds.Nodup ∧ (∀ t ∈ s.tasks, ∀ p, t.parentTaskId = some p → p ∈ s.taskIds) ∧
      ∀ d ∈ s.taskDependencies, d.taskId ∈ s.taskIds ∧ d.dependsOnId ∈ s.taskIds := by
  obtain ⟨_, -, h⟩ := bind_ok h
  obtain ⟨_, -, h⟩ := bind_ok h
  obtain ⟨_, hunique, h⟩ := bind_ok h
  obtain ⟨_, htasks, h⟩ := bind_ok h
  obtain ⟨_, -, h⟩ := bind_ok h
  obtain ⟨_, hdeps, h⟩ := bind_ok h
  refine ⟨require_ok.1 hunique, fun t ht p hp => ?_, fun d hd => ?_⟩
  · have htask := forAll_ok htasks t ht
    obtain ⟨_, -, htask⟩ := bind_ok htask
    obtain ⟨_, -, htask⟩ := bind_ok htask
    obtain ⟨_, hparent, -⟩ := bind_ok htask
    simpa [hp] using require_ok.1 hparent
  · obtain ⟨_, hids, -⟩ := bind_ok (forAll_ok hdeps d hd)
    exact require_ok.1 hids

theorem foldl_graph {ρ : Type} {f : Db → ρ → Db}
    (hf : ∀ db r, (f db r).tasks = db.tasks ∧ (f db r).dependencies = db.dependencies)
    (rows : List ρ) (db : Db) :
    (rows.foldl f db).tasks = db.tasks ∧ (rows.foldl f db).dependencies = db.dependencies := by
  induction rows generalizing db with
  | nil => exact ⟨rfl, rfl⟩
  | cons r rows ih =>
    obtain ⟨htasks, hdeps⟩ := ih (f db r)
    exact ⟨htasks.trans (hf db r).1, hdeps.trans (hf db r).2⟩

/-! ### The upsert of the tasks -/

theorem upsertTask_ids (projectId : String) (p : PortableTask) (id : String) :
    id ∈ (Db.upsertTask projectId db p).tasks.map (·.id) ↔
      id ∈ db.tasks.map (·.id) ∨ id = p.id := by
  unfold Db.upsertTask
  cases hget : db.task? p.id with
  | some t =>
    show id ∈ (db.updateTasks _ _).tasks.map (·.id) ↔ _
    have hset : ∀ t, (Db.overwrite projectId p t).id = t.id := fun _ => rfl
    rw [ids_updateTasks hset]
    refine ⟨Or.inl, fun h => ?_⟩
    rcases h with h | rfl
    · exact h
    · exact mem_ids_of_task? hget
  | none =>
    show id ∈ (db.tasks ++ [Db.overwrite projectId p { id := p.id }]).map (·.id) ↔ _
    rw [List.map_append, List.mem_append]
    simp [Db.overwrite]

/-- A row after the upsert of one task: another row, or one with the flags of the snapshot. -/
theorem mem_upsertTask {projectId : String} {p : PortableTask} {t : Task}
    (ht : t ∈ (Db.upsertTask projectId db p).tasks) :
    (t.id ≠ p.id ∧ t ∈ db.tasks) ∨ (t.id = p.id ∧ t.blocksParent = p.blocksParent) := by
  unfold Db.upsertTask at ht
  cases hget : db.task? p.id with
  | some r =>
    simp only [hget] at ht
    obtain ⟨t₀, ht₀, rfl⟩ := List.mem_map.1 ht
    by_cases hid : t₀.id = p.id
    · exact Or.inr (by simp [hid, Db.overwrite])
    · exact Or.inl (by simpa [hid] using ht₀)
  | none =>
    simp only [hget] at ht
    rcases List.mem_append.1 ht with ht | ht
    · by_cases hid : t.id = p.id
      · have hnone : ¬ p.id ∈ db.tasks.map (·.id) := by
          rw [← Table.get_isSome_iff]
          simpa [Db.task?] using hget
        exact absurd (hid ▸ List.mem_map_of_mem ht) hnone
      · exact Or.inl ⟨hid, ht⟩
    · obtain rfl := List.mem_singleton.1 ht
      exact Or.inr ⟨rfl, rfl⟩

theorem upsertTask_dependencies (projectId : String) (p : PortableTask) :
    (Db.upsertTask projectId db p).dependencies = db.dependencies := by
  unfold Db.upsertTask
  split <;> rfl

/-- The same for all tasks of a snapshot. -/
theorem foldl_upsertTask (projectId : String) (ps : List PortableTask) (db : Db) :
    (∀ id, id ∈ (ps.foldl (Db.upsertTask projectId) db).tasks.map (·.id) ↔
      id ∈ db.tasks.map (·.id) ∨ id ∈ ps.map (·.id)) ∧
    (∀ t ∈ (ps.foldl (Db.upsertTask projectId) db).tasks,
      (t.id ∉ ps.map (·.id) ∧ t ∈ db.tasks) ∨
        ∃ p ∈ ps, p.id = t.id ∧ t.blocksParent = p.blocksParent) ∧
    (ps.foldl (Db.upsertTask projectId) db).dependencies = db.dependencies := by
  induction ps generalizing db with
  | nil => exact ⟨by simp, fun t ht => Or.inl ⟨by simp, ht⟩, rfl⟩
  | cons p ps ih =>
    obtain ⟨hids, hrows, hdeps⟩ := ih (Db.upsertTask projectId db p)
    refine ⟨fun id => ?_, fun t ht => ?_, ?_⟩
    · rw [List.foldl_cons, hids, upsertTask_ids, List.map_cons, List.mem_cons, or_assoc]
    · rcases hrows t ht with ⟨hnot, ht'⟩ | ⟨p', hp', hid, hblocks⟩
      · rcases mem_upsertTask ht' with ⟨hne, ht₀⟩ | ⟨hid, hblocks⟩
        · refine Or.inl ⟨?_, ht₀⟩
          rw [List.map_cons, List.mem_cons]
          exact fun h => h.elim hne hnot
        · exact Or.inr ⟨p, List.mem_cons_self .., hid.symm, hblocks⟩
      · exact Or.inr ⟨p', List.mem_cons_of_mem _ hp', hid, hblocks⟩
    · rw [List.foldl_cons, hdeps, upsertTask_dependencies]

/-- A row after the parents were set. -/
theorem foldl_setParent (ps : List PortableTask) (db : Db) :
    (ps.foldl Db.setParent db).tasks.map (·.id) = db.tasks.map (·.id) ∧
    (∀ t ∈ (ps.foldl Db.setParent db).tasks, ∃ t₀ ∈ db.tasks, t₀.id = t.id ∧
      t₀.blocksParent = t.blocksParent ∧
      ((t.id ∉ ps.map (·.id) ∧ t.parentTaskId = t₀.parentTaskId) ∨
        ∃ p ∈ ps, p.id = t.id ∧ t.parentTaskId = p.parentTaskId)) ∧
    (ps.foldl Db.setParent db).dependencies = db.dependencies := by
  induction ps generalizing db with
  | nil => exact ⟨rfl, fun t ht => ⟨t, ht, rfl, rfl, Or.inl ⟨by simp, rfl⟩⟩, rfl⟩
  | cons p ps ih =>
    obtain ⟨hids, hrows, hdeps⟩ := ih (Db.setParent db p)
    refine ⟨?_, fun t ht => ?_, ?_⟩
    · rw [List.foldl_cons, hids]
      exact ids_updateTasks fun _ => rfl
    · obtain ⟨t₁, ht₁, hid₁, hblocks₁, hparent₁⟩ := hrows t ht
      obtain ⟨t₀, ht₀, heq⟩ := List.mem_map.1 ht₁
      by_cases hid : t₀.id = p.id
      · have heq' : t₁ = { t₀ with parentTaskId := p.parentTaskId } := by
          rw [← heq, if_pos (by simpa using hid)]
        subst heq'
        refine ⟨t₀, ht₀, hid₁, hblocks₁, Or.inr ?_⟩
        rcases hparent₁ with ⟨-, hparent⟩ | ⟨p', hp', hrest⟩
        · exact ⟨p, List.mem_cons_self .., hid.symm.trans hid₁, hparent⟩
        · exact ⟨p', List.mem_cons_of_mem _ hp', hrest⟩
      · have heq' : t₁ = t₀ := by rw [← heq, if_neg (by simpa using hid)]
        subst heq'
        refine ⟨t₁, ht₀, hid₁, hblocks₁, ?_⟩
        rcases hparent₁ with ⟨hnot, hparent⟩ | ⟨p', hp', hrest⟩
        · refine Or.inl ⟨?_, hparent⟩
          rw [List.map_cons, List.mem_cons]
          exact fun h => h.elim (fun h => hid (hid₁.trans h)) hnot
        · exact Or.inr ⟨p', List.mem_cons_of_mem _ hp', hrest⟩
    · rw [List.foldl_cons, hdeps]
      rfl

theorem foldl_importDependency (ds : List Tasks.Dependency) (db : Db) :
    (ds.foldl Db.importDependency db).tasks = db.tasks ∧
    ∀ d, d ∈ (ds.foldl Db.importDependency db).dependencies → d ∈ db.dependencies ∨ d ∈ ds := by
  induction ds generalizing db with
  | nil => exact ⟨rfl, fun d hd => Or.inl hd⟩
  | cons d ds ih =>
    obtain ⟨htasks, hdeps⟩ := ih (Db.importDependency db d)
    have hone : (Db.importDependency db d).tasks = db.tasks ∧
        ∀ d', d' ∈ (Db.importDependency db d).dependencies → d' ∈ db.dependencies ∨ d' = d := by
      unfold Db.importDependency
      by_cases hmem : d ∈ db.dependencies
      · rw [if_pos hmem]
        exact ⟨rfl, fun _ hd' => Or.inl hd'⟩
      · rw [if_neg hmem]
        refine ⟨rfl, fun d' hd' => ?_⟩
        simpa using hd'
    refine ⟨htasks.trans hone.1, fun d' hd' => ?_⟩
    rcases hdeps d' hd' with hd' | hd'
    · rcases hone.2 d' hd' with hd' | rfl
      · exact Or.inl hd'
      · exact Or.inr (List.mem_cons_self ..)
    · exact Or.inr (List.mem_cons_of_mem _ hd')

/-! ### The merged database -/

/-- What an import writes before the tasks. -/
def Db.beforeTasks (db : Db) (s : Snapshot) : Db :=
  s.participants.foldl Db.importParticipant
    (s.conversations.foldl (Db.upsertConversation s.projectId)
      (s.agents.foldl (Db.upsertAgent s.projectId) (db.upsertProject s.projectId)))

/-- It does not touch the graph. -/
theorem beforeTasks_graph (db : Db) (s : Snapshot) :
    (db.beforeTasks s).tasks = db.tasks ∧ (db.beforeTasks s).dependencies = db.dependencies := by
  have hproject : (db.upsertProject s.projectId).tasks = db.tasks ∧
      (db.upsertProject s.projectId).dependencies = db.dependencies := by
    unfold Db.upsertProject
    split <;> exact ⟨rfl, rfl⟩
  have hagent : ∀ db id, (Db.upsertAgent s.projectId db id).tasks = db.tasks ∧
      (Db.upsertAgent s.projectId db id).dependencies = db.dependencies := by
    intro db id
    unfold Db.upsertAgent
    split <;> exact ⟨rfl, rfl⟩
  have hconversation : ∀ db id, (Db.upsertConversation s.projectId db id).tasks = db.tasks ∧
      (Db.upsertConversation s.projectId db id).dependencies = db.dependencies := by
    intro db id
    unfold Db.upsertConversation
    split <;> exact ⟨rfl, rfl⟩
  have hparticipant : ∀ db p, (Db.importParticipant db p).tasks = db.tasks ∧
      (Db.importParticipant db p).dependencies = db.dependencies := by
    intro db p
    unfold Db.importParticipant
    split <;> exact ⟨rfl, rfl⟩
  have h₁ := foldl_graph hagent s.agents (db.upsertProject s.projectId)
  have h₂ := foldl_graph hconversation s.conversations
    (s.agents.foldl (Db.upsertAgent s.projectId) (db.upsertProject s.projectId))
  have h₃ := foldl_graph hparticipant s.participants
    (s.conversations.foldl (Db.upsertConversation s.projectId)
      (s.agents.foldl (Db.upsertAgent s.projectId) (db.upsertProject s.projectId)))
  exact ⟨h₃.1.trans (h₂.1.trans (h₁.1.trans hproject.1)),
    h₃.2.trans (h₂.2.trans (h₁.2.trans hproject.2))⟩

/-- Every edge of the merged graph is one of the edges that the inputs of the import have. -/
theorem merge_graph (db : Db) (s : Snapshot) :
    (∀ id, id ∈ (db.merge s).tasks.map (·.id) ↔ id ∈ db.tasks.map (·.id) ∨ id ∈ s.taskIds) ∧
    (∀ t ∈ (db.merge s).tasks,
      (t.id ∉ s.taskIds ∧ ∃ t₀ ∈ db.tasks, t₀.shape = t.shape) ∨
        ∃ p ∈ s.tasks, ∃ q ∈ s.tasks, p.id = t.id ∧ q.id = t.id ∧
          t.blocksParent = p.blocksParent ∧ t.parentTaskId = q.parentTaskId) ∧
    (∀ d ∈ (db.merge s).dependencies, d ∈ db.dependencies ∨ d ∈ s.taskDependencies) := by
  obtain ⟨hids₁, hrows₁, hdeps₁⟩ :=
    foldl_upsertTask s.projectId s.tasks (db.beforeTasks s)
  have hbefore := beforeTasks_graph db s
  obtain ⟨hids₂, hrows₂, hdeps₂⟩ :=
    foldl_setParent s.tasks (s.tasks.foldl (Db.upsertTask s.projectId) (db.beforeTasks s))
  obtain ⟨htasks₃, hdeps₃⟩ := foldl_importDependency s.taskDependencies
    (s.tasks.foldl Db.setParent (s.tasks.foldl (Db.upsertTask s.projectId) (db.beforeTasks s)))
  have htasks : (db.merge s).tasks =
      (s.tasks.foldl Db.setParent (s.tasks.foldl (Db.upsertTask s.projectId)
        (db.beforeTasks s))).tasks :=
    htasks₃
  refine ⟨fun id => ?_, fun t ht => ?_, fun d hd => ?_⟩
  · rw [htasks, hids₂, hids₁, hbefore.1]
    exact Iff.rfl
  · rw [htasks] at ht
    obtain ⟨t₁, ht₁, hid, hblocks, hparent⟩ := hrows₂ t ht
    rcases hrows₁ t₁ ht₁ with ⟨hnot, ht₀⟩ | ⟨p, hp, hpid, hpblocks⟩
    · rw [hid] at hnot
      rcases hparent with ⟨-, hparent⟩ | ⟨q, hq, hqid, -⟩
      · refine Or.inl ⟨hnot, t₁, hbefore.1 ▸ ht₀, ?_⟩
        simp [Task.shape, hid, hblocks, hparent]
      · exact absurd (hqid ▸ List.mem_map_of_mem hq) hnot
    · rcases hparent with ⟨hnot, -⟩ | ⟨q, hq, hqid, hqparent⟩
      · exact absurd (hpid.trans hid ▸ List.mem_map_of_mem hp) hnot
      · exact Or.inr ⟨p, hp, q, hq, hpid.trans hid, hqid, hblocks.symm.trans hpblocks, hqparent⟩
  · rcases hdeps₃ d hd with hd | hd
    · rw [hdeps₂, hdeps₁, hbefore.2] at hd
      exact Or.inl hd
    · exact Or.inr hd

/-- The search that `would_create_cycle` makes for one edge, made for every edge of the merged
graph, finds nothing. -/
def Db.mergesWithoutCycle (db : Db) (s : Snapshot) : Bool :=
  (db.mergedEdges s).all fun e => !Graph.reaches (db.mergedEdges s) e.2 e.1

theorem acyclic_of_mergesWithoutCycle (h : db.mergesWithoutCycle s = true) :
    Graph.Acyclic (db.mergedEdges s) := by
  rw [Graph.acyclic_iff_edges]
  intro e he hreach
  have hno := List.all_eq_true.1 h e he
  rw [Graph.reaches_iff.2 hreach] at hno
  cases hno

theorem mem_mergedEdges (hvalid : s.validate = .ok ()) {e : String × String}
    (he : e ∈ (db.merge s).completionEdges) : e ∈ db.mergedEdges s := by
  obtain ⟨hunique, -, -⟩ := validate_ok hvalid
  obtain ⟨-, hrows, hdeps⟩ := merge_graph db s
  simp only [Db.mergedEdges, List.mem_append, List.mem_filterMap]
  rcases mem_completionEdges.1 he with hd | ⟨t, ht, hblocks, hparent, hid⟩
  · rcases hdeps _ hd with hd | hd
    · exact Or.inl (Or.inr (List.mem_map.2 ⟨_, hd, rfl⟩))
    · exact Or.inl (Or.inl (Or.inl (List.mem_map.2 ⟨_, hd, rfl⟩)))
  · rcases hrows t ht with ⟨hnot, t₀, ht₀, hshape⟩ | ⟨p, hp, q, hq, hpid, hqid, hpb, hqp⟩
    · obtain ⟨hid₀, hrest⟩ := Prod.mk.inj hshape
      obtain ⟨hparent₀, hblocks₀⟩ := Prod.mk.inj hrest
      refine Or.inr ⟨t₀, List.mem_filter.2 ⟨ht₀, ?_⟩, ?_⟩
      · simpa [hid₀] using hnot
      · exact (mem_childEdge _ _ _ e).2
          ⟨hblocks₀.trans hblocks, hparent₀.trans hparent, (hid₀.trans hid).symm⟩
    · -- ids of a snapshot are unique, so both rows are one
      obtain rfl : p = q := List.inj_on_of_nodup_map hunique hp hq (hpid.trans hqid.symm)
      refine Or.inl (Or.inl (Or.inr ⟨p, hp, ?_⟩))
      exact (mem_childEdge _ _ _ e).2
        ⟨hpb.symm.trans hblocks, hqp.symm.trans hparent, (hpid.trans hid).symm⟩

theorem merge_grounded (hdb : Grounded db) (hvalid : s.validate = .ok ()) :
    Grounded (db.merge s) := by
  obtain ⟨-, hparents, hends⟩ := validate_ok hvalid
  obtain ⟨hids, hrows, hdeps⟩ := merge_graph db s
  refine ⟨fun t ht p hp => (hids p).2 ?_, fun d hd => ?_⟩
  · rcases hrows t ht with ⟨-, t₀, ht₀, hshape⟩ | ⟨-, -, q, hq, -, -, -, hqp⟩
    · have hparent₀ : t₀.parentTaskId = t.parentTaskId := congrArg (·.2.1) hshape
      exact Or.inl (hdb.parents t₀ ht₀ p (hparent₀.trans hp))
    · exact Or.inr (hparents q hq p (hqp.symm.trans hp))
  · rcases hdeps d hd with hd | hd
    · obtain ⟨h₁, h₂⟩ := hdb.dependencies d hd
      exact ⟨(hids _).2 (Or.inl h₁), (hids _).2 (Or.inl h₂)⟩
    · obtain ⟨h₁, h₂⟩ := hends d hd
      exact ⟨(hids _).2 (Or.inr h₁), (hids _).2 (Or.inr h₂)⟩

theorem importTransaction_ok {ok : Bool} {db' : Db} (h : db.importTransaction s ok = .ok db') :
    s.validate = .ok () ∧ db' = db.merge s := by
  obtain ⟨_, hvalid, h⟩ := bind_ok h
  obtain ⟨_, -, h⟩ := bind_ok h
  obtain ⟨_, -, h⟩ := bind_ok h
  obtain ⟨_, -, h⟩ := bind_ok h
  obtain ⟨_, -, h⟩ := bind_ok h
  exact ⟨hvalid, (Except.ok.inj h).symm⟩

theorem importTransaction_sound {ok : Bool} {db' : Db} (hdb : Sound db)
    (hcheck : db.mergesWithoutCycle s = true) (h : db.importTransaction s ok = .ok db') :
    Sound db' := by
  obtain ⟨hvalid, rfl⟩ := importTransaction_ok h
  exact ⟨merge_grounded hdb.grounded hvalid,
    (acyclic_of_mergesWithoutCycle hcheck).mono fun _ he => mem_mergedEdges hvalid he⟩

end Merging

/-! ## Runs -/

/-- An import that goes through merges without a cycle; nothing is asked of the other calls. -/
def ImportsChecked (db : Db) : SyncOp → Prop
  | .call _ => True
  | .importSnapshot s ok => (db.importTransaction s ok).isOk = true → db.mergesWithoutCycle s = true

instance (db : Db) : ∀ o : SyncOp, Decidable (ImportsChecked db o)
  | .call _ => inferInstanceAs (Decidable True)
  | .importSnapshot s ok =>
      inferInstanceAs (Decidable
        ((db.importTransaction s ok).isOk = true → db.mergesWithoutCycle s = true))

theorem syncStep_sound {db : Db} {o : SyncOp} (hdb : Sound db) (ho : ImportsChecked db o) :
    Sound (syncStep db o) := by
  cases o with
  | call o => exact commit_keeps hdb fun db' h => exec_sound h hdb
  | importSnapshot s ok =>
    refine commit_keeps hdb fun db' h => ?_
    have hok : (db.importTransaction s ok).isOk = true := by
      have h' : db.importTransaction s ok = .ok db' := h
      rw [h']
      rfl
    exact importTransaction_sound hdb (ho hok) h

/-- In a run from a database without tasks whose imports all merge without a cycle, the
completion graph never has one: of any set of tasks, one does not wait for the others. -/
theorem completion_graph_acyclic (db : Db) (htasks : db.tasks = []) (hdeps : db.dependencies = [])
    (ops : List SyncOp) (hops : Along syncStep ImportsChecked db ops) :
    Graph.Acyclic (runOps syncStep db ops).completionEdges ∧
      ∀ waiting : List String, waiting ≠ [] → ∃ t ∈ waiting, ∀ d,
        (t, d) ∈ (runOps syncStep db ops).completionEdges → d ∉ waiting := by
  have hstart : Sound db := by
    refine ⟨⟨by simp [htasks], by simp [hdeps]⟩, ?_⟩
    have hnil : db.completionEdges = [] := by simp [Db.completionEdges, htasks, hdeps]
    rw [hnil]
    exact Graph.acyclic_nil
  have hend : Sound (runOps syncStep db ops) :=
    hops.invariant (fun db o hdb ho => syncStep_sound hdb ho) hstart
  exact ⟨hend.acyclic, fun waiting hne => hend.acyclic.exists_free hne⟩

/-- A plan of three tasks is imported, gets a child, and one more dependency. -/
def plannedRun : List SyncOp :=
  [ .importSnapshot
      { projectId := "site"
        tasks := [{ id := "plan" }, { id := "draft", parentTaskId := some "plan" },
          { id := "review", parentTaskId := some "plan" }]
        taskDependencies := [⟨"review", "draft"⟩] } true,
    .call (.createTask { parentTaskId := some "plan" } none "publish"),
    .call (.addDependency "publish" "review") ]

theorem completion_graph_acyclic_planned :
    (runOps syncStep {} plannedRun).completionEdges.length = 5 ∧
      Graph.Acyclic (runOps syncStep {} plannedRun).completionEdges :=
  ⟨by decide +kernel, (completion_graph_acyclic {} rfl rfl plannedRun (by decide +kernel)).1⟩

/-- A snapshot whose child waits for its parent: it is validated, kind by kind. -/
def knottedSnapshot : Snapshot :=
  { projectId := "site"
    tasks := [{ id := "plan" }, { id := "draft", parentTaskId := some "plan" }]
    taskDependencies := [⟨"draft", "plan"⟩] }

/-- Importing it into an empty database leaves a cycle in the completion graph. -/
theorem completion_graph_cyclic_import :
    ¬ ∀ db : Db, db.tasks = [] → db.dependencies = [] → ∀ ops : List SyncOp,
      Graph.Acyclic (runOps syncStep db ops).completionEdges := by
  intro h
  apply h {} rfl rfl [.importSnapshot knottedSnapshot true] "plan"
  have hdown : Graph.Edge (runOps syncStep {}
    [.importSnapshot knottedSnapshot true]).completionEdges
      "plan" "draft" := by
    unfold Graph.Edge
    decide +kernel
  have hup : Graph.Edge (runOps syncStep {} [.importSnapshot knottedSnapshot true]).completionEdges
      "draft" "plan" := by
    unfold Graph.Edge
    decide +kernel
  exact (TransGen.single hdown).tail hup

end XpressClaw.Projects
