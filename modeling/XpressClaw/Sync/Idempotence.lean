import XpressClaw.Sync.Again

/-!
# Importing a second time

What the first import puts in place is in place, and a second import of the same snapshot finds
it so: it changes nothing but the revisions of the tasks, which the trigger on `tasks` raises
with every `UPDATE`, whether it changes the row or not.

* `Db.Schema` — the keys and foreign keys that the import relies on.
* `InPlace` — the records of a snapshot are in place.
* `inPlace_importTransaction` — after an import they are.
* `InPlace.importTransaction_eq` — what an import does then.
-/

namespace XpressClaw.Sync

open Lib

variable {texts : Texts} {db db' : Db} {s : PortableSnapshot}

/-- The keys and the foreign keys that the import relies on. -/
structure Db.Schema (db : Db) : Prop where
  taskThread : db.taskThread.Sound TaskMessage.id
  chatThread : db.chatThread.Sound ConversationMessage.id
  attempts : ∀ a ∈ db.attempts, (db.task? a.taskId).isSome
  turns : ∀ t ∈ db.turns, (db.conversation? t.conversationId).isSome

/-! ## Sessions -/

/-- There is a session for the Agent, and it is in no conflict with another. -/
structure SessionIn (id : String) (rows : List LogicalSession) : Prop where
  exists_row : rows.any (fun r => r.id = id || r.agentId = id) = true
  own : (Table.get (·.id) rows id).all (·.agentId = id) = true
  only : (Table.get (·.agentId) rows id).all (·.id = id) = true

theorem insertSession_own {rows : List LogicalSession} {id : String} (p : PortableAgent)
    (hown : (Table.get (·.id) rows id).all (·.agentId = id) = true)
    (honly : (Table.get (·.agentId) rows id).all (·.id = id) = true) :
    (Table.get (·.id) (insertSession rows p) id).all (·.agentId = id) = true ∧
      (Table.get (·.agentId) (insertSession rows p) id).all (·.id = id) = true := by
  unfold insertSession
  split
  · exact ⟨hown, honly⟩
  · rw [Table.get_append, Table.get_append]
    constructor
    · cases hget : Table.get (·.id) rows id with
      | some r =>
        rw [hget] at hown
        exact hown
      | none => by_cases hid : p.id = id <;> simp [Table.get, hid]
    · cases hget : Table.get (·.agentId) rows id with
      | some r =>
        rw [hget] at honly
        exact honly
      | none => by_cases hid : p.id = id <;> simp [Table.get, hid]

theorem insertSession_any {rows : List LogicalSession} {id : String} (p : PortableAgent)
    (h : p.id = id ∨ rows.any (fun r => r.id = id || r.agentId = id) = true) :
    (insertSession rows p).any (fun r => r.id = id || r.agentId = id) = true := by
  unfold insertSession
  split
  · rename_i hany
    rcases h with rfl | h
    · exact hany
    · exact h
  · rw [List.any_append]
    rcases h with rfl | h
    · simp
    · rw [h, Bool.true_or]

theorem sessionIn_foldl {agents : List PortableAgent} {rows : List LogicalSession} {id : String}
    (hown : (Table.get (·.id) rows id).all (·.agentId = id) = true)
    (honly : (Table.get (·.agentId) rows id).all (·.id = id) = true)
    (h : id ∈ agents.map (·.id) ∨ rows.any (fun r => r.id = id || r.agentId = id) = true) :
    SessionIn id (agents.foldl insertSession rows) := by
  induction agents generalizing rows with
  | nil => exact ⟨h.resolve_left (by simp), hown, honly⟩
  | cons a agents ih =>
    obtain ⟨hown', honly'⟩ := insertSession_own a hown honly
    refine ih hown' honly' ?_
    rw [List.map_cons, List.mem_cons, or_assoc] at h
    rcases h with h | h | h
    · exact Or.inr (insertSession_any a (Or.inl h.symm))
    · exact Or.inl h
    · exact Or.inr (insertSession_any a (Or.inr h))

theorem foldl_insertSession_eq {agents : List PortableAgent} {rows : List LogicalSession}
    (h : ∀ a ∈ agents, SessionIn a.id rows) : agents.foldl insertSession rows = rows := by
  induction agents with
  | nil => rfl
  | cons a agents ih =>
    rw [List.foldl_cons, insertSession, if_pos (h a List.mem_cons_self).exists_row]
    exact ih fun b hb => h b (List.mem_cons_of_mem _ hb)

/-! ## Tasks -/

theorem normalizeAll_ids {tasks tasks' : List PortableTask}
    (h : normalizeAll texts tasks = .ok tasks') : tasks'.map (·.id) = tasks.map (·.id) := by
  induction tasks generalizing tasks' with
  | nil =>
    cases h
    rfl
  | cons t tasks ih =>
    obtain ⟨t', ht, h⟩ := bind_ok h
    obtain ⟨rest, hrest, h⟩ := bind_ok h
    cases h
    rw [List.map_cons, List.map_cons, ih hrest]
    congr 1
    unfold PortableTask.normalized at ht
    split at ht
    · cases ht
      rfl
    · split at ht
      · cases ht
        rfl
      · cases ht

/-- The row of a task is as the snapshot has it. -/
structure TaskIn (projectId : String) (t : PortableTask) (rows : List Task) : Prop where
  written : Table.Written (·.id) t.id (writeTask projectId t) rows
  parent : Table.Agrees (·.id) t.id (writeParent t) rows

theorem taskIn_writeTasks {projectId : String} {tasks : List PortableTask}
    (htasks : (tasks.map (·.id)).Nodup) (rows : List Task) :
    ∀ t ∈ tasks, TaskIn projectId t (writeTasks projectId tasks rows) := by
  have hwritten := Table.written_upsertAll (lawful_task projectId) htasks rows
  have hparents : ∀ t ∈ tasks, Table.Agrees (·.id) t.id (writeParent t)
      (writeTasks projectId tasks rows) := by
    have hkey : ∀ (t : PortableTask) (r : Task), (setParent t r).id = r.id := fun _ _ => rfl
    have hagree : ∀ (t : PortableTask) (r : Task), writeParent t (setParent t r) = setParent t r :=
      fun _ _ => rfl
    exact Table.agrees_modifyAll hkey hagree htasks _
  intro t ht
  exact ⟨(hwritten t ht).modifyAll (fun _ _ => rfl) fun _ _ => rfl, hparents t ht⟩

/-- The tasks whose revisions a second import raises: each is updated twice. -/
def bumpTwice (s : PortableSnapshot) (rows : List Task) : List Task :=
  rows.map fun r => if r.id ∈ s.tasks.map (·.id) then r.bump.bump else r

theorem writeTasks_eq {projectId : String} {tasks : List PortableTask} {rows : List Task}
    (htasks : (tasks.map (·.id)).Nodup) (h : ∀ t ∈ tasks, TaskIn projectId t rows) :
    writeTasks projectId tasks rows =
      rows.map fun r => if r.id ∈ tasks.map (·.id) then r.bump.bump else r := by
  refine Table.modifyAll_upsertAll (fun _ _ => rfl) (fun _ _ => rfl) htasks
    (fun t ht => (h t ht).written.exists_row) fun t ht r hr hid => ?_
  have hwritten := (h t ht).written.agrees r hr hid
  have hparent := (h t ht).parent r hr hid
  unfold rewriteTask setParent
  rw [hwritten]
  show (writeParent t r).bump.bump = _
  rw [hparent]

theorem graph_bumpTwice (db : Db) (s : PortableSnapshot) :
    ({ db with tasks := bumpTwice s db.tasks } : Db).graph = db.graph := by
  unfold Db.graph bumpTwice
  congr 1
  rw [List.map_map]
  refine List.map_congr_left fun r _ => ?_
  rw [Function.comp_apply]
  split <;> rfl

/-! ## The records of a snapshot -/

/-- The records of a snapshot are in place. -/
structure InPlace (texts : Texts) (s : PortableSnapshot) (db : Db) : Prop where
  project : Table.Written (·.id) s.project.id (rewriteProject s.project) db.projects
  accepts : db.ensureProjectAcceptsWork s.project.id = .ok ()
  agents : ∀ a ∈ s.agents, Table.Written (·.id) a.id (rewriteAgent s.project.id a) db.agents
  sessions : ∀ a ∈ s.agents, SessionIn a.id db.sessions
  conversations : ∀ c ∈ s.conversations,
    Table.Written (·.id) c.id (rewriteTitle s.project.id c) db.conversations
  touched : ∀ c ∈ s.conversations, Table.Agrees (·.id) c.id
    (Db.touch (db.lastMessageAt texts c.id)) db.conversations
  participants : ∀ p ∈ s.participants, Table.Written (·.key) p.key (fun r => r) db.participants
  tasks : ∃ tasks, normalizeAll texts s.tasks = .ok tasks ∧
    ∀ t ∈ tasks, TaskIn s.project.id t db.tasks
  dependencies : ∀ d ∈ s.taskDependencies,
    Table.Written (fun d => d) d (fun r => r) db.dependencies
  graph : db.validateMergedTaskGraph s.project.id = .ok ()
  taskMessages : TaskMessagesIn s db.taskThread
  workflows : ∀ w ∈ s.workflows,
    WorkflowIn s.project.id w db ∧ WorkflowScope s.project.id w db
  memory : db.writeMemory texts s = db
  messages : MessagesIn s db

theorem ids_of_normalized {tasks : List PortableTask}
    (h : normalizeAll texts s.tasks = .ok tasks) {t : PortableTask} (ht : t ∈ s.tasks) :
    ∃ t' ∈ tasks, t'.id = t.id := by
  have hmem : t.id ∈ tasks.map (·.id) := by
    rw [normalizeAll_ids h]
    exact List.mem_map_of_mem ht
  exact List.mem_map.1 hmem

theorem rejectForeignOwner_ok {ρ : Type} {key : ρ → String} {rows : List ρ} {id projectId : String}
    {set : ρ → ρ} {owner : ρ → Option String} (h : Table.Written key id set rows)
    (howner : ∀ r, owner (set r) = some projectId) :
    rejectForeignOwner projectId id ((Table.get key rows id).map owner) = .ok () := by
  obtain ⟨r, hr⟩ := Option.isSome_iff_exists.1 h.exists_row
  have hset := h.agrees r (Table.mem_of_get hr) (Table.key_of_get hr)
  have hproject := howner r
  rw [hset] at hproject
  rw [hr, Option.map_some]
  exact require_ok.2 hproject

/-! ## Activity -/

theorem projectIsActive_eq_false {projectId : String} {include_ : Bool} :
    db.projectIsActive projectId include_ = false ↔
      (∀ a ∈ db.attempts, attemptIsActive a.status = true → ∀ t, db.task? a.taskId = some t →
        t.projectId ≠ some projectId) ∧
      (include_ = true → NoActiveTurns projectId db) ∧
      (db.instances.any fun i => i.projectId = some projectId &&
        (i.status = "running" || i.status = "waiting")) = false := by
  have hany {ρ : Type} {o : Option ρ} {owner : ρ → Option String} :
      (o.any fun r => owner r = some projectId) = false ↔
        ∀ r, o = some r → owner r ≠ some projectId := by
    cases o <;> simp
  unfold Db.projectIsActive NoActiveTurns
  rw [Bool.or_eq_false_iff, Bool.or_eq_false_iff, and_assoc]
  refine and_congr ?_ (and_congr ?_ Iff.rfl)
  · rw [List.any_eq_false]
    refine forall₂_congr fun a _ => ?_
    rw [Bool.not_eq_true, Bool.and_eq_false_imp, hany]
  · rw [Bool.and_eq_false_imp, List.any_eq_false]
    refine forall_congr' fun _ => forall₂_congr fun t _ => ?_
    rw [Bool.not_eq_true, Bool.and_eq_false_imp, hany]

/-! ## The second import -/

theorem InPlace.validateLocalScopes_ok (hvalid : s.Valid texts) (h : InPlace texts s db) :
    db.validateLocalScopes s = .ok () := by
  have hagents : forAll (db.checkAgentScope s.project.id) s.agents = .ok () := by
    refine forAll_ok.2 fun a ha => ?_
    have hsession := h.sessions a ha
    unfold Db.checkAgentScope Db.agent?
    rw [rejectForeignOwner_ok (h.agents a ha) fun _ => rfl]
    exact require_ok.2 ⟨hsession.own, hsession.only⟩
  have htasks : forAll (fun t : PortableTask => rejectForeignOwner s.project.id t.id
      ((db.task? t.id).map (·.projectId))) s.tasks = .ok () := by
    obtain ⟨tasks, hnormal, hplaced⟩ := h.tasks
    refine forAll_ok.2 fun t ht => ?_
    obtain ⟨t', ht', hid⟩ := ids_of_normalized hnormal ht
    rw [← hid]
    exact rejectForeignOwner_ok (hplaced t' ht').written fun _ => rfl
  have hconversations : forAll (fun c : PortableConversation => rejectForeignOwner s.project.id
      c.id ((db.conversation? c.id).map (·.projectId))) s.conversations = .ok () :=
    forAll_ok.2 fun c hc => rejectForeignOwner_ok (h.conversations c hc) fun _ => rfl
  have hnotes : forAll (fun n : PortableMemoryNote => rejectForeignOwner s.project.id n.id
      ((db.note? n.id).map (some ·.projectId))) s.memoryNotes = .ok () := by
    have hwritten := Table.written_upsertAll (lawful_note texts s.project.id) hvalid.notes db.notes
    have hsame : Table.upsertAll (·.id) (·.id) (newNote texts s.project.id)
        (rewriteNote texts s.project.id) s.memoryNotes db.notes = db.notes :=
      congrArg Db.notes h.memory
    rw [hsame] at hwritten
    exact forAll_ok.2 fun n hn => rejectForeignOwner_ok (hwritten n hn) fun _ => rfl
  have hworkflows : forAll (db.checkWorkflowScope s.project.id) s.workflows = .ok () :=
    forAll_ok.2 fun w hw => (h.workflows w hw).1.checkWorkflowScope_ok (h.workflows w hw).2
  unfold Db.validateLocalScopes
  dsimp only
  rw [hagents, htasks, hconversations, hnotes, hworkflows]
  rfl

/-- The conversations are written and touched, and end as they were. -/
theorem InPlace.conversations_eq (hvalid : s.Valid texts) (h : InPlace texts s db) :
    Table.modifyAll (fun r : Conversation => r.id) (·.id)
      (fun (c : PortableConversation) => Db.touch (db.lastMessageAt texts c.id)) s.conversations
      (Table.upsertAll (·.id) (·.id) (newConversation s.project.id)
        (rewriteConversation s.project.id) s.conversations db.conversations) =
      db.conversations := by
  have hwrite : ∀ (c : PortableConversation) (r : Conversation),
      (rewriteConversation s.project.id c r).id = r.id := fun _ _ => rfl
  have htouch : ∀ (c : PortableConversation) (r : Conversation),
      (Db.touch (db.lastMessageAt texts c.id) r).id = r.id := fun _ _ => rfl
  have hsame : ∀ c ∈ s.conversations, ∀ r ∈ db.conversations, r.id = c.id →
      Db.touch (db.lastMessageAt texts c.id) (rewriteConversation s.project.id c r) = id r := by
    intro c hc r hr hid
    have hwritten := (h.conversations c hc).agrees r hr hid
    have htouched := h.touched c hc r hr hid
    calc Db.touch (db.lastMessageAt texts c.id) (rewriteConversation s.project.id c r)
        = Db.touch (db.lastMessageAt texts c.id) (rewriteTitle s.project.id c r) := rfl
      _ = Db.touch (db.lastMessageAt texts c.id) r := by rw [hwritten]
      _ = r := htouched
  rw [Table.modifyAll_upsertAll hwrite htouch hvalid.conversations
    (fun c hc => (h.conversations c hc).exists_row) hsame]
  simp

/-- An import of records that are in place raises the revisions of the tasks and changes nothing
else. -/
theorem InPlace.importTransaction_eq (hvalid : s.Valid texts) (h : InPlace texts s db)
    {allow : Bool} (hactive : db.projectIsActive s.project.id (!allow) = false) :
    db.importTransaction texts s allow =
      .ok ([], { db with tasks := bumpTwice s db.tasks }) := by
  obtain ⟨tasks, hnormal, hplaced⟩ := h.tasks
  have hids : (tasks.map (·.id)).Nodup := by
    rw [normalizeAll_ids hnormal]
    exact hvalid.tasks
  have hprojects : db.importProject s.project = db := by
    unfold Db.importProject
    rw [h.project.upsert_eq_self]
  have hagents : db.importAgents s = db := by
    unfold Db.importAgents
    rw [Table.upsertAll_eq_self h.agents, foldl_insertSession_eq h.sessions]
  have htasks : writeTasks s.project.id tasks db.tasks = bumpTwice s db.tasks := by
    rw [writeTasks_eq hids hplaced, normalizeAll_ids hnormal]
    rfl
  have hdependencies : Table.upsertAll (fun d => d) (fun d => d) (fun d => d) (fun _ r => r)
      s.taskDependencies db.dependencies = db.dependencies :=
    Table.upsertAll_eq_self h.dependencies
  -- the conversations of the snapshot, before they are touched
  let conversations : List Conversation := Table.upsertAll (·.id) (·.id)
    (newConversation s.project.id) (rewriteConversation s.project.id) s.conversations
    db.conversations
  have hconversations : db.importConversations s = { db with conversations := conversations } := by
    unfold Db.importConversations
    rw [Table.upsertAll_eq_self h.participants]
  let db₁ : Db :=
    { db with conversations := conversations, tasks := bumpTwice s db.tasks }
  have hwrite : ({ db with conversations := conversations } : Db).importTasks texts s =
      .ok db₁ := by
    unfold Db.importTasks
    rw [hnormal]
    show Except.ok { db with
      conversations := conversations
      tasks := writeTasks s.project.id tasks db.tasks
      dependencies := Table.upsertAll (fun d => d) (fun d => d) (fun d => d) (fun _ r => r)
        s.taskDependencies db.dependencies } = _
    rw [htasks, hdependencies]
  have hgraph : db₁.validateMergedTaskGraph s.project.id = .ok () := by
    have hsame : db₁.graph = db.graph := graph_bumpTwice db s
    have hok := h.graph
    unfold Db.validateMergedTaskGraph at hok ⊢
    rw [hsame]
    exact hok
  have hthread : TaskMessagesIn s db₁.taskThread := h.taskMessages
  have hworkflows : db₁.importWorkflows texts s = .ok db₁ := by
    refine each_eq_self fun w hw => ?_
    obtain ⟨hin, -⟩ := h.workflows w hw
    have hin : WorkflowIn s.project.id w db₁ := ⟨hin.exists_row, hin.same, hin.linked⟩
    exact hin.importWorkflow_eq (hvalid.parses w hw)
  have hmemory : db₁.importMemory texts s = .ok db₁ := by
    rw [importMemory_eq hvalid]
    show Except.ok ({ db.writeMemory texts s with
      conversations := conversations
      tasks := bumpTwice s db.tasks } : Db) = _
    rw [h.memory]
  have hmessages : MessagesIn s db₁ := h.messages
  have htouched : db₁.touched texts s = { db with tasks := bumpTwice s db.tasks } := by
    have hsame : (db₁.touched texts s).conversations = db.conversations :=
      h.conversations_eq hvalid
    show ({ db₁ with conversations := (db₁.touched texts s).conversations } : Db) = _
    rw [hsame]
  unfold Db.importTransaction
  rw [h.accepts]
  show (require _ _ >>= _) = _
  rw [require, if_pos (by rw [hactive]; exact Bool.false_ne_true)]
  show (db.validateLocalScopes s >>= _) = _
  rw [h.validateLocalScopes_ok hvalid]
  show (Db.importTasks texts (((db.importProject s.project).importAgents s).importConversations s)
    s >>= _) = _
  rw [hprojects, hagents, hconversations, hwrite]
  show (db₁.validateMergedTaskGraph s.project.id >>= _) = _
  rw [hgraph]
  show (db₁.importTaskMessages s >>= _) = _
  rw [hthread.importTaskMessages_eq]
  show (db₁.importWorkflows texts s >>= _) = _
  rw [hworkflows]
  show (db₁.importMemory texts s >>= _) = _
  rw [hmemory]
  show db₁.importConversationMessages texts s = _
  rw [hmessages.importConversationMessages_eq, htouched]

/-! ## The first import -/

theorem owner_of_rejectForeignOwner {ρ : Type} {projectId id : String} {o : Option ρ}
    {owner : ρ → Option String} {u : Unit}
    (h : rejectForeignOwner projectId id (o.map owner) = .ok u) :
    ∀ r, o = some r → owner r = some projectId := by
  rintro r rfl
  exact require_ok.1 h

/-- What the checks of the local database say of the records of a snapshot. -/
structure InScope (s : PortableSnapshot) (db : Db) : Prop where
  own : ∀ a ∈ s.agents, (Table.get (·.id) db.sessions a.id).all (·.agentId = a.id) = true
  only : ∀ a ∈ s.agents, (Table.get (·.agentId) db.sessions a.id).all (·.id = a.id) = true
  tasks : ∀ t ∈ s.tasks, ∀ r, db.task? t.id = some r → r.projectId = some s.project.id
  conversations : ∀ c ∈ s.conversations, ∀ r, db.conversation? c.id = some r →
    r.projectId = some s.project.id
  workflows : ∀ w ∈ s.workflows, WorkflowScope s.project.id w db

theorem inScope_of_validateLocalScopes {u : Unit} (h : db.validateLocalScopes s = .ok u) :
    InScope s db := by
  unfold Db.validateLocalScopes at h
  obtain ⟨_, hagents, h⟩ := bind_ok h
  obtain ⟨_, htasks, h⟩ := bind_ok h
  obtain ⟨_, hconversations, h⟩ := bind_ok h
  obtain ⟨_, -, hworkflows⟩ := bind_ok h
  have hsessions : ∀ a ∈ s.agents,
      (Table.get (·.id) db.sessions a.id).all (·.agentId = a.id) = true ∧
        (Table.get (·.agentId) db.sessions a.id).all (·.id = a.id) = true := by
    intro a ha
    obtain ⟨_, -, hsession⟩ := bind_ok (forAll_ok.1 hagents a ha)
    exact require_ok.1 hsession
  refine
    { own := fun a ha => (hsessions a ha).1
      only := fun a ha => (hsessions a ha).2
      tasks := fun t ht => owner_of_rejectForeignOwner (forAll_ok.1 htasks t ht)
      conversations := fun c hc => owner_of_rejectForeignOwner (forAll_ok.1 hconversations c hc)
      workflows := fun w hw => workflowScope_of_check (forAll_ok.1 hworkflows w hw) }

theorem ensureProjectAcceptsWork_importProject {u : Unit}
    (h : db.ensureProjectAcceptsWork s.project.id = .ok u) :
    (db.importProject s.project).ensureProjectAcceptsWork s.project.id = .ok () := by
  have hall : (Table.get (·.id) db.projects s.project.id).all (·.deletionStartedAt.isNone) :=
    require_ok.1 h
  refine require_ok.2 ?_
  show (Table.get (fun r : Project => r.id) (Table.upsert _ _ _ _ _) _).all _ = true
  unfold Table.upsert
  split
  · have hkey : ∀ r, (rewriteProject s.project r).id = r.id := fun _ => rfl
    rw [Table.get_modify hkey]
    cases hget : Table.get (·.id) db.projects s.project.id with
    | none => rfl
    | some r =>
      rw [hget] at hall
      rw [Option.map_some, if_pos rfl]
      exact hall
  · rename_i hnone
    rw [Option.not_isSome_iff_eq_none] at hnone
    rw [Table.get_append, hnone]
    simp [Table.get, newProject, rewriteProject]

theorem projectId_writeTasks {projectId : String} {tasks : List PortableTask} {id : String}
    (hne : id ∉ tasks.map (·.id)) (rows : List Task) :
    (Table.get (·.id) (writeTasks projectId tasks rows) id).map (·.projectId) =
      (Table.get (·.id) rows id).map (·.projectId) := by
  have hkey : ∀ (t : PortableTask) (r : Task), (setParent t r).id = r.id := fun _ _ => rfl
  have hproject : ∀ (t : PortableTask) (r : Task), (setParent t r).projectId = r.projectId :=
    fun _ _ => rfl
  unfold writeTasks
  rw [Table.get_modifyAll_map hkey hproject,
    Table.get_upsertAll_of_notMem (lawful_task projectId) hne]

/-- The tables that the first stages of an import write. -/
structure Tables (s : PortableSnapshot) (tasks : List PortableTask) (db db' : Db) : Prop where
  projects : db'.projects = (db.importProject s.project).projects
  agents : db'.agents = (db.importAgents s).agents
  sessions : db'.sessions = s.agents.foldl insertSession db.sessions
  conversations : db'.conversations = (db.importConversations s).conversations
  participants : db'.participants = (db.importConversations s).participants
  tasks : db'.tasks = writeTasks s.project.id tasks db.tasks
  dependencies : db'.dependencies = Table.upsertAll (fun d => d) (fun d => d) (fun d => d)
    (fun _ r => r) s.taskDependencies db.dependencies
  chatThread : db'.chatThread = db.chatThread
  attempts : db'.attempts = db.attempts
  turns : db'.turns = db.turns
  instances : db'.instances = db.instances

/-- No row of an active attempt or turn comes to the Project. -/
theorem Tables.attempts_quiet {tasks : List PortableTask} (h : Tables s tasks db db')
    (hschema : db.Schema) (hscope : InScope s db)
    (hids : tasks.map (·.id) = s.tasks.map (·.id))
    (hquiet : ∀ a ∈ db.attempts, attemptIsActive a.status = true → ∀ t,
      db.task? a.taskId = some t → t.projectId ≠ some s.project.id) :
    ∀ a ∈ db.attempts, attemptIsActive a.status = true → ∀ t, db'.task? a.taskId = some t →
      t.projectId ≠ some s.project.id := by
  intro a ha hactive t ht
  obtain ⟨t₀, ht₀⟩ := Option.isSome_iff_exists.1 (hschema.attempts a ha)
  have hforeign := hquiet a ha hactive t₀ ht₀
  have hne : a.taskId ∉ tasks.map (·.id) := by
    rw [hids]
    intro hmem
    obtain ⟨p, hp, hid⟩ := List.mem_map.1 hmem
    exact hforeign (hscope.tasks p hp t₀ (by rw [hid]; exact ht₀))
  have hsame : (Table.get (·.id) (writeTasks s.project.id tasks db.tasks) a.taskId).map
      (·.projectId) = (Table.get (·.id) db.tasks a.taskId).map (·.projectId) :=
    projectId_writeTasks hne db.tasks
  unfold Db.task? at ht ht₀
  rw [h.tasks] at ht
  rw [ht, ht₀, Option.map_some, Option.map_some, Option.some_inj] at hsame
  rw [hsame]
  exact hforeign

theorem Tables.turns_quiet {tasks : List PortableTask} (h : Tables s tasks db db')
    (hschema : db.Schema) (hscope : InScope s db) (hquiet : NoActiveTurns s.project.id db) :
    NoActiveTurns s.project.id db' := by
  intro t ht hactive c hc
  rw [h.turns] at ht
  obtain ⟨c₀, hc₀⟩ := Option.isSome_iff_exists.1 (hschema.turns t ht)
  have hforeign := hquiet t ht hactive c₀ hc₀
  have hne : t.conversationId ∉ s.conversations.map (·.id) := by
    intro hmem
    obtain ⟨p, hp, hid⟩ := List.mem_map.1 hmem
    exact hforeign (hscope.conversations p hp c₀ (by rw [hid]; exact hc₀))
  have hsame := Table.get_upsertAll_of_notMem (lawful_conversation s.project.id) hne
    db.conversations
  unfold Db.conversation? at hc hc₀
  rw [h.conversations] at hc
  rw [hc₀] at hsame
  obtain rfl := Option.some.inj (hc.symm.trans hsame)
  exact hforeign

theorem NoActiveTurns.touched {projectId : String} (h : NoActiveTurns projectId db) :
    NoActiveTurns projectId (db.touched texts s) := by
  have hkey : ∀ (c : PortableConversation) (r : Conversation),
      (Db.touch (db.lastMessageAt texts c.id) r).id = r.id := fun _ _ => rfl
  have hproject : ∀ (c : PortableConversation) (r : Conversation),
      (Db.touch (db.lastMessageAt texts c.id) r).projectId = r.projectId := fun _ _ => rfl
  intro t ht hactive c hc
  have hsame : (Table.get (·.id) (db.touched texts s).conversations t.conversationId).map
      (·.projectId) = (Table.get (·.id) db.conversations t.conversationId).map (·.projectId) :=
    Table.get_modifyAll_map hkey hproject s.conversations db.conversations t.conversationId
  have hget : Table.get (·.id) (db.touched texts s).conversations t.conversationId = some c := hc
  rw [hget] at hsame
  cases hold : Table.get (·.id) db.conversations t.conversationId with
  | none =>
    rw [hold] at hsame
    cases hsame
  | some c₀ =>
    rw [hold, Option.map_some, Option.map_some, Option.some_inj] at hsame
    rw [hsame]
    exact h t ht hactive c₀ hold

/-- The records that the middle stages of an import put in place. -/
structure Records (texts : Texts) (s : PortableSnapshot) (db db' : Db) : Prop where
  frame : ∃ thread rows projectWorkflows notes tags embeddings links, db' = { db with
    taskThread := thread
    workflows := rows
    projectWorkflows := projectWorkflows
    notes := notes
    tags := tags
    embeddings := embeddings
    links := links }
  taskMessages : TaskMessagesIn s db'.taskThread
  workflows : ∀ w ∈ s.workflows,
    WorkflowIn s.project.id w db' ∧ WorkflowScope s.project.id w db'
  memory : db'.writeMemory texts s = db'

theorem records_of_stages {db₁ db₂ : Db} (hvalid : s.Valid texts)
    (hs : db.taskThread.Sound TaskMessage.id)
    (hscope : ∀ w ∈ s.workflows, WorkflowScope s.project.id w db)
    (htasks : db.importTaskMessages s = .ok db₁)
    (hworkflows : db₁.importWorkflows texts s = .ok db₂)
    (hmemory : db₂.importMemory texts s = .ok db') : Records texts s db db' := by
  obtain ⟨thread, hdb₁, hthread⟩ := importTaskMessages_ok hs hvalid.taskRecords htasks
  have hscope₁ : ∀ w ∈ s.workflows, WorkflowScope s.project.id w db₁ := by
    rw [hdb₁]
    exact fun w hw => ⟨(hscope w hw).name, (hscope w hw).owner⟩
  obtain ⟨rows, links, hdb₂, hplaced⟩ := importWorkflows_ok hvalid hscope₁ hworkflows
  rw [importMemory_eq hvalid] at hmemory
  cases hmemory
  subst hdb₂ hdb₁
  exact
    { frame := ⟨_, _, _, _, _, _, _, rfl⟩
      taskMessages := hthread
      workflows := fun w hw => ⟨⟨(hplaced w hw).1.exists_row, (hplaced w hw).1.same,
        (hplaced w hw).1.linked⟩, ⟨(hplaced w hw).2.name, (hplaced w hw).2.owner⟩⟩
      memory := writeMemory_writeMemory hvalid _ }

theorem Tables.of_records {tasks : List PortableTask} {db₁ : Db} (h : Tables s tasks db db₁)
    (hrecords : Records texts s db₁ db') : Tables s tasks db db' := by
  obtain ⟨_, _, _, _, _, _, _, rfl⟩ := hrecords.frame
  exact ⟨h.projects, h.agents, h.sessions, h.conversations, h.participants, h.tasks,
    h.dependencies, h.chatThread, h.attempts, h.turns, h.instances⟩

/-- The conversations of a snapshot belong to its Project. -/
theorem Tables.conversations_owned {tasks : List PortableTask} (h : Tables s tasks db db')
    (hvalid : s.Valid texts) : ∀ c ∈ s.conversations,
      Table.Written (·.id) c.id (rewriteTitle s.project.id c) db'.conversations ∧
        ∃ r, db'.conversation? c.id = some r ∧ r.projectId = some s.project.id := by
  intro c hc
  have hwritten : Table.Written (·.id) c.id (rewriteTitle s.project.id c) db'.conversations := by
    rw [h.conversations]
    exact Table.written_upsertAll (lawful_conversation s.project.id) hvalid.conversations
      db.conversations c hc
  obtain ⟨r, hr⟩ := Option.isSome_iff_exists.1 hwritten.exists_row
  have hset := hwritten.agrees r (Table.mem_of_get hr) (Table.key_of_get hr)
  refine ⟨hwritten, r, hr, ?_⟩
  rw [← hset]
  rfl

theorem agrees_touched (hvalid : s.Valid texts) (db : Db) : ∀ c ∈ s.conversations,
    Table.Agrees (·.id) c.id (Db.touch (db.lastMessageAt texts c.id))
      (db.touched texts s).conversations := by
  have hkey : ∀ (c : PortableConversation) (r : Conversation),
      (Db.touch (db.lastMessageAt texts c.id) r).id = r.id := fun _ _ => rfl
  have hagree : ∀ (c : PortableConversation) (r : Conversation),
      Db.touch (db.lastMessageAt texts c.id) (Db.touch (db.lastMessageAt texts c.id) r) =
        Db.touch (db.lastMessageAt texts c.id) r := fun _ _ => rfl
  exact Table.agrees_modifyAll hkey hagree hvalid.conversations db.conversations

/-- After an import the records are in place, and the Project is as inactive as before. -/
theorem inPlace_importTransaction (hschema : db.Schema) (hvalid : s.Valid texts) {allow : Bool}
    {stopped : List ℕ} (h : db.importTransaction texts s allow = .ok (stopped, db')) :
    InPlace texts s db' ∧ db'.projectIsActive s.project.id (!allow) = false := by
  unfold Db.importTransaction at h
  obtain ⟨_, haccepts, h⟩ := bind_ok h
  obtain ⟨_, hquiet, h⟩ := bind_ok h
  obtain ⟨_, hscopes, h⟩ := bind_ok h
  obtain ⟨db₁, htasks, h⟩ := bind_ok h
  obtain ⟨_, hgraph, h⟩ := bind_ok h
  obtain ⟨db₂, htaskMessages, h⟩ := bind_ok h
  obtain ⟨db₃, hworkflows, h⟩ := bind_ok h
  obtain ⟨db₄, hmemory, h⟩ := bind_ok h
  obtain ⟨tasks, hnormal, htasks⟩ := bind_ok htasks
  have hdb₁ := (Except.ok.inj htasks).symm
  have hscope := inScope_of_validateLocalScopes hscopes
  have hquiet := projectIsActive_eq_false.1 (Bool.eq_false_iff.2 (require_ok.1 hquiet))
  have hids := normalizeAll_ids hnormal
  have hrecords : Records texts s db₁ db₄ := by
    refine records_of_stages hvalid ?_ (fun w hw => ?_) htaskMessages hworkflows hmemory
    · rw [hdb₁]
      exact hschema.taskThread
    · rw [hdb₁]
      exact ⟨(hscope.workflows w hw).name, (hscope.workflows w hw).owner⟩
  have htables : Tables s tasks db db₄ := by
    have hfirst : Tables s tasks db db₁ := by
      rw [hdb₁]
      exact ⟨rfl, rfl, rfl, rfl, rfl, rfl, rfl, rfl, rfl, rfl, rfl⟩
    exact hfirst.of_records hrecords
  have howned := htables.conversations_owned hvalid
  have hsound : db₄.chatThread.Sound ConversationMessage.id := by
    rw [htables.chatThread]
    exact hschema.chatThread
  obtain ⟨db₅, hsettling, rfl, hmessages, hidle⟩ :=
    importConversationMessages_ok hvalid hsound (fun c hc => (howned c hc).2) h
  have hmiddle : db₄.validateMergedTaskGraph s.project.id = .ok () := by
    obtain ⟨_, _, _, _, _, _, _, rfl⟩ := hrecords.frame
    exact hgraph
  obtain ⟨⟨chat, turns, next, attachments, visualizations, rfl⟩, -, -⟩ := hsettling
  constructor
  · refine
      { project := ?_
        accepts := ?_
        agents := ?_
        sessions := ?_
        conversations := ?_
        touched := ?_
        participants := ?_
        tasks := ⟨tasks, hnormal, ?_⟩
        dependencies := ?_
        graph := hmiddle
        taskMessages := hrecords.taskMessages
        workflows := fun w hw => ⟨⟨(hrecords.workflows w hw).1.exists_row,
          (hrecords.workflows w hw).1.same, (hrecords.workflows w hw).1.linked⟩,
          ⟨(hrecords.workflows w hw).2.name, (hrecords.workflows w hw).2.owner⟩⟩
        memory := ?_
        messages := hmessages }
    · show Table.Written _ _ _ db₄.projects
      rw [htables.projects]
      exact Table.written_upsert (fun _ => rfl) (fun _ => rfl) rfl rfl
    · have hok := ensureProjectAcceptsWork_importProject haccepts
      unfold Db.ensureProjectAcceptsWork Db.project? at hok
      rw [← htables.projects] at hok
      exact hok
    · show ∀ a ∈ s.agents, Table.Written _ _ _ db₄.agents
      rw [htables.agents]
      exact Table.written_upsertAll (lawful_agent s.project.id db.now) hvalid.agents db.agents
    · show ∀ a ∈ s.agents, SessionIn a.id db₄.sessions
      rw [htables.sessions]
      exact fun a ha => sessionIn_foldl (hscope.own a ha) (hscope.only a ha)
        (Or.inl (List.mem_map_of_mem ha))
    · exact fun c hc => (howned c hc).1.modifyAll (fun _ _ => rfl) fun _ _ => rfl
    · exact agrees_touched hvalid _
    · show ∀ p ∈ s.participants, Table.Written _ _ _ db₄.participants
      rw [htables.participants]
      exact Table.written_upsertAll (lawful_insert Participant.key) hvalid.participants
        db.participants
    · show ∀ t ∈ tasks, TaskIn s.project.id t db₄.tasks
      rw [htables.tasks]
      exact taskIn_writeTasks (by rw [hids]; exact hvalid.tasks) db.tasks
    · show ∀ d ∈ s.taskDependencies, Table.Written _ _ _ db₄.dependencies
      rw [htables.dependencies]
      exact Table.written_upsertAll (lawful_insert fun d : Tasks.Dependency => d)
        (by simpa using hvalid.dependencies) db.dependencies
    · let db₅ : Db := { db₄ with
        chatThread := chat
        turns := turns
        nextTurnId := next
        attachments := attachments
        visualizations := visualizations }
      show ({ db₄.writeMemory texts s with
        conversations := (db₅.touched texts s).conversations
        chatThread := chat
        turns := turns
        nextTurnId := next
        attachments := attachments
        visualizations := visualizations } : Db) = db₅.touched texts s
      rw [hrecords.memory]
      rfl
  · rw [projectIsActive_eq_false]
    refine ⟨?_, ?_, ?_⟩
    · show ∀ a ∈ db₄.attempts, _
      rw [htables.attempts]
      exact htables.attempts_quiet hschema hscope hids hquiet.1
    · exact fun hinclude =>
        (hidle (htables.turns_quiet hschema hscope (hquiet.2.1 hinclude))).touched
    · show db₄.instances.any _ = false
      rw [htables.instances]
      exact hquiet.2.2

/-! ## Both imports -/

/-- The database at another time. -/
def Db.at (db : Db) (now : String) (clock : ℕ) : Db :=
  { db with
    now := now
    clock := clock }

theorem InPlace.at (h : InPlace texts s db) (now : String) (clock : ℕ) :
    InPlace texts s (db.at now clock) :=
  { project := h.project
    accepts := h.accepts
    agents := h.agents
    sessions := h.sessions
    conversations := h.conversations
    touched := h.touched
    participants := h.participants
    tasks := h.tasks
    dependencies := h.dependencies
    graph := h.graph
    taskMessages := h.taskMessages
    workflows := fun w hw => ⟨⟨(h.workflows w hw).1.exists_row, (h.workflows w hw).1.same,
      (h.workflows w hw).1.linked⟩, ⟨(h.workflows w hw).2.name, (h.workflows w hw).2.owner⟩⟩
    memory := congrArg (fun db : Db => db.at now clock) h.memory
    messages := h.messages }

/-- A second import of a snapshot succeeds, stops no turn, and raises the revisions of its
tasks. -/
theorem importTransaction_again (hschema : db.Schema) (hvalid : s.validate texts = .ok ())
    {allow : Bool} {stopped : List ℕ}
    (h : db.importTransaction texts s allow = .ok (stopped, db')) (now : String) (clock : ℕ) :
    (db'.at now clock).importTransaction texts s allow =
      .ok ([], { db'.at now clock with tasks := bumpTwice s db'.tasks }) := by
  have hvalid := PortableSnapshot.valid_of_validate hvalid
  obtain ⟨hplaced, hquiet⟩ := inPlace_importTransaction hschema hvalid h
  exact (hplaced.at now clock).importTransaction_eq hvalid hquiet

theorem bumpTwice_eq_self {rows : List Task} (h : bumpTwice s rows = rows) {r : Task}
    (hr : r ∈ rows) : r.id ∉ s.tasks.map (·.id) := by
  intro hmem
  obtain ⟨i, hi, rfl⟩ := List.getElem_of_mem hr
  have hrow : (bumpTwice s rows)[i]? = rows[i]? := by rw [h]
  rw [bumpTwice, List.getElem?_map, List.getElem?_eq_getElem hi, Option.map_some, if_pos hmem,
    Option.some_inj] at hrow
  have hrevision := congrArg Task.revision hrow
  simp only [Task.bump] at hrevision
  omega

/-- To import a snapshot a second time changes nothing exactly if it has no tasks. -/
theorem import_again_iff (hschema : db.Schema) (hvalid : s.validate texts = .ok ())
    {allow : Bool} {stopped : List ℕ}
    (h : db.importTransaction texts s allow = .ok (stopped, db')) (now : String) (clock : ℕ) :
    (∃ stopped', (db'.at now clock).importTransaction texts s allow =
      .ok (stopped', db'.at now clock)) ↔ s.tasks = [] := by
  rw [importTransaction_again hschema hvalid h now clock]
  constructor
  · rintro ⟨stopped', hsame⟩
    have hrows : bumpTwice s db'.tasks = db'.tasks :=
      congrArg (fun r : List ℕ × Db => r.2.tasks) (Except.ok.inj hsame)
    obtain ⟨hplaced, -⟩ :=
      inPlace_importTransaction hschema (PortableSnapshot.valid_of_validate hvalid) h
    obtain ⟨tasks, hnormal, hin⟩ := hplaced.tasks
    rw [List.eq_nil_iff_forall_not_mem]
    intro t ht
    -- the row of the task is in the table, so that its revision was raised
    obtain ⟨t', ht', hid⟩ := ids_of_normalized hnormal ht
    obtain ⟨r, hr⟩ := Option.isSome_iff_exists.1 (hin t' ht').written.exists_row
    refine bumpTwice_eq_self hrows (Table.mem_of_get hr) ?_
    rw [Table.key_of_get hr, hid]
    exact List.mem_map_of_mem ht
  · intro hnone
    have hrows : bumpTwice s db'.tasks = db'.tasks := by
      unfold bumpTwice
      rw [hnone]
      simp
    rw [hrows]
    exact ⟨[], rfl⟩

/-! A snapshot with one task, in an empty database. -/

/-- Texts that are left as they are. -/
def verbatim : Texts where
  parse _ := none
  normalizeStartAfter value := .ok value
  searchKey text := text
  embedding text := text
  julianday _ := 0

def oneTask : PortableSnapshot where
  project := { id := "garden", name := "Garden" }
  tasks := [{ id := "water", title := "Water the beds" }]

theorem schema_empty : ({} : Db).Schema where
  taskThread := ⟨by simp, by simp, by simp⟩
  chatThread := ⟨by simp, by simp, by simp⟩
  attempts := by simp
  turns := by simp

theorem import_again_iff_oneTask :
    ∃ db : Db, ({} : Db).importTransaction verbatim oneTask false = .ok ([], db) ∧
      ((∃ stopped, (db.at "later" 1).importTransaction verbatim oneTask false =
        .ok (stopped, db.at "later" 1)) ↔ oneTask.tasks = []) :=
  ⟨_, rfl, import_again_iff schema_empty rfl rfl "later" 1⟩

/-- The revision of the task is 1 after the first import and 3 after the second. -/
theorem import_again_oneTask :
    ∃ db db' : Db, ({} : Db).Schema ∧ oneTask.validate verbatim = .ok () ∧
      ({} : Db).importTransaction verbatim oneTask false = .ok ([], db) ∧
      db.importTransaction verbatim oneTask false = .ok ([], db') ∧
      db.tasks.map (·.revision) = [1] ∧ db'.tasks.map (·.revision) = [3] :=
  ⟨_, _, schema_empty, rfl, rfl, rfl, rfl, rfl⟩

end XpressClaw.Sync
