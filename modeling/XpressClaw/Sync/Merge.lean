import XpressClaw.Sync.Accepted
import XpressClaw.Sync.Shared
import XpressClaw.Sync.Stages
import XpressClaw.Sync.Tombstones

/-!
# What an import does to the items

An import merges: what the database shared before it shares afterwards too, and with it every
item of the snapshot.

* `Imported.keeps` — an import takes no item away.
* `import_brings` — it brings every item of the snapshot.
-/

namespace XpressClaw.Sync

open Lib

variable {texts : Texts} {db db' : Db} {s : PortableSnapshot} {k : Item}

/-! ## Threads -/

namespace Thread

variable {μ : Type} {id : μ → ℕ} {item : String → μ → Item} {t t' : Thread μ} {x : Record μ}
  {b : Bool}

theorem get_link {sync : List SyncRow} {recordId : String} {n n' : ℕ} {row : SyncRow}
    (h : Table.get (·.messageId) sync n = some row) :
    Table.get (·.messageId) (link sync recordId n') n = some row := by
  unfold link
  split
  · exact h
  · exact Table.get_append_of_some h

/-- The first loop of an import takes no message away. -/
theorem HasItem.importRecord (h : t.HasItem id item k) (hid : ∀ m, id (x.set m) = id m)
    (hitem : ∀ r m, item r (x.set m) = item r m)
    (himport : Thread.importRecord id t x = .ok (b, t')) : t'.HasItem id item k := by
  obtain ⟨m, hm, row, hrow, hk⟩ := h
  unfold Thread.importRecord at himport
  split at himport
  · rename_i found _
    obtain ⟨_, -, himport⟩ := bind_ok himport
    cases himport
    have hstays : ∃ m' ∈ Table.modify id (id found) x.set t.messages,
        id m' = id m ∧ item row.recordId m' = k :=
      Table.exists_modify ⟨m, hm, rfl, hk⟩ fun r hr => ⟨(hid r).trans hr.1, (hitem _ r).trans hr.2⟩
    obtain ⟨m', hm', hsame, hk'⟩ := hstays
    exact ⟨m', hm', row, by rw [hsame]; exact get_link hrow, hk'⟩
  · cases himport
    exact ⟨m, List.mem_append_left _ hm, row, get_link hrow, hk⟩

/-- The second loop leaves the records of the messages. -/
theorem HasItem.importParent {label recordId : String} {parent : Option String} {existed : Bool}
    (h : t.HasItem id item k)
    (himport : Thread.importParent label recordId parent existed t = .ok t') :
    t'.HasItem id item k := by
  obtain ⟨m, hm, row, hrow, hk⟩ := h
  obtain ⟨-, rfl⟩ := importParent_ok himport
  let set := fun r : SyncRow => if r.recordId = recordId then r.setParent parent else r
  have hkey : ∀ r, (set r).messageId = r.messageId := by
    intro r
    simp only [set]
    split <;> rfl
  have hrecord : (set row).recordId = row.recordId := by
    simp only [set]
    split <;> rfl
  refine ⟨m, hm, set row, ?_, by rw [hrecord]; exact hk⟩
  show Table.get (·.messageId) (t.sync.map set) (id m) = some (set row)
  rw [Table.get_map hkey, hrow]
  rfl

/-- A message that is in place is an item. -/
theorem Copy.hasItem {row : SyncRow} {m : μ} (hc : Copy id x t row m) (hs : t.Sound id)
    (hitem : item x.recordId m = k) : t.HasItem id item k := by
  have hmem := Table.mem_of_get hc.synced
  have hid := Table.key_of_get hc.message
  have hsome : (Table.get (·.messageId) t.sync (id m)).isSome :=
    Table.get_isSome_iff.2 (List.mem_map.2 ⟨row, hmem, hid.symm⟩)
  obtain ⟨row', hrow'⟩ := Option.isSome_iff_exists.1 hsome
  refine ⟨m, Table.mem_of_get hc.message, row', hrow', ?_⟩
  have hsame := hs.single row' (Table.mem_of_get hrow') row hmem
    ((Table.key_of_get hrow').trans hid)
  have hrecord : row.recordId = x.recordId := Table.key_of_get hc.synced
  rw [hsame, hrecord]
  exact hitem

end Thread

/-! ## The tables -/

/-- A task of a snapshot that will be exported again. -/
structure PortableTask.Shareable (t : PortableTask) : Prop where
  hidden : t.hidden = false
  taskType : asciiUpper t.taskType ≠ "IDLE"
  provenance : t.provenance ≠ "native_plan"

theorem PortableTask.Shareable.normalized {t t' : PortableTask} (h : t.Shareable)
    (hn : t.normalized texts = .ok t') : t'.Shareable := by
  unfold PortableTask.normalized at hn
  split at hn
  · cases hn
    exact h
  · split at hn
    · cases hn
      exact ⟨h.hidden, h.taskType, h.provenance⟩
    · cases hn

theorem shareable_normalizeAll {tasks tasks' : List PortableTask}
    (h : ∀ t ∈ tasks, t.Shareable) (hn : normalizeAll texts tasks = .ok tasks') :
    ∀ t ∈ tasks', t.Shareable := by
  induction tasks generalizing tasks' with
  | nil =>
    cases hn
    simp
  | cons t tasks ih =>
    obtain ⟨t', ht, hn⟩ := bind_ok hn
    obtain ⟨rest, hrest, hn⟩ := bind_ok hn
    cases hn
    have hrest := ih (fun t ht => h t (List.mem_cons_of_mem _ ht)) hrest
    intro u hu
    rcases List.mem_cons.1 hu with rfl | hu
    · exact (h t List.mem_cons_self).normalized ht
    · exact hrest u hu

theorem PortableTask.Shareable.sharesTask {projectId : String} {t : PortableTask}
    (h : t.Shareable) (r : Task) : Db.sharesTask projectId (writeTask projectId t r) = true := by
  simp [Db.sharesTask, writeTask, h.hidden, h.taskType, h.provenance]

/-- The tables after an import, as far as items are read off them. -/
structure Imported (texts : Texts) (s : PortableSnapshot) (db db' : Db) : Prop where
  agents : db'.agents = (db.importAgents s).agents
  tasks : ∃ tasks, normalizeAll texts s.tasks = .ok tasks ∧
    db'.tasks = writeTasks s.project.id tasks db.tasks
  dependencies : db'.dependencies = Table.upsertAll (fun d => d) (fun d => d) (fun d => d)
    (fun _ r => r) s.taskDependencies db.dependencies
  conversations : ∃ times : PortableConversation → Option String, db'.conversations =
    Table.modifyAll (·.id) (·.id) (fun c => Db.touch (times c)) s.conversations
      (db.importConversations s).conversations
  participants : db'.participants = (db.importConversations s).participants
  taskThread : ∃ before after : Db, before.importTaskMessages s = .ok after ∧
    before.taskThread = db.taskThread ∧ db'.taskThread = after.taskThread
  workflows : ∃ before after : Db, before.importWorkflows texts s = .ok after ∧
    before.workflows = db.workflows ∧ before.projectWorkflows = db.projectWorkflows ∧
    db'.workflows = after.workflows ∧ db'.projectWorkflows = after.projectWorkflows
  notes : db'.notes = (db.writeMemory texts s).notes
  links : db'.links = (db.writeMemory texts s).links
  chatThread : ∃ before : Db, (∃ stopped, before.importConversationMessages texts s =
      .ok (stopped, db')) ∧ before.chatThread = db.chatThread ∧
    before.conversations = (db.importConversations s).conversations

theorem importTransaction_imported (hvalid : s.Valid texts) {allow : Bool} {stopped : List ℕ}
    (h : db.importTransaction texts s allow = .ok (stopped, db')) : Imported texts s db db' := by
  obtain ⟨⟨tasks, hnormal, first, hfirst, thread, htaskMessages, workflows, links, second, hsecond,
    hworkflows, _, _, _, _, third, -, hmemory, hmessages⟩⟩ := importTransaction_stages h
  obtain ⟨db₁, ⟨⟨_, _, _, _, _, hframe⟩, -, -⟩, hlast⟩ :=
    importConversationMessages_settling hmessages
  rw [importMemory_eq hvalid] at hmemory
  have hthird := (Except.ok.inj hmemory).symm
  have hchat : third.chatThread = db.chatThread ∧
      third.conversations = (db.importConversations s).conversations := by
    subst hthird hsecond hfirst
    exact ⟨rfl, rfl⟩
  have hbefore : ∃ before : Db, (∃ stopped, before.importConversationMessages texts s =
      .ok (stopped, db')) ∧ before.chatThread = db.chatThread ∧
      before.conversations = (db.importConversations s).conversations :=
    ⟨third, ⟨stopped, hmessages⟩, hchat⟩
  subst hlast hframe hthird hsecond hfirst
  exact
    { agents := rfl
      tasks := ⟨tasks, hnormal, rfl⟩
      dependencies := rfl
      conversations := ⟨_, rfl⟩
      participants := rfl
      taskThread := ⟨_, _, htaskMessages, rfl, rfl⟩
      workflows := ⟨_, _, hworkflows, rfl, rfl, rfl, rfl⟩
      notes := rfl
      links := rfl
      chatThread := hbefore }

theorem importTransaction_scopes {allow : Bool} {stopped : List ℕ}
    (h : db.importTransaction texts s allow = .ok (stopped, db')) :
    ∃ u, db.validateLocalScopes s = .ok u := by
  obtain ⟨_, -, h⟩ := bind_ok h
  obtain ⟨_, -, h⟩ := bind_ok h
  obtain ⟨u, hu, -⟩ := bind_ok h
  exact ⟨u, hu⟩

/-! ## What stays -/

section Keeps

variable {projectId id : String}

theorem exists_task_iff : db.sharesTaskId projectId id = true ↔
    ∃ r ∈ db.tasks, r.id = id ∧ Db.sharesTask projectId r = true := by
  simp [Db.sharesTaskId]

theorem Imported.task_keeps (h : Imported texts s db db') (hshare : ∀ t ∈ s.tasks, t.Shareable)
    (hk : db.sharesTaskId s.project.id id = true) : db'.sharesTaskId s.project.id id = true := by
  rw [exists_task_iff] at hk ⊢
  obtain ⟨tasks, hnormal, htasks⟩ := h.tasks
  rw [htasks]
  refine Table.exists_modifyAll (Table.exists_upsertAll hk fun t ht r hr => ?_) fun t _ r hr => hr
  exact ⟨hr.1, (shareable_normalizeAll hshare hnormal t ht).sharesTask r⟩

theorem Imported.conversation_keeps (h : Imported texts s db db')
    (hk : db.sharesConversationId s.project.id id = true) :
    db'.sharesConversationId s.project.id id = true := by
  rw [sharesConversationId_iff] at hk ⊢
  obtain ⟨times, hconversations⟩ := h.conversations
  rw [hconversations]
  exact Table.exists_modifyAll (Table.exists_upsertAll hk fun c _ r hr => ⟨hr.1, rfl⟩)
    fun c _ r hr => hr

theorem Imported.note_keeps (h : Imported texts s db db')
    (hk : db.sharesNoteId s.project.id id = true) : db'.sharesNoteId s.project.id id = true := by
  rw [sharesNoteId_iff] at hk ⊢
  rw [h.notes]
  exact Table.exists_upsertAll hk fun n _ r hr => ⟨hr.1, rfl⟩

/-- What both loops of an import of task messages keep. -/
theorem importTaskMessages_invariant {I : Thread TaskMessage → Prop}
    (hrecord : ∀ p t t' b, I t → Thread.importRecord TaskMessage.id t (taskRecord p) = .ok (b, t') →
      I t')
    (hparent : ∀ label recordId parent existed t t', I t →
      Thread.importParent label recordId parent existed t = .ok t' → I t')
    (hI : I db.taskThread) (h : db.importTaskMessages s = .ok db') : I db'.taskThread := by
  obtain ⟨messages, -, h⟩ := bind_ok h
  obtain ⟨⟨imported, thread₁⟩, himported, h⟩ := bind_ok h
  obtain ⟨thread, hparents, h⟩ := bind_ok h
  cases h
  have hfirst := each_invariant (fun t p t' _ ht hstep => by
    obtain ⟨b, hstep⟩ := map_snd_ok hstep
    exact hrecord p t t' b ht hstep) hI (eachWith_ok himported).1
  exact each_invariant (fun t e t' _ ht hstep => hparent _ _ _ _ t t' ht hstep) hfirst hparents

theorem importTaskMessages_keeps {item : String → TaskMessage → Item}
    (hitem : ∀ (p : PortableTaskMessage) r m, item r ((taskRecord p).set m) = item r m)
    (hk : db.taskThread.HasItem TaskMessage.id item k) (h : db.importTaskMessages s = .ok db') :
    db'.taskThread.HasItem TaskMessage.id item k :=
  importTaskMessages_invariant
    (fun p _ _ _ ht hstep => ht.importRecord (fun _ => rfl) (hitem p) hstep)
    (fun _ _ _ _ _ _ ht hstep => ht.importParent hstep) hk h

theorem importConversationMessage_keeps {p : PortableConversationMessage} {r : Bool × List ℕ}
    (hk : db.chatThread.HasItem ConversationMessage.id ConversationMessage.item k)
    (h : db.importConversationMessage p = .ok (r, db')) :
    db'.chatThread.HasItem ConversationMessage.id ConversationMessage.item k := by
  obtain ⟨⟨metadata, remote⟩, -, h⟩ := bind_ok h
  obtain ⟨⟨existed, chat⟩, hrecord, h⟩ := bind_ok h
  dsimp only at h
  split at h
  · cases h
  · obtain ⟨⟨stopped, db₁⟩, hsettle, h⟩ := bind_ok h
    cases h
    rw [(settleDeletion_ok hsettle).2.1]
    exact hk.importRecord (fun _ => rfl) (fun _ _ => rfl) hrecord

theorem importConversationMessages_keeps {stopped : List ℕ}
    (hk : db.chatThread.HasItem ConversationMessage.id ConversationMessage.item k)
    (h : db.importConversationMessages texts s = .ok (stopped, db')) :
    db'.chatThread.HasItem ConversationMessage.id ConversationMessage.item k := by
  obtain ⟨messages, -, h⟩ := bind_ok h
  obtain ⟨⟨imported, db₂⟩, himported, h⟩ := bind_ok h
  obtain ⟨chat, hparents, h⟩ := bind_ok h
  cases h
  have hfirst := each_invariant (I := fun d : Db =>
    d.chatThread.HasItem ConversationMessage.id ConversationMessage.item k)
    (fun d p d' _ hd hstep => by
      obtain ⟨r, hstep⟩ := map_snd_ok hstep
      exact importConversationMessage_keeps hd hstep) hk (eachWith_ok himported).1
  exact each_invariant (I := fun t : Thread ConversationMessage =>
    t.HasItem ConversationMessage.id ConversationMessage.item k)
    (fun t e t' _ ht hstep => ht.importParent hstep) hfirst hparents

theorem importWorkflows_keeps
    (hk : ∃ r ∈ db.workflows, r.id = id ∧ db.sharesWorkflow projectId r = true)
    (h : db.importWorkflows texts s = .ok db') :
    ∃ r ∈ db'.workflows, r.id = id ∧ db'.sharesWorkflow projectId r = true := by
  refine each_invariant (I := fun d : Db =>
    ∃ r ∈ d.workflows, r.id = id ∧ d.sharesWorkflow projectId r = true)
    (fun d w d' _ hd hstep => ?_) hk h
  obtain ⟨b, rfl⟩ := importWorkflow_ok hstep
  have hlinks : ∀ e ∈ d.projectWorkflows,
      e ∈ (if (s.project.id, w.id) ∈ d.projectWorkflows then d.projectWorkflows
        else d.projectWorkflows ++ [(s.project.id, w.id)]) := by
    intro e he
    split
    · exact he
    · exact List.mem_append_left _ he
  have hstays : ∃ r ∈ Table.upsert (·.id) w.id (newWorkflow s.project.id w) (reviseWorkflow b w)
      d.workflows, r.id = id ∧ d.sharesWorkflow projectId r = true := by
    refine Table.exists_upsert hd fun r hr => ⟨(id_reviseWorkflow b w r).trans hr.1, ?_⟩
    have hsame := hr.2
    rw [sharesWorkflow_iff] at hsame ⊢
    rwa [projectId_reviseWorkflow, id_reviseWorkflow]
  obtain ⟨r, hr, hid, hshared⟩ := hstays
  refine ⟨r, hr, hid, ?_⟩
  rw [sharesWorkflow_iff] at hshared ⊢
  exact hshared.imp_right fun h => ⟨h.1, hlinks _ h.2⟩

/-- **An import takes no item away.** -/
theorem Imported.keeps (h : Imported texts s db db') (hshare : ∀ t ∈ s.tasks, t.Shareable)
    (hk : db.Shares s.project.id k) : db'.Shares s.project.id k := by
  cases k with
  | agent id =>
    show ∃ r ∈ db'.agents, _
    rw [h.agents]
    exact Table.exists_upsertAll hk fun a _ r hr => ⟨hr.1, rfl⟩
  | task id => exact h.task_keeps hshare hk
  | dependency d =>
    refine ⟨?_, h.task_keeps hshare hk.2.1, h.task_keeps hshare hk.2.2⟩
    have hstays : ∃ r ∈ db'.dependencies, r = d := by
      rw [h.dependencies]
      exact Table.exists_upsertAll ⟨d, hk.1, rfl⟩ fun _ _ _ hr => hr
    obtain ⟨r, hr, rfl⟩ := hstays
    exact hr
  | taskMessage recordId taskId =>
    obtain ⟨before, after, himport, hbefore, hafter⟩ := h.taskThread
    refine ⟨h.task_keeps hshare hk.1, ?_⟩
    rw [hafter]
    exact importTaskMessages_keeps (fun _ _ _ => rfl) (by rw [hbefore]; exact hk.2) himport
  | conversation id => exact h.conversation_keeps hk
  | participant key =>
    refine ⟨h.conversation_keeps hk.1, ?_⟩
    rw [h.participants]
    exact Table.exists_upsertAll hk.2 fun p _ r hr => hr
  | conversationMessage recordId conversationId =>
    obtain ⟨before, ⟨stopped, himport⟩, hbefore, -⟩ := h.chatThread
    refine ⟨h.conversation_keeps hk.1, ?_⟩
    exact importConversationMessages_keeps (by rw [hbefore]; exact hk.2) himport
  | workflow id =>
    obtain ⟨before, after, himport, hrows, hlinks, hrows', hlinks'⟩ := h.workflows
    obtain ⟨r, hr, hid, hshared⟩ := hk
    have hrow : ∃ r ∈ before.workflows, r.id = id ∧
        before.sharesWorkflow s.project.id r = true :=
      ⟨r, by rw [hrows]; exact hr, hid, by rwa [sharesWorkflow_iff, hlinks, ← sharesWorkflow_iff]⟩
    obtain ⟨r, hr, hid, hshared⟩ := importWorkflows_keeps hrow himport
    exact ⟨r, by rw [hrows']; exact hr, hid, by
      rwa [sharesWorkflow_iff, hlinks', ← sharesWorkflow_iff]⟩
  | memoryNote id => exact h.note_keeps hk
  | memoryLink key =>
    refine ⟨h.note_keeps hk.1, h.note_keeps hk.2.1, ?_⟩
    rw [h.links]
    exact Table.exists_upsertAll hk.2.2 fun l _ r hr => hr

end Keeps

/-! ## What comes -/

section Brings

variable {id : String}

theorem importTaskMessages_sound (hs : db.taskThread.Sound TaskMessage.id)
    (h : db.importTaskMessages s = .ok db') : db'.taskThread.Sound TaskMessage.id :=
  importTaskMessages_invariant
    (fun p _ _ _ ht hstep => ht.of_importRecord (lawful_taskRecord p) hstep)
    (fun _ _ _ _ _ _ ht hstep => ht.of_importParent hstep) hs h

theorem Imported.threads (h : Imported texts s db db') (hvalid : s.Valid texts)
    (hthreads : db.Threads) : db'.Threads := by
  obtain ⟨before, after, himport, hbefore, hafter⟩ := h.taskThread
  obtain ⟨before', ⟨stopped, himport'⟩, hbefore', -⟩ := h.chatThread
  exact
    { task := by
        rw [hafter]
        exact importTaskMessages_sound (by rw [hbefore]; exact hthreads.task) himport
      chat := (tombstone_importConversationMessages (by rw [hbefore']; exact hthreads.chat)
        hvalid.messageRecords himport' "").1 }

theorem Imported.task_brings (h : Imported texts s db db') (hvalid : s.Valid texts)
    (hshare : ∀ t ∈ s.tasks, t.Shareable) (hid : id ∈ s.tasks.map (·.id)) :
    db'.sharesTaskId s.project.id id = true := by
  obtain ⟨tasks, hnormal, htasks⟩ := h.tasks
  rw [← normalizeAll_ids hnormal] at hid
  obtain ⟨t, ht, rfl⟩ := List.mem_map.1 hid
  have hnodup : (tasks.map (·.id)).Nodup := by
    rw [normalizeAll_ids hnormal]
    exact hvalid.tasks
  obtain ⟨r, hr, hset⟩ := (taskIn_writeTasks hnodup db.tasks t ht).written.row
  rw [exists_task_iff, htasks]
  refine ⟨r, Table.mem_of_get hr, Table.key_of_get hr, ?_⟩
  rw [← hset]
  exact (shareable_normalizeAll hshare hnormal t ht).sharesTask r

theorem conversation?_importConversations (db : Db) (hvalid : s.Valid texts)
    {c : PortableConversation} (hc : c ∈ s.conversations) :
    ∃ r, (db.importConversations s).conversation? c.id = some r ∧
      r.projectId = some s.project.id := by
  obtain ⟨r, hr, hset⟩ := (Table.written_upsertAll (lawful_conversation s.project.id)
    hvalid.conversations db.conversations c hc).row
  refine ⟨r, hr, ?_⟩
  rw [← hset]
  rfl

theorem Imported.conversation_brings (h : Imported texts s db db') (hvalid : s.Valid texts)
    (hid : id ∈ s.conversations.map (·.id)) : db'.sharesConversationId s.project.id id = true := by
  obtain ⟨c, hc, rfl⟩ := List.mem_map.1 hid
  obtain ⟨times, hconversations⟩ := h.conversations
  obtain ⟨r, hr, hproject⟩ := conversation?_importConversations _ hvalid hc
  rw [sharesConversationId_iff, hconversations]
  exact Table.exists_modifyAll ⟨r, Table.mem_of_get hr, Table.key_of_get hr, hproject⟩
    fun c _ r hr => hr

theorem Imported.note_brings (h : Imported texts s db db') (hvalid : s.Valid texts)
    (hid : id ∈ s.memoryNotes.map (·.id)) : db'.sharesNoteId s.project.id id = true := by
  obtain ⟨n, hn, rfl⟩ := List.mem_map.1 hid
  obtain ⟨r, hr, hset⟩ := (Table.written_upsertAll (lawful_note texts s.project.id) hvalid.notes
    db.notes n hn).row
  rw [sharesNoteId_iff, h.notes]
  refine ⟨r, Table.mem_of_get hr, Table.key_of_get hr, ?_⟩
  rw [← hset]
  rfl

theorem Imported.taskMessage_brings (h : Imported texts s db db') (hvalid : s.Valid texts)
    (hthreads : db.Threads) {p : PortableTaskMessage} (hp : p ∈ s.taskMessages) :
    db'.taskThread.HasItem TaskMessage.id TaskMessage.item p.item := by
  obtain ⟨before, after, himport, hbefore, hafter⟩ := h.taskThread
  have hs : before.taskThread.Sound TaskMessage.id := by
    rw [hbefore]
    exact hthreads.task
  obtain ⟨thread, rfl, messages, horder, hplaced⟩ :=
    importTaskMessages_ok hs hvalid.taskRecords himport
  have hmem := (perm_inImportOrder hvalid.taskRecords horder).mem_iff.2 hp
  obtain ⟨⟨row, m, hcopy⟩, -⟩ := hplaced p hmem
  rw [hafter]
  refine hcopy.hasItem (importTaskMessages_sound hs himport) ?_
  obtain ⟨htask, hrole, hcontent, htime, -⟩ := require_ok.1 hcopy.check
  show TaskMessage.item p.recordId m = p.item
  rw [TaskMessage.item, htask, hrole, hcontent, htime]
  rfl

theorem Imported.conversationMessage_brings (h : Imported texts s db db') (hvalid : s.Valid texts)
    (hthreads : db.Threads) {p : PortableConversationMessage} (hp : p ∈ s.conversationMessages) :
    db'.chatThread.HasItem ConversationMessage.id ConversationMessage.item p.item := by
  obtain ⟨before, ⟨stopped, himport⟩, hbefore, hconversations⟩ := h.chatThread
  have hs : before.chatThread.Sound ConversationMessage.id := by
    rw [hbefore]
    exact hthreads.chat
  have howned : ∀ c ∈ s.conversations, ∃ r, before.conversation? c.id = some r ∧
      r.projectId = some s.project.id := by
    intro c hc
    obtain ⟨r, hr, hproject⟩ := conversation?_importConversations _ hvalid hc
    exact ⟨r, by rw [Db.conversation?, hconversations]; exact hr, hproject⟩
  obtain ⟨db₁, -, rfl, ⟨messages, horder, hplaced⟩, -⟩ :=
    importConversationMessages_ok hvalid hs howned himport
  have hmem := (perm_inImportOrder hvalid.messageRecords horder).mem_iff.2 hp
  obtain ⟨⟨metadata, remote, row, m, -, hcopy, -⟩, -⟩ := hplaced p hmem
  have hsound := (h.threads hvalid hthreads).chat
  refine hcopy.hasItem hsound ?_
  obtain ⟨h1, h2, h3, h4, h5, h6, -, h8⟩ := require_ok.1 hcopy.check
  show ConversationMessage.item p.recordId m = p.item
  rw [ConversationMessage.item, h1, h2, h3, h4, h5, h6, h8]
  rfl

theorem Imported.workflow_brings (h : Imported texts s db db') (hvalid : s.Valid texts)
    (hscope : ∀ w ∈ s.workflows, WorkflowScope s.project.id w db) {w : PortableWorkflow}
    (hw : w ∈ s.workflows) :
    ∃ r ∈ db'.workflows, r.id = w.id ∧ db'.sharesWorkflow s.project.id r = true := by
  obtain ⟨before, after, himport, hrows, hlinks, hrows', hlinks'⟩ := h.workflows
  have hscope' : ∀ w ∈ s.workflows, WorkflowScope s.project.id w before := by
    intro w hw
    refine ⟨by rw [hrows]; exact (hscope w hw).name, ?_⟩
    rw [Db.workflow?, hrows]
    exact (hscope w hw).owner
  obtain ⟨_, _, -, hplaced⟩ := importWorkflows_ok hvalid hscope' himport
  obtain ⟨hin, hafter⟩ := hplaced w hw
  obtain ⟨r, hr⟩ := Option.isSome_iff_exists.1 hin.exists_row
  have howner := hafter.owner
  rw [hr] at howner
  refine ⟨r, by rw [hrows']; exact Table.mem_of_get hr, Table.key_of_get hr, ?_⟩
  have hid : r.id = w.id := Table.key_of_get hr
  have hproject : r.projectId = workflowOwner s.project.id w := by simpa using howner
  unfold workflowOwner at hproject
  rw [sharesWorkflow_iff]
  split at hproject
  · exact Or.inl hproject
  · exact Or.inr ⟨hproject, by rw [hid, hlinks']; exact hin.linked⟩

end Brings

/-! ## Snapshots that the store accepts -/

namespace StoreSnapshot

open Store

variable {env : SyncEnv} {t : StoreSnapshot}

theorem valid_of_checked (hw : t.WellFormed) (hc : t.Checked env.toFormats) :
    t.toPortableSnapshot.Valid env.texts where
  agents := hw.agents.nodup
  conversations := hw.conversations.nodup
  tasks := hw.tasks.nodup
  dependencies := hw.dependencies
  participants := hw.participants
  messageRecords := by
    have hnodup := hw.chat.ids.nodup
    rwa [chatGraph, List.map_map] at hnodup
  messageOwners m hm := hw.chat.owner _ (List.mem_map_of_mem hm)
  taskRecords := by
    have hnodup := hw.taskThread.ids.nodup
    rwa [taskGraph, List.map_map] at hnodup
  workflows := hw.workflows.nodup
  workflowNames := hw.workflowNames
  parses w hw := by
    have hyaml := (seq_ok.1 (seq_ok.1 (seq_ok.1 (seq_ok.1 (seq_ok.1
      (hc.workflows w hw)).2).2).2).2).1
    unfold validateWorkflowYaml at hyaml
    show ((env.parseWorkflow w.yamlContent).toOption.map _).isSome = true
    split at hyaml
    · cases hyaml
    · rename_i d hd
      rw [hd]
      rfl
  notes := hw.notes.nodup
  tagKeys n hn := (validateMemoryNote_ok (hc.memoryNotes n hn)).2
  links := hw.links

/-- None of the tasks is a step of a native plan. -/
def Durable (t : StoreSnapshot) : Prop := ∀ r ∈ t.tasks, r.provenance ≠ "native_plan"

theorem asciiUpper_ne_of_lower {x : String} (h : Text.asciiLower x = "normal") :
    asciiUpper x ≠ "IDLE" := by
  intro hidle
  have hlower := congrArg (fun s : String => s.toList.length) h
  have hupper := congrArg (fun s : String => s.toList.length) hidle
  simp only [Text.asciiLower, asciiUpper, String.toList_ofList, List.length_map] at hlower hupper
  rw [hlower] at hupper
  revert hupper
  decide

theorem shareable_of_checked (hc : t.Checked env.toFormats) (hd : t.Durable) :
    ∀ r ∈ t.tasks, r.Shareable := by
  intro r hr
  have hkind := require_ok.1 (seq_ok.1 (seq_ok.1 (seq_ok.1 (seq_ok.1 (hc.tasks r hr)).2).2).2).1
  rw [not_or, not_not] at hkind
  exact ⟨by simpa using hkind.1, asciiUpper_ne_of_lower hkind.2, hd r hr⟩

/-- **An import brings every item of the snapshot.** -/
theorem import_brings {db db' : Db} {k : Item} (hw : t.WellFormed) (hc : t.Checked env.toFormats)
    (hd : t.Durable) (hthreads : db.Threads) {allow : Bool} {stopped : List ℕ}
    (h : db.importTransaction env.texts t.toPortableSnapshot allow = .ok (stopped, db'))
    (hk : t.Has k) : db'.Shares t.project.id k := by
  have hvalid := valid_of_checked hw hc
  have hshare := shareable_of_checked hc hd
  have himported := importTransaction_imported hvalid h
  have htask : ∀ id ∈ t.taskIds, db'.sharesTaskId t.project.id id = true :=
    fun id hid => himported.task_brings hvalid hshare hid
  have hconversation : ∀ id ∈ t.conversationIds,
      db'.sharesConversationId t.project.id id = true :=
    fun id hid => himported.conversation_brings hvalid hid
  have hnote : ∀ id ∈ t.noteIds, db'.sharesNoteId t.project.id id = true :=
    fun id hid => himported.note_brings hvalid hid
  cases k with
  | agent id =>
    obtain ⟨a, ha, rfl⟩ := List.mem_map.1 hk
    obtain ⟨r, hr, hset⟩ := (Table.written_upsertAll (lawful_agent t.project.id db.now)
      hvalid.agents db.agents a ha).row
    refine ⟨r, by rw [himported.agents]; exact Table.mem_of_get hr, Table.key_of_get hr, ?_⟩
    rw [← hset]
    rfl
  | task id => exact htask id hk
  | dependency d =>
    have hends := hw.dependencyEnds (d.taskId, d.dependsOnId) (List.mem_map_of_mem hk)
    refine ⟨?_, htask _ hends.1, htask _ hends.2⟩
    rw [himported.dependencies]
    obtain ⟨r, hr, -⟩ := (Table.written_upsertAll (lawful_insert fun d : Tasks.Dependency => d)
      (by simpa using hvalid.dependencies) db.dependencies d hk).row
    have hid : r = d := Table.key_of_get hr
    exact hid ▸ Table.mem_of_get hr
  | taskMessage recordId taskId =>
    obtain ⟨p, hp, hitem⟩ := List.mem_map.1 hk
    have hin := himported.taskMessage_brings hvalid hthreads hp
    have howner := hw.taskThread.owner _ (List.mem_map_of_mem hp)
    have hsame : p.taskId = taskId := by
      injection hitem
    rw [hitem] at hin
    exact ⟨htask taskId (hsame ▸ howner), hin⟩
  | conversation id => exact hconversation id hk
  | participant key =>
    obtain ⟨p, hp, rfl⟩ := List.mem_map.1 hk
    obtain ⟨r, hr, -⟩ := (Table.written_upsertAll (lawful_insert Participant.key)
      hvalid.participants db.participants p hp).row
    refine ⟨hconversation _ (hw.participantConversation p hp), r, ?_, Table.key_of_get hr⟩
    rw [himported.participants]
    exact Table.mem_of_get hr
  | conversationMessage recordId conversationId =>
    obtain ⟨p, hp, hitem⟩ := List.mem_map.1 hk
    have hin := himported.conversationMessage_brings hvalid hthreads hp
    have howner := hw.chat.owner _ (List.mem_map_of_mem hp)
    have hsame : p.conversationId = conversationId := by
      injection hitem
    rw [hitem] at hin
    exact ⟨hconversation conversationId (hsame ▸ howner), hin⟩
  | workflow id =>
    obtain ⟨w, hmem, rfl⟩ := List.mem_map.1 hk
    obtain ⟨u, hu⟩ := importTransaction_scopes h
    exact himported.workflow_brings hvalid (inScope_of_validateLocalScopes hu).workflows hmem
  | memoryNote id => exact hnote id hk
  | memoryLink key =>
    obtain ⟨l, hl, rfl⟩ := List.mem_map.1 hk
    have hends := hw.linkEnds l hl
    obtain ⟨r, hr, -⟩ := (Table.written_upsertAll lawful_link hvalid.links db.links l hl).row
    refine ⟨hnote _ hends.1, hnote _ hends.2.1, r, ?_, Table.key_of_get hr⟩
    rw [himported.links]
    exact Table.mem_of_get hr

/-- **An import merges**: what the database shared it still shares, and with it all items of the
snapshot. -/
theorem import_merges {db db' : Db} (hw : t.WellFormed) (hc : t.Checked env.toFormats)
    (hd : t.Durable) (hthreads : db.Threads) {allow : Bool} {stopped : List ℕ}
    (h : db.importTransaction env.texts t.toPortableSnapshot allow = .ok (stopped, db')) :
    db'.Threads ∧ ∀ k, db.Shares t.project.id k ∨ t.Has k → db'.Shares t.project.id k := by
  have hvalid := valid_of_checked hw hc
  have himported := importTransaction_imported hvalid h
  refine ⟨himported.threads hvalid hthreads, fun k hk => ?_⟩
  rcases hk with hk | hk
  · exact himported.keeps (shareable_of_checked hc hd) hk
  · exact import_brings hw hc hd hthreads h hk

end StoreSnapshot

end XpressClaw.Sync
