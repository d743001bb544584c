import XpressClaw.Sync.Export
import XpressClaw.Sync.Threads

/-!
# What a database shares

The items of a project: what identifies each record that can be shared, and what cannot change
about it.  An item is in a snapshot, or in a database whose export would have it.

* `Exported.has` — an export has every item that the database shares.
* `Exported.keeps` — and takes none of them away.
-/

namespace XpressClaw.Sync

open Lib

/-- What identifies a record, with the parts of a message that never change. -/
inductive Item where
  | agent (id : String)
  | task (id : String)
  | dependency (d : Tasks.Dependency)
  | taskMessage (recordId taskId role content createdAt : String)
  | conversation (id : String)
  | participant (key : Conversations.Participant)
  | conversationMessage (recordId conversationId senderType senderId : String)
      (senderName : Option String) (content messageType createdAt : String)
  | workflow (id : String)
  | memoryNote (id : String)
  | memoryLink (key : LinkKey)

/-- The items that a project may keep to itself. -/
def Item.isMemory : Item → Bool
  | .memoryNote _ | .memoryLink _ => true
  | _ => false

/-! ## Messages -/

def TaskMessage.item (recordId : String) (m : TaskMessage) : Item :=
  .taskMessage recordId m.taskId m.role m.content m.timestamp

def PortableTaskMessage.item (p : PortableTaskMessage) : Item :=
  .taskMessage p.recordId p.taskId p.role p.content p.createdAt

def ConversationMessage.item (recordId : String) (m : ConversationMessage) : Item :=
  .conversationMessage recordId m.conversationId m.senderType m.senderId m.senderName m.content
    m.messageType m.createdAt

def PortableConversationMessage.item (p : PortableConversationMessage) : Item :=
  .conversationMessage p.recordId p.conversationId p.senderType p.senderId p.senderName p.content
    p.messageType p.createdAt

namespace Thread

variable {μ : Type} (id : μ → ℕ) (item : String → μ → Item)

/-- A message of the thread has a record, and is this item. -/
def HasItem (k : Item) (t : Thread μ) : Prop :=
  ∃ m ∈ t.messages, ∃ row, Table.get (·.messageId) t.sync (id m) = some row ∧
    item row.recordId m = k

end Thread

/-! ## Items -/

/-- The snapshot has a record of the item. -/
def StoreSnapshot.Has (s : StoreSnapshot) : Item → Prop
  | .agent id => id ∈ s.agents.map (·.id)
  | .task id => id ∈ s.tasks.map (·.id)
  | .dependency d => d ∈ s.taskDependencies
  | k@(.taskMessage ..) => k ∈ s.taskMessages.map (·.item)
  | .conversation id => id ∈ s.conversations.map (·.id)
  | .participant key => key ∈ s.participants.map (·.key)
  | k@(.conversationMessage ..) => k ∈ s.conversationMessages.map (·.item)
  | .workflow id => id ∈ s.workflows.map (·.id)
  | .memoryNote id => id ∈ s.memoryNotes.map (·.id)
  | .memoryLink key => key ∈ s.memoryLinks.map (·.key)

namespace Db

variable (projectId : String) (db : Db)

/-- The database has a row of the item that belongs to the project. -/
def Shares : Item → Prop
  | .agent id => ∃ r ∈ db.agents, r.id = id ∧ r.projectId = some projectId
  | .task id => db.sharesTaskId projectId id
  | .dependency d => d ∈ db.dependencies ∧ db.sharesTaskId projectId d.taskId ∧
      db.sharesTaskId projectId d.dependsOnId
  | k@(.taskMessage _ taskId ..) => db.sharesTaskId projectId taskId ∧
      db.taskThread.HasItem TaskMessage.id TaskMessage.item k
  | .conversation id => db.sharesConversationId projectId id
  | .participant key => db.sharesConversationId projectId key.conversationId ∧
      ∃ r ∈ db.participants, r.key = key
  | k@(.conversationMessage _ conversationId ..) =>
      db.sharesConversationId projectId conversationId ∧
        db.chatThread.HasItem ConversationMessage.id ConversationMessage.item k
  | .workflow id => ∃ r ∈ db.workflows, r.id = id ∧ db.sharesWorkflow projectId r
  | .memoryNote id => db.sharesNoteId projectId id
  | .memoryLink key => db.sharesNoteId projectId key.fromNoteId ∧
      db.sharesNoteId projectId key.toNoteId ∧ ∃ r ∈ db.links, r.key = key

/-- Every message has at most one record, and every record has its message. -/
structure Threads : Prop where
  task : db.taskThread.Sound TaskMessage.id
  chat : db.chatThread.Sound ConversationMessage.id

end Db

/-! ## Exporting messages -/

section Threads

variable {μ : Type} {id : μ → ℕ} {owner time : μ → String} {uuid : ℕ → String} {messages : List μ}
  {sync₀ sync : List SyncRow} {t : Thread μ} {shared : μ → Bool} {item : String → μ → Item}
  {k : Item}

/-- The rows of records while messages are exported: those from before, and new ones of messages
that had none. -/
def Grown (id : μ → ℕ) (uuid : ℕ → String) (messages : List μ) (sync₀ sync : List SyncRow) : Prop :=
  ∃ new, sync = sync₀ ++ new ∧ ∀ r ∈ new, r.recordId = uuid r.messageId ∧
    Table.get (·.messageId) sync₀ r.messageId = none ∧ ∃ m ∈ messages, id m = r.messageId

/-- The record under which a message is exported. -/
def recordOf (id : μ → ℕ) (uuid : ℕ → String) (e : μ × Option SyncRow) : String :=
  (e.2.map (·.recordId)).getD (uuid (id e.1))

/-- One message gets its record, or keeps the one it has. -/
theorem Grown.insertSync (h : Grown id uuid messages sync₀ sync) {m : μ} (hm : m ∈ messages)
    {row : Option SyncRow} (hrow : row = Table.get (·.messageId) sync₀ (id m))
    (parent : Option String) :
    Grown id uuid messages sync₀
      (Sync.insertSync ⟨recordOf id uuid (m, row), id m, parent⟩ sync) := by
  obtain ⟨new, rfl, hnew⟩ := h
  unfold Sync.insertSync
  split
  · exact ⟨new, rfl, hnew⟩
  · next hno =>
    -- a row of the message would have been found
    have hnone : row = none := by
      by_contra hsome
      obtain ⟨r, rfl⟩ := Option.ne_none_iff_exists'.1 hsome
      refine hno (List.any_eq_true.2
        ⟨r, List.mem_append_left _ (Table.mem_of_get hrow.symm), ?_⟩)
      simp [Table.key_of_get hrow.symm]
    subst hnone
    refine ⟨new ++ [_], List.append_assoc .., fun r hr => ?_⟩
    rcases List.mem_append.1 hr with hr | hr
    · exact hnew r hr
    · obtain rfl := List.mem_singleton.1 hr
      exact ⟨rfl, hrow.symm, m, hm, rfl⟩

/-- Every message is exported under its record. -/
theorem exportMessages_spec (owner : μ → String) {list : List (μ × Option SyncRow)}
    (hlist : ∀ e ∈ list, e.1 ∈ messages ∧ e.2 = Table.get (·.messageId) sync₀ (id e.1))
    (previous : List (String × String)) (h : Grown id uuid messages sync₀ sync) :
    Grown id uuid messages sync₀ (exportMessages id owner uuid list previous sync).2 ∧
      (exportMessages id owner uuid list previous sync).1.map
          (fun r => (r.message, r.recordId)) =
        list.map fun e => (e.1, recordOf id uuid e) := by
  induction list generalizing previous sync with
  | nil => exact ⟨h, rfl⟩
  | cons e list ih =>
    obtain ⟨m, row⟩ := e
    obtain ⟨hm, hrow⟩ := hlist _ List.mem_cons_self
    obtain ⟨hall, hmap⟩ := ih (fun e he => hlist e (List.mem_cons_of_mem _ he))
      ((owner m, recordOf id uuid (m, row)) :: previous)
      (h.insertSync hm hrow ((row.bind (·.parentRecordId)).or (previous.lookup (owner m))))
    refine ⟨hall, ?_⟩
    simp only [exportMessages, List.map_cons]
    exact congrArg _ hmap

theorem Grown.sound (h : Grown id uuid t.messages t.sync sync) (hs : t.Sound id) :
    ({ t with sync := sync } : Thread μ).Sound id := by
  obtain ⟨new, rfl, hnew⟩ := h
  have hapart : ∀ r ∈ t.sync, ∀ r' ∈ new, r.messageId ≠ r'.messageId := by
    intro r hr r' hr' he
    have hsome := Table.get_isSome_iff.2 (List.mem_map.2 ⟨r, hr, he⟩)
    rw [(hnew r' hr').2.1] at hsome
    cases hsome
  refine ⟨fun r hr => ?_, hs.fresh, fun r hr r' hr' he => ?_⟩
  · rcases List.mem_append.1 hr with hr | hr
    · exact hs.message r hr
    · obtain ⟨-, -, m, hm, hid⟩ := hnew r hr
      exact Table.get_isSome_iff.2 (List.mem_map.2 ⟨m, hm, hid⟩)
  · rcases List.mem_append.1 hr with hr | hr <;> rcases List.mem_append.1 hr' with hr' | hr'
    · exact hs.single r hr r' hr' he
    · exact absurd he (hapart r hr r' hr')
    · exact absurd he.symm (hapart r' hr' r hr)
    · rw [(hnew r hr).1, (hnew r' hr').1, he]

/-- The messages of an export with their rows. -/
def exportList (id : μ → ℕ) (owner time : μ → String) (shared : μ → Bool) (t : Thread μ) :
    List (μ × Option SyncRow) :=
  (sortBy (fun m => toLex (owner m, toLex (time m, id m))) (t.messages.filter shared)).map
    fun m => (m, Table.get (·.messageId) t.sync (id m))

theorem export_spec (id : μ → ℕ) (owner time : μ → String) (uuid : ℕ → String) (shared : μ → Bool)
    (t : Thread μ) :
    (∃ sync, (t.export id owner uuid time shared).2 = { t with sync := sync } ∧
      Grown id uuid t.messages t.sync sync) ∧
    (t.export id owner uuid time shared).1.map (fun r => (r.message, r.recordId)) =
      (exportList id owner time shared t).map fun e => (e.1, recordOf id uuid e) := by
  have hlist : ∀ e ∈ exportList id owner time shared t,
      e.1 ∈ t.messages ∧ e.2 = Table.get (·.messageId) t.sync (id e.1) := by
    intro e he
    obtain ⟨m, hm, rfl⟩ := List.mem_map.1 he
    exact ⟨(List.mem_filter.1 (mem_sortBy.1 hm)).1, rfl⟩
  obtain ⟨hgrown, hmap⟩ := exportMessages_spec owner hlist []
    ⟨[], (List.append_nil _).symm, by simp⟩
  exact ⟨⟨_, rfl, hgrown⟩, hmap⟩

theorem export_has {m : μ} (hm : m ∈ t.messages) (hshared : shared m) {row : SyncRow}
    (hrow : Table.get (·.messageId) t.sync (id m) = some row) :
    ∃ r ∈ (t.export id owner uuid time shared).1, r.message = m ∧ r.recordId = row.recordId := by
  have hin : (m, some row) ∈ exportList id owner time shared t := by
    refine List.mem_map.2 ⟨m, mem_sortBy.2 (List.mem_filter.2 ⟨hm, hshared⟩), ?_⟩
    rw [hrow]
  have hpair := List.mem_map_of_mem (f := fun e => (e.1, recordOf id uuid e)) hin
  rw [← (export_spec id owner time uuid shared t).2] at hpair
  obtain ⟨r, hr, he⟩ := List.mem_map.1 hpair
  exact ⟨r, hr, Prod.mk.inj he⟩

theorem export_sound (hs : t.Sound id) : (t.export id owner uuid time shared).2.Sound id := by
  obtain ⟨⟨sync, hsync, hgrown⟩, -⟩ := export_spec id owner time uuid shared t
  rw [hsync]
  exact hgrown.sound hs

theorem export_keeps (h : t.HasItem id item k) :
    (t.export id owner uuid time shared).2.HasItem id item k := by
  obtain ⟨⟨sync, hsync, new, rfl, -⟩, -⟩ := export_spec id owner time uuid shared t
  obtain ⟨m, hm, row, hrow, hk⟩ := h
  rw [hsync]
  exact ⟨m, hm, row, Table.get_append_of_some hrow, hk⟩

end Threads

/-! ## Exporting a project -/

section Export

variable {κ ρ : Type} {config : Config κ ρ} {manifest : ProjectSyncManifest} {uuid : ℕ → String}
  {db db' : Db} {s : StoreSnapshot} {allow : Bool} {projectId : String} {k : Item}

theorem sharesTaskId_iff {id : String} :
    db.sharesTaskId projectId id = true ↔ id ∈ (db.sharedTasks projectId).map (·.id) := by
  unfold Db.sharesTaskId Db.sharedTasks
  simp only [List.any_eq_true, Bool.and_eq_true, decide_eq_true_eq, List.mem_map, mem_sortBy,
    List.mem_filter]
  constructor
  · rintro ⟨r, hr, hid, h⟩
    exact ⟨r, ⟨hr, h⟩, hid⟩
  · rintro ⟨r, ⟨hr, h⟩, hid⟩
    exact ⟨r, hr, hid, h⟩

theorem sharesConversationId_iff {id : String} :
    db.sharesConversationId projectId id = true ↔
      ∃ r ∈ db.conversations, r.id = id ∧ r.projectId = some projectId := by
  simp [Db.sharesConversationId]

theorem sharesWorkflow_iff {r : Workflow} :
    db.sharesWorkflow projectId r = true ↔ r.projectId = some projectId ∨
      r.projectId = none ∧ (projectId, r.id) ∈ db.projectWorkflows := by
  simp [Db.sharesWorkflow]

theorem sharesNoteId_iff {id : String} :
    db.sharesNoteId projectId id = true ↔ ∃ r ∈ db.notes, r.id = id ∧ r.projectId = projectId := by
  simp [Db.sharesNoteId]

/-- An export, list by list. -/
structure Exported (config : Config κ ρ) (manifest : ProjectSyncManifest) (uuid : ℕ → String)
    (db : Db) (s : StoreSnapshot) (db' : Db) : Prop where
  descriptor : s.descriptor = ⟨storeVersion, manifest.projectId⟩
  project : db.exportProject manifest = .ok s.project
  agents : readEach (exportAgent config)
    (sortBy (·.id) (db.agents.filter (·.projectId = some manifest.projectId))) = .ok s.agents
  tasks : s.tasks = (db.sharedTasks manifest.projectId).map
    (·.portable (s.agents.map (·.id)) ((db.sharedTasks manifest.projectId).map (·.id)))
  dependencies : s.taskDependencies = sortBy (fun d => toLex (d.taskId, d.dependsOnId))
    (db.dependencies.filter fun d => db.sharesTaskId manifest.projectId d.taskId &&
      db.sharesTaskId manifest.projectId d.dependsOnId)
  taskMessages : s.taskMessages =
    (db.exportTaskMessages manifest.projectId uuid).1.map (·.taskMessage (s.agents.map (·.id)))
  conversations : s.conversations =
    (sortBy (·.id) (db.conversations.filter (·.projectId = some manifest.projectId))).map
      (·.portable)
  participants : s.participants = sortBy (fun p => toLex (p.key.conversationId,
      toLex (p.key.participantType, p.key.participantId)))
    (db.participants.filter fun p =>
      db.sharesConversationId manifest.projectId p.key.conversationId)
  messages : readEach (Recorded.conversationMessage
      ((db.sharedTasks manifest.projectId).map (·.id)))
    (db.exportConversationMessages manifest.projectId uuid).1 = .ok s.conversationMessages
  workflows : s.workflows =
    (sortBy (·.id) (db.workflows.filter (db.sharesWorkflow manifest.projectId))).map (·.portable)
  notes : s.memoryNotes = if manifest.share.projectMemory then
    db.exportNotes manifest.projectId ((db.sharedTasks manifest.projectId).map (·.id)) else []
  links : s.memoryLinks =
    if manifest.share.projectMemory then db.exportLinks manifest.projectId else []
  after : db' = { db with
    taskThread := (db.exportTaskMessages manifest.projectId uuid).2
    chatThread := (db.exportConversationMessages manifest.projectId uuid).2 }

theorem exportTransaction_exported
    (h : db.exportTransaction config manifest uuid allow = .ok (s, db')) :
    Exported config manifest uuid db s db' := by
  obtain ⟨_, -, h⟩ := bind_ok h
  obtain ⟨project, hproject, h⟩ := bind_ok h
  obtain ⟨agents, hagents, h⟩ := bind_ok h
  obtain ⟨messages, hmessages, h⟩ := bind_ok h
  cases h
  exact ⟨rfl, hproject, hagents, rfl, rfl, rfl, rfl, rfl, hmessages, rfl, rfl, rfl, rfl⟩

theorem item_conversationMessage {taskIds : List String} {r : Recorded ConversationMessage}
    {p : PortableConversationMessage} (h : r.conversationMessage taskIds = .ok p) :
    p.item = r.message.item r.recordId := by
  obtain ⟨_, -, h⟩ := bind_ok h
  cases h
  rfl

/-- **An export has every item that the database shares.** -/
theorem Exported.has (h : Exported config manifest uuid db s db') (hmemory : manifest.share.projectMemory = true ∨ k.isMemory = false)
    (hk : db.Shares manifest.projectId k) : s.Has k := by
  cases k with
  | agent id =>
    obtain ⟨r, hr, hid, hproject⟩ := hk
    obtain ⟨a, ha, hexport⟩ := readEach_ok h.agents
      (mem_sortBy.2 (List.mem_filter.2 ⟨hr, by simpa using hproject⟩))
    refine List.mem_map.2 ⟨a, ha, ?_⟩
    unfold exportAgent at hexport
    split at hexport
    · cases hexport
    · cases hexport
      exact hid
  | task id =>
    have hmem := sharesTaskId_iff.1 hk
    show id ∈ s.tasks.map (·.id)
    rw [h.tasks, List.map_map]
    exact hmem
  | dependency d =>
    obtain ⟨hd, htask, hbefore⟩ := hk
    show d ∈ s.taskDependencies
    rw [h.dependencies, mem_sortBy, List.mem_filter]
    exact ⟨hd, by rw [htask, hbefore]; rfl⟩
  | taskMessage recordId taskId =>
    obtain ⟨htask, m, hm, row, hrow, hitem⟩ := hk
    have hshared : db.sharesTaskId manifest.projectId m.taskId = true := by
      injection hitem with _ hsame
      rw [hsame]
      exact htask
    obtain ⟨r, hr, rfl, hrecord⟩ : ∃ r ∈ (db.exportTaskMessages manifest.projectId uuid).1,
        r.message = m ∧ r.recordId = row.recordId := export_has hm hshared hrow
    show _ ∈ s.taskMessages.map (·.item)
    rw [h.taskMessages, List.map_map]
    refine List.mem_map.2 ⟨r, hr, ?_⟩
    rw [← hitem, ← hrecord]
    rfl
  | conversation id =>
    obtain ⟨r, hr, hid, hproject⟩ := sharesConversationId_iff.1 hk
    show id ∈ s.conversations.map (·.id)
    rw [h.conversations, List.map_map]
    exact List.mem_map.2 ⟨r, mem_sortBy.2 (List.mem_filter.2 ⟨hr, by simpa using hproject⟩), hid⟩
  | participant key =>
    obtain ⟨hconversation, r, hr, hkey⟩ := hk
    show key ∈ s.participants.map (·.key)
    rw [h.participants]
    refine List.mem_map.2 ⟨r, mem_sortBy.2 (List.mem_filter.2 ⟨hr, ?_⟩), hkey⟩
    rw [hkey]
    exact hconversation
  | conversationMessage recordId conversationId =>
    obtain ⟨hconversation, m, hm, row, hrow, hitem⟩ := hk
    have hshared : db.sharesConversationId manifest.projectId m.conversationId = true := by
      injection hitem with _ hsame
      rw [hsame]
      exact hconversation
    obtain ⟨r, hr, rfl, hrecord⟩ : ∃ r ∈ (db.exportConversationMessages manifest.projectId uuid).1,
        r.message = m ∧ r.recordId = row.recordId := export_has hm hshared hrow
    obtain ⟨p, hp, hexport⟩ := readEach_ok h.messages hr
    exact List.mem_map.2 ⟨p, hp, (item_conversationMessage hexport).trans (hrecord ▸ hitem)⟩
  | workflow id =>
    obtain ⟨r, hr, hid, hshared⟩ := hk
    show id ∈ s.workflows.map (·.id)
    rw [h.workflows, List.map_map]
    exact List.mem_map.2 ⟨r, mem_sortBy.2 (List.mem_filter.2 ⟨hr, hshared⟩), hid⟩
  | memoryNote id =>
    obtain ⟨r, hr, hid, hproject⟩ := sharesNoteId_iff.1 hk
    have hshare := hmemory.resolve_right (by simp [Item.isMemory])
    show id ∈ s.memoryNotes.map (·.id)
    rw [h.notes, if_pos hshare, Db.exportNotes, List.map_map]
    exact List.mem_map.2 ⟨r, mem_sortBy.2 (List.mem_filter.2 ⟨hr, by simpa using hproject⟩), hid⟩
  | memoryLink key =>
    obtain ⟨hfrom, hto, r, hr, hkey⟩ := hk
    have hshare := hmemory.resolve_right (by simp [Item.isMemory])
    show key ∈ s.memoryLinks.map (·.key)
    rw [h.links, if_pos hshare, Db.exportLinks]
    refine List.mem_map.2 ⟨r, mem_sortBy.2 (List.mem_filter.2 ⟨hr, ?_⟩), hkey⟩
    rw [hkey, hfrom, hto]
    rfl

theorem Exported.threads (h : Exported config manifest uuid db s db') (hthreads : db.Threads) :
    db'.Threads := by
  rw [h.after]
  exact ⟨export_sound hthreads.task, export_sound hthreads.chat⟩

theorem Exported.keeps (h : Exported config manifest uuid db s db') (hk : db.Shares projectId k) :
    db'.Shares projectId k := by
  rw [h.after]
  cases k with
  | taskMessage recordId taskId => exact hk.imp_right export_keeps
  | conversationMessage recordId conversationId => exact hk.imp_right export_keeps
  | _ => exact hk

end Export

end XpressClaw.Sync
