import XpressClaw.Conversations.Lifecycle
import XpressClaw.Sync.Messages

/-!
# Workflows, memory and conversations that are written twice

For each of the remaining stages of an import: what it puts in place, and that it changes nothing
that is in place.  A workflow that is the same is not written, so that its revision stays; a
message that was deleted before stops no turn.
-/

namespace XpressClaw.Sync

open Lib

variable {texts : Texts} {db db' : Db} {s : PortableSnapshot}

/-! ## Workflows -/

/-- The rows of a workflow are as its record has them. -/
structure WorkflowIn (projectId : String) (w : PortableWorkflow) (db : Db) : Prop where
  exists_row : (db.workflow? w.id).isSome
  same : ∀ r ∈ db.workflows, r.id = w.id → sameDefinition w r = true ∧ r.updatedAt = w.updatedAt
  linked : (projectId, w.id) ∈ db.projectWorkflows

/-- The name of a workflow is in use by no other, and its owner is as its record has it. -/
structure WorkflowScope (projectId : String) (w : PortableWorkflow) (db : Db) : Prop where
  name : ∀ r ∈ db.workflows, r.name = w.name → r.id = w.id
  owner : (db.workflow? w.id).all (·.projectId = workflowOwner projectId w)

theorem workflowScope_of_check {projectId : String} {w : PortableWorkflow} {u : Unit}
    (h : db.checkWorkflowScope projectId w = .ok u) : WorkflowScope projectId w db := by
  obtain ⟨_, hname, h⟩ := bind_ok h
  obtain ⟨_, howner, -⟩ := bind_ok h
  rw [require_ok] at hname howner
  refine ⟨fun r hr hsame => ?_, howner⟩
  by_contra hid
  exact hname (List.any_eq_true.2 ⟨r, hr, by simp [hsame, hid]⟩)

theorem reviseWorkflow_cases (b : Bool) (w : PortableWorkflow) (r : Workflow) :
    (reviseWorkflow b w r = r ∧ sameDefinition w r = true ∧ r.updatedAt = w.updatedAt) ∨
      ((reviseWorkflow b w r).id = r.id ∧ (reviseWorkflow b w r).projectId = r.projectId ∧
        sameDefinition w (reviseWorkflow b w r) = true ∧
        (reviseWorkflow b w r).updatedAt = w.updatedAt) := by
  unfold reviseWorkflow
  split
  · rename_i h
    simp only [Bool.and_eq_true, decide_eq_true_eq] at h
    exact Or.inl ⟨rfl, h.1, h.2⟩
  · exact Or.inr ⟨rfl, rfl, by simp [sameDefinition], rfl⟩

theorem id_reviseWorkflow (b : Bool) (w : PortableWorkflow) (r : Workflow) :
    (reviseWorkflow b w r).id = r.id := by
  rcases reviseWorkflow_cases b w r with ⟨h, -⟩ | h
  · rw [h]
  · exact h.1

theorem projectId_reviseWorkflow (b : Bool) (w : PortableWorkflow) (r : Workflow) :
    (reviseWorkflow b w r).projectId = r.projectId := by
  rcases reviseWorkflow_cases b w r with ⟨h, -⟩ | h
  · rw [h]
  · exact h.2.1

theorem same_reviseWorkflow (b : Bool) (w : PortableWorkflow) (r : Workflow) :
    sameDefinition w (reviseWorkflow b w r) = true ∧
      (reviseWorkflow b w r).updatedAt = w.updatedAt := by
  rcases reviseWorkflow_cases b w r with ⟨h, hsame⟩ | h
  · rw [h]
    exact hsame
  · exact ⟨h.2.2.1, h.2.2.2⟩

theorem reviseWorkflow_eq_self {w : PortableWorkflow} {r : Workflow}
    (h : sameDefinition w r = true ∧ r.updatedAt = w.updatedAt) (b : Bool) :
    reviseWorkflow b w r = r := by
  unfold reviseWorkflow
  rw [if_pos]
  simp [h.1, h.2]

theorem name_of_same {w : PortableWorkflow} {r : Workflow} (h : sameDefinition w r = true) :
    r.name = w.name ∧ r.yamlContent = w.yamlContent := by
  simp only [sameDefinition, Bool.and_eq_true, decide_eq_true_eq] at h
  exact ⟨h.1.1.1, h.1.2⟩

theorem importWorkflow_ok {projectId : String} {w : PortableWorkflow}
    (h : db.importWorkflow texts projectId w = .ok db') : ∃ b, db' = { db with
      workflows := Table.upsert (·.id) w.id (newWorkflow projectId w) (reviseWorkflow b w)
        db.workflows
      projectWorkflows :=
        if (projectId, w.id) ∈ db.projectWorkflows then db.projectWorkflows
        else db.projectWorkflows ++ [(projectId, w.id)] } := by
  obtain ⟨b, -, h⟩ := bind_ok h
  cases h
  exact ⟨b, rfl⟩

/-- A row after a workflow was written: an old row of another workflow, or one of this. -/
theorem mem_upsert_workflow {projectId : String} {w : PortableWorkflow} {b : Bool}
    {rows : List Workflow} {r : Workflow}
    (h : r ∈ Table.upsert (·.id) w.id (newWorkflow projectId w) (reviseWorkflow b w) rows) :
    (r ∈ rows ∧ r.id ≠ w.id) ∨
      (r.id = w.id ∧ sameDefinition w r = true ∧ r.updatedAt = w.updatedAt) := by
  unfold Table.upsert at h
  split at h
  · rcases Table.mem_modify h with hr | ⟨r₀, -, hid, rfl⟩
    · exact Or.inl hr
    · exact Or.inr ⟨(id_reviseWorkflow b w r₀).trans hid, same_reviseWorkflow b w r₀⟩
  · rename_i hnone
    rcases List.mem_append.1 h with hr | hr
    · by_cases hid : r.id = w.id
      · exact absurd (Table.get_isSome_iff.2 (List.mem_map.2 ⟨r, hr, hid⟩)) hnone
      · exact Or.inl ⟨hr, hid⟩
    · obtain rfl := List.mem_singleton.1 hr
      exact Or.inr ⟨rfl, by simp [sameDefinition, newWorkflow], rfl⟩

theorem workflowIn_importWorkflow {projectId : String} {w : PortableWorkflow}
    (h : db.importWorkflow texts projectId w = .ok db') : WorkflowIn projectId w db' := by
  obtain ⟨b, rfl⟩ := importWorkflow_ok h
  refine ⟨?_, fun r hr hid => ?_, ?_⟩
  · have hwritten : Table.Written (·.id) w.id (reviseWorkflow b w)
        (Table.upsert (·.id) w.id (newWorkflow projectId w) (reviseWorkflow b w) db.workflows) :=
      Table.written_upsert (id_reviseWorkflow b w)
        (fun r => reviseWorkflow_eq_self (same_reviseWorkflow b w r) b) rfl
        (reviseWorkflow_eq_self ⟨by simp [sameDefinition, newWorkflow], rfl⟩ b)
    exact hwritten.exists_row
  · rcases mem_upsert_workflow hr with ⟨-, hne⟩ | ⟨-, hsame⟩
    · exact absurd hid hne
    · exact hsame
  · show (projectId, w.id) ∈ if _ then _ else _
    split
    · assumption
    · exact List.mem_append_right _ (List.mem_singleton_self _)

theorem WorkflowIn.of_importWorkflow {projectId : String} {w v : PortableWorkflow}
    (hw : WorkflowIn projectId w db) (hne : w.id ≠ v.id)
    (h : db.importWorkflow texts projectId v = .ok db') : WorkflowIn projectId w db' := by
  obtain ⟨b, rfl⟩ := importWorkflow_ok h
  refine ⟨Table.isSome_get_upsert (id_reviseWorkflow b v) hw.exists_row, fun r hr hid => ?_, ?_⟩
  · rcases mem_upsert_workflow hr with ⟨hr, -⟩ | ⟨hv, -⟩
    · exact hw.same r hr hid
    · exact absurd (hid.symm.trans hv) hne
  · show (projectId, w.id) ∈ if _ then _ else _
    split
    · exact hw.linked
    · exact List.mem_append_left _ hw.linked

theorem WorkflowScope.of_importWorkflow {projectId : String} {w v : PortableWorkflow}
    (hw : WorkflowScope projectId w db) (hid : w.id = v.id → w = v)
    (hname : w.name = v.name → w = v)
    (h : db.importWorkflow texts projectId v = .ok db') : WorkflowScope projectId w db' := by
  obtain ⟨b, rfl⟩ := importWorkflow_ok h
  refine ⟨fun r hr hsame => ?_, ?_⟩
  · rcases mem_upsert_workflow hr with ⟨hr, -⟩ | ⟨hv, hdef, -⟩
    · exact hw.name r hr hsame
    · rw [hname (hsame.symm.trans (name_of_same hdef).1)]
      exact hv
  · have howner : ((Table.get (·.id) db.workflows w.id).all
        (·.projectId = workflowOwner projectId w)) = true := hw.owner
    show (Table.get (fun r : Workflow => r.id) (Table.upsert _ _ _ _ _) _).all _ = true
    unfold Table.upsert
    split
    · rw [Table.get_modify (id_reviseWorkflow b v)]
      cases hget : Table.get (·.id) db.workflows w.id with
      | none => rfl
      | some r =>
        rw [hget] at howner
        rw [Option.map_some]
        split
        · simpa [projectId_reviseWorkflow] using howner
        · exact howner
    · rename_i hnone
      rw [Table.get_append]
      cases hget : Table.get (·.id) db.workflows w.id with
      | some r =>
        rw [hget] at howner
        exact howner
      | none =>
        by_cases hsame : w.id = v.id
        · obtain rfl := hid hsame
          simp [Table.get, newWorkflow]
        · have hne : v.id ≠ w.id := fun he => hsame he.symm
          simp [Table.get, newWorkflow, hne]

theorem importWorkflows_ok (hvalid : s.Valid texts)
    (hscope : ∀ w ∈ s.workflows, WorkflowScope s.project.id w db)
    (h : db.importWorkflows texts s = .ok db') :
    ∃ rows links, db' = { db with workflows := rows, projectWorkflows := links } ∧
      ∀ w ∈ s.workflows, WorkflowIn s.project.id w db' ∧ WorkflowScope s.project.id w db' := by
  have hsame : ∀ w ∈ s.workflows, ∀ v ∈ s.workflows, w.id = v.id → w = v := fun w hw v hv =>
    List.inj_on_of_nodup_map hvalid.workflows hw hv
  have hname : ∀ w ∈ s.workflows, ∀ v ∈ s.workflows, w.name = v.name → w = v := fun w hw v hv =>
    List.inj_on_of_nodup_map hvalid.workflowNames hw hv
  have hframe : ∃ rows links, db' = { db with workflows := rows, projectWorkflows := links } := by
    refine each_invariant (I := fun d : Db => ∃ rows links,
      d = { db with workflows := rows, projectWorkflows := links }) (fun d w d' _ hd hstep => ?_)
      ⟨db.workflows, db.projectWorkflows, rfl⟩ h
    obtain ⟨rows, links, rfl⟩ := hd
    obtain ⟨b, rfl⟩ := importWorkflow_ok hstep
    exact ⟨_, _, rfl⟩
  have hscopes : ∀ w ∈ s.workflows, WorkflowScope s.project.id w db' :=
    each_invariant (I := fun d => ∀ w ∈ s.workflows, WorkflowScope s.project.id w d)
      (fun d v d' hv hd hstep w hw => (hd w hw).of_importWorkflow (hsame w hw v hv)
        (hname w hw v hv) hstep) hscope h
  have hplaced := each_settled (I := fun _ => True)
    (D := fun w d => w ∈ s.workflows ∧ WorkflowIn s.project.id w d) (R := fun _ _ => True)
    (fun _ _ _ _ _ _ => trivial) (fun d w d' hw _ hstep => ⟨hw, workflowIn_importWorkflow hstep⟩)
    (fun d w v d' hv _ _ hd hstep => by
      refine ⟨hd.1, ?_⟩
      by_cases hid : w.id = v.id
      · rw [hsame w hd.1 v hv hid]
        exact workflowIn_importWorkflow hstep
      · exact hd.2.of_importWorkflow hid hstep)
    (List.pairwise_of_forall fun _ _ => trivial) trivial h
  obtain ⟨rows, links, hdb⟩ := hframe
  exact ⟨rows, links, hdb, fun w hw => ⟨(hplaced w hw).2, hscopes w hw⟩⟩

/-- To import a workflow again changes nothing, its revision included. -/
theorem WorkflowIn.importWorkflow_eq {projectId : String} {w : PortableWorkflow}
    (hw : WorkflowIn projectId w db) (hparse : (texts.parse w.yamlContent).isSome) :
    db.importWorkflow texts projectId w = .ok db := by
  obtain ⟨r, hr⟩ := Option.isSome_iff_exists.1 hw.exists_row
  obtain ⟨head, hhead⟩ := Option.isSome_iff_exists.1 hparse
  have hyaml := (name_of_same (hw.same r (Table.mem_of_get hr) (Table.key_of_get hr)).1).2
  have hchanged : ∃ b, db.scheduleChanged texts w = .ok b := by
    unfold Db.scheduleChanged
    rw [hr]
    dsimp only
    rw [hyaml, hhead]
    exact ⟨_, rfl⟩
  obtain ⟨b, hb⟩ := hchanged
  have hrows : Table.upsert (·.id) w.id (newWorkflow projectId w) (reviseWorkflow b w)
      db.workflows = db.workflows := by
    exact Table.Written.upsert_eq_self ⟨hw.exists_row, fun r hr hid =>
      reviseWorkflow_eq_self (hw.same r hr hid) b⟩
  unfold Db.importWorkflow
  rw [hb]
  show Except.ok { db with
      workflows := Table.upsert (·.id) w.id (newWorkflow projectId w) (reviseWorkflow b w)
        db.workflows
      projectWorkflows :=
        if (projectId, w.id) ∈ db.projectWorkflows then db.projectWorkflows
        else db.projectWorkflows ++ [(projectId, w.id)] } = _
  rw [hrows, if_pos hw.linked]

theorem WorkflowIn.checkWorkflowScope_ok {projectId : String} {w : PortableWorkflow}
    (hw : WorkflowIn projectId w db) (hscope : WorkflowScope projectId w db) :
    db.checkWorkflowScope projectId w = .ok () := by
  obtain ⟨r, hr⟩ := Option.isSome_iff_exists.1 hw.exists_row
  have hdef := (hw.same r (Table.mem_of_get hr) (Table.key_of_get hr)).1
  have hname : ¬ db.workflows.any fun r => r.name = w.name && r.id ≠ w.id := by
    rw [List.any_eq_true]
    rintro ⟨r, hr, hsame⟩
    simp only [Bool.and_eq_true, decide_eq_true_eq] at hsame
    exact hsame.2 (hscope.name r hr hsame.1)
  unfold Db.checkWorkflowScope
  rw [require, if_pos hname]
  show (require _ _ >>= fun _ => require _ _) = _
  rw [require, if_pos hscope.owner]
  show require _ _ = _
  rw [require, if_pos]
  rintro ⟨-, -, hdiffers⟩
  rw [hr, Option.any_some, hdef] at hdiffers
  cases hdiffers

/-! ## Memory -/

/-- What `import_memory` writes. -/
def Db.writeMemory (texts : Texts) (s : PortableSnapshot) (db : Db) : Db :=
  { db with
    notes := Table.upsertAll (·.id) (·.id) (newNote texts s.project.id)
      (rewriteNote texts s.project.id) s.memoryNotes db.notes
    tags := Table.replaceAll (·.noteId) (·.id) (tagsOf texts) s.memoryNotes db.tags
    embeddings := Table.replaceAll (·.noteId) (·.id) (embeddingsOf texts s.project.id)
      s.memoryNotes db.embeddings
    links := Table.upsertAll (·.key) (·.key) (fun l => l)
      (fun l r => { r with strength := l.strength }) s.memoryLinks db.links }

theorem importNotes_eq {projectId : String} {notes : List PortableMemoryNote}
    (hkeys : ∀ n ∈ notes, (n.tags.map texts.searchKey).Nodup) (db : Db) :
    each (Db.importNote texts projectId) notes db = .ok { db with
      notes := Table.upsertAll (·.id) (·.id) (newNote texts projectId)
        (rewriteNote texts projectId) notes db.notes
      tags := Table.replaceAll (·.noteId) (·.id) (tagsOf texts) notes db.tags
      embeddings := Table.replaceAll (·.noteId) (·.id) (embeddingsOf texts projectId) notes
        db.embeddings } := by
  induction notes generalizing db with
  | nil => rfl
  | cons n notes ih =>
    rw [each, Db.importNote, require, if_pos (hkeys n List.mem_cons_self)]
    show each (Db.importNote texts projectId) notes _ = _
    rw [ih fun m hm => hkeys m (List.mem_cons_of_mem _ hm)]
    rfl

theorem importMemory_eq (hvalid : s.Valid texts) (db : Db) :
    db.importMemory texts s = .ok (db.writeMemory texts s) := by
  unfold Db.importMemory
  rw [importNotes_eq hvalid.tagKeys]
  rfl

theorem tagsOf_noteId (p : PortableMemoryNote) : ∀ r ∈ tagsOf texts p, r.noteId = p.id := by
  intro r hr
  obtain ⟨tag, -, rfl⟩ := List.mem_map.1 hr
  rfl

theorem embeddingsOf_noteId {projectId : String} (p : PortableMemoryNote) :
    ∀ r ∈ embeddingsOf texts projectId p, r.noteId = p.id := by
  intro r hr
  unfold embeddingsOf at hr
  split at hr
  · cases hr
  · rw [List.mem_singleton.1 hr]

theorem writeMemory_writeMemory (hvalid : s.Valid texts) (db : Db) :
    (db.writeMemory texts s).writeMemory texts s = db.writeMemory texts s := by
  unfold Db.writeMemory
  congr 1
  · exact Table.upsertAll_eq_self (Table.written_upsertAll (lawful_note texts s.project.id)
      hvalid.notes db.notes)
  · exact Table.replaceAll_replaceAll tagsOf_noteId hvalid.notes db.tags
  · exact Table.replaceAll_replaceAll embeddingsOf_noteId hvalid.notes db.embeddings
  · exact Table.upsertAll_eq_self (Table.written_upsertAll lawful_link hvalid.links db.links)

/-! ## Turns that a deletion stops -/

section Turns

open Conversations.Db

variable {lanes lanes' : Conversations.Db} {c : String} {n : ℕ}

/-- No turn of the conversation is active, and every active turn is one of `turns`. -/
structure Idle (turns : List Conversations.ConversationTurn) (c : String)
    (lanes : Conversations.Db) : Prop where
  old : ∀ t ∈ lanes.turns, t.status.active = true → t ∈ turns
  none_active : ∀ t ∈ lanes.turns, t.conversationId = c → t.status.active = false

theorem Idle.updateTurns {turns : List Conversations.ConversationTurn} (h : Idle turns c lanes)
    {where_ : Conversations.ConversationTurn → Bool}
    {set : Conversations.ConversationTurn → Conversations.ConversationTurn}
    (hwhere : ∀ t, where_ t = true → t.conversationId = c)
    (hset : ∀ t, t.status.active = false → (set t).status.active = false) :
    Idle turns c (lanes.updateTurns where_ set) := by
  refine ⟨fun t ht hactive => ?_, fun t ht hc => ?_⟩
  · obtain ⟨t₀, ht₀, rfl⟩ := List.mem_map.1 ht
    by_cases hw : where_ t₀ = true
    · rw [if_pos hw, hset t₀ (h.none_active t₀ ht₀ (hwhere t₀ hw))] at hactive
      cases hactive
    · rw [if_neg hw] at hactive ⊢
      exact h.old t₀ ht₀ hactive
  · obtain ⟨t₀, ht₀, rfl⟩ := List.mem_map.1 ht
    by_cases hw : where_ t₀ = true
    · rw [if_pos hw]
      exact hset t₀ (h.none_active t₀ ht₀ (hwhere t₀ hw))
    · rw [if_neg hw] at hc ⊢
      exact h.none_active t₀ ht₀ hc

/-- In a conversation without active turns, a deletion makes none. -/
theorem reconcile_idle (hidle : ∀ t ∈ lanes.turns, t.conversationId = c → t.status.active = false)
    {stopped : List ℕ}
    (h : Conversations.Db.reconcileMessageDeletionTurns c n lanes = .ok (stopped, lanes')) :
    ∀ t ∈ lanes'.turns, t.status.active = true → t ∈ lanes.turns := by
  obtain ⟨lanes₁, lanes₂, rfl, hrequeue, rfl⟩ := reconcileMessageDeletionTurns_eq h
  have hqueued : lanes.turns.filter (QueuedFor c n) = [] := by
    rw [List.filter_eq_nil_iff]
    intro t ht hq
    simp only [QueuedFor, Bool.and_eq_true, decide_eq_true_eq] at hq
    have hnot := hidle t ht hq.1.1
    rw [hq.2] at hnot
    cases hnot
  have hsame : lanes.retargetAll c n = lanes := by
    unfold retargetAll
    rw [hqueued]
    rfl
  have hrunning : lanes.turns.filter (ConsumedBy c n .running) = [] := by
    rw [List.filter_eq_nil_iff]
    intro t ht hr
    simp only [ConsumedBy, Bool.and_eq_true, decide_eq_true_eq] at hr
    have hnot := hidle t ht hr.1.1
    rw [hr.1.2] at hnot
    cases hnot
  rw [hsame, hrunning] at hrequeue
  cases hrequeue
  have hstart : Idle lanes.turns c lanes := ⟨fun t ht _ => ht, hidle⟩
  have hdismissed : ∀ (agents : List String) (lanes' : Conversations.Db),
      Idle lanes.turns c lanes' → Idle lanes.turns c (agents.foldl (dismissFailed c n) lanes') := by
    intro agents
    induction agents with
    | nil => exact fun _ h => h
    | cons a agents ih =>
      refine fun lanes' h => ih _ (h.updateTurns (fun t ht => ?_) fun _ _ => rfl)
      simp only [ConsumedBy, Bool.and_eq_true, decide_eq_true_eq] at ht
      exact ht.1.1.1
  have hcancelled : Idle lanes.turns c
      (((lanes.affectedAgents c n).foldl (dismissFailed c n) lanes).cancelConsumed c n) := by
    refine (hdismissed _ _ hstart).updateTurns (fun t ht => ?_) fun _ _ => rfl
    simp only [QueuedFor, ConsumedBy, Bool.or_eq_true, Bool.and_eq_true, decide_eq_true_eq] at ht
    rcases ht with ht | ht
    · exact ht.1.1
    · exact ht.1.1
  have hforgotten : Idle lanes.turns c (forgetResult c n
      (((lanes.affectedAgents c n).foldl (dismissFailed c n) lanes).cancelConsumed c n)) := by
    refine hcancelled.updateTurns (fun t ht => ?_) fun _ h => h
    simp only [Bool.and_eq_true, decide_eq_true_eq] at ht
    exact ht.1
  exact hforgotten.old

end Turns

/-! ## Messages of Conversations -/

/-- The Project has no active turn. -/
def NoActiveTurns (projectId : String) (db : Db) : Prop :=
  ∀ t ∈ db.turns, t.status.active = true → ∀ c, db.conversation? t.conversationId = some c →
    c.projectId ≠ some projectId

/-- The message of a record is in place, and a deleted one has no attachments. -/
def MessageIn (p : PortableConversationMessage) (db : Db) : Prop :=
  ∃ metadata remote row m, conversationMessageMetadata p.metadata = .ok (metadata, remote) ∧
    db.chatThread.Copy ConversationMessage.id (conversationRecord p metadata remote) row m ∧
    (m.deletedAt.isSome → m.id ∉ db.attachments ∧ m.id ∉ db.visualizations)

/-- What the import of messages leaves alone. -/
structure Settling (db db' : Db) : Prop where
  frame : ∃ chat turns next attachments visualizations, db' = { db with
    chatThread := chat
    turns := turns
    nextTurnId := next
    attachments := attachments
    visualizations := visualizations }
  attachments : ∀ n ∉ db.attachments, n ∉ db'.attachments
  visualizations : ∀ n ∉ db.visualizations, n ∉ db'.visualizations

theorem Settling.refl (db : Db) : Settling db db :=
  ⟨⟨_, _, _, _, _, rfl⟩, fun _ h => h, fun _ h => h⟩

theorem Settling.trans {db'' : Db} (h : Settling db db') (h' : Settling db' db'') :
    Settling db db'' := by
  obtain ⟨⟨_, _, _, _, _, rfl⟩, ha, hv⟩ := h
  obtain ⟨⟨_, _, _, _, _, rfl⟩, ha', hv'⟩ := h'
  exact ⟨⟨_, _, _, _, _, rfl⟩, fun n hn => ha' n (ha n hn), fun n hn => hv' n (hv n hn)⟩

theorem settleDeletion_ok {c : String} {m : ConversationMessage} {became : Bool}
    {stopped : List ℕ} (h : db.settleDeletion c m became = .ok (stopped, db')) :
    Settling db db' ∧ db'.chatThread = db.chatThread ∧
      (m.deletedAt.isSome → m.id ∉ db'.attachments ∧ m.id ∉ db'.visualizations) ∧
      ((∀ t ∈ db.turns, t.conversationId = c → t.status.active = false) →
        ∀ t ∈ db'.turns, t.status.active = true → t ∈ db.turns) := by
  unfold Db.settleDeletion at h
  split at h
  · rename_i hnone
    cases h
    refine ⟨.refl db, rfl, fun hsome => ?_, fun _ t ht _ => ht⟩
    rw [Option.isNone_iff_eq_none] at hnone
    rw [hnone] at hsome
    cases hsome
  · obtain ⟨⟨stopped₁, db₁⟩, hreconcile, h⟩ := bind_ok h
    cases h
    have hclean : ∀ d : Db, m.id ∉ d.attachments.filter (· ≠ m.id) ∧
        m.id ∉ d.visualizations.filter (· ≠ m.id) := fun d => by simp
    unfold Db.stopTurns at hreconcile
    split at hreconcile
    · unfold Db.reconcileMessageDeletionTurns at hreconcile
      split at hreconcile
      · cases hreconcile
      · rename_i lanes' hlanes
        cases hreconcile
        refine ⟨⟨⟨_, _, _, _, _, rfl⟩, fun n hn => ?_, fun n hn => ?_⟩, rfl,
          fun _ => hclean _, fun hidle => ?_⟩
        · exact fun hmem => hn (List.mem_of_mem_filter hmem)
        · exact fun hmem => hn (List.mem_of_mem_filter hmem)
        · have hlane : ∀ t ∈ db.lanes.turns, t.conversationId = c → t.status.active = false :=
            hidle
          exact reconcile_idle hlane hlanes
    · cases hreconcile
      refine ⟨⟨⟨_, _, _, _, _, rfl⟩, fun n hn => ?_, fun n hn => ?_⟩, rfl,
        fun _ => hclean _, fun _ t ht _ => ht⟩
      · exact fun hmem => hn (List.mem_of_mem_filter hmem)
      · exact fun hmem => hn (List.mem_of_mem_filter hmem)

/-- What the import of one message does. -/
theorem importConversationMessage_ok {p : PortableConversationMessage}
    (hs : db.chatThread.Sound ConversationMessage.id) {r : Bool × List ℕ}
    (h : db.importConversationMessage p = .ok (r, db')) :
    Settling db db' ∧ MessageIn p db' ∧ db'.chatThread.Sound ConversationMessage.id ∧
      (∀ (x : Record ConversationMessage) row m,
        db.chatThread.Copy ConversationMessage.id x row m → x.recordId ≠ p.recordId →
          db'.chatThread.Copy ConversationMessage.id x row m) ∧
      ((∀ t ∈ db.turns, t.conversationId = p.conversationId → t.status.active = false) →
        ∀ t ∈ db'.turns, t.status.active = true → t ∈ db.turns) := by
  obtain ⟨⟨metadata, remote⟩, hmetadata, h⟩ := bind_ok h
  obtain ⟨⟨existed, chat⟩, hrecord, h⟩ := bind_ok h
  have hlaw := lawful_conversationRecord p metadata remote
  obtain ⟨row, m, hcopy⟩ := Thread.copy_importRecord hs hlaw hrecord
  have hfind : chat.find ConversationMessage.id p.recordId = some m := hcopy.find_eq
  dsimp only at h
  rw [hfind] at h
  obtain ⟨⟨stopped, db₁⟩, hsettle, h⟩ := bind_ok h
  cases h
  obtain ⟨hsettling, hchat, hclean, hturns⟩ := settleDeletion_ok hsettle
  have hfirst : Settling db { db with chatThread := chat } :=
    ⟨⟨_, _, _, _, _, rfl⟩, fun _ h => h, fun _ h => h⟩
  have hthread : db₁.chatThread = chat := hchat
  refine ⟨hfirst.trans hsettling, ⟨metadata, remote, row, m, hmetadata, ?_, hclean⟩, ?_,
    fun x row' m' hx hne => ?_, hturns⟩
  · rw [hthread]
    exact hcopy
  · rw [hthread]
    exact hs.of_importRecord hlaw hrecord
  · rw [hthread]
    exact hx.of_importRecord hs hlaw hne hrecord

/-- To import a message again changes nothing. -/
theorem MessageIn.importConversationMessage_eq {p : PortableConversationMessage}
    (h : MessageIn p db) : db.importConversationMessage p = .ok ((true, []), db) := by
  obtain ⟨metadata, remote, row, m, hmetadata, hcopy, hclean⟩ := h
  have hfind : db.chatThread.find ConversationMessage.id p.recordId = some m := hcopy.find_eq
  have hrecord := hcopy.importRecord_eq
  have hsettle : { db with chatThread := db.chatThread }.settleDeletion p.conversationId m
      (true && !(some m).any (fun m : ConversationMessage => m.deletedAt.isSome)) =
      .ok ([], db) := by
    unfold Db.settleDeletion
    cases hdeleted : m.deletedAt with
    | none => rfl
    | some deletedAt =>
      obtain ⟨hattachments, hvisualizations⟩ := hclean (by rw [hdeleted]; rfl)
      have ha : db.attachments.filter (· ≠ m.id) = db.attachments := by
        rw [List.filter_eq_self]
        intro n hn
        simpa using fun he : n = m.id => hattachments (he ▸ hn)
      have hv : db.visualizations.filter (· ≠ m.id) = db.visualizations := by
        rw [List.filter_eq_self]
        intro n hn
        simpa using fun he : n = m.id => hvisualizations (he ▸ hn)
      simp only [Option.isNone_some, Bool.false_eq_true, if_false, Option.any_some, hdeleted,
        Option.isSome_some, Bool.not_true, Bool.and_false]
      show Except.ok (([] : List ℕ), { db with
        attachments := db.attachments.filter (· ≠ m.id)
        visualizations := db.visualizations.filter (· ≠ m.id) }) = _
      rw [ha, hv]
  unfold Db.importConversationMessage
  rw [hmetadata]
  show (Thread.importRecord ConversationMessage.id db.chatThread
    (conversationRecord p metadata remote) >>= _) = _
  rw [hrecord]
  rw [hfind]
  simp only [bind, Except.bind, hfind, hsettle]

/-- The messages of conversations and their parents are in place. -/
def MessagesIn (s : PortableSnapshot) (db : Db) : Prop :=
  ∃ messages, inImportOrder (fun p : PortableConversationMessage =>
      (p.recordId, p.parentRecordId, p.createdAt)) s.conversationMessages = .ok messages ∧
    ∀ p ∈ messages, MessageIn p db ∧ db.chatThread.ParentIs p.recordId p.parentRecordId

/-- The conversations after the times of their last messages are written. -/
def Db.touched (texts : Texts) (s : PortableSnapshot) (db : Db) : Db :=
  { db with
    conversations := Table.modifyAll (·.id) (·.id)
      (fun (c : PortableConversation) => touch (db.lastMessageAt texts c.id)) s.conversations
      db.conversations }

theorem Settling.conversation? (h : Settling db db') (id : String) :
    db'.conversation? id = db.conversation? id := by
  obtain ⟨⟨_, _, _, _, _, rfl⟩, -, -⟩ := h
  rfl

/-- The first loop over the messages of conversations. -/
theorem messages_ok (hvalid : s.Valid texts)
    (hs : db.chatThread.Sound ConversationMessage.id)
    (howned : ∀ c ∈ s.conversations, ∃ r, db.conversation? c.id = some r ∧
      r.projectId = some s.project.id)
    {messages : List PortableConversationMessage}
    (horder : inImportOrder (fun p : PortableConversationMessage =>
      (p.recordId, p.parentRecordId, p.createdAt)) s.conversationMessages = .ok messages)
    (h : each (fun d p => (Db.importConversationMessage d p).map Prod.snd) messages db =
      .ok db') :
    Settling db db' ∧ (NoActiveTurns s.project.id db → NoActiveTurns s.project.id db') ∧
      ∀ p ∈ messages, MessageIn p db' := by
  have hdistinct : Distinct (fun p : PortableConversationMessage => p.recordId) messages :=
    distinct_inImportOrder hvalid.messageRecords horder
  have hinvariant : ∀ d p d', p ∈ messages →
      (d.chatThread.Sound ConversationMessage.id ∧ Settling db d ∧
        (NoActiveTurns s.project.id db → NoActiveTurns s.project.id d)) →
      (Db.importConversationMessage d p).map Prod.snd = .ok d' →
      (d'.chatThread.Sound ConversationMessage.id ∧ Settling db d' ∧
        (NoActiveTurns s.project.id db → NoActiveTurns s.project.id d')) := by
    rintro d p d' hp ⟨hsound, hsettling, hidle⟩ hstep
    obtain ⟨r, hstep⟩ := map_snd_ok hstep
    obtain ⟨hstep', -, hsound', -, hturns⟩ := importConversationMessage_ok hsound hstep
    refine ⟨hsound', hsettling.trans hstep', fun hnone t ht hactive c hc => ?_⟩
    rw [hstep'.conversation?] at hc
    refine hidle hnone t (hturns (fun u hu huc => ?_) t ht hactive) hactive c hc
    -- the conversation of the message belongs to the Project, where no turn is active
    obtain ⟨q, hq, hid⟩ := List.mem_map.1
      (hvalid.messageOwners p (mem_inImportOrder horder p hp))
    obtain ⟨r', hr', hproject⟩ := howned q hq
    rw [← hsettling.conversation?, hid] at hr'
    by_contra hactive'
    rw [Bool.not_eq_false] at hactive'
    exact hidle hnone u hu hactive' r' (by rw [huc]; exact hr') hproject
  have hstart : db.chatThread.Sound ConversationMessage.id ∧ Settling db db ∧
      (NoActiveTurns s.project.id db → NoActiveTurns s.project.id db) := ⟨hs, .refl db, fun h => h⟩
  have hend := each_invariant hinvariant hstart h
  have hplaced := each_settled (D := fun p d => p ∈ messages ∧ MessageIn p d)
    (R := fun _ _ => True) hinvariant
    (fun d p d' hp hd hstep => by
      obtain ⟨r, hstep⟩ := map_snd_ok hstep
      exact ⟨hp, (importConversationMessage_ok hd.1 hstep).2.1⟩)
    (fun d p q d' hq hd _ hin hstep => by
      obtain ⟨r, hstep⟩ := map_snd_ok hstep
      obtain ⟨hmem, hin⟩ := hin
      by_cases hsame : p.recordId = q.recordId
      · obtain rfl := hdistinct p hmem q hq hsame
        rw [hin.importConversationMessage_eq] at hstep
        cases hstep
        exact ⟨hmem, hin⟩
      · obtain ⟨metadata, remote, row, m, hmetadata, hcopy, hclean⟩ := hin
        obtain ⟨hsettling, -, -, hcopies, -⟩ := importConversationMessage_ok hd.1 hstep
        refine ⟨hmem, metadata, remote, row, m, hmetadata, hcopies _ row m hcopy hsame,
          fun hdeleted => ?_⟩
        exact ⟨hsettling.attachments _ (hclean hdeleted).1,
          hsettling.visualizations _ (hclean hdeleted).2⟩)
    (List.pairwise_of_forall fun _ _ => trivial) hstart h
  exact ⟨hend.2.1, hend.2.2, fun p hp => (hplaced p hp).2⟩

theorem importConversationMessages_ok (hvalid : s.Valid texts)
    (hs : db.chatThread.Sound ConversationMessage.id)
    (howned : ∀ c ∈ s.conversations, ∃ r, db.conversation? c.id = some r ∧
      r.projectId = some s.project.id) {stopped : List ℕ}
    (h : db.importConversationMessages texts s = .ok (stopped, db')) :
    ∃ db₁, Settling db db₁ ∧ db' = db₁.touched texts s ∧ MessagesIn s db₁ ∧
      (NoActiveTurns s.project.id db → NoActiveTurns s.project.id db₁) := by
  obtain ⟨messages, horder, h⟩ := bind_ok h
  obtain ⟨⟨imported, db₂⟩, himported, h⟩ := bind_ok h
  obtain ⟨chat, hparents, h⟩ := bind_ok h
  cases h
  obtain ⟨heach, hfst⟩ := eachWith_ok himported
  obtain ⟨hsettling, hidle, hplaced⟩ := messages_ok hvalid hs howned horder heach
  have hdistinct : Distinct (fun p : PortableConversationMessage => p.recordId) messages :=
    distinct_inImportOrder hvalid.messageRecords horder
  refine ⟨{ db₂ with chatThread := chat },
    hsettling.trans ⟨⟨_, _, _, _, _, rfl⟩, fun _ h => h, fun _ h => h⟩, rfl,
    ⟨messages, horder, fun p hp => ⟨?_, ?_⟩⟩, hidle⟩
  · obtain ⟨metadata, remote, row, m, hmetadata, hcopy, hclean⟩ := hplaced p hp
    obtain ⟨row', hcopy'⟩ := copy_parents (f := fun b : Bool × List ℕ => b.1) hcopy hparents
    exact ⟨metadata, remote, row', m, hmetadata, hcopy', hclean⟩
  · exact parents_ok (f := fun b : Bool × List ℕ => b.1) (by rw [hfst]; exact hdistinct) hparents
      p (by rw [hfst]; exact hp)

theorem MessagesIn.importConversationMessages_eq (h : MessagesIn s db) :
    db.importConversationMessages texts s = .ok ([], db.touched texts s) := by
  obtain ⟨messages, horder, hplaced⟩ := h
  have hfirst : eachWith Db.importConversationMessage messages db =
      .ok (messages.map (·, (true, [])), db) :=
    eachWith_eq_self fun p hp => (hplaced p hp).1.importConversationMessage_eq
  have hsecond : each (fun t (e : PortableConversationMessage × (Bool × List ℕ)) =>
      Thread.importParent "Conversation" e.1.recordId e.1.parentRecordId e.2.1 t)
      (messages.map (·, (true, []))) db.chatThread = .ok db.chatThread := by
    refine each_eq_self fun e he => ?_
    obtain ⟨p, hp, rfl⟩ := List.mem_map.1 he
    exact (hplaced p hp).2.importParent_eq _ _
  have hstopped : ((messages.map fun p : PortableConversationMessage =>
      (p, (true, ([] : List ℕ)))).flatMap fun e => e.2.2).dedup = [] := by simp
  unfold Db.importConversationMessages
  rw [horder]
  show (eachWith Db.importConversationMessage messages db >>= _) = _
  rw [hfirst]
  show (each (fun t (e : PortableConversationMessage × (Bool × List ℕ)) =>
    Thread.importParent "Conversation" e.1.recordId e.1.parentRecordId e.2.1 t)
    (messages.map (·, (true, []))) db.chatThread >>= _) = _
  rw [hsecond]
  show Except.ok (((messages.map fun p : PortableConversationMessage =>
    (p, (true, ([] : List ℕ)))).flatMap fun e => e.2.2).dedup, db.touched texts s) = _
  rw [hstopped]

end XpressClaw.Sync
