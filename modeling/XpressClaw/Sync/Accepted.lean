import XpressClaw.Sync.Valid

/-!
# What acceptance means

`StoreSnapshot.WellFormed` says in its own terms what a snapshot is that the store accepts: ids
are distinct identifiers, references stay inside the snapshot, every thread of messages is one
Conversation's or one task's, and neither the tasks nor the messages are on a cycle.
`validate_ok` says that `validate` accepts exactly the snapshots that are so and whose records
pass the check of their kind.
-/

namespace XpressClaw.Sync

open Lib Projects Store

variable {f : Formats} {s : StoreSnapshot}

/-! ## Checks of lists -/

namespace Store

theorem seq_ok {x y : Except Error Unit} :
    (x >>= fun _ => y) = .ok () ↔ x = .ok () ∧ y = .ok () := by
  cases x with
  | error e => simp [bind, Except.bind]
  | ok u => simp [bind, Except.bind]

theorem ofProjects_ok {x : Except Projects.Error Unit} :
    ofProjects x = .ok () ↔ x = .ok () := by
  cases x <;> simp [ofProjects]

theorem onSome_ok {α : Type} {check : α → Except Error Unit} {o : Option α} :
    onSome check o = .ok () ↔ ∀ a ∈ o, check a = .ok () := by
  cases o <;> simp [onSome]

theorem validateOptionalReference_ok {label owner : String} {reference : Option String}
    {valid : List String} :
    Store.validateOptionalReference label owner reference valid = .ok () ↔
      ∀ r ∈ reference, r ∈ valid := by
  rw [Store.validateOptionalReference, require_ok]
  cases reference <;> simp

/-- The loop lets a list pass when no key comes twice and each record would pass alone. -/
theorem forAllFresh_ok {χ κ : Type} [DecidableEq κ] {key : χ → κ}
    {check : Bool → χ → Except Error Unit} (hseen : ∀ x, check false x ≠ .ok ()) {seen : List κ}
    {xs : List χ} : forAllFresh key check seen xs = .ok () ↔
      (∀ x ∈ xs, check true x = .ok ()) ∧ (xs.map key).Nodup ∧ ∀ x ∈ xs, key x ∉ seen := by
  induction xs generalizing seen with
  | nil => simp [forAllFresh]
  | cons x xs ih =>
    rw [forAllFresh, seq_ok, ih]
    by_cases hx : key x ∈ seen
    · simp [hx, hseen x]
    · have hcheck : check (decide (key x ∉ seen)) x = check true x := by simp [hx]
      rw [hcheck, List.map_cons, List.nodup_cons, List.forall_mem_cons, List.forall_mem_cons]
      simp only [List.mem_cons, not_or, List.mem_map, not_exists, not_and]
      constructor
      · rintro ⟨h1, h2, h3, h4⟩
        exact ⟨⟨h1, h2⟩, ⟨fun y hy => (h4 y hy).1, h3⟩, hx, fun y hy => (h4 y hy).2⟩
      · rintro ⟨⟨h1, h2⟩, ⟨h3, h4⟩, -, h5⟩
        exact ⟨h1, h2, h4, fun y hy => ⟨h3 y hy, h5 y hy⟩⟩

/-- An identifier: not empty, at most 200 bytes long and without control characters. -/
def IsIdentifier (value : String) : Prop :=
  value ≠ "" ∧ Utf8.byteLen value.toList ≤ 200 ∧ ∀ c ∈ value.toList, Text.isControl c = false

/-- Distinct identifiers. -/
structure Ids (ids : List String) : Prop where
  nodup : ids.Nodup
  identifier : ∀ id ∈ ids, IsIdentifier id

theorem validateIdentifier_ok {field value : String} :
    validateIdentifier field value = .ok () ↔ IsIdentifier value := by
  rw [validateIdentifier, seq_ok, require_ok, require_ok, IsIdentifier]
  simp [and_assoc]

theorem uniqueIds_ok {label : String} {ids : List String} :
    Store.uniqueIds label ids = .ok () ↔ Ids ids := by
  have hseen : ∀ id : String, (do
      validateIdentifier s!"{label} ID" id
      require (false = true) (.sync s!"duplicate {label} ID '{id}'")) ≠ .ok () := by
    intro id h
    have := require_ok.1 (seq_ok.1 h).2
    cases this
  rw [Store.uniqueIds, forAllFresh_ok hseen]
  simp only [seq_ok, validateIdentifier_ok, require_ok, and_true, List.map_id, List.not_mem_nil,
    not_false_eq_true, implies_true]
  exact ⟨fun h => ⟨h.2, h.1⟩, fun h => ⟨h.identifier, h.nodup⟩⟩

theorem IsIdentifier.nul {value : String} (h : IsIdentifier value) : '\x00' ∉ value.toList := by
  intro hmem
  have hcontrol := h.2.2 _ hmem
  revert hcontrol
  decide

theorem validateText_nul {field value : String} {max : ℕ} {allowEmpty : Bool}
    (h : validateText field value max allowEmpty = .ok ()) : '\x00' ∉ value.toList :=
  require_ok.1 (seq_ok.1 h).2

/-! ## Threads -/

/-- The messages of one kind: each has an owner, answers a message of that owner if any, and
none is its own answer, directly or through others. -/
structure Threaded (values : List (String × Option String × String)) (owners : List String) :
    Prop where
  ids : Ids (values.map (·.1))
  owner : ∀ v ∈ values, v.2.2 ∈ owners
  parent : ∀ v ∈ values, ∀ p ∈ v.2.1, ∃ w ∈ values, w.1 = p ∧ w.2.2 = v.2.2
  acyclic : Graph.Acyclic (Projects.parentEdges (values.map fun v => (v.1, v.2.1)))

theorem parent_ok {values : List (String × Option String × String)}
    (hnd : (values.map Prod.fst).Nodup) {p owner : String} :
    (p ∈ values.map (·.1) ∧ ¬ (Table.get Prod.fst values p).any (·.2.2 ≠ owner)) ↔
      ∃ w ∈ values, w.1 = p ∧ w.2.2 = owner := by
  constructor
  · rintro ⟨hp, howner⟩
    obtain ⟨w, hw, rfl⟩ := List.mem_map.1 hp
    rw [Table.get_eq_some_of_mem hnd hw] at howner
    exact ⟨w, hw, rfl, by simpa using howner⟩
  · rintro ⟨w, hw, rfl, rfl⟩
    rw [Table.get_eq_some_of_mem hnd hw]
    exact ⟨List.mem_map_of_mem hw, by simp⟩

theorem validateMessageGraph_ok {label : String} {values : List (String × Option String × String)}
    {owners : List String} :
    validateMessageGraph label values owners = .ok () ↔ Threaded values owners := by
  have hmap : (values.map fun v => (v.1, v.2.1)).map Prod.fst = values.map (·.1) := by
    rw [List.map_map]
    rfl
  rw [validateMessageGraph, seq_ok, seq_ok, uniqueIds_ok, forAll_ok, ofProjects_ok]
  constructor
  · rintro ⟨hids, heach, hcycles⟩
    have hparents := (validateParentCycles_iff (hmap ▸ hids.nodup) label).1 hcycles
    refine ⟨hids, fun v hv => ?_, fun v hv p hp => ?_, hparents⟩
    · exact require_ok.1 (seq_ok.1 (heach v hv)).1
    · have hparent := onSome_ok.1 (seq_ok.1 (heach v hv)).2 p hp
      rw [seq_ok, require_ok, require_ok] at hparent
      exact (parent_ok hids.nodup).1 hparent
  · intro h
    refine ⟨h.ids, fun v hv => ?_,
      (validateParentCycles_iff (hmap ▸ h.ids.nodup) label).2 h.acyclic⟩
    refine seq_ok.2 ⟨require_ok.2 (h.owner v hv), onSome_ok.2 fun p hp => ?_⟩
    rw [seq_ok, require_ok, require_ok]
    exact (parent_ok h.ids.nodup).2 (h.parent v hv p hp)

end Store

/-! ## Snapshots -/

namespace StoreSnapshot

/-- What holds across the records of a snapshot that the store accepts. -/
structure WellFormed (s : StoreSnapshot) : Prop where
  counts : ∀ c ∈ s.recordCounts, c.2 ≤ maxRecordsPerKind
  version : s.descriptor.version = storeVersion
  descriptor : s.descriptor.projectId = s.project.id
  project : IsIdentifier s.project.id
  agents : Ids s.agentIds
  conversations : Ids s.conversationIds
  tasks : Ids s.taskIds
  taskAgent : ∀ t ∈ s.tasks, ∀ a ∈ t.agentId, a ∈ s.agentIds
  taskConversation : ∀ t ∈ s.tasks, ∀ c ∈ t.conversationId, c ∈ s.conversationIds
  taskParent : ∀ t ∈ s.tasks, ∀ p ∈ t.parentTaskId, p ∈ s.taskIds
  parents : Graph.Acyclic (Projects.parentEdges s.taskParents)
  dependencyEnds : ∀ e ∈ s.taskEdges, e.1 ∈ s.taskIds ∧ e.2 ∈ s.taskIds
  dependencies : s.taskDependencies.Nodup
  dependencyCycles : Graph.Acyclic s.taskEdges
  participants : (s.participants.map (·.key)).Nodup
  participantConversation : ∀ p ∈ s.participants, p.key.conversationId ∈ s.conversationIds
  participantAgent : ∀ p ∈ s.participants,
    p.key.participantType = "agent" → p.key.participantId ∈ s.agentIds
  chat : Threaded s.chatGraph s.conversationIds
  linkedTask : ∀ m ∈ s.conversationMessages, ∀ t ∈ m.linkedTaskId, t ∈ s.taskIds
  taskThread : Threaded s.taskGraph s.taskIds
  messageAgent : ∀ m ∈ s.taskMessages, ∀ a ∈ m.agentId, a ∈ s.agentIds
  workflows : Ids (s.workflows.map (·.id))
  workflowNames : (s.workflows.map (·.name)).Nodup
  notes : Ids s.noteIds
  sourceTask : ∀ n ∈ s.memoryNotes, ∀ t ∈ n.sourceTaskId, t ∈ s.taskIds
  links : (s.memoryLinks.map (·.key)).Nodup
  linkEnds : ∀ l ∈ s.memoryLinks, l.key.fromNoteId ∈ s.noteIds ∧ l.key.toNoteId ∈ s.noteIds ∧
    l.key.fromNoteId ≠ l.key.toNoteId

/-- The check of the project. -/
def validateProject (f : Formats) (p : PortableProject) : Except Error Unit := do
  validateText "project.name" p.name 500 false
  validateOptionalText "project.description" p.description 100000
  validateOptionalText "project.icon" p.icon 1000
  validateTimestamp f "project.created_at" p.createdAt
  validateTimestamp f "project.updated_at" p.updatedAt

/-- Every record passes the check of its kind. -/
structure Checked (f : Formats) (s : StoreSnapshot) : Prop where
  project : validateProject f s.project = .ok ()
  agents : ∀ a ∈ s.agents, validateAgent f a = .ok ()
  conversations : ∀ c ∈ s.conversations, validateConversation f c = .ok ()
  tasks : ∀ t ∈ s.tasks, Store.validateTask f s.agentIds s.taskIds s.conversationIds t = .ok ()
  dependencies : ∀ d ∈ s.taskDependencies, Store.validateDependency s.taskIds true d = .ok ()
  participants : ∀ p ∈ s.participants,
    Store.validateParticipant f s.conversationIds s.agentIds p = .ok ()
  conversationMessages : ∀ m ∈ s.conversationMessages,
    validateConversationMessage f s.taskIds m = .ok ()
  taskMessages : ∀ m ∈ s.taskMessages, validateTaskMessage f s.agentIds m = .ok ()
  workflows : ∀ w ∈ s.workflows, Store.validateWorkflow f true w = .ok ()
  memoryNotes : ∀ n ∈ s.memoryNotes, validateMemoryNote f s.taskIds n = .ok ()
  memoryLinks : ∀ l ∈ s.memoryLinks, validateMemoryLink f s.noteIds true l = .ok ()

variable {projectId : String}

theorem validateDependency_ok {taskIds : List String} {d : Tasks.Dependency} :
    Store.validateDependency taskIds true d = .ok () ↔
      (d.taskId ∈ taskIds ∧ d.dependsOnId ∈ taskIds) ∧ d.taskId ≠ d.dependsOnId := by
  rw [Store.validateDependency, seq_ok, require_ok, require_ok]
  simp

theorem validateDependency_seen (taskIds : List String) (d : Tasks.Dependency) :
    Store.validateDependency taskIds false d ≠ .ok () := by
  intro h
  exact require_ok.1 (seq_ok.1 h).2 (Or.inr rfl)

theorem validateWorkflow_seen (f : Formats) (w : PortableWorkflow) :
    Store.validateWorkflow f false w ≠ .ok () := by
  intro h
  obtain ⟨-, h⟩ := seq_ok.1 h
  obtain ⟨-, h⟩ := seq_ok.1 h
  obtain ⟨-, h⟩ := seq_ok.1 h
  exact absurd (require_ok.1 (seq_ok.1 h).1) Bool.false_ne_true

theorem validateMemoryLink_seen (f : Formats) (noteIds : List String) (l : MemoryLink) :
    validateMemoryLink f noteIds false l ≠ .ok () := by
  intro h
  have hnot := require_ok.1 (seq_ok.1 h).1
  simp at hnot

theorem validateParticipant_ok {conversationIds agentIds : List String} {p : Participant}
    (h : Store.validateParticipant f conversationIds agentIds p = .ok ()) :
    p.key.conversationId ∈ conversationIds ∧
      (p.key.participantType = "agent" → p.key.participantId ∈ agentIds) ∧
      p.key.participantType ∈ ["agent", "user"] ∧ '\x00' ∉ p.key.participantId.toList := by
  obtain ⟨hconversation, h⟩ := seq_ok.1 h
  obtain ⟨htype, h⟩ := seq_ok.1 h
  obtain ⟨hagent, h⟩ := seq_ok.1 h
  have hagent := require_ok.1 hagent
  refine ⟨require_ok.1 hconversation, fun hkind => ?_, require_ok.1 htype,
    validateText_nul (seq_ok.1 h).1⟩
  by_contra hmissing
  exact hagent ⟨hkind, hmissing⟩

theorem validateMemoryLink_ok {noteIds : List String} {l : MemoryLink}
    (h : validateMemoryLink f noteIds true l = .ok ()) :
    (l.key.fromNoteId ∈ noteIds ∧ l.key.toNoteId ∈ noteIds ∧ l.key.fromNoteId ≠ l.key.toNoteId) ∧
      l.key.linkType ∈ ["related", "supports", "contradicts", "supersedes", "depends_on",
        "example_of"] := by
  have hnot := require_ok.1 (seq_ok.1 h).1
  simp only [not_or, not_not] at hnot
  exact ⟨⟨hnot.1, hnot.2.1, hnot.2.2.1⟩, hnot.2.2.2.2.1⟩

theorem validateTask_ok {agentIds taskIds conversationIds : List String} {t : PortableTask}
    (h : Store.validateTask f agentIds taskIds conversationIds t = .ok ()) :
    (∀ a ∈ t.agentId, a ∈ agentIds) ∧ (∀ p ∈ t.parentTaskId, p ∈ taskIds) ∧
      ∀ c ∈ t.conversationId, c ∈ conversationIds := by
  obtain ⟨-, h⟩ := seq_ok.1 h
  obtain ⟨-, h⟩ := seq_ok.1 h
  obtain ⟨-, h⟩ := seq_ok.1 h
  obtain ⟨-, h⟩ := seq_ok.1 h
  obtain ⟨hagent, h⟩ := seq_ok.1 h
  obtain ⟨hparent, h⟩ := seq_ok.1 h
  obtain ⟨hconversation, -⟩ := seq_ok.1 h
  exact ⟨validateOptionalReference_ok.1 hagent, validateOptionalReference_ok.1 hparent,
    validateOptionalReference_ok.1 hconversation⟩

theorem validateConversationMessage_ok {taskIds : List String} {m : PortableConversationMessage}
    (h : validateConversationMessage f taskIds m = .ok ()) : ∀ t ∈ m.linkedTaskId, t ∈ taskIds := by
  have hnot := require_ok.1 (seq_ok.1 h).1
  intro t ht
  by_contra hmissing
  rw [Option.mem_def.1 ht] at hnot
  simp [hmissing] at hnot

theorem validateMemoryNote_ok {taskIds : List String} {n : PortableMemoryNote}
    (h : validateMemoryNote f taskIds n = .ok ()) :
    (∀ t ∈ n.sourceTaskId, t ∈ taskIds) ∧ (n.tags.map f.searchKey).Nodup := by
  obtain ⟨-, h⟩ := seq_ok.1 h
  obtain ⟨-, h⟩ := seq_ok.1 h
  obtain ⟨-, h⟩ := seq_ok.1 h
  obtain ⟨-, h⟩ := seq_ok.1 h
  obtain ⟨hsource, h⟩ := seq_ok.1 h
  obtain ⟨-, h⟩ := seq_ok.1 h
  obtain ⟨-, h⟩ := seq_ok.1 h
  obtain ⟨-, htags⟩ := seq_ok.1 h
  have hseen : ∀ tag, validateTag n.id false tag ≠ .ok () := fun tag h =>
    absurd (require_ok.1 (seq_ok.1 h).2) Bool.false_ne_true
  exact ⟨validateOptionalReference_ok.1 hsource, ((forAllFresh_ok hseen).1 htags).2.1⟩

/-- `validate` accepts exactly the well-formed snapshots of the project whose records pass their
checks. -/
theorem validate_ok :
    s.validate f projectId = .ok () ↔ s.project.id = projectId ∧ s.WellFormed ∧ s.Checked f := by
  have hparents : (s.taskParents.map Prod.fst) = s.taskIds := by
    simp [taskParents, taskIds, Function.comp_def]
  constructor
  · intro h
    simp only [validate, seq_ok, require_ok, forAll_ok, uniqueIds_ok, ofProjects_ok,
      validateIdentifier_ok, validateMessageGraph_ok, forAllFresh_ok (validateDependency_seen _),
      forAllFresh_ok (validateWorkflow_seen _), forAllFresh_ok (validateMemoryLink_seen _ _),
      not_or, not_not, List.map_id, id_eq] at h
    obtain ⟨hcounts, hversion, ⟨hdescriptor, hid⟩, hproject, hname, hdescription, hicon, hcreated,
      hupdated, hagents, heachAgent, hconversations, heachConversation, htasks, heachTask, hcycles,
      ⟨heachDependency, hdependencies, -⟩, hdependencyCycles, hparticipants, heachParticipant,
      hchat, heachMessage, hthread, heachTaskMessage, hworkflows, ⟨heachWorkflow, hnames, -⟩, hnotes,
      heachNote, heachLink, hlinks, -⟩ := h
    have hends : ∀ e ∈ s.taskEdges, e.1 ∈ s.taskIds ∧ e.2 ∈ s.taskIds := by
      intro e he
      obtain ⟨d, hd, rfl⟩ := List.mem_map.1 he
      exact (validateDependency_ok.1 (heachDependency d hd)).1
    refine ⟨hid, ?_, ?_⟩
    · exact
        { counts := hcounts
          version := hversion
          descriptor := hdescriptor.trans hid.symm
          project := hproject
          agents := hagents
          conversations := hconversations
          tasks := htasks
          taskAgent := fun t ht => (validateTask_ok (heachTask t ht)).1
          taskConversation := fun t ht => (validateTask_ok (heachTask t ht)).2.2
          taskParent := fun t ht => (validateTask_ok (heachTask t ht)).2.1
          parents := (validateParentCycles_iff (hparents ▸ htasks.nodup) "task").1 hcycles
          dependencyEnds := hends
          dependencies := hdependencies
          dependencyCycles :=
            (Kahn.validateDependencyCycles_iff htasks.nodup hends).1 hdependencyCycles
          participants := hparticipants
          participantConversation := fun p hp => (validateParticipant_ok (heachParticipant p hp)).1
          participantAgent := fun p hp => (validateParticipant_ok (heachParticipant p hp)).2.1
          chat := hchat
          linkedTask := fun m hm => validateConversationMessage_ok (heachMessage m hm)
          taskThread := hthread
          messageAgent := fun m hm =>
            validateOptionalReference_ok.1 (seq_ok.1 (heachTaskMessage m hm)).1
          workflows := hworkflows
          workflowNames := hnames
          notes := hnotes
          sourceTask := fun n hn => (validateMemoryNote_ok (heachNote n hn)).1
          links := hlinks
          linkEnds := fun l hl => (validateMemoryLink_ok (heachLink l hl)).1 }
    · have hprojectOk : validateProject f s.project = .ok () := by
        simp only [validateProject, seq_ok]
        exact ⟨hname, hdescription, hicon, hcreated, hupdated⟩
      exact ⟨hprojectOk, heachAgent, heachConversation, heachTask, heachDependency,
        heachParticipant, heachMessage, heachTaskMessage, heachWorkflow, heachNote, heachLink⟩
  · rintro ⟨hid, hw, hc⟩
    have hproject := hc.project
    simp only [validateProject, seq_ok] at hproject
    obtain ⟨hname, hdescription, hicon, hcreated, hupdated⟩ := hproject
    have hcycles := (validateParentCycles_iff (hparents ▸ hw.tasks.nodup) "task").2 hw.parents
    have hdependencyCycles :=
      (Kahn.validateDependencyCycles_iff hw.tasks.nodup hw.dependencyEnds).2 hw.dependencyCycles
    simp only [validate, seq_ok, require_ok, forAll_ok, uniqueIds_ok, ofProjects_ok,
      validateIdentifier_ok, validateMessageGraph_ok, forAllFresh_ok (validateDependency_seen _),
      forAllFresh_ok (validateWorkflow_seen _), forAllFresh_ok (validateMemoryLink_seen _ _),
      not_or, not_not, List.map_id, id_eq]
    exact ⟨hw.counts, hw.version, ⟨hw.descriptor.trans hid, hid⟩, hw.project, hname, hdescription,
      hicon, hcreated, hupdated, hw.agents, hc.agents, hw.conversations, hc.conversations, hw.tasks,
      hc.tasks, hcycles, ⟨hc.dependencies, hw.dependencies, by simp⟩, hdependencyCycles,
      hw.participants, hc.participants, hw.chat, hc.conversationMessages, hw.taskThread,
      hc.taskMessages, hw.workflows, ⟨hc.workflows, hw.workflowNames, by simp⟩, hw.notes,
      hc.memoryNotes, hc.memoryLinks, hw.links, by simp⟩

end StoreSnapshot

end XpressClaw.Sync
