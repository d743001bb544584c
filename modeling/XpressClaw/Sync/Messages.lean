import XpressClaw.Sync.Threads

/-!
# Records that are written twice

What the validation of a snapshot promises, which writes may be repeated, and the messages of
tasks: the first import puts every message and its parent in place, and the second changes
neither.
-/

namespace XpressClaw.Sync

open Lib

variable {texts : Texts} {db db' : Db} {s : PortableSnapshot}

/-! ## Checks of lists -/

theorem forAll_ok {χ : Type} {check : χ → Except Error Unit} {xs : List χ} {u : Unit} :
    forAll check xs = .ok u ↔ ∀ x ∈ xs, check x = .ok () := by
  constructor
  · intro h
    refine each_settled (I := fun _ => True) (D := fun x _ => check x = .ok ())
      (R := fun _ _ => True) (fun _ _ _ _ _ _ => trivial) (fun _ x s' _ _ hx => hx)
      (fun _ _ _ _ _ _ _ hx _ => hx) (List.pairwise_of_forall fun _ _ => trivial) trivial h
  · intro h
    exact each_eq_self h

/-- What the validation of a snapshot promises. -/
structure PortableSnapshot.Valid (texts : Texts) (s : PortableSnapshot) : Prop where
  agents : (s.agents.map (·.id)).Nodup
  conversations : (s.conversations.map (·.id)).Nodup
  tasks : (s.tasks.map (·.id)).Nodup
  dependencies : s.taskDependencies.Nodup
  participants : (s.participants.map (·.key)).Nodup
  messageRecords : (s.conversationMessages.map (·.recordId)).Nodup
  messageOwners : ∀ m ∈ s.conversationMessages, m.conversationId ∈ s.conversations.map (·.id)
  taskRecords : (s.taskMessages.map (·.recordId)).Nodup
  workflows : (s.workflows.map (·.id)).Nodup
  workflowNames : (s.workflows.map (·.name)).Nodup
  parses : ∀ w ∈ s.workflows, (texts.parse w.yamlContent).isSome
  notes : (s.memoryNotes.map (·.id)).Nodup
  tagKeys : ∀ n ∈ s.memoryNotes, (n.tags.map texts.searchKey).Nodup
  links : (s.memoryLinks.map (·.key)).Nodup

theorem PortableSnapshot.valid_of_validate {u : Unit} (h : s.validate texts = .ok u) :
    s.Valid texts := by
  unfold PortableSnapshot.validate at h
  obtain ⟨_, hagents, h⟩ := bind_ok h
  obtain ⟨_, hconversations, h⟩ := bind_ok h
  obtain ⟨_, htasks, h⟩ := bind_ok h
  obtain ⟨_, hdependencies, h⟩ := bind_ok h
  obtain ⟨_, hparticipants, h⟩ := bind_ok h
  obtain ⟨_, hrecords, h⟩ := bind_ok h
  obtain ⟨_, howners, h⟩ := bind_ok h
  obtain ⟨_, htaskRecords, h⟩ := bind_ok h
  obtain ⟨_, -, h⟩ := bind_ok h
  obtain ⟨_, hworkflows, h⟩ := bind_ok h
  obtain ⟨_, hnames, h⟩ := bind_ok h
  obtain ⟨_, hyaml, h⟩ := bind_ok h
  obtain ⟨_, hnotes, h⟩ := bind_ok h
  obtain ⟨_, htags, hlinks⟩ := bind_ok h
  refine
    { agents := require_ok.1 hagents
      conversations := require_ok.1 hconversations
      tasks := require_ok.1 htasks
      dependencies := require_ok.1 hdependencies
      participants := require_ok.1 hparticipants
      messageRecords := require_ok.1 hrecords
      messageOwners := require_ok.1 howners
      taskRecords := require_ok.1 htaskRecords
      workflows := require_ok.1 hworkflows
      workflowNames := require_ok.1 hnames
      parses := fun w hw => ?_
      notes := require_ok.1 hnotes
      tagKeys := require_ok.1 htags
      links := require_ok.1 hlinks }
  have hw := forAll_ok.1 hyaml w hw
  unfold validateWorkflow at hw
  split at hw
  · cases hw
  · rename_i head hhead
    rw [hhead]
    rfl

/-! ## Writing records twice -/

theorem lawful_agent (projectId now : String) :
    Table.Lawful (·.id) (·.id) (newAgent projectId now) (rewriteAgent projectId)
      (rewriteAgent projectId) :=
  ⟨fun _ _ => rfl, fun _ _ => rfl, fun _ => rfl, fun _ => rfl⟩

/-- What is written to a conversation, apart from the time of its last message. -/
def rewriteTitle (projectId : String) (p : PortableConversation) (r : Conversation) :
    Conversation :=
  { rewriteConversation projectId p r with lastMessageAt := r.lastMessageAt }

theorem lawful_conversation (projectId : String) :
    Table.Lawful (·.id) (·.id) (newConversation projectId) (rewriteConversation projectId)
      (rewriteTitle projectId) :=
  ⟨fun _ _ => rfl, fun _ _ => rfl, fun _ => rfl, fun _ => rfl⟩

theorem lawful_task (projectId : String) :
    Table.Lawful (·.id) (·.id) (newTask projectId) (rewriteTask projectId)
      (writeTask projectId) :=
  ⟨fun _ _ => rfl, fun _ _ => rfl, fun _ => rfl, fun _ => rfl⟩

theorem lawful_note (texts : Texts) (projectId : String) :
    Table.Lawful (·.id) (·.id) (newNote texts projectId) (rewriteNote texts projectId)
      (rewriteNote texts projectId) :=
  ⟨fun _ _ => rfl, fun _ _ => rfl, fun _ => rfl, fun _ => rfl⟩

theorem lawful_link : Table.Lawful (fun l : MemoryLink => l.key) (fun l : MemoryLink => l.key)
    (fun l => l) (fun l r => { r with strength := l.strength })
    (fun l r => { r with strength := l.strength }) :=
  ⟨fun _ _ => rfl, fun _ _ => rfl, fun _ => rfl, fun _ => rfl⟩

theorem lawful_insert {ρ ι : Type} (key : ρ → ι) :
    Table.Lawful key key (fun r => r) (fun _ r => r) (fun _ r => r) :=
  ⟨fun _ _ => rfl, fun _ _ => rfl, fun _ => rfl, fun _ => rfl⟩

theorem lawful_taskRecord (p : PortableTaskMessage) :
    (taskRecord p).Lawful TaskMessage.id where
  id_set _ := rfl
  set_set m := by
    simp only [taskRecord, Option.or_assoc, Option.or_self]
  check_set m h := by
    unfold taskRecord at h ⊢
    rw [require_ok] at h ⊢
    obtain ⟨h1, h2, h3, h4, h5⟩ := h
    refine ⟨h1, h2, h3, h4, fun a ha b hb => ?_⟩
    have hor : m.agentId.or p.agentId = some a := ha
    cases hm : m.agentId with
    | none =>
      rw [hm, Option.none_or] at hor
      exact Option.some.inj (hor.symm.trans hb)
    | some c =>
      rw [hm, Option.some_or] at hor
      exact h5 a (hm.trans hor) b hb
  id_insert _ := rfl
  set_insert n := by
    simp only [taskRecord, Option.or_self]
  check_insert n := by
    unfold taskRecord
    rw [require_ok]
    exact ⟨rfl, rfl, rfl, rfl, fun a ha b hb => Option.some.inj (ha.symm.trans hb)⟩

theorem laterDeletion_idem (a b : Option String) :
    laterDeletion (laterDeletion a b) b = laterDeletion a b := by
  cases a with
  | none =>
    cases b with
    | none => rfl
    | some b => simp [laterDeletion]
  | some a =>
    cases b with
    | none => rfl
    | some b =>
      by_cases hlt : b < a
      · simp [laterDeletion, hlt]
      · simp [laterDeletion, hlt]

theorem laterDeletion_self (a : Option String) : laterDeletion a a = a := by
  cases a <;> simp [laterDeletion]

theorem lawful_conversationRecord (p : PortableConversationMessage) (metadata : Json)
    (remote : Option String) :
    (conversationRecord p metadata remote).Lawful ConversationMessage.id where
  id_set _ := rfl
  set_set m := by
    simp only [conversationRecord, laterDeletion_idem]
    split <;> rfl
  check_set m h := by
    unfold conversationRecord at h ⊢
    exact h
  id_insert _ := rfl
  set_insert n := by
    simp only [conversationRecord, laterDeletion_self]
    split <;> rfl
  check_insert n := by
    unfold conversationRecord
    rw [require_ok]
    exact ⟨rfl, rfl, rfl, rfl, rfl, rfl, rfl, rfl⟩

/-! ## Messages -/

section Messages

variable {μ π β : Type} {id : μ → ℕ} {t t' : Thread μ} {messages : List π}

theorem mem_inImportOrder {record : π → String × Option String × String} {xs : List π}
    (h : inImportOrder record xs = .ok messages) : ∀ p ∈ messages, p ∈ xs := by
  obtain ⟨order, -, h⟩ := bind_ok h
  cases h
  intro p hp
  obtain ⟨i, -, hi⟩ := List.mem_filterMap.1 hp
  exact List.mem_of_getElem? hi

theorem map_snd_ok {ε σ : Type} {r : Except ε (β × σ)} {a : σ} (h : r.map Prod.snd = .ok a) :
    ∃ b, r = .ok (b, a) := by
  cases r with
  | error e => cases h
  | ok r =>
    cases h
    exact ⟨r.1, rfl⟩

/-- Records with one id are one record. -/
def Distinct (recordId : π → String) (messages : List π) : Prop :=
  ∀ p ∈ messages, ∀ q ∈ messages, recordId p = recordId q → p = q

theorem distinct_inImportOrder {record : π → String × Option String × String}
    {recordId : π → String} {xs : List π} (hxs : (xs.map recordId).Nodup)
    (h : inImportOrder record xs = .ok messages) : Distinct recordId messages :=
  fun p hp q hq hsame => List.inj_on_of_nodup_map hxs (mem_inImportOrder h p hp)
    (mem_inImportOrder h q hq) hsame

/-- The first loop puts every message in place. -/
theorem records_ok {record : π → Record μ} (hs : t.Sound id)
    (hlaw : ∀ p, (record p).Lawful id)
    (hdistinct : Distinct (fun p => (record p).recordId) messages) {imported : List (π × Bool)}
    (h : eachWith (fun t p => Thread.importRecord id t (record p)) messages t =
      .ok (imported, t')) :
    imported.map Prod.fst = messages ∧
      ∀ p ∈ messages, ∃ row m, t'.Copy id (record p) row m := by
  obtain ⟨heach, hfst⟩ := eachWith_ok h
  -- a message stays in place: a later step is of another record, or of the same message
  have hplaced := each_settled (I := Thread.Sound id)
    (D := fun p t => p ∈ messages ∧ ∃ row m, Thread.Copy id (record p) t row m)
    (R := fun _ _ => True)
    (fun u p u' _ hu hstep => by
      obtain ⟨b, hstep⟩ := map_snd_ok hstep
      exact hu.of_importRecord (hlaw p) hstep)
    (fun u p u' hp hu hstep => by
      obtain ⟨b, hstep⟩ := map_snd_ok hstep
      exact ⟨hp, Thread.copy_importRecord hu (hlaw p) hstep⟩)
    (fun u p q u' hq hu _ hp hstep => by
      obtain ⟨b, hstep⟩ := map_snd_ok hstep
      obtain ⟨hmem, row, m, hcopy⟩ := hp
      by_cases hsame : (record p).recordId = (record q).recordId
      · obtain rfl := hdistinct p hmem q hq hsame
        rw [hcopy.importRecord_eq] at hstep
        cases hstep
        exact ⟨hmem, row, m, hcopy⟩
      · exact ⟨hmem, row, m, hcopy.of_importRecord hu (hlaw q) hsame hstep⟩)
    (List.pairwise_of_forall fun _ _ => trivial) hs heach
  exact ⟨hfst, fun p hp => (hplaced p hp).2⟩

/-- The second loop puts every parent in place. -/
theorem parents_ok {label : String} {k : π → String} {q : π → Option String}
    {f : β → Bool} {imported : List (π × β)}
    (hdistinct : Distinct k (imported.map Prod.fst))
    (h : each (fun t (e : π × β) =>
      Thread.importParent label (k e.1) (q e.1) (f e.2) t) imported t = .ok t') :
    ∀ p ∈ imported.map Prod.fst, t'.ParentIs (k p) (q p) := by
  have hplaced := each_settled (I := fun _ => True)
    (D := fun (e : π × β) (t : Thread μ) => e ∈ imported ∧ t.ParentIs (k e.1) (q e.1))
    (R := fun _ _ => True) (fun _ _ _ _ _ _ => trivial)
    (fun u e u' he _ hstep => ⟨he, Thread.parentIs_importParent hstep⟩)
    (fun u e e' u' he' _ _ he hstep => by
      obtain ⟨hmem, hparent⟩ := he
      refine ⟨hmem, ?_⟩
      by_cases hsame : k e.1 = k e'.1
      · rw [hdistinct e.1 (List.mem_map_of_mem hmem) e'.1 (List.mem_map_of_mem he') hsame]
        exact Thread.parentIs_importParent hstep
      · exact hparent.of_importParent hsame hstep)
    (List.pairwise_of_forall fun _ _ => trivial) trivial h
  intro p hp
  obtain ⟨e, he, rfl⟩ := List.mem_map.1 hp
  exact (hplaced e he).2

theorem copy_parents {label : String} {k : π → String} {q : π → Option String}
    {f : β → Bool} {imported : List (π × β)} {x : Record μ} {row : SyncRow} {m : μ}
    (hc : t.Copy id x row m)
    (h : each (fun t (e : π × β) =>
      Thread.importParent label (k e.1) (q e.1) (f e.2) t) imported t = .ok t') :
    ∃ row', t'.Copy id x row' m := by
  refine each_invariant (I := fun t : Thread μ => ∃ row', t.Copy id x row' m)
    (fun u e u' _ hu hstep => ?_) ⟨row, hc⟩ h
  obtain ⟨row', hc'⟩ := hu
  obtain ⟨row'', hc'', -⟩ := hc'.of_importParent hstep
  exact ⟨row'', hc''⟩

end Messages

/-- The messages of tasks are in place. -/
def TaskMessagesIn (s : PortableSnapshot) (t : Thread TaskMessage) : Prop :=
  ∃ messages, inImportOrder (fun p : PortableTaskMessage =>
      (p.recordId, p.parentRecordId, p.createdAt)) s.taskMessages = .ok messages ∧
    ∀ p ∈ messages, (∃ row m, t.Copy TaskMessage.id (taskRecord p) row m) ∧
      t.ParentIs p.recordId p.parentRecordId

theorem importTaskMessages_ok (hs : db.taskThread.Sound TaskMessage.id)
    (hrecords : (s.taskMessages.map (·.recordId)).Nodup)
    (h : db.importTaskMessages s = .ok db') :
    ∃ thread, db' = { db with taskThread := thread } ∧ TaskMessagesIn s thread := by
  obtain ⟨messages, horder, h⟩ := bind_ok h
  obtain ⟨⟨imported, thread₁⟩, himported, h⟩ := bind_ok h
  obtain ⟨thread, hparents, h⟩ := bind_ok h
  cases h
  have hdistinct : Distinct (fun p : PortableTaskMessage => p.recordId) messages :=
    distinct_inImportOrder hrecords horder
  obtain ⟨hfst, hcopies⟩ := records_ok hs lawful_taskRecord hdistinct himported
  refine ⟨thread, rfl, messages, horder, fun p hp => ⟨?_, ?_⟩⟩
  · obtain ⟨row, m, hcopy⟩ := hcopies p hp
    obtain ⟨row', hcopy'⟩ := copy_parents (f := fun b => b) hcopy hparents
    exact ⟨row', m, hcopy'⟩
  · exact parents_ok (f := fun b => b) (by rw [hfst]; exact hdistinct) hparents p (by rw [hfst]; exact hp)

theorem TaskMessagesIn.importTaskMessages_eq (h : TaskMessagesIn s db.taskThread) :
    db.importTaskMessages s = .ok db := by
  obtain ⟨messages, horder, hplaced⟩ := h
  have hfirst : eachWith (fun t p => Thread.importRecord TaskMessage.id t (taskRecord p)) messages
      db.taskThread = .ok (messages.map (·, true), db.taskThread) := by
    refine eachWith_eq_self fun p hp => ?_
    obtain ⟨⟨row, m, hcopy⟩, -⟩ := hplaced p hp
    exact hcopy.importRecord_eq
  have hsecond : each (fun t (e : PortableTaskMessage × Bool) =>
      Thread.importParent "task" e.1.recordId e.1.parentRecordId e.2 t)
      (messages.map (·, true)) db.taskThread = .ok db.taskThread := by
    refine each_eq_self fun e he => ?_
    obtain ⟨p, hp, rfl⟩ := List.mem_map.1 he
    exact (hplaced p hp).2.importParent_eq _ _
  unfold Db.importTaskMessages
  rw [horder]
  show (eachWith (fun t p => Thread.importRecord TaskMessage.id t (taskRecord p)) messages
    db.taskThread >>= _) = _
  rw [hfirst]
  show (each (fun t (e : PortableTaskMessage × Bool) =>
    Thread.importParent "task" e.1.recordId e.1.parentRecordId e.2 t)
    (messages.map (·, true)) db.taskThread >>= _) = _
  rw [hsecond]
  rfl

end XpressClaw.Sync
