import XpressClaw.Sync.Again

/-!
# The stages of an import

Each stage of `import_transaction` writes tables of its own.  `importTransaction_stages` takes
an import apart into its stages and says for each of them which tables it writes, so that what
an import does with one table is read off the stage that writes it.
-/

namespace XpressClaw.Sync

open Lib

variable {texts : Texts} {s : PortableSnapshot} {db db' : Db}

theorem importConversationMessage_settling {p : PortableConversationMessage} {r : Bool × List ℕ}
    (h : db.importConversationMessage p = .ok (r, db')) : Settling db db' := by
  unfold Db.importConversationMessage at h
  obtain ⟨⟨metadata, remote⟩, -, h⟩ := bind_ok h
  obtain ⟨⟨existed, chat⟩, -, h⟩ := bind_ok h
  dsimp only at h
  split at h
  · cases h
  · obtain ⟨⟨stopped, db₁⟩, hsettle, h⟩ := bind_ok h
    cases h
    have hchat : Settling db { db with chatThread := chat } :=
      ⟨⟨_, _, _, _, _, rfl⟩, fun _ h => h, fun _ h => h⟩
    exact hchat.trans (settleDeletion_ok hsettle).1

/-- The import of messages writes messages, their turns and their times. -/
theorem importConversationMessages_settling {stopped : List ℕ}
    (h : db.importConversationMessages texts s = .ok (stopped, db')) :
    ∃ db₁, Settling db db₁ ∧ db' = db₁.touched texts s := by
  obtain ⟨messages, -, h⟩ := bind_ok h
  obtain ⟨⟨imported, db₂⟩, himported, h⟩ := bind_ok h
  obtain ⟨chat, -, h⟩ := bind_ok h
  cases h
  have heach := (eachWith_ok himported).1
  have hsettling : Settling db db₂ := by
    refine each_invariant (I := fun d => Settling db d) (fun d p d' _ hd hstep => ?_)
      (.refl db) heach
    obtain ⟨b, hb⟩ := map_snd_ok hstep
    exact hd.trans (importConversationMessage_settling hb)
  exact ⟨{ db₂ with chatThread := chat },
    hsettling.trans ⟨⟨_, _, _, _, _, rfl⟩, fun _ h => h, fun _ h => h⟩, rfl⟩

/-- An import, stage by stage. -/
structure Stages (texts : Texts) (s : PortableSnapshot) (stopped : List ℕ) (db db' : Db) where
  tasks : List PortableTask
  normal : normalizeAll texts s.tasks = .ok tasks
  /-- After the project, its Agents, its Conversations and its tasks. -/
  first : Db
  first_eq : first = { ((db.importProject s.project).importAgents s).importConversations s with
    tasks := writeTasks s.project.id tasks db.tasks
    dependencies := Table.upsertAll (fun d => d) (fun d => d) (fun d => d) (fun _ r => r)
      s.taskDependencies db.dependencies }
  taskThread : Thread TaskMessage
  taskMessages : first.importTaskMessages s = .ok { first with taskThread := taskThread }
  workflows : List Workflow
  projectWorkflows : List (String × String)
  /-- After the messages of tasks and the workflows. -/
  second : Db
  second_eq : second = { first with
    taskThread := taskThread
    workflows := workflows
    projectWorkflows := projectWorkflows }
  importWorkflows : Db.importWorkflows texts { first with taskThread := taskThread } s = .ok second
  notes : List MemoryNote
  tags : List MemoryTag
  embeddings : List MemoryEmbedding
  links : List MemoryLink
  /-- After the memory. -/
  third : Db
  third_eq : third = { second with
    notes := notes
    tags := tags
    embeddings := embeddings
    links := links }
  importMemory : second.importMemory texts s = .ok third
  importMessages : third.importConversationMessages texts s = .ok (stopped, db')

theorem importTransaction_stages {allow : Bool} {stopped : List ℕ}
    (h : db.importTransaction texts s allow = .ok (stopped, db')) :
    Nonempty (Stages texts s stopped db db') := by
  unfold Db.importTransaction at h
  obtain ⟨_, -, h⟩ := bind_ok h
  obtain ⟨_, -, h⟩ := bind_ok h
  obtain ⟨_, -, h⟩ := bind_ok h
  obtain ⟨db₁, htasks, h⟩ := bind_ok h
  obtain ⟨_, -, h⟩ := bind_ok h
  obtain ⟨db₂, htaskMessages, h⟩ := bind_ok h
  obtain ⟨db₃, hworkflows, h⟩ := bind_ok h
  obtain ⟨db₄, hmemory, hmessages⟩ := bind_ok h
  obtain ⟨tasks, hnormal, htasks⟩ := bind_ok htasks
  have hthread : ∃ thread, db₂ = { db₁ with taskThread := thread } := by
    obtain ⟨_, -, h⟩ := bind_ok htaskMessages
    obtain ⟨_, -, h⟩ := bind_ok h
    obtain ⟨thread, -, h⟩ := bind_ok h
    exact ⟨thread, (Except.ok.inj h).symm⟩
  have hflows : ∃ rows links, db₃ = { db₂ with workflows := rows, projectWorkflows := links } := by
    refine each_invariant (I := fun d : Db => ∃ rows links,
      d = { db₂ with workflows := rows, projectWorkflows := links })
      (fun d w d' _ hd hstep => ?_) ⟨_, _, rfl⟩ hworkflows
    obtain ⟨_, -, hstep⟩ := bind_ok hstep
    obtain ⟨_, _, rfl⟩ := hd
    cases hstep
    exact ⟨_, _, rfl⟩
  have hnotes : ∃ notes tags embeddings links, db₄ = { db₃ with
      notes := notes
      tags := tags
      embeddings := embeddings
      links := links } := by
    obtain ⟨db₅, heach, h⟩ := bind_ok hmemory
    have hframe : ∃ notes tags embeddings, db₅ = { db₃ with
        notes := notes, tags := tags, embeddings := embeddings } := by
      refine each_invariant (I := fun d : Db => ∃ notes tags embeddings,
        d = { db₃ with notes := notes, tags := tags, embeddings := embeddings })
        (fun d n d' _ hd hstep => ?_) ⟨_, _, _, rfl⟩ heach
      obtain ⟨_, -, hstep⟩ := bind_ok hstep
      obtain ⟨_, _, _, rfl⟩ := hd
      cases hstep
      exact ⟨_, _, _, rfl⟩
    obtain ⟨notes, tags, embeddings, rfl⟩ := hframe
    cases h
    exact ⟨_, _, _, _, rfl⟩
  obtain ⟨thread, rfl⟩ := hthread
  obtain ⟨rows, projectWorkflows, rfl⟩ := hflows
  obtain ⟨notes, tags, embeddings, links, rfl⟩ := hnotes
  exact ⟨⟨tasks, hnormal, db₁, (Except.ok.inj htasks).symm, thread, htaskMessages, rows,
    projectWorkflows, _, rfl, hworkflows, notes, tags, embeddings, links, _, rfl, hmemory,
    hmessages⟩⟩

end XpressClaw.Sync
