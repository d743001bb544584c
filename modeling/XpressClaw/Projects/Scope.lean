import XpressClaw.Projects.Effects

/-!
# Project scope

Tasks, agents and conversations each name a Project or none.  A task and its parent always
name the same; an agent or a conversation that names one ties its tasks to it, and a
conversation that names one ties its agents to it.  An agent or a conversation without a
Project ties nothing.

* `Keyed` — ids are unique and references point at rows.
* `Scoped` — the four ties.
* `Effect.scope` — every write keeps both; `Scope.move` is the case of `assign_agent`.
-/

namespace XpressClaw.Projects

open Lib Relation

/-- Ids are unique, and parents, conversations and participants refer to rows. -/
structure Keyed (db : Db) : Prop where
  tasks : (db.tasks.map (·.id)).Nodup
  conversations : (db.conversations.map (·.id)).Nodup
  parents : ∀ t ∈ db.tasks, ∀ p, t.parentTaskId = some p → p ∈ db.tasks.map (·.id)
  linked : ∀ t ∈ db.tasks, ∀ c, t.conversationId = some c → c ∈ db.conversations.map (·.id)
  joined : ∀ m ∈ db.participants, m.conversationId ∈ db.conversations.map (·.id)

/-- The task's agent, if it is assigned to one and that one has a project, has the task's. -/
def AgentTied (db : Db) (t : Task) : Prop :=
  ∀ a, t.agentId = some a → a ≠ "" → ∀ r, db.agent? a = some r →
    ∀ q, r.projectId = some q → t.projectId = some q

/-- The task's conversation, if it has a project, has the task's. -/
def ConversationTied (db : Db) (t : Task) : Prop :=
  ∀ c ∈ db.conversations, t.conversationId = some c.id →
    ∀ q, c.projectId = some q → t.projectId = some q

/-- An agent in a conversation with a project belongs to that project. -/
def MemberTied (db : Db) (m : Conversations.Participant) : Prop :=
  m.participantType = "agent" → ∀ c ∈ db.conversations, c.id = m.conversationId →
    ∀ q, c.projectId = some q → ∃ a, db.agent? m.participantId = some a ∧ a.projectId = some q

/-- Project scope is consistent. -/
structure Scoped (db : Db) : Prop where
  parent : ∀ t ∈ db.tasks, ∀ p ∈ db.tasks, t.parentTaskId = some p.id → t.projectId = p.projectId
  agent : ∀ t ∈ db.tasks, AgentTied db t
  conversation : ∀ t ∈ db.tasks, ConversationTied db t
  participant : ∀ m ∈ db.participants, MemberTied db m

/-- The invariant. -/
structure Scope (db : Db) : Prop where
  keyed : Keyed db
  ties : Scoped db

namespace Scope

variable {db : Db}

theorem task? (h : Scope db) {t : Task} (ht : t ∈ db.tasks) : db.task? t.id = some t :=
  Table.get_eq_some_of_mem h.keyed.tasks ht

theorem conversation? (h : Scope db) {c : Conversations.Conversation} (hc : c ∈ db.conversations) :
    db.conversation? c.id = some c :=
  Table.get_eq_some_of_mem h.keyed.conversations hc

theorem mem_conversation_ids {id : String} {c : Conversations.Conversation}
    (h : db.conversation? id = some c) : id ∈ db.conversations.map (·.id) :=
  List.mem_map.2 ⟨c, Table.mem_of_get h, Table.key_of_get h⟩

/-! ## Tasks -/

theorem insertTask (h : Scope db) {t : Task} (hfits : Fits db t) :
    Scope { db with tasks := db.tasks ++ [t] } := by
  have hparentMem : ∀ p, t.parentTaskId = some p → p ∈ db.tasks.map (·.id) := by
    intro p hp
    obtain ⟨r, hr, -⟩ := hfits.parent p hp
    exact mem_ids_of_task? hr
  have hrows : ∀ t' ∈ db.tasks ++ [t], t' ∈ db.tasks ∨ t' = t := by simp
  refine ⟨⟨?_, h.keyed.conversations, ?_, ?_, h.keyed.joined⟩, ⟨?_, ?_, ?_, h.ties.participant⟩⟩
  · rw [List.map_append]
    exact List.Nodup.append h.keyed.tasks (List.nodup_singleton _) (by simpa using hfits.fresh)
  · intro t' ht' p hp
    rw [List.map_append]
    apply List.mem_append_left
    rcases hrows t' ht' with ht' | rfl
    · exact h.keyed.parents t' ht' p hp
    · exact hparentMem p hp
  · intro t' ht' c hc
    rcases hrows t' ht' with ht' | rfl
    · exact h.keyed.linked t' ht' c hc
    · obtain ⟨r, hr, -⟩ := hfits.conversation c hc
      exact mem_conversation_ids hr
  · intro t' ht' p hp heq
    rcases hrows t' ht' with hold | rfl
    · rcases hrows p hp with hp₀ | rfl
      · exact h.ties.parent t' hold p hp₀ heq
      · exact absurd (h.keyed.parents t' hold _ heq) hfits.fresh
    · rcases hrows p hp with hp₀ | rfl
      · obtain ⟨r, hr, hproject⟩ := hfits.parent _ heq
        rw [h.task? hp₀] at hr
        rw [Option.some.inj hr]
        exact hproject.symm
      · rfl
  · intro t' ht'
    rcases hrows t' ht' with ht' | rfl
    · exact h.ties.agent t' ht'
    · intro a ha _ r hr q hq
      obtain ⟨r', hr', hproject⟩ := hfits.agent a ha
      have hr : db.agent? a = some r := hr
      rw [hr'] at hr
      exact hproject q (Option.some.inj hr ▸ hq)
  · intro t' ht'
    rcases hrows t' ht' with ht' | rfl
    · exact h.ties.conversation t' ht'
    · intro c hc hid q hq
      obtain ⟨r, hr, hproject⟩ := hfits.conversation _ hid
      rw [h.conversation? hc] at hr
      exact hproject q (Option.some.inj hr ▸ hq)

/-- An update that leaves ids alone and gives no task a parent keeps the invariant when it treats
parents and children alike and ties the rows it touches. -/
theorem updateTasks (h : Scope db) {w : Task → Bool} {set : Task → Task}
    (hid : ∀ t, (set t).id = t.id)
    (hparent : ∀ t p, (set t).parentTaskId = some p → t.parentTaskId = some p)
    (hproject : ∀ t ∈ db.tasks, ∀ p ∈ db.tasks, t.parentTaskId = some p.id →
      (if w t then set t else t).projectId = (if w p then set p else p).projectId)
    (htied : ∀ t ∈ db.tasks, w t = true →
      (∀ c, (set t).conversationId = some c → c ∈ db.conversations.map (·.id)) ∧
        AgentTied db (set t) ∧ ConversationTied db (set t)) :
    Scope (db.updateTasks w set) := by
  have hids : (db.updateTasks w set).tasks.map (·.id) = db.tasks.map (·.id) := ids_updateTasks hid
  have hrow : ∀ t' ∈ (db.updateTasks w set).tasks, ∃ t ∈ db.tasks,
      t' = if w t then set t else t := by
    intro t' ht'
    obtain ⟨t, ht, rfl⟩ := List.mem_map.1 ht'
    exact ⟨t, ht, rfl⟩
  have hkept : ∀ t, (if w t then set t else t).id = t.id ∧ ∀ p,
      (if w t then set t else t).parentTaskId = some p → t.parentTaskId = some p := by
    intro t
    by_cases hw : w t
    · simpa [hw, hid] using hparent t
    · simp [hw]
  refine ⟨⟨?_, h.keyed.conversations, ?_, ?_, h.keyed.joined⟩, ⟨?_, ?_, ?_, h.ties.participant⟩⟩
  · rw [hids]
    exact h.keyed.tasks
  · intro t' ht' p hp
    obtain ⟨t, ht, rfl⟩ := hrow t' ht'
    rw [hids]
    exact h.keyed.parents t ht p ((hkept t).2 p hp)
  · intro t' ht' c hc
    obtain ⟨t, ht, rfl⟩ := hrow t' ht'
    by_cases hw : w t
    · rw [if_pos hw] at hc
      exact (htied t ht hw).1 c hc
    · rw [if_neg hw] at hc
      exact h.keyed.linked t ht c hc
  · intro t' ht' p' hp' heq
    obtain ⟨t, ht, rfl⟩ := hrow t' ht'
    obtain ⟨p, hp, rfl⟩ := hrow p' hp'
    rw [(hkept p).1] at heq
    exact hproject t ht p hp ((hkept t).2 _ heq)
  · intro t' ht'
    obtain ⟨t, ht, rfl⟩ := hrow t' ht'
    by_cases hw : w t
    · rw [if_pos hw]
      exact (htied t ht hw).2.1
    · rw [if_neg hw]
      exact h.ties.agent t ht
  · intro t' ht'
    obtain ⟨t, ht, rfl⟩ := hrow t' ht'
    by_cases hw : w t
    · rw [if_pos hw]
      exact (htied t ht hw).2.2
    · rw [if_neg hw]
      exact h.ties.conversation t ht

theorem inHierarchy_parent {taskId : String} {t p : Task} (ht : t ∈ db.tasks)
    (hparent : t.parentTaskId = some p.id) :
    db.inHierarchy taskId t.id = db.inHierarchy taskId p.id := by
  have hlink : Graph.Edge db.taskLinks t.id p.id ∧ Graph.Edge db.taskLinks p.id t.id := by
    constructor <;> exact List.mem_flatMap.2 ⟨t, ht, by simp [hparent]⟩
  rw [Bool.eq_iff_iff, Db.inHierarchy, Db.inHierarchy, Graph.reaches_iff, Graph.reaches_iff]
  exact ⟨fun hr => hr.tail hlink.1, fun hr => hr.tail hlink.2⟩

/-- What a task that conflicts with nothing is tied to. -/
theorem tied_of_not_conflicts (h : Scope db) {projectId : String} {t : Task}
    (hno : db.conflicts projectId t = false) :
    (∀ q, t.projectId = some q → q = projectId) ∧
      (∀ a r, t.agentId = some a → db.agent? a = some r → ∀ q, r.projectId = some q →
        q = projectId) ∧
      (∀ c ∈ db.conversations, t.conversationId = some c.id → ∀ q, c.projectId = some q →
        q = projectId) := by
  simp only [Db.conflicts, Bool.or_eq_false_iff] at hno
  obtain ⟨⟨hproject, hagent⟩, hconversation⟩ := hno
  refine ⟨fun q hq => ?_, fun a r ha hr q hq => ?_, fun c hc hid q hq => ?_⟩
  · simpa [hq] using hproject
  · simpa [ha, hr, hq] using hagent
  · simpa [hid, h.conversation? hc, hq] using hconversation

theorem adopt (h : Scope db) {taskId projectId : String}
    (hno : ∀ t ∈ db.tasks, db.inHierarchy taskId t.id = true → db.conflicts projectId t = false) :
    Scope (db.adopt taskId projectId) := by
  -- afterwards everything in the hierarchy has the project
  have hproject : ∀ t ∈ db.tasks, (if t.projectId = none && db.inHierarchy taskId t.id then
      { t with projectId := some projectId } else t).projectId =
      if db.inHierarchy taskId t.id then some projectId else t.projectId := by
    intro t ht
    by_cases hin : db.inHierarchy taskId t.id = true
    · cases hp : t.projectId with
      | none => simp [hin]
      | some q =>
        have hq : q = projectId := (h.tied_of_not_conflicts (hno t ht hin)).1 q hp
        simp [hin, hp, hq]
    · simp [hin]
  refine h.updateTasks (fun _ => rfl) (fun _ _ h => h) (fun t ht p hp hparent => ?_)
    fun t ht hw => ?_
  · rw [hproject t ht, hproject p hp, inHierarchy_parent ht hparent,
      h.ties.parent t ht p hp hparent]
  · have hin : db.inHierarchy taskId t.id = true := by
      simp only [Bool.and_eq_true] at hw
      exact hw.2
    obtain ⟨-, hagent, hconversation⟩ := h.tied_of_not_conflicts (hno t ht hin)
    refine ⟨fun c hc => h.keyed.linked t ht c hc, fun a ha _ r hr q hq => ?_,
      fun c hc hid q hq => ?_⟩
    · exact congrArg some (hagent a r ha hr q hq).symm
    · exact congrArg some (hconversation c hc hid q hq).symm

theorem setAgent (h : Scope db) {taskId agentId : String} (ha : Assignable db taskId agentId) :
    Scope (db.setAgent taskId agentId) := by
  refine h.updateTasks (fun _ => rfl) (fun _ _ h => h) (fun t ht p hp hparent => ?_)
    fun t ht hw => ?_
  · have hsame : ∀ t : Task, (if t.id = taskId then { t with agentId := some agentId }
        else t).projectId = t.projectId := by
      intro t
      by_cases hid : t.id = taskId <;> simp [hid]
    simpa [hsame] using h.ties.parent t ht p hp hparent
  · have hid : t.id = taskId := by simpa using hw
    refine ⟨fun c hc => h.keyed.linked t ht c hc, fun a hagent hne r hr q hq => ?_,
      h.ties.conversation t ht⟩
    obtain rfl : agentId = a := Option.some.inj hagent
    rcases ha with hempty | ⟨r', hr', hproject⟩
    · exact absurd hempty hne
    · have hr : db.agent? agentId = some r := hr
      rw [hr'] at hr
      exact hproject t (hid ▸ h.task? ht) q (Option.some.inj hr ▸ hq)

theorem setStatus (h : Scope db) (taskId : String) (status : Tasks.TaskStatus) :
    Scope (db.updateTasks (·.id = taskId) fun t => { t with status := status }) := by
  refine h.updateTasks (fun _ => rfl) (fun _ _ h => h) (fun t ht p hp hparent => ?_)
    fun t ht _ => ⟨h.keyed.linked t ht, h.ties.agent t ht, h.ties.conversation t ht⟩
  have hsame : ∀ t : Task, (if t.id = taskId then { t with status := status }
      else t).projectId = t.projectId := by
    intro t
    by_cases hid : t.id = taskId <;> simp [hid]
  simpa [hsame] using h.ties.parent t ht p hp hparent

theorem releaseChildParentReviews (h : Scope db) (taskId : String) (released : List String) :
    Scope (db.releaseChildParentReviews taskId released) := by
  refine h.updateTasks (fun _ => rfl) (fun _ _ hp => nomatch hp) (fun t ht p hp hparent => ?_)
    fun t ht _ => ⟨h.keyed.linked t ht, h.ties.agent t ht, h.ties.conversation t ht⟩
  have hsame : ∀ t : Task, (if t.parentTaskId = some taskId && released.contains t.id then
      { t with parentTaskId := none } else t).projectId = t.projectId := by
    intro t
    split <;> rfl
  exact (hsame t).trans ((h.ties.parent t ht p hp hparent).trans (hsame p).symm)

theorem setConversation (h : Scope db) {taskId conversationId projectId : String}
    (hconversation : ∃ c, db.conversation? conversationId = some c ∧ c.projectId = some projectId)
    (htask : ∃ t, db.task? taskId = some t ∧ t.projectId = some projectId) :
    Scope (db.updateTasks (·.id = taskId) fun t =>
      { t with conversationId := some conversationId, projectId := some projectId }) := by
  obtain ⟨c, hc, hcproject⟩ := hconversation
  obtain ⟨t₀, ht₀, hproject⟩ := htask
  have hrow : ∀ t ∈ db.tasks, t.id = taskId → t.projectId = some projectId := by
    intro t ht hid
    have hget := h.task? ht
    rw [hid, ht₀] at hget
    rw [← Option.some.inj hget]
    exact hproject
  have hsame : ∀ t ∈ db.tasks, (if t.id = taskId then
      { t with conversationId := some conversationId, projectId := some projectId }
      else t).projectId = t.projectId := by
    intro t ht
    by_cases hid : t.id = taskId
    · simp [hid, hrow t ht hid]
    · simp [hid]
  refine h.updateTasks (fun _ => rfl) (fun _ _ h => h) (fun t ht p hp hparent => ?_)
    fun t ht hw => ?_
  · simpa [hsame t ht, hsame p hp] using h.ties.parent t ht p hp hparent
  · have hid : t.id = taskId := by simpa using hw
    refine ⟨fun c' hc' => ?_, fun a ha hne r hr q hq => ?_, fun c' hc' hid' q hq => ?_⟩
    · obtain rfl : conversationId = c' := Option.some.inj hc'
      exact mem_conversation_ids hc
    · have hold := h.ties.agent t ht a ha hne r hr q hq
      rw [hrow t ht hid] at hold
      exact hold
    · have hc'' : db.conversation? conversationId = some c' := by
        rw [Option.some.inj hid']
        exact h.conversation? hc'
      rw [hc] at hc''
      rw [← Option.some.inj hc'', hcproject] at hq
      exact hq

theorem removeTask (h : Scope db) (taskId : String) : Scope (db.removeTask taskId) := by
  have hrow : ∀ t' ∈ (db.removeTask taskId).tasks, ∃ t ∈ db.tasks, t.id ≠ taskId ∧
      t'.id = t.id ∧ t'.projectId = t.projectId ∧ t'.agentId = t.agentId ∧
      t'.conversationId = t.conversationId ∧
      ∀ p, t'.parentTaskId = some p → t.parentTaskId = some p ∧ p ≠ taskId := by
    intro t' ht'
    obtain ⟨t, ht, hne, heq, hparent⟩ := mem_removeTask ht'
    exact ⟨t, ht, hne, by rw [heq], by rw [heq], by rw [heq], by rw [heq], hparent⟩
  have hids : (db.removeTask taskId).tasks.map (·.id) =
      (db.tasks.filter (·.id ≠ taskId)).map (·.id) := ids_removeTask taskId
  refine ⟨⟨?_, h.keyed.conversations, ?_, ?_, h.keyed.joined⟩, ⟨?_, ?_, ?_, h.ties.participant⟩⟩
  · rw [hids]
    exact h.keyed.tasks.sublist (List.filter_sublist.map _)
  · intro t' ht' p hp
    obtain ⟨t, ht, -, -, -, -, -, hparent⟩ := hrow t' ht'
    obtain ⟨hp', hne⟩ := hparent p hp
    obtain ⟨r, hr, rfl⟩ := List.mem_map.1 (h.keyed.parents t ht p hp')
    rw [hids]
    exact List.mem_map_of_mem (List.mem_filter.2 ⟨hr, by simpa using hne⟩)
  · intro t' ht' c hc
    obtain ⟨t, ht, -, -, -, -, hconversation, -⟩ := hrow t' ht'
    exact h.keyed.linked t ht c (hconversation ▸ hc)
  · intro t' ht' p' hp' heq
    obtain ⟨t, ht, -, -, hproject, -, -, hparent⟩ := hrow t' ht'
    obtain ⟨p, hp, -, hpid, hpproject, -, -, -⟩ := hrow p' hp'
    rw [hproject, hpproject]
    exact h.ties.parent t ht p hp (hpid ▸ (hparent _ heq).1)
  · intro t' ht' a ha hne r hr q hq
    obtain ⟨t, ht, -, -, hproject, hagent, -, -⟩ := hrow t' ht'
    rw [hproject]
    exact h.ties.agent t ht a (hagent ▸ ha) hne r hr q hq
  · intro t' ht' c hc hid q hq
    obtain ⟨t, ht, -, -, hproject, -, hconversation, -⟩ := hrow t' ht'
    rw [hproject]
    exact h.ties.conversation t ht c hc (hconversation ▸ hid) q hq

/-! ## Conversations -/

theorem insertConversation (h : Scope db) {c : Conversations.Conversation}
    (hfresh : c.id ∉ db.conversations.map (·.id)) :
    Scope { db with conversations := db.conversations ++ [c] } := by
  have hgrow : ∀ id ∈ db.conversations.map (·.id), id ∈ (db.conversations ++ [c]).map (·.id) := by
    intro id hid
    rw [List.map_append]
    exact List.mem_append_left _ hid
  refine ⟨⟨h.keyed.tasks, ?_, h.keyed.parents, ?_, ?_⟩, ⟨h.ties.parent, h.ties.agent, ?_, ?_⟩⟩
  · rw [List.map_append]
    exact List.Nodup.append h.keyed.conversations (List.nodup_singleton _) (by simpa using hfresh)
  · exact fun t ht c' hc' => hgrow _ (h.keyed.linked t ht c' hc')
  · exact fun m hm => hgrow _ (h.keyed.joined m hm)
  · intro t ht c' hc' hid
    rcases List.mem_append.1 hc' with hc' | hc'
    · exact h.ties.conversation t ht c' hc' hid
    · obtain rfl := List.mem_singleton.1 hc'
      exact absurd (h.keyed.linked t ht _ hid) hfresh
  · intro m hm hagent c' hc' hid
    rcases List.mem_append.1 hc' with hc' | hc'
    · exact h.ties.participant m hm hagent c' hc' hid
    · obtain rfl := List.mem_singleton.1 hc'
      exact absurd (hid ▸ h.keyed.joined m hm) hfresh

theorem join (h : Scope db) {m : Conversations.Participant}
    (hconversation : ∃ c, db.conversation? m.conversationId = some c ∧
      (m.participantType = "agent" → ∀ q, c.projectId = some q →
        ∃ a, db.agent? m.participantId = some a ∧ a.projectId = some q)) :
    Scope { db with participants := db.participants ++ [m] } := by
  obtain ⟨c, hc, htied⟩ := hconversation
  refine ⟨⟨h.keyed.tasks, h.keyed.conversations, h.keyed.parents, h.keyed.linked, ?_⟩,
    ⟨h.ties.parent, h.ties.agent, h.ties.conversation, ?_⟩⟩
  · intro m' hm'
    rcases List.mem_append.1 hm' with hm' | hm'
    · exact h.keyed.joined m' hm'
    · obtain rfl := List.mem_singleton.1 hm'
      exact mem_conversation_ids hc
  · intro m' hm'
    rcases List.mem_append.1 hm' with hm' | hm'
    · exact h.ties.participant m' hm'
    · obtain rfl := List.mem_singleton.1 hm'
      intro hagent c' hc' hid q hq
      have hget := h.conversation? hc'
      rw [hid, hc] at hget
      exact htied hagent q (Option.some.inj hget ▸ hq)

theorem leave (h : Scope db) (m : Conversations.Participant) :
    Scope (db.removeParticipant m.conversationId m.participantType m.participantId) :=
  ⟨⟨h.keyed.tasks, h.keyed.conversations, h.keyed.parents, h.keyed.linked,
      fun m' hm' => h.keyed.joined m' (List.mem_of_mem_filter hm')⟩,
    ⟨h.ties.parent, h.ties.agent, h.ties.conversation,
      fun m' hm' => h.ties.participant m' (List.mem_of_mem_filter hm')⟩⟩

theorem removeConversation (h : Scope db) (id : String) :
    Scope { db.updateTasks (·.conversationId = some id)
        (fun t => { t with conversationId := none }) with
      conversations := db.conversations.filter (·.id ≠ id)
      participants := db.participants.filter (·.conversationId ≠ id) } := by
  have hcleared : Scope (db.updateTasks (·.conversationId = some id)
      fun t => { t with conversationId := none }) := by
    refine h.updateTasks (fun _ => rfl) (fun _ _ h => h) (fun t ht p hp hparent => ?_)
      fun t ht _ => ⟨by simp, h.ties.agent t ht, fun c _ hid => by cases hid⟩
    have hsame : ∀ t : Task, (if t.conversationId = some id then { t with conversationId := none }
        else t).projectId = t.projectId := by
      intro t
      by_cases hid : t.conversationId = some id <;> simp [hid]
    simpa [hsame] using h.ties.parent t ht p hp hparent
  -- no row refers to the conversation any more
  have hlinked : ∀ t ∈ (db.updateTasks (·.conversationId = some id)
      fun t => { t with conversationId := none }).tasks, t.conversationId ≠ some id := by
    intro t' ht'
    obtain ⟨t, -, rfl⟩ := List.mem_map.1 ht'
    by_cases hid : t.conversationId = some id <;> simp [hid]
  have hleft : ∀ c ∈ db.conversations.map (·.id), c ≠ id →
      c ∈ (db.conversations.filter (·.id ≠ id)).map (·.id) := by
    intro c hc hne
    obtain ⟨r, hr, rfl⟩ := List.mem_map.1 hc
    exact List.mem_map_of_mem (List.mem_filter.2 ⟨hr, by simpa using hne⟩)
  refine ⟨⟨hcleared.keyed.tasks, ?_, hcleared.keyed.parents, ?_, ?_⟩,
    ⟨hcleared.ties.parent, hcleared.ties.agent, ?_, ?_⟩⟩
  · exact h.keyed.conversations.sublist (List.filter_sublist.map _)
  · intro t ht c hc
    exact hleft c (hcleared.keyed.linked t ht c hc) fun heq => hlinked t ht (heq ▸ hc)
  · intro m hm
    obtain ⟨hm, hne⟩ := List.mem_filter.1 hm
    exact hleft _ (h.keyed.joined m hm) (by simpa using hne)
  · intro t ht c hc
    exact hcleared.ties.conversation t ht c (List.mem_of_mem_filter hc)
  · intro m hm hagent c hc
    exact h.ties.participant m (List.mem_of_mem_filter hm) hagent c (List.mem_of_mem_filter hc)

/-! ## `assign_agent` -/

section Move

variable {projectId agentId : String}

/-- A conversation after the first update. -/
def moved (db : Db) (projectId agentId : String) (c : Conversations.Conversation) :
    Conversations.Conversation :=
  if db.agentParticipates c.id agentId then { c with projectId := some projectId } else c

theorem moved_id (c : Conversations.Conversation) : (moved db projectId agentId c).id = c.id := by
  unfold moved
  split <;> rfl

theorem moved_projectId (c : Conversations.Conversation) :
    (moved db projectId agentId c).projectId =
      if db.agentParticipates c.id agentId then some projectId else c.projectId := by
  unfold moved
  split <;> rfl

/-- The second update gives every task its `destination_project_id`. -/
theorem moveTasks_projectId (t : Task) :
    (if t.agentId = some agentId || (t.conversationId.bind
        (db.moveConversations projectId agentId).conversation?).any (·.projectId = some projectId)
      then { t with projectId := some projectId } else t).projectId =
      db.destination projectId agentId t := by
  have hget : ∀ id, (db.moveConversations projectId agentId).conversation? id =
      (db.conversation? id).map (moved db projectId agentId) := fun id => Table.get_map moved_id
  have hany : (t.conversationId.bind (db.moveConversations projectId agentId).conversation?).any
      (·.projectId = some projectId) = (t.conversationId.bind db.conversation?).any
        (fun c => c.projectId = some projectId || db.agentParticipates c.id agentId) := by
    cases t.conversationId with
    | none => rfl
    | some id =>
      simp only [Option.bind_some, hget]
      cases db.conversation? id with
      | none => rfl
      | some c =>
        by_cases hp : db.agentParticipates c.id agentId = true
        · simp [moved_projectId, hp]
        · simp [moved_projectId, hp]
  rw [hany, Db.destination]
  by_cases hagent : t.agentId = some agentId
  · simp [hagent]
  · simp only [hagent, decide_false, Bool.false_or, false_or]
    split <;> rfl

theorem destination_of_conversation (h : Scope db) {t : Task} {c : Conversations.Conversation}
    (hc : c ∈ db.conversations) (hid : t.conversationId = some c.id)
    (hmoves : c.projectId = some projectId ∨ db.agentParticipates c.id agentId = true) :
    db.destination projectId agentId t = some projectId := by
  rw [Db.destination, if_pos]
  refine Or.inr ?_
  rw [hid, Option.bind_some, h.conversation? hc]
  simpa using hmoves

/-- A task that stays with its project, or goes to the new one because of its agent or its
conversation. -/
theorem destination_cases (db : Db) (projectId agentId : String) (t : Task) :
    db.destination projectId agentId t = t.projectId ∨
      db.destination projectId agentId t = some projectId ∧ (t.agentId = some agentId ∨
        ∃ c, t.conversationId = some c.id ∧ db.conversation? c.id = some c ∧
          (c.projectId = some projectId ∨ db.agentParticipates c.id agentId = true)) := by
  unfold Db.destination
  split
  · rename_i hmoves
    refine Or.inr ⟨rfl, hmoves.imp_right fun hany => ?_⟩
    obtain ⟨c, hbind, hc⟩ := (Option.any_eq_true _ _).1 hany
    obtain ⟨id, hid, hget⟩ := Option.bind_eq_some_iff.1 hbind
    obtain rfl : c.id = id := Table.key_of_get hget
    exact ⟨c, hid, hget, by simpa using hc⟩
  · exact Or.inl rfl

theorem moveAgent_agent? (id : String) :
    (db.moveAgent projectId agentId).agent? id = (db.agent? id).map fun a =>
      if id = agentId then { a with projectId := some projectId } else a := by
  have hkey : ∀ a : Tasks.Agent, ({ a with projectId := some projectId } : Tasks.Agent).id = a.id :=
    fun _ => rfl
  exact Table.get_modify hkey

/-- Another agent in a conversation of the agent is only possible where nothing moves, and
there the agent would be in the project already. -/
theorem alone_of_movable (h : Scope db) (hmovable : Movable db projectId agentId)
    {c : Conversations.Conversation} (hc : c ∈ db.conversations)
    (hin : db.agentParticipates c.id agentId = true) {m : Conversations.Participant}
    (hm : m ∈ db.participants) (hagent : m.participantType = "agent")
    (hid : c.id = m.conversationId) : m.participantId = agentId := by
  by_contra hne
  have hshared := hmovable.unshared
  simp only [Db.sharedConversation, List.any_eq_false, Bool.and_eq_true, not_and] at hshared
  -- the conversation is in the project, so the agent is a member of it who belongs to it
  have hproject : c.projectId = some projectId := by
    by_contra hother
    refine hshared c hc ⟨hin, by simpa using hother⟩ (List.any_eq_true.2 ⟨m, hm, ?_⟩)
    simp [hid, hagent, hne]
  have hmem : (⟨c.id, "agent", agentId⟩ : Conversations.Participant) ∈ db.participants := by
    simpa [Db.agentParticipates] using hin
  obtain ⟨a, ha, haproject⟩ := h.ties.participant _ hmem rfl c hc rfl _ hproject
  obtain ⟨a', ha', hnot⟩ := hmovable.agent
  have ha : db.agent? agentId = some a := ha
  rw [ha] at ha'
  exact hnot (Option.some.inj ha' ▸ haproject)

theorem move_agentTied (h : Scope db) (hmovable : Movable db projectId agentId) {t : Task}
    (ht : t ∈ db.tasks) {a : String} (ha : t.agentId = some a) (hne : a ≠ "") {r : Tasks.Agent}
    (hr : (db.moveAgent projectId agentId).agent? a = some r) {q : String}
    (hq : r.projectId = some q) : db.destination projectId agentId t = some q := by
  rw [moveAgent_agent?] at hr
  obtain ⟨r₀, hr₀, rfl⟩ := Option.map_eq_some_iff.1 hr
  by_cases hself : a = agentId
  · rw [if_pos hself] at hq
    rw [← hq, Db.destination, if_pos (Or.inl (by rw [ha, hself]))]
  · rw [if_neg hself] at hq
    have hold := h.ties.agent t ht a ha hne r₀ hr₀ q hq
    rcases destination_cases db projectId agentId t with
      hstay | ⟨hgo, hagent | ⟨c, hid, hget, hproject | hin⟩⟩
    · rw [hstay, hold]
    · rw [ha] at hagent
      exact absurd (Option.some.inj hagent) hself
    · have htied := h.ties.conversation t ht c (Table.mem_of_get hget) hid _ hproject
      rw [hgo, ← htied, hold]
    · have hsplit := (hmovable.whole t ht).1
      simp only [Db.splitFromAgent, hid, Option.bind_some, hget, Option.any_some, hin,
        Bool.true_and, ha, ne_eq, hself, not_false_eq_true, decide_true, hr₀,
        Bool.not_eq_false', decide_eq_true_eq] at hsplit
      rw [hgo, ← hsplit, hq]

theorem move_conversationTied (h : Scope db) (hmovable : Movable db projectId agentId) {t : Task}
    (ht : t ∈ db.tasks) {c : Conversations.Conversation} (hc : c ∈ db.conversations)
    (hid : t.conversationId = some c.id) {q : String}
    (hq : (moved db projectId agentId c).projectId = some q) :
    db.destination projectId agentId t = some q := by
  rw [moved_projectId] at hq
  by_cases hin : db.agentParticipates c.id agentId = true
  · rw [if_pos hin] at hq
    rw [← hq]
    exact h.destination_of_conversation hc hid (Or.inr hin)
  · rw [if_neg hin] at hq
    have hold := h.ties.conversation t ht c hc hid q hq
    rcases destination_cases db projectId agentId t with
      hstay | ⟨hgo, hagent | ⟨c', hid', hget, hmoves⟩⟩
    · rw [hstay, hold]
    · have hsplit := (hmovable.whole t ht).2
      simp only [Db.splitFromConversation, hagent, decide_true, Bool.true_and, hid,
        Option.bind_some, h.conversation? hc, Option.any_some, hin, Bool.not_false, Bool.and_true,
        decide_eq_false_iff_not, ne_eq, not_not] at hsplit
      rw [hgo, ← hsplit, hq]
    · have hsame : c' = c := by
        have hids : c'.id = c.id := Option.some.inj (hid'.symm.trans hid)
        rw [hids, h.conversation? hc] at hget
        exact (Option.some.inj hget).symm
      subst hsame
      rcases hmoves with hproject | hin'
      · rw [hgo, ← hproject, hq]
      · exact absurd hin' hin

theorem move_memberTied (h : Scope db) (hmovable : Movable db projectId agentId)
    {m : Conversations.Participant} (hm : m ∈ db.participants) (hagent : m.participantType = "agent")
    {c : Conversations.Conversation} (hc : c ∈ db.conversations) (hid : c.id = m.conversationId)
    {q : String} (hq : (moved db projectId agentId c).projectId = some q) :
    ∃ a, (db.moveAgent projectId agentId).agent? m.participantId = some a ∧
      a.projectId = some q := by
  rw [moved_projectId] at hq
  by_cases hin : db.agentParticipates c.id agentId = true
  · rw [if_pos hin] at hq
    have hself := h.alone_of_movable hmovable hc hin hm hagent hid
    obtain ⟨a, ha, -⟩ := hmovable.agent
    refine ⟨{ a with projectId := some projectId }, ?_, hq⟩
    rw [moveAgent_agent?, hself, ha]
    simp
  · rw [if_neg hin] at hq
    have hother : m.participantId ≠ agentId := by
      intro hself
      apply hin
      have hmem : (⟨c.id, "agent", agentId⟩ : Conversations.Participant) = m := by
        rw [hid, ← hagent, ← hself]
      simpa [Db.agentParticipates, hmem] using hm
    obtain ⟨a, ha, haproject⟩ := h.ties.participant m hm hagent c hc hid q hq
    refine ⟨a, ?_, haproject⟩
    rw [moveAgent_agent?, ha]
    simp [hother]

theorem move (h : Scope db) (hmovable : Movable db projectId agentId) :
    Scope (((db.moveConversations projectId agentId).moveTasks projectId agentId).moveAgent
      projectId agentId) := by
  have hconversation : ∀ c' ∈ (db.moveConversations projectId agentId).conversations,
      ∃ c ∈ db.conversations, c' = moved db projectId agentId c := by
    intro c' hc'
    obtain ⟨c, hc, rfl⟩ := List.mem_map.1 hc'
    exact ⟨c, hc, rfl⟩
  have hconversations : (db.moveConversations projectId agentId).conversations.map (·.id) =
      db.conversations.map (·.id) := by
    show (db.conversations.map (moved db projectId agentId)).map (·.id) = _
    rw [List.map_map]
    exact List.map_congr_left fun c _ => moved_id c
  have htask : ∀ t' ∈ ((db.moveConversations projectId agentId).moveTasks projectId
      agentId).tasks, ∃ t ∈ db.tasks, t'.id = t.id ∧ t'.parentTaskId = t.parentTaskId ∧
        t'.agentId = t.agentId ∧ t'.conversationId = t.conversationId ∧
        t'.projectId = db.destination projectId agentId t := by
    intro t' ht'
    obtain ⟨t, ht, rfl⟩ := List.mem_map.1 ht'
    refine ⟨t, ht, ?_, ?_, ?_, ?_, moveTasks_projectId t⟩ <;> split <;> rfl
  have htasks : ((db.moveConversations projectId agentId).moveTasks projectId agentId).tasks.map
      (·.id) = db.tasks.map (·.id) := by
    have hset : ∀ t : Task, ({ t with projectId := some projectId } : Task).id =
      t.id := fun _ => rfl
    exact ids_updateTasks hset
  refine ⟨⟨?_, ?_, ?_, ?_, ?_⟩, ⟨?_, ?_, ?_, ?_⟩⟩
  · show (((db.moveConversations projectId agentId).moveTasks projectId agentId).tasks.map
      (·.id)).Nodup
    rw [htasks]
    exact h.keyed.tasks
  · show ((db.moveConversations projectId agentId).conversations.map (·.id)).Nodup
    rw [hconversations]
    exact h.keyed.conversations
  · intro t' ht' p hp
    obtain ⟨t, ht, -, hparent, -⟩ := htask t' ht'
    show p ∈ ((db.moveConversations projectId agentId).moveTasks projectId agentId).tasks.map (·.id)
    rw [htasks]
    exact h.keyed.parents t ht p (hparent ▸ hp)
  · intro t' ht' c hc
    obtain ⟨t, ht, -, -, -, hlink, -⟩ := htask t' ht'
    show c ∈ (db.moveConversations projectId agentId).conversations.map (·.id)
    rw [hconversations]
    exact h.keyed.linked t ht c (hlink ▸ hc)
  · intro m hm
    show m.conversationId ∈ (db.moveConversations projectId agentId).conversations.map (·.id)
    rw [hconversations]
    exact h.keyed.joined m hm
  · intro t' ht' p' hp' heq
    obtain ⟨t, ht, -, hparent, -, -, hproject⟩ := htask t' ht'
    obtain ⟨p, hp, hpid, -, -, -, hpproject⟩ := htask p' hp'
    have hlink : t.parentTaskId = some p.id := by rw [← hparent, heq, hpid]
    have hsplit := hmovable.hierarchy
    simp only [Db.splitsHierarchy, List.any_eq_false, Bool.not_eq_true] at hsplit
    have hpair := hsplit t ht
    simp only [hlink, Option.bind_some, h.task? hp, Option.any_some, Bool.and_eq_false_iff,
      Bool.or_eq_false_iff, decide_eq_false_iff_not, ne_eq, not_not] at hpair
    rw [hproject, hpproject]
    rcases hpair with hsame | ⟨hstay, hpstay⟩
    · exact hsame
    · rw [hstay, hpstay]
      exact h.ties.parent t ht p hp hlink
  · intro t' ht' a ha hne r hr q hq
    obtain ⟨t, ht, -, -, hagent, -, hproject⟩ := htask t' ht'
    rw [hproject]
    exact h.move_agentTied hmovable ht (hagent ▸ ha) hne hr hq
  · intro t' ht' c' hc' hid q hq
    obtain ⟨t, ht, -, -, -, hlink, hproject⟩ := htask t' ht'
    obtain ⟨c, hc, rfl⟩ := hconversation c' hc'
    rw [moved_id, hlink] at hid
    rw [hproject]
    exact h.move_conversationTied hmovable ht hc hid hq
  · intro m hm hagent c' hc' hid q hq
    obtain ⟨c, hc, rfl⟩ := hconversation c' hc'
    rw [moved_id] at hid
    exact h.move_memberTied hmovable hm hagent hc hid hq

end Move

end Scope

/-- Every write keeps project scope consistent. -/
theorem Effect.scope {db db' : Db} (h : Effect db db') (hdb : Scope db) : Scope db' := by
  cases h with
  | insertTask t hfits => exact hdb.insertTask hfits
  | connect work => exact ⟨⟨hdb.1.1, hdb.1.2, hdb.1.3, hdb.1.4, hdb.1.5⟩,
      ⟨hdb.2.1, hdb.2.2, hdb.2.3, hdb.2.4⟩⟩
  | depend taskId dependsOnId htask hdep hcycle =>
    exact ⟨⟨hdb.1.1, hdb.1.2, hdb.1.3, hdb.1.4, hdb.1.5⟩,
      ⟨hdb.2.1, hdb.2.2, hdb.2.3, hdb.2.4⟩⟩
  | adopt taskId projectId hno => exact hdb.adopt hno
  | setAgent taskId agentId hassignable => exact hdb.setAgent hassignable
  | setStatus taskId status => exact hdb.setStatus taskId status
  | release taskId released => exact hdb.releaseChildParentReviews taskId released
  | setConversation taskId conversationId projectId hconversation htask =>
    exact hdb.setConversation hconversation htask
  | removeTask taskId => exact hdb.removeTask taskId
  | insertConversation c hfresh => exact hdb.insertConversation hfresh
  | join m hconversation => exact hdb.join hconversation
  | leave m => exact hdb.leave m
  | removeConversation id => exact hdb.removeConversation id
  | move projectId agentId hmovable => exact hdb.move hmovable
  | forget projects => exact ⟨⟨hdb.1.1, hdb.1.2, hdb.1.3, hdb.1.4, hdb.1.5⟩,
      ⟨hdb.2.1, hdb.2.2, hdb.2.3, hdb.2.4⟩⟩

theorem step_scope {db : Db} {o : Op} (hdb : Scope db) : Scope (step db o) :=
  commit_keeps hdb fun _ h => (exec_effects h).keeps (fun _ _ heffect => heffect.scope) hdb

/-! ## Runs -/

/-- In every run from a database with any Projects and agents, project scope is consistent. -/
theorem project_scope_consistent (db : Db) (htasks : db.tasks = [])
    (hconversations : db.conversations = []) (hparticipants : db.participants = [])
    (ops : List Op) : Scoped (runOps step db ops) := by
  have hstart : Scope db :=
    ⟨⟨by simp [htasks], by simp [hconversations], by simp [htasks], by simp [htasks],
        by simp [hparticipants]⟩,
      ⟨by simp [htasks], by simp [htasks], by simp [htasks], by simp [hparticipants]⟩⟩
  have hend : Scope (runOps step db ops) :=
    runOps_invariant (I := Scope) (fun _ _ hdb => step_scope hdb) hstart ops
  exact hend.ties

/-- Two projects, an agent of one of them, and an agent without a project. -/
def office : Db :=
  { projects := [⟨"site", false⟩, ⟨"lab", false⟩]
    agents := [⟨"atlas", some "site"⟩, ⟨"scout", none⟩] }

/-- The agent moves with its conversation, its task and the task's child. -/
theorem project_scope_consistent_office :
    (runOps step office
      [ .createConversation ["atlas"] "chat",
        .createTask { agentId := some "atlas", conversationId := some "chat" } none "fix",
        .createTask { agentId := some "atlas", parentTaskId := some "fix" } none "test",
        .assignAgent "lab" "atlas" false false 0 ]).tasks.map (·.projectId) =
          [some "lab", some "lab"] ∧
      Scoped (runOps step office
        [ .createConversation ["atlas"] "chat",
          .createTask { agentId := some "atlas", conversationId := some "chat" } none "fix",
          .createTask { agentId := some "atlas", parentTaskId := some "fix" } none "test",
          .assignAgent "lab" "atlas" false false 0 ]) :=
  ⟨by decide +kernel, project_scope_consistent office rfl rfl rfl _⟩

/-- A task in a project may be linked to a conversation without one, and assigned to an agent
without one. -/
theorem project_scope_not_strict :
    (¬ ∀ db : Db, db.tasks = [] → db.conversations = [] → db.participants = [] → ∀ ops : List Op,
      ∀ t ∈ (runOps step db ops).tasks, ∀ c ∈ (runOps step db ops).conversations,
        t.conversationId = some c.id → t.projectId = c.projectId) ∧
    ¬ ∀ db : Db, db.tasks = [] → db.conversations = [] → db.participants = [] → ∀ ops : List Op,
      ∀ t ∈ (runOps step db ops).tasks, ∀ a ∈ (runOps step db ops).agents,
        t.agentId = some a.id → t.projectId.isSome = true → a.projectId = t.projectId := by
  constructor
  · intro h
    have hrun := h office rfl rfl rfl
      [ .createConversation [] "chat",
        .createTask { agentId := some "atlas", conversationId := some "chat" } none "fix" ]
    exact absurd hrun (by decide +kernel)
  · intro h
    have hrun := h office rfl rfl rfl
      [ .createTask { agentId := some "scout", contextProjectId := some "site" } none "scan" ]
    exact absurd hrun (by decide +kernel)

end XpressClaw.Projects
