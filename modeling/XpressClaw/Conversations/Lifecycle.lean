import Mathlib.Data.List.Pairwise
import XpressClaw.Conversations.Turns
import XpressClaw.Lib.Runs

/-!
# The life of a conversation turn

What calls of the turn queue and of the conversation manager can do to a turn, in any
order.

* `enqueueInTransaction_cases`, `finishInTransaction_cases`, `stopTurn_cases` — what the
  three functions that both stop and queue turns do, said once.
* `Db.Evolves` — how the turns of a later database come from those of an earlier one.
  Every function of the queue evolves the database (`step_evolves`).
* `turn_state_machine` — **a turn has one life**: one active turn for each agent in a
  conversation, final statuses stay, a turn publishes at most once, and one that was
  cancelled or whose agent left publishes nothing.
-/

namespace XpressClaw.Conversations

open Lib

/-! ## What a turn may become -/

/-- Completed and cancelled are final, and failed can only become cancelled. -/
def TurnStatus.Becomes (s s' : TurnStatus) : Prop :=
  (s = .completed → s' = .completed) ∧ (s = .cancelled → s' = .cancelled) ∧
    (s = .failed → s' = .failed ∨ s' = .cancelled)

instance (s s' : TurnStatus) : Decidable (s.Becomes s') := by
  unfold TurnStatus.Becomes
  infer_instance

/-- A row and what an update may make of it: the same turn, no status that its own cannot
become, and never active again. -/
structure ConversationTurn.Becomes (t t' : ConversationTurn) : Prop where
  id : t'.id = t.id
  conversationId : t'.conversationId = t.conversationId
  agentId : t'.agentId = t.agentId
  status : t.status.Becomes t'.status
  active : t'.status.active → t.status.active

theorem ConversationTurn.Becomes.refl (t : ConversationTurn) : t.Becomes t :=
  ⟨rfl, rfl, rfl, ⟨fun h => h, fun h => h, Or.inl⟩, fun h => h⟩

theorem ConversationTurn.Becomes.trans {t u v : ConversationTurn} (h : t.Becomes u)
    (h' : u.Becomes v) : t.Becomes v := by
  refine ⟨h'.id.trans h.id, h'.conversationId.trans h.conversationId,
    h'.agentId.trans h.agentId, ?_, fun hv => h.active (h'.active hv)⟩
  refine ⟨fun hs => h'.status.1 (h.status.1 hs), fun hs => h'.status.2.1 (h.status.2.1 hs), ?_⟩
  intro hs
  rcases h.status.2.2 hs with hu | hu
  · exact h'.status.2.2 hu
  · exact Or.inr (h'.status.2.1 hu)

theorem TurnStatus.active_iff {s : TurnStatus} : s.active ↔ s = .queued ∨ s = .running := by
  cases s <;> simp [TurnStatus.active]

theorem TurnStatus.Becomes.of_active {s : TurnStatus} (h : s.active) (s' : TurnStatus) :
    s.Becomes s' := by
  rcases TurnStatus.active_iff.1 h with rfl | rfl <;> simp [TurnStatus.Becomes]

/-! ## The table of turns -/

/-- Two rows that the table may hold together: the primary key and the partial unique
index. -/
def ConversationTurn.Apart (t u : ConversationTurn) : Prop :=
  t.id ≠ u.id ∧ ¬ (t.status.active ∧ u.status.active ∧ t.conversationId = u.conversationId ∧
    t.agentId = u.agentId)

instance (t u : ConversationTurn) : Decidable (t.Apart u) := by
  unfold ConversationTurn.Apart
  infer_instance

/-- The table satisfies its schema, and new turns get new numbers. -/
structure Db.Schema (db : Db) : Prop where
  apart : db.turns.Pairwise ConversationTurn.Apart
  fresh : ∀ t ∈ db.turns, t.id < db.nextTurnId

instance : Std.Symm ConversationTurn.Apart where
  symm _ _ h := ⟨h.1.symm, fun ⟨h1, h2, h3, h4⟩ => h.2 ⟨h2, h1, h3.symm, h4.symm⟩⟩

theorem Db.Schema.eq_of_id {db : Db} (h : db.Schema) {t u : ConversationTurn} (ht : t ∈ db.turns)
    (hu : u ∈ db.turns) (hid : t.id = u.id) : t = u := by
  by_contra hne
  exact (h.apart.forall ht hu hne).1 hid

theorem Db.Schema.eq_of_active {db : Db} (h : db.Schema) {t u : ConversationTurn}
    (ht : t ∈ db.turns) (hu : u ∈ db.turns) (hta : t.status.active) (hua : u.status.active)
    (hc : t.conversationId = u.conversationId) (ha : t.agentId = u.agentId) : t = u := by
  by_contra hne
  exact (h.apart.forall ht hu hne).2 ⟨hta, hua, hc, ha⟩

/-- Messages and the triggers of turns have numbers that the sequence has handed out. -/
structure Db.Numbered (db : Db) : Prop where
  pos : 0 < db.nextMessageId
  messages : ∀ m ∈ db.messages, m.id < db.nextMessageId
  triggers : ∀ t ∈ db.turns, t.trigger < db.nextMessageId

/-- A later database: its table still satisfies the schema, its numbers are still from the
sequence, and every turn is there, as what it may have become. -/
structure Db.Evolves (db db' : Db) : Prop where
  schema : db.Schema → db'.Schema
  numbered : db.Numbered → db'.Numbered
  rows : ∀ t ∈ db.turns, ∃ t' ∈ db'.turns, t.Becomes t'

namespace Db

variable {db db' : Db}

theorem Evolves.refl (db : Db) : db.Evolves db :=
  ⟨id, id, fun t ht => ⟨t, ht, .refl t⟩⟩

theorem Evolves.trans {db'' : Db} (h : db.Evolves db') (h' : db'.Evolves db'') :
    db.Evolves db'' := by
  refine ⟨fun hs => h'.schema (h.schema hs), fun hn => h'.numbered (h.numbered hn), ?_⟩
  intro t ht
  obtain ⟨t', ht', h1⟩ := h.rows t ht
  obtain ⟨t'', ht'', h2⟩ := h'.rows t' ht'
  exact ⟨t'', ht'', h1.trans h2⟩

theorem Evolves.of_turns_eq (h : db'.turns = db.turns) (hn : db'.nextTurnId = db.nextTurnId)
    (hm : db.Numbered → db'.Numbered) : db.Evolves db' := by
  refine ⟨fun hs => ⟨h ▸ hs.apart, ?_⟩, hm, fun t ht => ⟨t, h ▸ ht, .refl t⟩⟩
  rw [h, hn]
  exact hs.fresh

/-- An update that lets every row it touches become what it may, with a trigger that is a
number of the sequence. -/
theorem updateTurns_evolves {w : ConversationTurn → Bool}
    {set : ConversationTurn → ConversationTurn}
    (h : ∀ t, w t → t.Becomes (set t))
    (hk : db.Numbered → ∀ t ∈ db.turns, (set t).trigger < db.nextMessageId) :
    db.Evolves (db.updateTurns w set) := by
  have hrow : ∀ t : ConversationTurn, t.Becomes (if w t then set t else t) := by
    intro t
    split
    · exact h t ‹_›
    · exact .refl t
  refine ⟨fun hs => ⟨?_, ?_⟩, fun hn => ⟨hn.pos, hn.messages, ?_⟩,
    fun t ht => ⟨_, List.mem_map_of_mem ht, hrow t⟩⟩
  · refine List.pairwise_map.2 (hs.apart.imp fun {t u} htu => ⟨?_, ?_⟩)
    · rw [(hrow t).id, (hrow u).id]
      exact htu.1
    · rintro ⟨h1, h2, h3, h4⟩
      rw [(hrow t).conversationId, (hrow u).conversationId] at h3
      rw [(hrow t).agentId, (hrow u).agentId] at h4
      exact htu.2 ⟨(hrow t).active h1, (hrow u).active h2, h3, h4⟩
  · intro t' ht'
    obtain ⟨t, ht, rfl⟩ := List.mem_map.1 ht'
    rw [(hrow t).id]
    exact hs.fresh t ht
  · intro t' ht'
    obtain ⟨t, ht, rfl⟩ := List.mem_map.1 ht'
    split
    · exact hk hn t ht
    · exact hn.triggers t ht

theorem setTurns_evolves {w : ConversationTurn → Bool} {set : ConversationTurn → ConversationTurn}
    (h : ∀ t, w t → t.Becomes (set t)) (hk : ∀ t, (set t).trigger = t.trigger) :
    db.Evolves (db.updateTurns w set) := by
  apply updateTurns_evolves h
  intro hn t ht
  rw [hk]
  exact hn.triggers t ht

/-! ## What messages there are -/

theorem Numbered.of_isVisible (hn : db.Numbered) {c : String} {m : ℕ} (h : db.isVisible c m) :
    m < db.nextMessageId := by
  simp only [isVisible, List.any_eq_true, Bool.and_eq_true, decide_eq_true_eq] at h
  obtain ⟨msg, hmem, ⟨rfl, -⟩, -⟩ := h
  exact hn.messages msg hmem

theorem mem_of_latestAddressedMessage {c a : String} {after : ℕ} {before : Option ℕ} {latest : ℕ}
    (h : db.latestAddressedMessage c a after before = some latest) :
    ∃ msg ∈ db.messages, msg.id = latest ∧ msg.conversationId = c ∧ after < latest ∧
      before.all (latest < ·) ∧ msg.deleted = false ∧ msg.targets a := by
  have hmem := List.max?_mem h
  obtain ⟨msg, hmsg, rfl⟩ := List.mem_map.1 hmem
  simp only [List.mem_filter, Bool.and_eq_true, decide_eq_true_eq, Bool.not_eq_true'] at hmsg
  obtain ⟨hmsg, ⟨⟨⟨h1, h2⟩, h3⟩, h4⟩, h5⟩ := hmsg
  exact ⟨msg, hmsg, rfl, h1, h2, h3, h4, h5⟩

theorem Numbered.of_latest (hn : db.Numbered) {c a : String} {after : ℕ} {before : Option ℕ}
    {latest : ℕ} (h : db.latestAddressedMessage c a after before = some latest) :
    latest < db.nextMessageId := by
  obtain ⟨msg, hmsg, rfl, -⟩ := mem_of_latestAddressedMessage h
  exact hn.messages msg hmsg

theorem Numbered.of_boundary (hn : db.Numbered) {c a : String} {before : ℕ} {all : Bool} :
    (db.latestPromptBoundaryBefore c a before all).getD 0 < db.nextMessageId := by
  cases h : db.latestPromptBoundaryBefore c a before all with
  | none => exact hn.pos
  | some k =>
    have hmem := List.max?_mem h
    simp only [List.mem_filter, List.mem_filterMap, turnsOf] at hmem
    obtain ⟨⟨t, ⟨⟨ht, -⟩, -⟩, hk⟩, -⟩ := hmem
    have := hn.triggers t ht
    simpa [ConversationTurn.trigger, hk] using this

/-! ## What the functions do -/

/-- The row that `insertTurn` stores. -/
def newTurn (db : Db) (c a : String) (m : ℕ) : ConversationTurn where
  id := db.nextTurnId
  conversationId := c
  agentId := a
  triggerMessageId := some m
  queuedAt := db.clock

theorem mem_turnsOf {c a : String} {t : ConversationTurn} :
    t ∈ db.turnsOf c a ↔ t ∈ db.turns ∧ t.conversationId = c ∧ t.agentId = a := by
  simp [turnsOf]

theorem insertTurn_eq {c a : String} {m : ℕ} (h : db.insertTurn c a m = .ok db') :
    (∀ t ∈ db.turnsOf c a, ¬ t.status.active) ∧
      (∃ msg ∈ db.messages, msg.id = m) ∧
      db' = { db with
        turns := db.turns ++ [db.newTurn c a m]
        nextTurnId := db.nextTurnId + 1 } := by
  unfold insertTurn at h
  split at h
  · cases h
  · rename_i hc
    simp only [Bool.or_eq_true, not_or, List.any_eq_true, not_exists, not_and] at hc
    cases h
    exact ⟨hc.2, by simpa using hc.1.2, rfl⟩

theorem insertTurn_evolves {c a : String} {m : ℕ} (h : db.insertTurn c a m = .ok db') :
    db.Evolves db' := by
  obtain ⟨hnone, ⟨msg, hmsg, rfl⟩, rfl⟩ := insertTurn_eq h
  refine ⟨fun hs => ⟨?_, ?_⟩, fun hn => ⟨hn.pos, hn.messages, ?_⟩,
    fun t ht => ⟨t, List.mem_append_left _ ht, .refl t⟩⟩
  · refine List.pairwise_append.2 ⟨hs.apart, List.pairwise_singleton _ _, ?_⟩
    intro t ht u hu
    rw [List.mem_singleton.1 hu]
    refine ⟨(hs.fresh t ht).ne, ?_⟩
    rintro ⟨h1, -, h3, h4⟩
    exact hnone t (mem_turnsOf.2 ⟨ht, h3, h4⟩) h1
  · intro t ht
    rcases List.mem_append.1 ht with ht | ht
    · exact (hs.fresh t ht).trans (Nat.lt_succ_self _)
    · rw [List.mem_singleton.1 ht]
      exact Nat.lt_succ_self _
  · intro t ht
    rcases List.mem_append.1 ht with ht | ht
    · exact hn.triggers t ht
    · rw [List.mem_singleton.1 ht]
      exact hn.messages msg hmsg

/-- What queuing an agent for a message does: nothing when the agent is no participant or
has a running turn, otherwise it raises the queued turn or inserts one. -/
theorem enqueueInTransaction_cases {c a : String} {m : ℕ} {r : Bool}
    (h : enqueueInTransaction c a m db = .ok (r, db')) :
    db.isVisible c m ∧
      ((db.isParticipant c "agent" a = false ∧ db' = db) ∨
       (∃ t ∈ db.turnsOf c a, t.status = .running ∧ db' = db) ∨
       (∃ t ∈ db.turnsOf c a, t.status = .queued ∧ db' = db.raiseTrigger t.id m) ∨
       db.insertTurn c a m = .ok db') := by
  unfold enqueueInTransaction at h
  obtain ⟨_, -, h⟩ := bind_ok h
  obtain ⟨_, -, h⟩ := bind_ok h
  split at h
  · cases h
  rename_i hv
  refine ⟨by simpa using hv, ?_⟩
  split at h
  · rename_i hp
    cases h
    exact Or.inl ⟨by simpa using hp, rfl⟩
  cases hx : ((db.turnsOf c a).filter (·.status.active)).argmax (·.queuedAt) with
  | some t =>
    have ht := List.mem_filter.1 (List.argmax_mem hx)
    rw [hx] at h
    simp only at h
    split at h <;> rename_i hq <;> cases h
    · exact Or.inr (Or.inr (Or.inl ⟨t, ht.1, hq, rfl⟩))
    · exact Or.inr (Or.inl ⟨t, ht.1, (TurnStatus.active_iff.1 ht.2).resolve_left hq, rfl⟩)
  | none =>
    rw [hx] at h
    obtain ⟨db₁, h1, h2⟩ := bind_ok h
    cases h2
    exact Or.inr (Or.inr (Or.inr h1))

theorem raiseTrigger_evolves {id m : ℕ} (hm : db.Numbered → m < db.nextMessageId) :
    db.Evolves (db.raiseTrigger id m) := by
  apply updateTurns_evolves
  · exact fun t _ => ⟨rfl, rfl, rfl, (ConversationTurn.Becomes.refl t).status, fun h => h⟩
  · exact fun hn t ht => max_lt (hn.triggers t ht) (hm hn)

theorem enqueueInTransaction_evolves {c a : String} {m : ℕ} {r : Bool}
    (h : enqueueInTransaction c a m db = .ok (r, db')) : db.Evolves db' := by
  obtain ⟨hv, ⟨-, rfl⟩ | ⟨-, -, -, rfl⟩ | ⟨t, -, -, rfl⟩ | h⟩ := enqueueInTransaction_cases h
  · exact .refl _
  · exact .refl _
  · exact raiseTrigger_evolves fun hn => hn.of_isVisible hv
  · exact insertTurn_evolves h

theorem enqueueInTransaction_mem {c a : String} {m : ℕ} {r : Bool} (hs : db.Schema)
    (h : enqueueInTransaction c a m db = .ok (r, db')) {t : ConversationTurn} (ht : t ∈ db.turns)
    (hq : t.status ≠ .queued) : t ∈ db'.turns := by
  obtain ⟨-, ⟨-, rfl⟩ | ⟨-, -, -, rfl⟩ | ⟨u, hu, huq, rfl⟩ | h⟩ := enqueueInTransaction_cases h
  · exact ht
  · exact ht
  · refine List.mem_map.2 ⟨t, ht, if_neg ?_⟩
    rw [decide_eq_true_eq]
    rintro hid
    exact hq (hs.eq_of_id ht (mem_turnsOf.1 hu).1 hid ▸ huq)
  · obtain ⟨-, -, rfl⟩ := insertTurn_eq h
    exact List.mem_append_left _ ht

theorem enqueueAll_mem {c : String} {m : ℕ} {agents r : List String} (hs : db.Schema)
    (h : enqueueAll c m agents db = .ok (r, db')) {t : ConversationTurn} (ht : t ∈ db.turns)
    (hq : t.status ≠ .queued) : t ∈ db'.turns := by
  induction agents generalizing db r with
  | nil =>
    cases h
    exact ht
  | cons a agents ih =>
    obtain ⟨⟨b, db₁⟩, h1, h⟩ := bind_ok h
    obtain ⟨⟨rs, db₂⟩, h2, h⟩ := bind_ok h
    cases h
    exact ih ((enqueueInTransaction_evolves h1).schema hs) h2
      (enqueueInTransaction_mem hs h1 ht hq)

theorem enqueueForMessage_mem {c : String} {m : ℕ} {st s text : String} {r : List String}
    (hs : db.Schema) (h : enqueueForMessage c m st s text db = .ok (r, db'))
    {t : ConversationTurn} (ht : t ∈ db.turns) (hq : t.status ≠ .queued) : t ∈ db'.turns := by
  unfold enqueueForMessage at h
  split at h
  · cases h
    exact ht
  · exact enqueueAll_mem hs h ht hq

theorem enqueueAll_evolves {c : String} {m : ℕ} {agents : List String} {r : List String}
    (h : enqueueAll c m agents db = .ok (r, db')) : db.Evolves db' := by
  induction agents generalizing db r with
  | nil =>
    cases h
    exact .refl _
  | cons a agents ih =>
    obtain ⟨⟨b, db₁⟩, h1, h⟩ := bind_ok h
    obtain ⟨⟨rs, db₂⟩, h2, h⟩ := bind_ok h
    cases h
    exact (enqueueInTransaction_evolves h1).trans (ih h2)

theorem enqueueForMessage_evolves {c : String} {m : ℕ} {st s text : String} {r : List String}
    (h : enqueueForMessage c m st s text db = .ok (r, db')) : db.Evolves db' := by
  unfold enqueueForMessage at h
  split at h
  · cases h
    exact .refl _
  · exact enqueueAll_evolves h

theorem cancelStrayTurns_evolves (db : Db) : db.Evolves db.cancelStrayTurns := by
  refine setTurns_evolves (fun t ht => ?_) fun _ => rfl
  simp only [Bool.and_eq_true, decide_eq_true_eq] at ht
  exact ⟨rfl, rfl, rfl, by simp [ht.1, TurnStatus.Becomes], by simp [TurnStatus.active]⟩

theorem startTurn_evolves (id : ℕ) (db : Db) : db.Evolves (db.startTurn id) := by
  refine setTurns_evolves (fun t ht => ?_) fun _ => rfl
  simp only [Bool.and_eq_true, decide_eq_true_eq] at ht
  exact ⟨rfl, rfl, rfl, by simp [ht.2, TurnStatus.Becomes], by simp [ht.2, TurnStatus.active]⟩

/-- What claiming does: it cancels stray turns, and starts a queued turn of a participant
if there is one. -/
theorem claimNext_cases (db : Db) :
    db.claimNext = (none, db.cancelStrayTurns) ∨
    ∃ next ∈ db.cancelStrayTurns.turns, next.status = .queued ∧ db.claimNext =
      ((db.cancelStrayTurns.startTurn next.id).turns.find? (·.id = next.id),
        db.cancelStrayTurns.startTurn next.id) := by
  unfold claimNext
  dsimp only
  split
  · exact Or.inl rfl
  · rename_i next hnext
    have hmem := List.mem_filter.1 (List.argmin_mem hnext)
    simp only [Bool.and_eq_true, decide_eq_true_eq] at hmem
    exact Or.inr ⟨next, hmem.1, hmem.2.1, rfl⟩

theorem claimNext_evolves (db : Db) : db.Evolves db.claimNext.2 := by
  rcases claimNext_cases db with h | ⟨next, -, -, h⟩ <;> rw [h]
  · exact cancelStrayTurns_evolves db
  · exact (cancelStrayTurns_evolves db).trans (startTurn_evolves ..)

/-- What finishing a turn does: nothing unless it is running, and otherwise the turn gets
its final status and whatever was addressed to the agent since gets a turn. -/
theorem finishInTransaction_cases {turn : ConversationTurn} {status : TurnStatus}
    {m : Option ℕ} {e : Option String} {r : Bool}
    (h : finishInTransaction turn status m e db = .ok (r, db')) :
    ((∀ t ∈ db.turns, t.id = turn.id → t.status ≠ .running) ∧ db' = db) ∨
    ((∃ t ∈ db.turns, t.id = turn.id ∧ t.status = .running) ∧
      ∃ db₁, db₁ = db.endTurn turn.id status m e ∧
        ((db₁.latestAddressedMessage turn.conversationId turn.agentId turn.trigger none = none ∧
            db' = db₁) ∨
          ∃ latest, db₁.latestAddressedMessage turn.conversationId turn.agentId turn.trigger none =
              some latest ∧
            db₁.insertTurn turn.conversationId turn.agentId latest = .ok db')) := by
  unfold finishInTransaction at h
  split at h
  · rename_i hr
    cases h
    refine Or.inl ⟨fun t ht hid hrun => ?_, rfl⟩
    simp only [Bool.not_eq_true', List.any_eq_false, Bool.and_eq_true, decide_eq_true_eq,
      not_and] at hr
    exact hr t ht hid hrun
  rename_i hr
  simp only [Bool.not_eq_true', Bool.not_eq_false, List.any_eq_true, Bool.and_eq_true,
    decide_eq_true_eq] at hr
  split at h
  · cases h
  refine Or.inr ⟨hr, _, rfl, ?_⟩
  dsimp only at h
  split at h
  · rename_i hl
    cases h
    exact Or.inl ⟨hl, rfl⟩
  · rename_i latest hl
    obtain ⟨db₁, h1, h2⟩ := bind_ok h
    cases h2
    exact Or.inr ⟨latest, hl, h1⟩

theorem endTurn_evolves {id : ℕ} {status : TurnStatus} {m : Option ℕ} {e : Option String}
    (hstatus : status.active = false) : db.Evolves (db.endTurn id status m e) := by
  refine setTurns_evolves (fun t ht => ?_) fun _ => rfl
  simp only [Bool.and_eq_true, decide_eq_true_eq] at ht
  exact ⟨rfl, rfl, rfl, by simp [ht.2, TurnStatus.Becomes], by simp [hstatus]⟩

theorem finishInTransaction_evolves {turn : ConversationTurn} {status : TurnStatus}
    {m : Option ℕ} {e : Option String} {r : Bool}
    (hstatus : status.active = false)
    (h : finishInTransaction turn status m e db = .ok (r, db')) : db.Evolves db' := by
  obtain ⟨-, rfl⟩ | ⟨-, db₁, rfl, ⟨-, rfl⟩ | ⟨latest, -, h⟩⟩ := finishInTransaction_cases h
  · exact .refl _
  · exact endTurn_evolves hstatus
  · exact (endTurn_evolves hstatus).trans (insertTurn_evolves h)

/-- Queuing for what a stopped turn left unanswered. -/
theorem requeueStopped_cases {t : ConversationTurn} (h : db.requeueStopped t = .ok db') :
    (t.status ≠ .running ∧ db' = db) ∨
    (t.status = .running ∧
      db.latestAddressedMessage t.conversationId t.agentId t.trigger none = none ∧ db' = db) ∨
    (t.status = .running ∧ ∃ latest q,
      db.latestAddressedMessage t.conversationId t.agentId t.trigger none = some latest ∧
      enqueueInTransaction t.conversationId t.agentId latest db = .ok (q, db')) := by
  unfold requeueStopped at h
  split at h
  · cases h
    exact Or.inl ⟨‹_›, rfl⟩
  rename_i hrun
  rw [not_not] at hrun
  split at h
  · cases h
    exact Or.inr (Or.inl ⟨hrun, ‹_›, rfl⟩)
  · rename_i latest hl
    cases hq : enqueueInTransaction t.conversationId t.agentId latest db with
    | error e => rw [hq] at h; cases h
    | ok q =>
      rw [hq] at h
      cases h
      exact Or.inr (Or.inr ⟨hrun, latest, q.1, hl, hq⟩)

/-- What stopping a turn does: nothing unless its status can be stopped, and otherwise the
turn is stopped and whatever was addressed to the agent of a running turn since is queued. -/
theorem stopTurn_cases {c : String} {id : ℕ} {lease : Option (String × ℤ)} {r : Cancellation}
    (h : stopTurn c id lease db = .ok (r, db')) :
    db' = db ∨
    ∃ t ∈ db.turns, t.id = id ∧ t.conversationId = c ∧ stoppable lease.isSome t.status ∧
      (db.haltTurn c id lease.isSome (t.status = .running : Bool)).requeueStopped t = .ok db' := by
  unfold stopTurn at h
  cases hf : db.turns.find? (fun t => t.id = id && t.conversationId = c) with
  | none => rw [hf] at h; cases h
  | some t =>
    rw [hf] at h
    have hmem := List.mem_of_find?_eq_some hf
    have hid := List.find?_some hf
    simp only [Bool.and_eq_true, decide_eq_true_eq] at hid
    dsimp only at h
    split at h
    · cases h
      exact Or.inl rfl
    split at h
    · cases h
      exact Or.inl rfl
    rename_i hs
    refine Or.inr ⟨t, hmem, hid.1, hid.2, by simpa using hs, ?_⟩
    obtain ⟨db₂, h1, h2⟩ := bind_ok h
    cases h2
    exact h1

theorem becomes_cancelled {s : TurnStatus} {lease : Bool} (h : stoppable lease s) :
    s.Becomes .cancelled := by
  cases s <;> simp_all [stoppable, TurnStatus.active, TurnStatus.Becomes]

theorem requeueStopped_evolves {t : ConversationTurn} (h : db.requeueStopped t = .ok db') :
    db.Evolves db' := by
  obtain ⟨-, rfl⟩ | ⟨-, -, rfl⟩ | ⟨-, latest, q, -, hq⟩ := requeueStopped_cases h
  · exact .refl _
  · exact .refl _
  · exact enqueueInTransaction_evolves hq

theorem haltTurn_evolves (c : String) (id : ℕ) (lease running : Bool) (db : Db) :
    db.Evolves (db.haltTurn c id lease running) := by
  refine setTurns_evolves (fun u hu => ?_) fun _ => rfl
  simp only [Bool.and_eq_true, decide_eq_true_eq] at hu
  refine ⟨rfl, rfl, rfl, ?_, ?_⟩
  · dsimp only
    split
    · rename_i hl
      simp only [Bool.and_eq_true] at hl
      apply TurnStatus.Becomes.of_active
      simpa [stoppable, hl.1] using hu.2
    · exact becomes_cancelled hu.2
  · dsimp only
    split <;> simp [TurnStatus.active]

theorem stopTurn_evolves {c : String} {id : ℕ} {lease : Option (String × ℤ)} {r : Cancellation}
    (h : stopTurn c id lease db = .ok (r, db')) : db.Evolves db' := by
  obtain rfl | ⟨t, -, -, -, -, h⟩ := stopTurn_cases h
  · exact .refl _
  · exact (haltTurn_evolves ..).trans (requeueStopped_evolves h)

theorem recover_evolves (db : Db) : db.Evolves db.recover := by
  refine setTurns_evolves (fun t ht => ?_) fun _ => rfl
  simp only [decide_eq_true_eq] at ht
  exact ⟨rfl, rfl, rfl, by simp [ht, TurnStatus.Becomes], by simp [ht, TurnStatus.active]⟩

theorem retargetQueuedTurnBeforeMessage_evolves (c : String) (id : ℕ) (a : String) (m : ℕ) :
    db.Evolves (db.retargetQueuedTurnBeforeMessage c id a m) := by
  unfold retargetQueuedTurnBeforeMessage
  dsimp only
  split
  · exact .refl _
  · rename_i latest hl
    apply updateTurns_evolves
    · exact fun t _ => ⟨rfl, rfl, rfl, (ConversationTurn.Becomes.refl t).status, fun h => h⟩
    · exact fun hn _ _ => hn.of_latest hl

theorem requeueAll_evolves {c : String} {m : ℕ} {agents : List String}
    (h : requeueAll c m agents db = .ok db') : db.Evolves db' := by
  induction agents generalizing db with
  | nil =>
    cases h
    exact .refl _
  | cons a agents ih =>
    rw [requeueAll] at h
    split at h
    · exact ih h
    · obtain ⟨⟨q, db₁⟩, h1, h⟩ := bind_ok h
      exact (enqueueInTransaction_evolves h1).trans (ih h)

theorem foldl_evolves {α : Type} {f : Db → α → Db} (h : ∀ (db : Db) a, db.Evolves (f db a))
    (as : List α) (db : Db) : db.Evolves (as.foldl f db) := by
  induction as generalizing db with
  | nil => exact .refl _
  | cons a as ih => exact (h db a).trans (ih _)

theorem retargetAll_evolves (c : String) (m : ℕ) (db : Db) : db.Evolves (db.retargetAll c m) :=
  foldl_evolves (fun _ _ => retargetQueuedTurnBeforeMessage_evolves ..) _ _

theorem dismissFailed_evolves (c : String) (m : ℕ) (db : Db) (a : String) :
    db.Evolves (db.dismissFailed c m a) := by
  apply updateTurns_evolves
  · intro t ht
    simp only [ConsumedBy, Bool.and_eq_true, decide_eq_true_eq] at ht
    exact ⟨rfl, rfl, rfl, by simp [ht.1.1.2, TurnStatus.Becomes], by simp [TurnStatus.active]⟩
  · exact fun hn _ _ => hn.of_boundary

theorem cancelConsumed_evolves (c : String) (m : ℕ) (db : Db) :
    db.Evolves (db.cancelConsumed c m) := by
  refine setTurns_evolves (fun t ht => ?_) fun _ => rfl
  simp only [QueuedFor, ConsumedBy, Bool.or_eq_true, Bool.and_eq_true, decide_eq_true_eq] at ht
  refine ⟨rfl, rfl, rfl, ?_, by simp [TurnStatus.active]⟩
  rcases ht with ht | ht
  · simp [ht.2, TurnStatus.Becomes]
  · simp [ht.1.2, TurnStatus.Becomes]

theorem forgetResult_evolves (c : String) (m : ℕ) (db : Db) : db.Evolves (db.forgetResult c m) :=
  setTurns_evolves (fun t _ =>
    ⟨rfl, rfl, rfl, (ConversationTurn.Becomes.refl t).status, fun h => h⟩) fun _ => rfl

theorem reconcileMessageDeletionTurns_eq {c : String} {m : ℕ} {r : List ℕ}
    (h : reconcileMessageDeletionTurns c m db = .ok (r, db')) :
    ∃ db₁ db₂, db₁ = db.retargetAll c m ∧
      requeueAll c m ((db₁.turns.filter (ConsumedBy c m .running)).map (·.agentId))
        (((db₁.affectedAgents c m).foldl (dismissFailed c m) db₁).cancelConsumed c m) = .ok db₂ ∧
      db' = db₂.forgetResult c m := by
  unfold reconcileMessageDeletionTurns at h
  obtain ⟨db₂, h1, h⟩ := bind_ok h
  cases h
  exact ⟨_, db₂, rfl, h1, rfl⟩

theorem reconcileMessageDeletionTurns_evolves {c : String} {m : ℕ} {r : List ℕ}
    (h : reconcileMessageDeletionTurns c m db = .ok (r, db')) : db.Evolves db' := by
  obtain ⟨db₁, db₂, rfl, h1, rfl⟩ := reconcileMessageDeletionTurns_eq h
  refine (retargetAll_evolves c m db).trans (Evolves.trans ?_
    ((requeueAll_evolves h1).trans (forgetResult_evolves c m db₂)))
  exact (foldl_evolves (dismissFailed_evolves c m) _ _).trans (cancelConsumed_evolves c m _)

theorem markDeleted_evolves (c : String) (m : ℕ) (db : Db) : db.Evolves (db.markDeleted c m) := by
  refine .of_turns_eq rfl rfl fun hn => ⟨hn.pos, ?_, hn.triggers⟩
  intro x hx
  obtain ⟨y, hy, rfl⟩ := List.mem_map.1 hx
  have := hn.messages y hy
  split <;> exact this

theorem deleteMessage_evolves {c : String} {m : ℕ} {r : List ℕ}
    (h : deleteMessage c m db = .ok (r, db')) : db.Evolves db' := by
  unfold deleteMessage at h
  split at h
  · cases h
  · obtain ⟨⟨_, db₁⟩, h1, h⟩ := bind_ok h
    cases h
    exact (reconcileMessageDeletionTurns_evolves h1).trans (markDeleted_evolves c m db₁)

theorem addParticipant_eq {c kind id : String} {r : Unit}
    (h : addParticipant c kind id db = .ok (r, db')) :
    db' = db.insertParticipant ⟨c, kind, id⟩ := by
  unfold addParticipant at h
  obtain ⟨project, -, h⟩ := bind_ok h
  obtain ⟨_, -, h⟩ := bind_ok h
  split at h
  · obtain ⟨_, -, h⟩ := bind_ok h
    cases h
    rfl
  · cases h
    rfl

theorem insertParticipant_evolves (p : Participant) : db.Evolves (db.insertParticipant p) := by
  unfold insertParticipant
  split
  · exact .refl _
  · exact .of_turns_eq rfl rfl fun hn => ⟨hn.pos, hn.messages, hn.triggers⟩

theorem cancelTurnsOf_evolves (c a : String) (db : Db) : db.Evolves (db.cancelTurnsOf c a) := by
  refine setTurns_evolves (fun t ht => ?_) fun _ => rfl
  simp only [Bool.and_eq_true] at ht
  exact ⟨rfl, rfl, rfl, .of_active ht.2 _, by simp [TurnStatus.active]⟩

theorem removeParticipant_evolves (c kind id : String) :
    db.Evolves (db.removeParticipant c kind id).2 := by
  have hgone : db.Evolves (db.deleteParticipant ⟨c, kind, id⟩) :=
    .of_turns_eq rfl rfl fun hn => ⟨hn.pos, hn.messages, hn.triggers⟩
  unfold removeParticipant
  dsimp only
  split
  · exact hgone.trans (cancelTurnsOf_evolves ..)
  · exact hgone

theorem removeParticipant_over {c a : String} {t : ConversationTurn} (ht : t ∈ db.turnsOf c a) :
    ∃ t' ∈ (db.removeParticipant c "agent" a).2.turns, t'.id = t.id ∧ ¬ t'.status.active := by
  obtain ⟨ht, hc, ha⟩ := mem_turnsOf.1 ht
  refine ⟨_, List.mem_map_of_mem (l := (db.deleteParticipant ⟨c, "agent", a⟩).turns) ht, ?_⟩
  by_cases hact : t.status.active
  · rw [if_pos (by simp [hc, ha, hact])]
    exact ⟨rfl, by simp [TurnStatus.active]⟩
  · rw [if_neg (by simp [hact])]
    exact ⟨rfl, hact⟩

theorem insertMessage_eq {c : String} {msg : SendMessage} {target : Option String}
    {stored : ConversationMessage} (h : db.insertMessage c msg target = .ok (stored, db')) :
    stored = db.newMessage c msg target ∧
      db' = { db with
        messages := db.messages ++ [db.newMessage c msg target]
        nextMessageId := db.nextMessageId + 1 } := by
  unfold insertMessage at h
  split at h
  · cases h
  · cases h
    exact ⟨rfl, rfl⟩

theorem insertMessage_evolves {c : String} {msg : SendMessage} {target : Option String}
    {stored : ConversationMessage} (h : db.insertMessage c msg target = .ok (stored, db')) :
    db.Evolves db' := by
  obtain ⟨-, rfl⟩ := insertMessage_eq h
  refine .of_turns_eq rfl rfl fun hn => ⟨Nat.succ_pos _, ?_, ?_⟩
  · intro x hx
    rcases List.mem_append.1 hx with hx | hx
    · exact (hn.messages x hx).trans (Nat.lt_succ_self _)
    · rw [List.mem_singleton.1 hx]
      exact Nat.lt_succ_self _
  · exact fun t ht => (hn.triggers t ht).trans (Nat.lt_succ_self _)

theorem insertStructuredMessage_eq {c : String} {msg : SendMessage} {target : Option String}
    {stored : ConversationMessage}
    (h : insertStructuredMessage c msg target db = .ok (stored, db')) :
    db.insertMessage c msg target = .ok (stored, db') := by
  unfold insertStructuredMessage at h
  obtain ⟨_, -, h⟩ := bind_ok h
  obtain ⟨_, -, h⟩ := bind_ok h
  exact h

theorem sendRoutedMessage_eq {c : String} {msg : SendMessage} {target : Option String}
    {r : ℕ × List String} (h : sendRoutedMessage c msg target db = .ok (r, db')) :
    ∃ stored db₁ queued, db.insertMessage c msg target = .ok (stored, db₁) ∧
      enqueueForMessage c stored.id msg.senderType msg.senderId msg.content db₁ =
        .ok (queued, db') := by
  unfold sendRoutedMessage at h
  obtain ⟨⟨stored, db₁⟩, h1, h⟩ := bind_ok h
  obtain ⟨⟨queued, db₂⟩, h2, h⟩ := bind_ok h
  cases h
  exact ⟨stored, db₁, queued, insertStructuredMessage_eq h1, h2⟩

theorem sendAgentRoutedMessage_eq {c : String} {msg : SendMessage} {task : Option String}
    {r : ℕ × List String} (h : sendAgentRoutedMessage c msg task db = .ok (r, db')) :
    sendRoutedMessage c msg none db = .ok (r, db') := by
  unfold sendAgentRoutedMessage at h
  split at h
  · cases h
  split at h
  · cases h
  obtain ⟨_, -, h⟩ := bind_ok h
  exact h

theorem sendTargetedRoutedMessage_eq {c target : String} {msg : SendMessage}
    {r : ℕ × List String} (h : sendTargetedRoutedMessage c target msg db = .ok (r, db')) :
    ∃ stored db₁ q, db.insertMessage c msg (some target) = .ok (stored, db₁) ∧
      enqueueInTransaction c target stored.id db₁ = .ok (q, db') := by
  unfold sendTargetedRoutedMessage at h
  split at h
  · cases h
  obtain ⟨⟨stored, db₁⟩, h1, h⟩ := bind_ok h
  obtain ⟨⟨q, db₂⟩, h2, h⟩ := bind_ok h
  cases h
  exact ⟨stored, db₁, q, insertStructuredMessage_eq h1, h2⟩

theorem sendRoutedMessage_evolves {c : String} {msg : SendMessage} {target : Option String}
    {r : ℕ × List String} (h : sendRoutedMessage c msg target db = .ok (r, db')) :
    db.Evolves db' := by
  obtain ⟨_, db₁, _, h1, h2⟩ := sendRoutedMessage_eq h
  exact (insertMessage_evolves h1).trans (enqueueForMessage_evolves h2)

/-- What completing a turn with a message does: nothing unless the turn is running and its
agent a participant, and otherwise it stores the message, queues the agents it addresses
and finishes the turn. -/
theorem completeWithMessage_cases {turn : ConversationTurn} {msg : SendMessage}
    {target : Option String} {r : Option ConversationMessage}
    (h : completeWithMessage turn msg target db = .ok (r, db')) :
    (r = none ∧ db' = db) ∨
    ((∃ t ∈ db.turns, t.id = turn.id ∧ t.status = .running) ∧
      ∃ stored db₁ db₂ q q', r = some stored ∧
      db.insertMessage turn.conversationId msg target = .ok (stored, db₁) ∧
      enqueueForMessage turn.conversationId stored.id msg.senderType msg.senderId msg.content db₁ =
        .ok (q, db₂) ∧
      finishInTransaction turn .completed (some stored.id) none db₂ = .ok (q', db')) := by
  unfold completeWithMessage at h
  split at h
  · cases h
    exact Or.inl ⟨rfl, rfl⟩
  rename_i hr
  simp only [Bool.not_eq_true', Bool.not_eq_false, List.any_eq_true, Bool.and_eq_true,
    decide_eq_true_eq] at hr
  obtain ⟨t, ht, hrun, -⟩ := hr
  obtain ⟨⟨stored, db₁⟩, h1, h⟩ := bind_ok h
  obtain ⟨⟨q, db₂⟩, h2, h⟩ := bind_ok h
  obtain ⟨⟨q', db₃⟩, h3, h⟩ := bind_ok h
  cases h
  exact Or.inr ⟨⟨t, ht, hrun⟩, stored, db₁, db₂, q, q', rfl, h1, h2, h3⟩

theorem completeWithMessage_evolves {turn : ConversationTurn} {msg : SendMessage}
    {target : Option String} {r : Option ConversationMessage}
    (h : completeWithMessage turn msg target db = .ok (r, db')) : db.Evolves db' := by
  obtain ⟨-, rfl⟩ | ⟨-, _, _, _, _, _, -, h1, h2, h3⟩ := completeWithMessage_cases h
  · exact .refl _
  · exact (insertMessage_evolves h1).trans
      ((enqueueForMessage_evolves h2).trans (finishInTransaction_evolves rfl h3))

end Db

/-! ## Runs -/

theorem step_cases (db : Db) (op : Op) :
    (step db op = db ∧ reply db op = none) ∨
      ∃ r, op.exec db = .ok (r, step db op) ∧ reply db op = some r := by
  unfold step reply
  cases h : op.exec db with
  | error e => exact Or.inl ⟨rfl, rfl⟩
  | ok r => exact Or.inr ⟨r.1, rfl, rfl⟩

/-- **Every call evolves the database.** -/
theorem exec_evolves {db db' : Db} {op : Op} {r : Reply} (h : op.exec db = .ok (r, db')) :
    db.Evolves db' := by
  cases op with
  | claimNext => cases h; exact Db.claimNext_evolves db
  | recover => cases h; exact Db.recover_evolves db
  | removeParticipant c kind id => cases h; exact Db.removeParticipant_evolves c kind id
  | tick now =>
    cases h
    exact .of_turns_eq rfl rfl fun hn => ⟨hn.pos, hn.messages, hn.triggers⟩
  | sendRouted =>
    obtain ⟨⟨_, _⟩, h1, h⟩ := bind_ok h
    cases h
    exact Db.sendRoutedMessage_evolves h1
  | sendAgentRouted =>
    obtain ⟨⟨_, _⟩, h1, h⟩ := bind_ok h
    cases h
    exact Db.sendRoutedMessage_evolves (Db.sendAgentRoutedMessage_eq h1)
  | sendTargeted =>
    obtain ⟨⟨_, _⟩, h1, h⟩ := bind_ok h
    cases h
    obtain ⟨_, _, _, h2, h3⟩ := Db.sendTargetedRoutedMessage_eq h1
    exact (Db.insertMessage_evolves h2).trans (Db.enqueueInTransaction_evolves h3)
  | enqueue =>
    obtain ⟨⟨_, _⟩, h1, h⟩ := bind_ok h
    cases h
    exact Db.enqueueInTransaction_evolves h1
  | enqueueForMessage =>
    obtain ⟨⟨_, _⟩, h1, h⟩ := bind_ok h
    cases h
    exact Db.enqueueForMessage_evolves h1
  | completeWithMessage =>
    obtain ⟨⟨_, _⟩, h1, h⟩ := bind_ok h
    cases h
    exact Db.completeWithMessage_evolves h1
  | complete =>
    obtain ⟨⟨_, _⟩, h1, h⟩ := bind_ok h
    cases h
    exact Db.finishInTransaction_evolves rfl h1
  | fail =>
    obtain ⟨⟨_, _⟩, h1, h⟩ := bind_ok h
    cases h
    exact Db.finishInTransaction_evolves rfl h1
  | cancel =>
    obtain ⟨⟨_, _⟩, h1, h⟩ := bind_ok h
    cases h
    exact Db.stopTurn_evolves h1
  | expireLease =>
    obtain ⟨⟨_, _⟩, h1, h⟩ := bind_ok h
    cases h
    exact Db.stopTurn_evolves h1
  | deleteMessage =>
    obtain ⟨⟨_, _⟩, h1, h⟩ := bind_ok h
    cases h
    exact Db.deleteMessage_evolves h1
  | addParticipant =>
    obtain ⟨⟨_, _⟩, h1, h⟩ := bind_ok h
    cases h
    rw [Db.addParticipant_eq h1]
    exact Db.insertParticipant_evolves _

theorem step_evolves (db : Db) (op : Op) : db.Evolves (step db op) := by
  rcases step_cases db op with ⟨h, -⟩ | ⟨r, h, -⟩
  · rw [h]
    exact .refl _
  · exact exec_evolves h

theorem runOps_evolves (db : Db) (ops : List Op) : db.Evolves (runOps step db ops) :=
  @runOps_rel _ _ _ (fun _ => True) Db.Evolves (fun _ _ h => h) Db.Evolves.refl
    (fun _ _ _ => Db.Evolves.trans) (fun db op _ => step_evolves db op) db trivial ops

/-- The turn a completing call is about. -/
def Op.finishes : Op → Option ConversationTurn
  | .completeWithMessage turn _ _ => some turn
  | .complete turn _ => some turn
  | .fail turn _ => some turn
  | _ => none

/-- The message a call publishes for turn `i`. -/
def publication (i : ℕ) (db : Db) (op : Op) : Option ConversationMessage :=
  if op.finishes.any (·.id = i) then
    match reply db op with
    | some (.published m) => m
    | _ => none
  else none

/-- Turn `i` exists and is no longer active. -/
def Db.Over (i : ℕ) (db : Db) : Prop :=
  db.Schema ∧ ∃ t ∈ db.turns, t.id = i ∧ ¬ t.status.active

theorem Db.Over.evolves {i : ℕ} {db db' : Db} (h : db.Over i) (he : db.Evolves db') :
    db'.Over i := by
  obtain ⟨hs, t, ht, hi, ha⟩ := h
  obtain ⟨t', ht', hb⟩ := he.rows t ht
  exact ⟨he.schema hs, t', ht', hb.id.trans hi, fun hact => ha (hb.active hact)⟩

theorem Db.Over.not_running {i : ℕ} {db : Db} (h : db.Over i) {t : ConversationTurn}
    (ht : t ∈ db.turns) (hi : t.id = i) : t.status ≠ .running := by
  obtain ⟨hs, u, hu, hui, ha⟩ := h
  rw [hs.eq_of_id ht hu (hi.trans hui.symm)]
  rintro hrun
  exact ha (TurnStatus.active_iff.2 (Or.inr hrun))

/-- Completing a turn that is over does nothing and publishes nothing. -/
theorem Db.Over.noop {db : Db} {op : Op} {turn : ConversationTurn} (h : db.Over turn.id)
    (hop : op.finishes = some turn) :
    step db op = db ∧ ∀ m, reply db op ≠ some (.published (some m)) := by
  have hfin : ∀ {status m e r db'}, Db.finishInTransaction turn status m e db = .ok (r, db') →
      db' = db := by
    intro status m e r db' hf
    obtain ⟨-, rfl⟩ | ⟨⟨t, ht, hid, hrun⟩, -⟩ := Db.finishInTransaction_cases hf
    · rfl
    · exact absurd hrun (h.not_running ht hid)
  rcases step_cases db op with ⟨hs, hr⟩ | ⟨r, hx, hr⟩
  · exact ⟨hs, by simp [hr]⟩
  rw [hr]
  cases op with
  | completeWithMessage turn' msg target =>
    cases hop
    obtain ⟨⟨m, db₁⟩, h1, h2⟩ := bind_ok hx
    obtain ⟨rfl, h3⟩ | ⟨⟨t, ht, hid, hrun⟩, -⟩ := Db.completeWithMessage_cases h1
    · cases h2
      exact ⟨h3, by simp⟩
    · exact absurd hrun (h.not_running ht hid)
  | complete turn' m =>
    cases hop
    obtain ⟨⟨q, db₁⟩, h1, h2⟩ := bind_ok hx
    cases h2
    exact ⟨hfin h1, by simp⟩
  | fail turn' e =>
    cases hop
    obtain ⟨⟨q, db₁⟩, h1, h2⟩ := bind_ok hx
    cases h2
    exact ⟨hfin h1, by simp⟩
  | _ => cases hop

theorem Db.Over.publication_eq_none {i : ℕ} {db : Db} (h : db.Over i) (op : Op) :
    publication i db op = none := by
  unfold publication
  split
  · rename_i hop
    obtain ⟨turn, hturn, hid⟩ := (Option.any_eq_true _ _).1 hop
    obtain rfl : turn.id = i := by simpa using hid
    have hno := (h.noop hturn).2
    split
    · rename_i m hr
      cases m with
      | none => rfl
      | some m => exact absurd hr (hno m)
    · rfl
  · rfl

/-- A turn that was running is over once it is finished. -/
theorem Db.over_of_finish {db db' : Db} {turn t : ConversationTurn} {status : TurnStatus}
    {m : Option ℕ} {e : Option String} {r : Bool} (hs : db.Schema) (ht : t ∈ db.turns)
    (hid : t.id = turn.id) (hrun : t.status = .running) (hstatus : status.active = false)
    (h : Db.finishInTransaction turn status m e db = .ok (r, db')) : db'.Over turn.id := by
  obtain ⟨hno, -⟩ | ⟨-, db₁, hdb₁, hcases⟩ := Db.finishInTransaction_cases h
  · exact absurd hrun (hno t ht hid)
  refine ⟨(Db.finishInTransaction_evolves hstatus h).schema hs, ?_⟩
  have hmem : { t with status := status, resultMessageId := m, errorMessage := e } ∈ db₁.turns := by
    rw [hdb₁]
    refine List.mem_map.2 ⟨t, ht, ?_⟩
    simp [hid, hrun]
  have hlast : db₁.Evolves db' := by
    obtain ⟨-, rfl⟩ | ⟨latest, -, hins⟩ := hcases
    · exact .refl _
    · exact Db.insertTurn_evolves hins
  obtain ⟨t', ht', hb⟩ := hlast.rows _ hmem
  exact ⟨t', ht', hb.id.trans hid, fun hact => by simpa [hstatus] using hb.active hact⟩

/-- A turn that a call publishes for is over after the call. -/
theorem over_of_publication {i : ℕ} {db : Db} {op : Op} {m : ConversationMessage} (hs : db.Schema)
    (h : publication i db op = some m) : (step db op).Over i := by
  unfold publication at h
  split at h
  · rename_i hop
    rcases step_cases db op with ⟨-, hr⟩ | ⟨r, hx, hr⟩
    · rw [hr] at h; cases h
    rw [hr] at h
    cases op with
    | completeWithMessage turn msg target =>
      obtain ⟨⟨stored, db₁⟩, h1, h2⟩ := bind_ok hx
      obtain ⟨rfl, -⟩ | ⟨⟨t, ht, hid, hrun⟩, stored', db₁', db₂, _, _, -, h3, h4, h5⟩ :=
        Db.completeWithMessage_cases h1
      · cases h2; cases h
      cases h2
      obtain rfl : turn.id = i := by simpa [Op.finishes] using hop
      have hs₁ := (Db.insertMessage_evolves h3).schema hs
      obtain ⟨-, rfl⟩ := Db.insertMessage_eq h3
      -- queuing peers leaves the running turn as it is
      exact Db.over_of_finish ((Db.enqueueForMessage_evolves h4).schema hs₁)
        (Db.enqueueForMessage_mem hs₁ h4 ht (by simp [hrun])) hid hrun rfl h5
    | complete turn m' =>
      obtain ⟨_, -, h2⟩ := bind_ok hx
      obtain ⟨rfl, -⟩ := Prod.mk.inj (Except.ok.inj h2)
      cases h
    | fail turn e =>
      obtain ⟨_, -, h2⟩ := bind_ok hx
      obtain ⟨rfl, -⟩ := Prod.mk.inj (Except.ok.inj h2)
      cases h
    | _ => simp [Op.finishes] at hop
  · cases h

/-- **Conversation turn state machine.**  After any calls: an agent has at most one active
turn in a conversation; whatever is called next, completed and cancelled turns stay so and
failed ones can only become cancelled; a turn publishes at most one message; and when a
turn was cancelled, or its agent removed, before its completion commits, the completion
changes nothing at all, so that it publishes no message and wakes no peer. -/
theorem turn_state_machine {db : Db} (hdb : db.Schema) (ops : List Op) :
    (∀ t ∈ (runOps step db ops).turns, ∀ u ∈ (runOps step db ops).turns,
      t.status.active → u.status.active → t.conversationId = u.conversationId →
        t.agentId = u.agentId → t = u) ∧
    (∀ later, ∀ t ∈ (runOps step db ops).turns,
      ∀ t' ∈ (runOps step db (ops ++ later)).turns, t'.id = t.id →
        t.status.Becomes t'.status) ∧
    (∀ i, (outputs step (publication i) db ops).length ≤ 1) ∧
    (∀ later op turn, op.finishes = some turn → ∀ t ∈ (runOps step db ops).turns,
      t.id = turn.id → t.status = .cancelled →
        step (runOps step db (ops ++ later)) op = runOps step db (ops ++ later) ∧
        ∀ m, reply (runOps step db (ops ++ later)) op ≠ some (.published (some m))) ∧
    (∀ later op turn, op.finishes = some turn → ∀ t ∈ (runOps step db ops).turns,
      t.id = turn.id →
        let removed := ops ++ .removeParticipant t.conversationId "agent" t.agentId :: later
        step (runOps step db removed) op = runOps step db removed ∧
        ∀ m, reply (runOps step db removed) op ≠ some (.published (some m))) := by
  have hs := (runOps_evolves db ops).schema hdb
  refine ⟨?_, ?_, ?_, ?_, ?_⟩
  · intro t ht u hu hta hua hc ha
    exact hs.eq_of_active ht hu hta hua hc ha
  · intro later t ht t' ht' hid
    rw [runOps_append] at ht'
    have he := runOps_evolves (runOps step db ops) later
    obtain ⟨t'', ht'', hb⟩ := he.rows t ht
    rw [(he.schema hs).eq_of_id ht' ht'' (hid.trans hb.id.symm)]
    exact hb.status
  · intro i
    apply @length_outputs_le_one _ _ _ _ _ Db.Schema (Db.Over i)
    · exact fun s o h => (step_evolves s o).schema h
    · exact fun s o h => h.evolves (step_evolves s o)
    · exact fun s o h => h.publication_eq_none o
    · exact fun s o m hi ho => over_of_publication hi ho
    · exact hdb
  · intro later op turn hop t ht hid hc
    rw [runOps_append]
    have hover : (runOps step db ops).Over turn.id :=
      ⟨hs, t, ht, hid, by simp [hc, TurnStatus.active]⟩
    exact (hover.evolves (runOps_evolves _ later)).noop hop
  · intro later op turn hop t ht hid
    have hover : (step (runOps step db ops)
        (.removeParticipant t.conversationId "agent" t.agentId)).Over turn.id := by
      refine ⟨(step_evolves _ _).schema hs, ?_⟩
      rw [← hid]
      exact Db.removeParticipant_over (Db.mem_turnsOf.2 ⟨ht, rfl, rfl⟩)
    dsimp only
    rw [runOps_append, runOps_cons]
    exact (hover.evolves (runOps_evolves _ later)).noop hop

/-- One conversation with two agents in it. -/
def twoAgents : Db where
  agents := [{ id := "atlas" }, { id := "scout" }]
  conversations := [{ id := "c" }]
  participants := [⟨"c", "agent", "atlas"⟩, ⟨"c", "agent", "scout"⟩]

theorem schema_twoAgents : twoAgents.Schema := ⟨List.Pairwise.nil, by simp [twoAgents]⟩

/-- The record of the first turn, as a worker holds it. -/
def firstTurn (trigger : ℕ) : ConversationTurn where
  id := 0
  conversationId := "c"
  agentId := "atlas"
  triggerMessageId := some trigger

/-- A worker that completes its turn twice. -/
def completedTwice : List Op :=
  let hello : SendMessage := ⟨"user", "u", "hello @[AGENT:atlas:Atlas]"⟩
  let answer : SendMessage := ⟨"agent", "atlas", "done, @[AGENT:scout:Scout]"⟩
  [.sendRouted "c" hello none, .claimNext, .completeWithMessage (firstTurn 1) answer none,
    .completeWithMessage (firstTurn 1) answer none]

theorem completedTwice_publishes_once : twoAgents.Schema ∧
    (outputs step (publication 0) twoAgents completedTwice).length ≤ 1 :=
  ⟨schema_twoAgents, (turn_state_machine schema_twoAgents completedTwice).2.2.1 0⟩

end XpressClaw.Conversations
