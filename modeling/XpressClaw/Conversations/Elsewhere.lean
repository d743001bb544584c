import XpressClaw.Conversations.Lifecycle

/-!
# What a deletion leaves alone

A message that is deleted stops and queues turns of its own conversation.  The updates find
their rows by the number of a turn, which belongs to one conversation only; so the turns of every
other conversation stay as they are.
-/

namespace XpressClaw.Conversations.Db

open Lib

variable {c : String} {db db' db'' : Db}

/-- The turns of the other conversations. -/
def elsewhere (c : String) (db : Db) : List ConversationTurn :=
  db.turns.filter (·.conversationId ≠ c)

/-- Only turns of one conversation changed. -/
structure Within (c : String) (db db' : Db) : Prop where
  evolves : db.Evolves db'
  elsewhere : db.Schema → db'.elsewhere c = db.elsewhere c

theorem Within.refl (c : String) (db : Db) : Within c db db :=
  ⟨.refl db, fun _ => rfl⟩

theorem Within.trans (h : Within c db db') (h' : Within c db' db'') : Within c db db'' := by
  refine ⟨h.evolves.trans h'.evolves, fun hs => ?_⟩
  rw [h'.elsewhere (h.evolves.schema hs), h.elsewhere hs]

/-- An update of rows of the conversation. -/
theorem updateTurns_elsewhere {w : ConversationTurn → Bool}
    {set : ConversationTurn → ConversationTurn}
    (hw : ∀ t ∈ db.turns, w t = true → t.conversationId = c)
    (hset : ∀ t, (set t).conversationId = t.conversationId) :
    (db.updateTurns w set).elsewhere c = db.elsewhere c := by
  unfold elsewhere updateTurns
  rw [List.filter_map]
  have hrows : db.turns.filter ((fun t => decide (t.conversationId ≠ c)) ∘
      fun t => if w t then set t else t) = db.turns.filter (·.conversationId ≠ c) := by
    refine List.filter_congr fun t _ => ?_
    by_cases h : w t = true <;> simp [h, hset]
  rw [hrows]
  conv_rhs => rw [← List.map_id (db.turns.filter _)]
  refine List.map_congr_left fun t ht => ?_
  obtain ⟨ht, hne⟩ := List.mem_filter.1 ht
  have hnot : ¬ w t = true := fun h => (of_decide_eq_true hne) (hw t ht h)
  simp [hnot]

theorem conversationId_of_id (hs : db.Schema) {t u : ConversationTurn} (ht : t ∈ db.turns)
    (hc : t.conversationId = c) (hu : u ∈ db.turns) (hid : u.id = t.id) :
    u.conversationId = c := by
  rw [hs.eq_of_id hu ht hid, hc]

theorem retargetQueuedTurnBeforeMessage_within {id : ℕ} (a : String) (before : ℕ)
    (hid : db.Schema → ∀ u ∈ db.turns, u.id = id → u.conversationId = c) :
    Within c db (db.retargetQueuedTurnBeforeMessage c id a before) := by
  refine ⟨retargetQueuedTurnBeforeMessage_evolves c id a before, fun hs => ?_⟩
  unfold retargetQueuedTurnBeforeMessage
  dsimp only
  split
  · rfl
  · refine updateTurns_elsewhere (fun u hu hw => ?_) fun _ => rfl
    simp only [Bool.and_eq_true, decide_eq_true_eq] at hw
    exact hid hs u hu hw.1.1

/-- The numbers of turns of the conversation stay with it. -/
theorem retargetAll_within (m : ℕ) (db : Db) : Within c db (db.retargetAll c m) := by
  unfold retargetAll
  have hloop : ∀ (ts : List ConversationTurn) (d : Db), db.Evolves d →
      (∀ t ∈ ts, t ∈ db.turns ∧ t.conversationId = c) →
      Within c d (ts.foldl (fun d t =>
        d.retargetQueuedTurnBeforeMessage c t.id t.agentId m) d) := by
    intro ts
    induction ts with
    | nil => exact fun d _ _ => .refl c d
    | cons t ts ih =>
      intro d hd hts
      obtain ⟨ht, hc⟩ := hts t List.mem_cons_self
      have hstep : Within c d (d.retargetQueuedTurnBeforeMessage c t.id t.agentId m) := by
        refine retargetQueuedTurnBeforeMessage_within _ _ fun hs u hu hid => ?_
        obtain ⟨t', ht', hbecomes⟩ := hd.rows t ht
        exact conversationId_of_id hs ht' (hbecomes.conversationId.trans hc) hu
          (hid.trans hbecomes.id.symm)
      exact hstep.trans (ih _ (hd.trans hstep.evolves) fun u hu =>
        hts u (List.mem_cons_of_mem _ hu))
  refine hloop _ db (.refl db) fun t ht => ?_
  obtain ⟨ht, hq⟩ := List.mem_filter.1 ht
  simp only [QueuedFor, Bool.and_eq_true, decide_eq_true_eq] at hq
  exact ⟨ht, hq.1.1⟩

theorem dismissFailed_within (m : ℕ) (a : String) (db : Db) :
    Within c db (db.dismissFailed c m a) := by
  refine ⟨dismissFailed_evolves c m db a, fun _ =>
    updateTurns_elsewhere (fun t _ hw => ?_) fun _ => rfl⟩
  simp only [ConsumedBy, Bool.and_eq_true, decide_eq_true_eq] at hw
  exact hw.1.1.1

theorem dismissAll_within (m : ℕ) (agents : List String) (db : Db) :
    Within c db (agents.foldl (dismissFailed c m) db) := by
  induction agents generalizing db with
  | nil => exact .refl c db
  | cons a agents ih => exact (dismissFailed_within m a db).trans (ih _)

theorem cancelConsumed_within (m : ℕ) (db : Db) : Within c db (db.cancelConsumed c m) := by
  refine ⟨cancelConsumed_evolves c m db, fun _ =>
    updateTurns_elsewhere (fun t _ hw => ?_) fun _ => rfl⟩
  simp only [QueuedFor, ConsumedBy, Bool.or_eq_true, Bool.and_eq_true, decide_eq_true_eq] at hw
  rcases hw with hw | hw
  · exact hw.1.1
  · exact hw.1.1

theorem forgetResult_within (m : ℕ) (db : Db) : Within c db (db.forgetResult c m) := by
  refine ⟨forgetResult_evolves c m db, fun _ =>
    updateTurns_elsewhere (fun t _ hw => ?_) fun _ => rfl⟩
  simp only [Bool.and_eq_true, decide_eq_true_eq] at hw
  exact hw.1

theorem enqueueInTransaction_within {a : String} {m : ℕ} {r : Bool}
    (h : enqueueInTransaction c a m db = .ok (r, db')) : Within c db db' := by
  refine ⟨enqueueInTransaction_evolves h, fun hs => ?_⟩
  obtain ⟨-, ⟨-, heq⟩ | ⟨-, -, -, heq⟩ | ⟨t, ht, -, heq⟩ | h⟩ := enqueueInTransaction_cases h
  · rw [heq]
  · rw [heq]
  · rw [heq]
    obtain ⟨ht, hc, -⟩ := mem_turnsOf.1 ht
    refine updateTurns_elsewhere (fun u hu hw => ?_) fun _ => rfl
    exact conversationId_of_id hs ht hc hu (of_decide_eq_true hw)
  · obtain ⟨-, -, rfl⟩ := insertTurn_eq h
    simp [elsewhere, newTurn]

theorem requeueAll_within {m : ℕ} {agents : List String}
    (h : requeueAll c m agents db = .ok db') : Within c db db' := by
  induction agents generalizing db with
  | nil =>
    cases h
    exact .refl c _
  | cons a agents ih =>
    rw [requeueAll] at h
    split at h
    · exact ih h
    · obtain ⟨⟨_, db₁⟩, henqueue, h⟩ := bind_ok h
      exact (enqueueInTransaction_within henqueue).trans (ih h)

/-- **A deleted message changes turns of its own conversation only.** -/
theorem reconcileMessageDeletionTurns_within {m : ℕ} {r : List ℕ}
    (h : reconcileMessageDeletionTurns c m db = .ok (r, db')) : Within c db db' := by
  obtain ⟨db₁, db₂, rfl, hrequeue, rfl⟩ := reconcileMessageDeletionTurns_eq h
  refine (retargetAll_within m db).trans (.trans ?_
    ((requeueAll_within hrequeue).trans (forgetResult_within m db₂)))
  exact (dismissAll_within m _ _).trans (cancelConsumed_within m _)

end XpressClaw.Conversations.Db
