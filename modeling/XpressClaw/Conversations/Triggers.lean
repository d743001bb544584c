import XpressClaw.Conversations.Prompts

/-!
# The triggers of an agent's turns

While turns are only queued, claimed, completed and put back, the triggers of an agent's turns in a
conversation grow from turn to turn.

* `Db.AnsweredUpTo` — everything up to some trigger is answered, and a turn that is active answers
  something newer.
* `insertTurn_answered`, `enqueue_answered`, `finish_own` — the places where triggers are set.
* `Db.Extends`, `Db.GoesOn` — what the calls do to the messages and to the turns that run.
-/

namespace XpressClaw.Conversations

open Lib

/-! ## Triggers -/

namespace Db

/-- The message is visible in the conversation, and the agent did not write it. -/
def Foreign (db : Db) (c a : String) (k : ℕ) : Prop :=
  ∃ m ∈ db.messages, m.id = k ∧ m.conversationId = c ∧ m.deleted = false ∧ m.ownOf a = false

/-- A turn of the agent: an active one answers something new, and one that is over was
completed. -/
def Sound (db : Db) (c a : String) (last : ℕ) (t : ConversationTurn) : Prop :=
  t.status.active ∧ (∃ k, t.triggerMessageId = some k ∧ last < k ∧ db.Foreign c a k) ∨
    t.status = .completed ∧ ∃ k, t.triggerMessageId = some k ∧ k ≤ last

/-- The agent has answered everything up to a trigger. -/
structure AnsweredUpTo (c a : String) (last : ℕ) (db : Db) : Prop where
  schema : db.Schema
  numbered : db.Numbered
  ascending : Ascending (·.id) db.messages
  participant : db.isParticipant c "agent" a
  sound : ∀ t ∈ db.turnsOf c a, db.Sound c a last t
  reached : last = 0 ∨ ∃ t ∈ db.turnsOf c a, t.status = .completed ∧ t.triggerMessageId = some last

variable {db db' : Db} {c a : String} {last : ℕ}

theorem Foreign.of_messages {k : ℕ} (h : db.Foreign c a k) (hsub : db.messages ⊆ db'.messages) :
    db'.Foreign c a k := by
  obtain ⟨m, hm, hfacts⟩ := h
  exact ⟨m, hsub hm, hfacts⟩

theorem Foreign.lt (hn : db.Numbered) {k : ℕ} (h : db.Foreign c a k) : k < db.nextMessageId := by
  obtain ⟨m, hm, rfl, -⟩ := h
  exact hn.messages m hm

theorem Sound.of_messages {t : ConversationTurn} (h : db.Sound c a last t)
    (hsub : db.messages ⊆ db'.messages) : db'.Sound c a last t := by
  rcases h with ⟨hact, k, hk, hlt, hforeign⟩ | hover
  · exact Or.inl ⟨hact, k, hk, hlt, hforeign.of_messages hsub⟩
  · exact Or.inr hover

theorem ownOf_of_targets {m : ConversationMessage} (h : m.targets a = true) :
    m.ownOf a = false := by
  unfold ConversationMessage.targets messageTargetsAgent at h
  by_cases ha : a = m.senderId
  · rw [if_pos ha] at h
    cases h
  · simp [ConversationMessage.ownOf, Ne.symm ha]

theorem foreign_of_latest {after latest : ℕ}
    (h : db.latestAddressedMessage c a after none = some latest) :
    after < latest ∧ db.Foreign c a latest := by
  obtain ⟨m, hm, hid, hc, hlt, -, hvisible, htargets⟩ := mem_of_latestAddressedMessage h
  exact ⟨hlt, m, hm, hid, hc, hvisible, ownOf_of_targets htargets⟩

/-- What keeps the messages and the agent's completed rows, and leaves its other rows sound. -/
theorem AnsweredUpTo.of_rows (h : db.AnsweredUpTo c a last) (he : db.Evolves db')
    (hmessages : db'.messages = db.messages) (hparticipants : db'.participants = db.participants)
    (hsound : ∀ t ∈ db'.turnsOf c a, db'.Sound c a last t)
    (hkeep : ∀ t ∈ db.turnsOf c a, t.status = .completed → t ∈ db'.turns) :
    db'.AnsweredUpTo c a last where
  schema := he.schema h.schema
  numbered := he.numbered h.numbered
  ascending := by
    rw [hmessages]
    exact h.ascending
  participant := by
    rw [isParticipant, hparticipants]
    exact h.participant
  sound := hsound
  reached := by
    rcases h.reached with hzero | ⟨t, ht, hdone, htrigger⟩
    · exact Or.inl hzero
    · obtain ⟨-, hc, ha⟩ := mem_turnsOf.1 ht
      exact Or.inr ⟨t, mem_turnsOf.2 ⟨hkeep t ht hdone, hc, ha⟩, hdone, htrigger⟩

/-- A turn that is inserted answers something new that the agent did not write. -/
theorem insertTurn_answered {c' a' : String} {k : ℕ} (h : db.AnsweredUpTo c a last)
    (hk : c' = c → a' = a → last < k ∧ db.Foreign c a k)
    (hinsert : db.insertTurn c' a' k = .ok db') : db'.AnsweredUpTo c a last := by
  have he := insertTurn_evolves hinsert
  obtain ⟨-, -, rfl⟩ := insertTurn_eq hinsert
  refine h.of_rows he rfl rfl ?_ fun t ht _ => List.mem_append_left _ (mem_turnsOf.1 ht).1
  intro t ht
  obtain ⟨ht, hc, ha⟩ := mem_turnsOf.1 ht
  rcases List.mem_append.1 ht with ht | ht
  · exact h.sound t (mem_turnsOf.2 ⟨ht, hc, ha⟩)
  · rw [List.mem_singleton.1 ht] at hc ha ⊢
    obtain ⟨hlt, hforeign⟩ := hk hc ha
    exact Or.inl ⟨rfl, k, rfl, hlt, hforeign⟩

/-- **Queuing.**  The agent is queued only for something new that it did not write. -/
theorem enqueue_answered {c' a' : String} {k : ℕ} {r : Bool} (h : db.AnsweredUpTo c a last)
    (hk : c' = c → a' = a → last < k ∧ db.Foreign c a k)
    (henqueue : enqueueInTransaction c' a' k db = .ok (r, db')) : db'.AnsweredUpTo c a last := by
  have he := enqueueInTransaction_evolves henqueue
  obtain ⟨-, ⟨-, rfl⟩ | ⟨-, -, -, rfl⟩ | ⟨u, hu, hqueued, rfl⟩ | hinsert⟩ :=
    enqueueInTransaction_cases henqueue
  · exact h
  · exact h
  · obtain ⟨hu, huc, hua⟩ := mem_turnsOf.1 hu
    refine h.of_rows he rfl rfl ?_ ?_
    · intro t' ht'
      obtain ⟨ht', hc', ha'⟩ := mem_turnsOf.1 ht'
      obtain ⟨t, ht, rfl⟩ := List.mem_map.1 ht'
      by_cases hid : t.id = u.id
      · obtain rfl := h.schema.eq_of_id ht hu hid
        simp only [decide_true, if_true] at hc' ha' ⊢
        obtain ⟨hlt, hforeign⟩ := hk (huc.symm.trans hc') (hua.symm.trans ha')
        rcases h.sound t (mem_turnsOf.2 ⟨ht, hc', ha'⟩) with
          ⟨hact, k₀, hk₀, hlt₀, hforeign₀⟩ | hover
        · refine Or.inl ⟨hact, max t.trigger k, rfl, lt_max_of_lt_right hlt, ?_⟩
          rcases max_choice t.trigger k with hmax | hmax
          · rw [hmax, ConversationTurn.trigger, hk₀]
            exact hforeign₀
          · rw [hmax]
            exact hforeign
        · rw [hqueued] at hover
          cases hover.1
      · simp only [hid, decide_false] at hc' ha' ⊢
        exact h.sound t (mem_turnsOf.2 ⟨ht, hc', ha'⟩)
    · intro t ht hdone
      refine List.mem_map.2 ⟨t, (mem_turnsOf.1 ht).1, if_neg ?_⟩
      rw [decide_eq_true_eq]
      intro hid
      obtain rfl := h.schema.eq_of_id (mem_turnsOf.1 ht).1 hu hid
      rw [hqueued] at hdone
      cases hdone
  · exact insertTurn_answered h hk hinsert

/-- A message that is stored changes no turn. -/
theorem insert_answered {c' : String} {msg : SendMessage} {target : Option String}
    {stored : ConversationMessage} (h : db.AnsweredUpTo c a last)
    (hinsert : db.insertMessage c' msg target = .ok (stored, db')) : db'.AnsweredUpTo c a last := by
  have he := insertMessage_evolves hinsert
  obtain ⟨-, rfl⟩ := insertMessage_eq hinsert
  have hsub : db.messages ⊆ db.messages ++ [db.newMessage c' msg target] :=
    List.subset_append_left _ _
  exact
    { schema := he.schema h.schema
      numbered := he.numbered h.numbered
      ascending := h.ascending.concat fun m hm => h.numbered.messages m hm
      participant := h.participant
      sound := fun t ht => (h.sound t ht).of_messages hsub
      reached := h.reached }

theorem AnsweredUpTo.last_lt (h : db.AnsweredUpTo c a last) : last < db.nextMessageId := by
  rcases h.reached with rfl | ⟨t, ht, -, htrigger⟩
  · exact h.numbered.pos
  · have hlt := h.numbered.triggers t (mem_turnsOf.1 ht).1
    rwa [ConversationTurn.trigger, htrigger] at hlt

theorem enqueueAll_answered {c' : String} {k : ℕ} {agents r : List String}
    (h : db.AnsweredUpTo c a last) (hk : c' = c → a ∈ agents → last < k ∧ db.Foreign c a k)
    (henqueue : enqueueAll c' k agents db = .ok (r, db')) : db'.AnsweredUpTo c a last := by
  induction agents generalizing db r with
  | nil =>
    cases henqueue
    exact h
  | cons b agents ih =>
    obtain ⟨⟨_, db₁⟩, h1, henqueue⟩ := bind_ok henqueue
    obtain ⟨⟨_, db₂⟩, h2, henqueue⟩ := bind_ok henqueue
    cases henqueue
    have hfirst : db₁.AnsweredUpTo c a last :=
      enqueue_answered h (fun hc hb => hk hc (hb ▸ List.mem_cons_self)) h1
    refine ih hfirst (fun hc ha => ?_) h2
    obtain ⟨hlt, hforeign⟩ := hk hc (List.mem_cons_of_mem _ ha)
    obtain ⟨_, _, rfl⟩ := enqueueInTransaction_turnsOnly h1
    exact ⟨hlt, hforeign⟩

theorem not_sender_of_messageTargets {c' st s text : String}
    (h : a ∈ db.messageTargets c' st s text) : a ≠ s := by
  simp only [messageTargets, List.mem_dedup, List.mem_insertionSort, List.mem_filter] at h
  rintro rfl
  simp [messageTargetsAgent] at h

/-- A message that has just been stored is routed. -/
theorem route_answered {c' : String} {msg : SendMessage} {target : Option String}
    {stored : ConversationMessage} {db₁ : Db} {r : List String} (h : db.AnsweredUpTo c a last)
    (hinsert : db.insertMessage c' msg target = .ok (stored, db₁))
    (hroute : enqueueForMessage c' stored.id msg.senderType msg.senderId msg.content db₁ =
      .ok (r, db')) : db'.AnsweredUpTo c a last := by
  have hlast := h.last_lt
  have hstored := insert_answered h hinsert
  obtain ⟨rfl, rfl⟩ := insertMessage_eq hinsert
  unfold enqueueForMessage at hroute
  split at hroute
  · cases hroute
    exact hstored
  · refine enqueueAll_answered hstored (fun hc ha => ⟨hlast, ?_⟩) hroute
    have hne := not_sender_of_messageTargets ha
    refine ⟨_, List.mem_append_right _ (List.mem_singleton.2 rfl), rfl, hc, rfl, ?_⟩
    show (decide (msg.senderType = "agent") && decide (msg.senderId = a)) = false
    simp [Ne.symm hne]

theorem sendRouted_answered {c' : String} {msg : SendMessage} {target : Option String}
    {r : ℕ × List String} (h : db.AnsweredUpTo c a last)
    (hsend : sendRoutedMessage c' msg target db = .ok (r, db')) : db'.AnsweredUpTo c a last := by
  obtain ⟨stored, db₁, queued, hinsert, hroute⟩ := sendRoutedMessage_eq hsend
  exact route_answered h hinsert hroute

theorem sendTargeted_answered {c' target : String} {msg : SendMessage} {r : ℕ × List String}
    (h : db.AnsweredUpTo c a last) (hothers : ¬ (msg.senderType = "agent" ∧ msg.senderId = target))
    (hsend : sendTargetedRoutedMessage c' target msg db = .ok (r, db')) :
    db'.AnsweredUpTo c a last := by
  obtain ⟨stored, db₁, q, hinsert, henqueue⟩ := sendTargetedRoutedMessage_eq hsend
  have hlast := h.last_lt
  have hstored := insert_answered h hinsert
  obtain ⟨rfl, rfl⟩ := insertMessage_eq hinsert
  refine enqueue_answered hstored (fun hc ha => ⟨hlast, ?_⟩) henqueue
  refine ⟨_, List.mem_append_right _ (List.mem_singleton.2 rfl), rfl, hc, rfl, ?_⟩
  rw [← ha]
  show (decide (msg.senderType = "agent") && decide (msg.senderId = target)) = false
  simpa using hothers

/-! ## Finishing -/

/-- The turn that is finished is a running row of the table. -/
def Runs (db : Db) (turn : ConversationTurn) : Prop := turn ∈ db.turns ∧ turn.status = .running

theorem AnsweredUpTo.of_runs {turn : ConversationTurn} (h : db.AnsweredUpTo c a last)
    (hturn : db.Runs turn) (hc : turn.conversationId = c) (ha : turn.agentId = a) :
    turn.triggerMessageId = some turn.trigger ∧ last < turn.trigger ∧
      db.Foreign c a turn.trigger := by
  rcases h.sound turn (mem_turnsOf.2 ⟨hturn.1, hc, ha⟩) with ⟨-, k, hk, hnew⟩ | ⟨hdone, -⟩
  · have htrigger : turn.trigger = k := by rw [ConversationTurn.trigger, hk, Option.getD_some]
    rw [htrigger]
    exact ⟨hk, hnew⟩
  · rw [hturn.2] at hdone
    cases hdone

theorem mem_endTurn (hs : db.Schema) {turn t' : ConversationTurn} {status : TurnStatus}
    {m : Option ℕ} {e : Option String} (hturn : db.Runs turn)
    (ht' : t' ∈ (db.endTurn turn.id status m e).turns) :
    (t' ∈ db.turns ∧ t'.id ≠ turn.id) ∨
      t' = { turn with status := status, resultMessageId := m, errorMessage := e } := by
  obtain ⟨t, ht, rfl⟩ := List.mem_map.1 ht'
  by_cases hid : t.id = turn.id
  · obtain rfl := hs.eq_of_id ht hturn.1 hid
    right
    rw [if_pos (by simp [hturn.2])]
  · left
    rw [if_neg (by simp [hid])]
    exact ⟨ht, hid⟩

theorem mem_endTurn_of_ne {turn t : ConversationTurn} {status : TurnStatus} {m : Option ℕ}
    {e : Option String} (ht : t ∈ db.turns) (hid : t.id ≠ turn.id) :
    t ∈ (db.endTurn turn.id status m e).turns :=
  List.mem_map.2 ⟨t, ht, if_neg (by simp [hid])⟩

/-- Another turn is finished. -/
theorem finish_other {turn : ConversationTurn} {m : Option ℕ} {r : Bool}
    (h : db.AnsweredUpTo c a last) (hturn : db.Runs turn)
    (hother : ¬ (turn.conversationId = c ∧ turn.agentId = a))
    (hfinish : finishInTransaction turn .completed m none db = .ok (r, db')) :
    db'.AnsweredUpTo c a last := by
  have hended : (db.endTurn turn.id .completed m none).AnsweredUpTo c a last := by
    refine h.of_rows (endTurn_evolves rfl) rfl rfl ?_ ?_
    · intro t ht
      obtain ⟨ht, hc, ha⟩ := mem_turnsOf.1 ht
      rcases mem_endTurn h.schema hturn ht with ⟨ht, -⟩ | rfl
      · exact h.sound t (mem_turnsOf.2 ⟨ht, hc, ha⟩)
      · exact absurd ⟨hc, ha⟩ hother
    · intro t ht hdone
      obtain ⟨ht, hc, ha⟩ := mem_turnsOf.1 ht
      refine mem_endTurn_of_ne ht fun hid => ?_
      obtain rfl := h.schema.eq_of_id ht hturn.1 hid
      exact hother ⟨hc, ha⟩
  obtain ⟨hnot, -⟩ | ⟨-, _, rfl, ⟨-, rfl⟩ | ⟨latest, -, hinsert⟩⟩ :=
    finishInTransaction_cases hfinish
  · exact absurd hturn.2 (hnot turn hturn.1 rfl)
  · exact hended
  · exact insertTurn_answered hended (fun hc ha => absurd ⟨hc, ha⟩ hother) hinsert

/-- **The agent finishes a turn.**  It has answered everything up to the turn's trigger, and the
turn that follows answers something newer. -/
theorem finish_own {turn : ConversationTurn} {m : Option ℕ} {r : Bool}
    (h : db.AnsweredUpTo c a last) (hturn : db.Runs turn) (hc : turn.conversationId = c)
    (ha : turn.agentId = a) (hfinish : finishInTransaction turn .completed m none db =
      .ok (r, db')) :
    db'.AnsweredUpTo c a turn.trigger := by
  have hactive : turn.status.active := TurnStatus.active_iff.2 (Or.inr hturn.2)
  obtain ⟨htrigger, hlt, -⟩ := h.of_runs hturn hc ha
  have hended : (db.endTurn turn.id .completed m none).AnsweredUpTo c a turn.trigger :=
    { schema := (endTurn_evolves rfl).schema h.schema
      numbered := (endTurn_evolves rfl).numbered h.numbered
      ascending := h.ascending
      participant := h.participant
      sound := by
        intro t ht
        obtain ⟨ht, hc', ha'⟩ := mem_turnsOf.1 ht
        rcases mem_endTurn h.schema hturn ht with ⟨ht, hid⟩ | rfl
        · rcases h.sound t (mem_turnsOf.2 ⟨ht, hc', ha'⟩) with ⟨hact, -⟩ | ⟨hdone, j, hj, hle⟩
          · have hsame := h.schema.eq_of_active ht hturn.1 hact hactive (hc'.trans hc.symm)
              (ha'.trans ha.symm)
            exact absurd (congrArg _ hsame) hid
          · exact Or.inr ⟨hdone, j, hj, hle.trans hlt.le⟩
        · exact Or.inr ⟨rfl, turn.trigger, htrigger, le_rfl⟩
      reached := by
        refine Or.inr ⟨_, mem_turnsOf.2 ⟨List.mem_map.2 ⟨turn, hturn.1, rfl⟩, ?_⟩, ?_⟩
        · simp [hturn.2, hc, ha]
        · simp [hturn.2, htrigger] }
  obtain ⟨hnot, -⟩ | ⟨-, _, rfl, ⟨-, rfl⟩ | ⟨latest, hlatest, hinsert⟩⟩ :=
    finishInTransaction_cases hfinish
  · exact absurd hturn.2 (hnot turn hturn.1 rfl)
  · exact hended
  · rw [hc, ha] at hlatest hinsert
    exact insertTurn_answered hended (fun _ _ => foreign_of_latest hlatest) hinsert

/-! ## Claiming and recovering -/

/-- The agent stays, so its turns are started and put back, and nothing else happens to them. -/
theorem AnsweredUpTo.of_update {w : ConversationTurn → Bool}
    {set : ConversationTurn → ConversationTurn} (h : db.AnsweredUpTo c a last)
    (he : db.Evolves (db.updateTurns w set))
    (hset : ∀ t ∈ db.turnsOf c a, w t = true → t.status.active ∧ (set t).status.active ∧
      (set t).triggerMessageId = t.triggerMessageId)
    (hids : ∀ t, (set t).conversationId = t.conversationId ∧ (set t).agentId = t.agentId) :
    (db.updateTurns w set).AnsweredUpTo c a last := by
  refine h.of_rows he rfl rfl ?_ ?_
  · intro t' ht'
    obtain ⟨ht', hc, ha⟩ := mem_turnsOf.1 ht'
    obtain ⟨t, ht, rfl⟩ := List.mem_map.1 ht'
    by_cases hw : w t = true
    · simp only [hw, if_true] at hc ha ⊢
      have hmem : t ∈ db.turnsOf c a :=
        mem_turnsOf.2 ⟨ht, (hids t).1.symm.trans hc, (hids t).2.symm.trans ha⟩
      obtain ⟨hactive, hactive', htrigger⟩ := hset t hmem hw
      rcases h.sound t hmem with ⟨-, k, hk, hlt, hforeign⟩ | ⟨hdone, -⟩
      · exact Or.inl ⟨hactive', k, htrigger.trans hk, hlt, hforeign⟩
      · rw [hdone] at hactive
        cases hactive
    · simp only [hw] at hc ha ⊢
      exact h.sound t (mem_turnsOf.2 ⟨ht, hc, ha⟩)
  · intro t ht hdone
    refine List.mem_map.2 ⟨t, (mem_turnsOf.1 ht).1, if_neg fun hw => ?_⟩
    have hactive := (hset t ht hw).1
    rw [hdone] at hactive
    cases hactive

theorem claimNext_answered (h : db.AnsweredUpTo c a last) :
    db.claimNext.2.AnsweredUpTo c a last := by
  have hstray : db.cancelStrayTurns.AnsweredUpTo c a last := by
    refine h.of_update (cancelStrayTurns_evolves db) (fun t ht hw => ?_) fun _ => ⟨rfl, rfl⟩
    obtain ⟨-, hc, ha⟩ := mem_turnsOf.1 ht
    simp [hasParticipant, hc, ha, h.participant] at hw
  rcases claimNext_cases db with hclaim | ⟨next, -, -, hclaim⟩
  · rw [hclaim]
    exact hstray
  · rw [hclaim]
    refine hstray.of_update (startTurn_evolves _ _) (fun t _ hw => ?_) fun _ => ⟨rfl, rfl⟩
    simp only [Bool.and_eq_true, decide_eq_true_eq] at hw
    exact ⟨TurnStatus.active_iff.2 (Or.inl hw.2), rfl, rfl⟩

theorem recover_answered (h : db.AnsweredUpTo c a last) : db.recover.AnsweredUpTo c a last := by
  refine h.of_update (recover_evolves db) (fun t _ hw => ?_) fun _ => ⟨rfl, rfl⟩
  exact ⟨TurnStatus.active_iff.2 (Or.inr (of_decide_eq_true hw)), rfl, rfl⟩

/-! ## What goes on -/

/-- Messages are only added, under new numbers. -/
def Extends (db db' : Db) : Prop :=
  ∃ more, db'.messages = db.messages ++ more ∧ ∀ m ∈ more, db.nextMessageId ≤ m.id

/-- Turns that run go on. -/
def GoesOn (db db' : Db) : Prop := ∀ t, db.Runs t → db'.Runs t

theorem Extends.of_eq (h : db'.messages = db.messages) : db.Extends db' :=
  ⟨[], by rw [h, List.append_nil], by simp⟩

theorem Extends.turnsOnly {db'' : Db} (h : db.Extends db') (h' : db'.TurnsOnly db'') :
    db.Extends db'' := by
  obtain ⟨more, hmore, hnew⟩ := h
  obtain ⟨_, _, rfl⟩ := h'
  exact ⟨more, hmore, hnew⟩

theorem insertMessage_extends {c' : String} {msg : SendMessage} {target : Option String}
    {stored : ConversationMessage} (h : db.insertMessage c' msg target = .ok (stored, db')) :
    db.Extends db' ∧ db.GoesOn db' := by
  obtain ⟨-, rfl⟩ := insertMessage_eq h
  refine ⟨⟨_, rfl, fun m hm => ?_⟩, fun t ht => ht⟩
  rw [List.mem_singleton.1 hm]
  exact le_rfl

theorem route_extends {c' : String} {msg : SendMessage} {target : Option String}
    {stored : ConversationMessage} {db₁ : Db} {r : List String} (hs : db.Schema)
    (hinsert : db.insertMessage c' msg target = .ok (stored, db₁))
    (hroute : enqueueForMessage c' stored.id msg.senderType msg.senderId msg.content db₁ =
      .ok (r, db')) : db.Extends db' ∧ db.GoesOn db' := by
  obtain ⟨hextends, hgoes⟩ := insertMessage_extends hinsert
  have hs₁ := (insertMessage_evolves hinsert).schema hs
  refine ⟨hextends.turnsOnly (enqueueForMessage_frame (c := c') (a := stored.senderId) hroute).1,
    fun t ht => ?_⟩
  obtain ⟨hmem, hrun⟩ := hgoes t ht
  exact ⟨enqueueForMessage_mem hs₁ hroute hmem (by rw [hrun]; exact fun h => by cases h), hrun⟩

theorem sendTargeted_extends {c' target : String} {msg : SendMessage} {r : ℕ × List String}
    (hs : db.Schema) (hsend : sendTargetedRoutedMessage c' target msg db = .ok (r, db')) :
    db.Extends db' ∧ db.GoesOn db' := by
  obtain ⟨stored, db₁, q, hinsert, henqueue⟩ := sendTargetedRoutedMessage_eq hsend
  obtain ⟨hextends, hgoes⟩ := insertMessage_extends hinsert
  have hs₁ := (insertMessage_evolves hinsert).schema hs
  refine ⟨hextends.turnsOnly (enqueueInTransaction_turnsOnly henqueue), fun t ht => ?_⟩
  obtain ⟨hmem, hrun⟩ := hgoes t ht
  exact ⟨enqueueInTransaction_mem hs₁ henqueue hmem (by rw [hrun]; exact fun h => by cases h), hrun⟩

theorem updateTurns_goesOn {w : ConversationTurn → Bool} {set : ConversationTurn → ConversationTurn}
    (h : ∀ t, w t = true → t.status = .queued) : db.GoesOn (db.updateTurns w set) := by
  rintro t ⟨ht, hrun⟩
  refine ⟨List.mem_map.2 ⟨t, ht, if_neg fun hw => ?_⟩, hrun⟩
  rw [h t hw] at hrun
  cases hrun

theorem claimNext_goesOn : db.GoesOn db.claimNext.2 := by
  have hstray : db.GoesOn db.cancelStrayTurns := by
    refine updateTurns_goesOn fun t hw => ?_
    simp only [Bool.and_eq_true, decide_eq_true_eq] at hw
    exact hw.1
  rcases claimNext_cases db with hclaim | ⟨next, -, -, hclaim⟩
  · rw [hclaim]
    exact hstray
  · rw [hclaim]
    have hstart : db.cancelStrayTurns.GoesOn (db.cancelStrayTurns.startTurn next.id) := by
      refine updateTurns_goesOn fun t hw => ?_
      simp only [Bool.and_eq_true, decide_eq_true_eq] at hw
      exact hw.2
    exact fun t ht => hstart t (hstray t ht)

/-- The turn that is claimed runs. -/
theorem runs_of_claimed {t : ConversationTurn} (hs : db.Schema)
    (h : db.claimNext.1 = some t) : db.claimNext.2.Runs t := by
  rcases claimNext_cases db with hclaim | ⟨next, hnext, hqueued, hclaim⟩
  · rw [hclaim] at h
    cases h
  · rw [hclaim] at h ⊢
    have hmem := List.mem_of_find?_eq_some h
    have hid : t.id = next.id := by simpa using List.find?_some h
    refine ⟨hmem, ?_⟩
    obtain ⟨u, hu, rfl⟩ := List.mem_map.1 hmem
    by_cases hw : (decide (u.id = next.id) && decide (u.status = .queued)) = true
    · rw [if_pos hw]
    · rw [if_neg hw] at hid
      have hs' := (cancelStrayTurns_evolves db).schema hs
      obtain rfl := hs'.eq_of_id hu hnext hid
      simp [hqueued] at hw

theorem finish_goesOn {turn t : ConversationTurn} {m : Option ℕ} {r : Bool}
    (h : finishInTransaction turn .completed m none db = .ok (r, db')) (ht : db.Runs t)
    (hid : t.id ≠ turn.id) : db'.Runs t := by
  have hended : t ∈ (db.endTurn turn.id .completed m none).turns := mem_endTurn_of_ne ht.1 hid
  obtain ⟨-, rfl⟩ | ⟨-, _, rfl, ⟨-, rfl⟩ | ⟨latest, -, hinsert⟩⟩ := finishInTransaction_cases h
  · exact ht
  · exact ⟨hended, ht.2⟩
  · obtain ⟨-, -, rfl⟩ := insertTurn_eq hinsert
    exact ⟨List.mem_append_left _ hended, ht.2⟩

theorem finish_eq_true {turn : ConversationTurn} {status : TurnStatus} {m : Option ℕ}
    {e : Option String} {r : Bool} (hturn : db.Runs turn)
    (h : finishInTransaction turn status m e db = .ok (r, db')) : r = true := by
  have hruns : db.turns.any (fun t => t.id = turn.id && t.status = .running) = true :=
    List.any_eq_true.2 ⟨turn, hturn.1, by simp [hturn.2]⟩
  unfold finishInTransaction at h
  rw [hruns] at h
  split at h
  · rename_i hno
    cases hno
  split at h
  · cases h
  dsimp only at h
  split at h
  · cases h
    rfl
  · obtain ⟨_, -, h⟩ := bind_ok h
    cases h
    rfl

/-- **A response is published.** -/
theorem complete_answered {turn : ConversationTurn} {msg : SendMessage}
    {stored : ConversationMessage} (h : db.AnsweredUpTo c a last) (hturn : db.Runs turn)
    (hcomplete : completeWithMessage turn msg none db = .ok (some stored, db')) :
    db'.AnsweredUpTo c a
        (if turn.conversationId = c ∧ turn.agentId = a then turn.trigger else last) ∧
      db.Extends db' ∧ ∀ t, db.Runs t → t.id ≠ turn.id → db'.Runs t := by
  obtain ⟨hnone, -⟩ | ⟨-, _, db₁, db₂, q, q', -, hinsert, hroute, hfinish⟩ :=
    completeWithMessage_cases hcomplete
  · cases hnone
  have hrouted := route_answered h hinsert hroute
  obtain ⟨hextends, hgoes⟩ := route_extends h.schema hinsert hroute
  refine ⟨?_, hextends.turnsOnly (finishInTransaction_frame (c := c) (a := a) (m := 0)
    rfl hfinish).1,
    fun t ht hid => finish_goesOn hfinish (hgoes t ht) hid⟩
  by_cases hown : turn.conversationId = c ∧ turn.agentId = a
  · rw [if_pos hown]
    exact finish_own hrouted (hgoes turn hturn) hown.1 hown.2 hfinish
  · rw [if_neg hown]
    exact finish_other hrouted (hgoes turn hturn) hown hfinish

end Db

end XpressClaw.Conversations
