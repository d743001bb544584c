import XpressClaw.Conversations.Lifecycle

/-!
# No addressed message is stranded

A message is owed to an agent while it is visible and addresses the agent.  The queue
covers it with a turn: one whose trigger is the message or a newer one, or an active one.

* `Db.Owed.le_latest` — the search for the latest addressed message never stops short of a
  message that is owed.
* `Db.Rows` — a relation between each row and what became of it; `RowHolds` for the calls
  that can only improve an agent's rows, `RowCarries` for what every call keeps of them.
* `enqueue_covers`, `finish_covers`, `stop_covers`, `reconcile_covers` — the four places where
  a turn that covered a message alone may go, and what takes its place.
* `addressed_message_covered` — **every run covers every addressed message**, except one
  whose failed turn a deletion dismissed, and one that arrived behind a turn which was put
  back in the queue and cancelled there.
-/

namespace XpressClaw.Conversations

open Lib

namespace Db

/-- The message is stored in the conversation, visible, and addresses the agent. -/
def Owed (db : Db) (c a : String) (m : ℕ) : Prop :=
  ∃ msg ∈ db.messages, msg.id = m ∧ msg.conversationId = c ∧ msg.deleted = false ∧ msg.targets a

/-- Some turn of the agent has its trigger at or after the message, or is active. -/
def Covered (db : Db) (c a : String) (m : ℕ) : Prop :=
  ∃ t ∈ db.turnsOf c a, m ≤ t.trigger ∨ t.status.active

/-- From `db` to `db'` a failed turn of the agent that had both messages in its prompt was
dismissed to a prompt before the message `m`. -/
def Dismissed (d : ℕ) (db db' : Db) (c a : String) (m : ℕ) : Prop :=
  ∃ t ∈ db.turnsOf c a, t.status = .failed ∧ d ≤ t.trigger ∧ m ≤ t.trigger ∧
    ∃ t' ∈ db'.turnsOf c a, t'.id = t.id ∧ t'.status = .cancelled ∧ t'.trigger < m

/-- From `db` to `db'` a queued turn of the agent was cancelled whose trigger is older than
a message that was there. -/
def PassedOver (db db' : Db) (c a : String) (m : ℕ) : Prop :=
  db.Owed c a m ∧ ∃ t ∈ db.turnsOf c a, t.status = .queued ∧ t.trigger < m ∧
    ∃ t' ∈ db'.turns, t'.id = t.id ∧ t'.status = .cancelled

variable {db db' : Db} {c a : String} {m : ℕ}

/-- **The search does not stop short.**  The newest addressed message after an older
one is the message that is owed, or a newer one. -/
theorem Owed.le_latest (h : db.Owed c a m) {after : ℕ} {b : Option ℕ} (ha : after < m)
    (hb : b.all (m < ·)) :
    ∃ latest, db.latestAddressedMessage c a after b = some latest ∧ m ≤ latest := by
  obtain ⟨msg, hmsg, rfl, hc, hd, ht⟩ := h
  have hmem : msg.id ∈ (db.messages.filter fun m => m.conversationId = c && after < m.id &&
      b.all (m.id < ·) && !m.deleted && m.targets a).map (·.id) := by
    apply List.mem_map_of_mem
    simp [hmsg, hc, hd, ht, ha, hb]
  cases hl : db.latestAddressedMessage c a after b with
  | none =>
    have hnil := List.max?_eq_none_iff.1 hl
    rw [hnil] at hmem
    cases hmem
  | some latest => exact ⟨latest, rfl, (List.max?_eq_some_iff.1 hl).2 _ hmem⟩

/-! ## What becomes of the rows -/

/-- Every row is still there, and is related to what it was. -/
def Rows (P : ConversationTurn → ConversationTurn → Prop) (db db' : Db) : Prop :=
  ∀ t ∈ db.turns, ∃ t' ∈ db'.turns, t'.id = t.id ∧ P t t'

theorem Rows.trans {P : ConversationTurn → ConversationTurn → Prop} {db'' : Db}
    (hP : ∀ t u v, P t u → P u v → P t v) (h : Rows P db db') (h' : Rows P db' db'') :
    Rows P db db'' := by
  intro t ht
  obtain ⟨u, hu, hid, h1⟩ := h t ht
  obtain ⟨v, hv, hid', h2⟩ := h' u hu
  exact ⟨v, hv, hid'.trans hid, hP _ _ _ h1 h2⟩

theorem Rows.mono {P Q : ConversationTurn → ConversationTurn → Prop} (h : Rows P db db')
    (hPQ : ∀ t t', P t t' → Q t t') : Rows Q db db' := by
  intro t ht
  obtain ⟨t', ht', hid, h1⟩ := h t ht
  exact ⟨t', ht', hid, hPQ _ _ h1⟩

theorem Rows.of_turns_eq {P : ConversationTurn → ConversationTurn → Prop} (hP : ∀ t, P t t)
    (h : db'.turns = db.turns) : Rows P db db' :=
  fun t ht => ⟨t, h ▸ ht, rfl, hP t⟩

theorem updateTurns_rows {P : ConversationTurn → ConversationTurn → Prop} (hP : ∀ t, P t t)
    {w : ConversationTurn → Bool} {set : ConversationTurn → ConversationTurn}
    (hid : ∀ t, (set t).id = t.id) (h : ∀ t ∈ db.turns, w t → P t (set t)) :
    Rows P db (db.updateTurns w set) := by
  intro t ht
  refine ⟨_, List.mem_map_of_mem ht, ?_⟩
  by_cases hw : w t
  · simp only [hw, if_true]
    exact ⟨hid t, h t ht hw⟩
  · simp only [hw]
    exact ⟨rfl, hP t⟩

theorem insertTurn_rows {P : ConversationTurn → ConversationTurn → Prop} (hP : ∀ t, P t t)
    {c' a' : String} {k : ℕ} (h : db.insertTurn c' a' k = .ok db') : Rows P db db' := by
  obtain ⟨-, -, rfl⟩ := insertTurn_eq h
  exact fun t ht => ⟨t, List.mem_append_left _ ht, rfl, hP t⟩

theorem foldl_rows {P : ConversationTurn → ConversationTurn → Prop} (hP : ∀ t, P t t)
    (htrans : ∀ t u v, P t u → P u v → P t v) {α : Type} {f : Db → α → Db}
    (h : ∀ db a, Rows P db (f db a)) (as : List α) (db : Db) : Rows P db (as.foldl f db) := by
  induction as generalizing db with
  | nil => exact .of_turns_eq hP rfl
  | cons a as ih => exact (h db a).trans htrans (ih _)

/-- A row of the agent that is active if it was, with a trigger that is not older. -/
def RowHolds (c a : String) (t t' : ConversationTurn) : Prop :=
  t.conversationId = c → t.agentId = a → t'.conversationId = c ∧ t'.agentId = a ∧
    (t'.status.active ↔ t.status.active) ∧ t.trigger ≤ t'.trigger

/-- A row of the agent that, if it is still active, has not lost the message. -/
def RowCarries (c a : String) (m : ℕ) (t t' : ConversationTurn) : Prop :=
  t.conversationId = c → t.agentId = a → t'.conversationId = c ∧ t'.agentId = a ∧
    (t'.status.active → t.status.active ∧ (m ≤ t.trigger → m ≤ t'.trigger))

theorem RowHolds.refl (t : ConversationTurn) : RowHolds c a t t :=
  fun h h' => ⟨h, h', Iff.rfl, le_rfl⟩

theorem RowHolds.trans (t u v : ConversationTurn) (h : RowHolds c a t u) (h' : RowHolds c a u v) :
    RowHolds c a t v := by
  intro hc ha
  obtain ⟨h1, h2, h3, h4⟩ := h hc ha
  obtain ⟨h5, h6, h7, h8⟩ := h' h1 h2
  exact ⟨h5, h6, h7.trans h3, h4.trans h8⟩

theorem RowCarries.refl (t : ConversationTurn) : RowCarries c a m t t :=
  fun h h' => ⟨h, h', fun hact => ⟨hact, fun hm => hm⟩⟩

theorem RowCarries.trans (t u v : ConversationTurn) (h : RowCarries c a m t u)
    (h' : RowCarries c a m u v) : RowCarries c a m t v := by
  intro hc ha
  obtain ⟨h1, h2, h3⟩ := h hc ha
  obtain ⟨h4, h5, h6⟩ := h' h1 h2
  refine ⟨h4, h5, fun hv => ?_⟩
  obtain ⟨h7, h8⟩ := h6 hv
  obtain ⟨h9, h10⟩ := h3 h7
  exact ⟨h9, fun hm => h8 (h10 hm)⟩

theorem RowHolds.carries (t t' : ConversationTurn) (h : RowHolds c a t t') :
    RowCarries c a m t t' := by
  intro hc ha
  obtain ⟨h1, h2, h3, h4⟩ := h hc ha
  exact ⟨h1, h2, fun hact => ⟨h3.1 hact, fun hm => hm.trans h4⟩⟩

theorem Covered.holds (h : db.Covered c a m) (hr : Rows (RowHolds c a) db db') :
    db'.Covered c a m := by
  obtain ⟨t, ht, hcov⟩ := h
  obtain ⟨ht, hc, ha⟩ := mem_turnsOf.1 ht
  obtain ⟨t', ht', -, hrow⟩ := hr t ht
  obtain ⟨h1, h2, h3, h4⟩ := hrow hc ha
  exact ⟨t', mem_turnsOf.2 ⟨ht', h1, h2⟩, hcov.imp (fun hm => hm.trans h4) h3.2⟩

/-- The agent has an active turn in the conversation. -/
def Engaged (db : Db) (c a : String) : Prop := ∃ t ∈ db.turnsOf c a, t.status.active

theorem Engaged.covered (h : db.Engaged c a) : db.Covered c a m := by
  obtain ⟨t, ht, hact⟩ := h
  exact ⟨t, ht, Or.inr hact⟩

theorem Engaged.holds (h : db.Engaged c a) (hr : Rows (RowHolds c a) db db') :
    db'.Engaged c a := by
  obtain ⟨t, ht, hact⟩ := h
  obtain ⟨ht, hc, ha⟩ := mem_turnsOf.1 ht
  obtain ⟨t', ht', -, hrow⟩ := hr t ht
  obtain ⟨h1, h2, h3, -⟩ := hrow hc ha
  exact ⟨t', mem_turnsOf.2 ⟨ht', h1, h2⟩, h3.2 hact⟩

/-! ## Functions that only touch turns -/

/-- Only the table of turns differs. -/
def TurnsOnly (db db' : Db) : Prop :=
  ∃ turns next, db' = { db with turns := turns, nextTurnId := next }

theorem TurnsOnly.refl (db : Db) : db.TurnsOnly db := ⟨_, _, rfl⟩

theorem TurnsOnly.trans {db'' : Db} (h : db.TurnsOnly db') (h' : db'.TurnsOnly db'') :
    db.TurnsOnly db'' := by
  obtain ⟨_, _, rfl⟩ := h
  obtain ⟨_, _, rfl⟩ := h'
  exact ⟨_, _, rfl⟩

theorem TurnsOnly.owed_iff (h : db.TurnsOnly db') : db'.Owed c a m ↔ db.Owed c a m := by
  obtain ⟨_, _, rfl⟩ := h
  rfl

theorem TurnsOnly.isParticipant (h : db.TurnsOnly db') (kind : String) :
    db'.isParticipant c kind a = db.isParticipant c kind a := by
  obtain ⟨_, _, rfl⟩ := h
  rfl

theorem updateTurns_turnsOnly (w : ConversationTurn → Bool)
    (set : ConversationTurn → ConversationTurn) : db.TurnsOnly (db.updateTurns w set) :=
  ⟨_, _, rfl⟩

theorem insertTurn_turnsOnly {c' a' : String} {k : ℕ} (h : db.insertTurn c' a' k = .ok db') :
    db.TurnsOnly db' := by
  obtain ⟨-, -, rfl⟩ := insertTurn_eq h
  exact ⟨_, _, rfl⟩

theorem enqueueInTransaction_turnsOnly {c' a' : String} {k : ℕ} {r : Bool}
    (h : enqueueInTransaction c' a' k db = .ok (r, db')) : db.TurnsOnly db' := by
  obtain ⟨-, ⟨-, rfl⟩ | ⟨-, -, -, rfl⟩ | ⟨t, -, -, rfl⟩ | h⟩ := enqueueInTransaction_cases h
  · exact .refl _
  · exact .refl _
  · exact updateTurns_turnsOnly ..
  · exact insertTurn_turnsOnly h

theorem enqueueInTransaction_holds {c' a' : String} {k : ℕ} {r : Bool}
    (h : enqueueInTransaction c' a' k db = .ok (r, db')) : Rows (RowHolds c a) db db' := by
  obtain ⟨-, ⟨-, rfl⟩ | ⟨-, -, -, rfl⟩ | ⟨t, -, -, rfl⟩ | h⟩ := enqueueInTransaction_cases h
  · exact .of_turns_eq RowHolds.refl rfl
  · exact .of_turns_eq RowHolds.refl rfl
  · exact updateTurns_rows RowHolds.refl (fun _ => rfl)
      fun u _ _ hc ha => ⟨hc, ha, Iff.rfl, le_max_left _ _⟩
  · exact insertTurn_rows RowHolds.refl h

/-- **Queuing covers.**  A participant that was queued for a message has an active turn. -/
theorem enqueue_covers {k : ℕ} {r : Bool} (hp : db.isParticipant c "agent" a)
    (h : enqueueInTransaction c a k db = .ok (r, db')) : db'.Engaged c a := by
  obtain ⟨-, ⟨hno, -⟩ | ⟨t, ht, hrun, rfl⟩ | ⟨t, ht, hq, rfl⟩ | h⟩ := enqueueInTransaction_cases h
  · rw [hp] at hno
    cases hno
  · exact ⟨t, ht, TurnStatus.active_iff.2 (Or.inr hrun)⟩
  · obtain ⟨ht, hc, ha⟩ := mem_turnsOf.1 ht
    refine ⟨{ t with triggerMessageId := some (max t.trigger k) }, mem_turnsOf.2 ⟨?_, hc, ha⟩,
      TurnStatus.active_iff.2 (Or.inl hq)⟩
    exact List.mem_map.2 ⟨t, ht, by simp⟩
  · obtain ⟨-, -, rfl⟩ := insertTurn_eq h
    refine ⟨db.newTurn c a k, mem_turnsOf.2 ⟨?_, rfl, rfl⟩, rfl⟩
    exact List.mem_append_right _ (List.mem_singleton.2 rfl)

theorem enqueueAll_frame {c' : String} {k : ℕ} {agents r : List String}
    (h : enqueueAll c' k agents db = .ok (r, db')) :
    db.TurnsOnly db' ∧ Rows (RowHolds c a) db db' := by
  induction agents generalizing db r with
  | nil =>
    cases h
    exact ⟨.refl _, .of_turns_eq RowHolds.refl rfl⟩
  | cons b agents ih =>
    obtain ⟨⟨_, db₁⟩, h1, h⟩ := bind_ok h
    obtain ⟨⟨rs, db₂⟩, h2, h⟩ := bind_ok h
    cases h
    obtain ⟨h3, h4⟩ := ih h2
    exact ⟨(enqueueInTransaction_turnsOnly h1).trans h3,
      (enqueueInTransaction_holds h1).trans RowHolds.trans h4⟩

theorem enqueueAll_covers {k : ℕ} {agents r : List String} (hp : db.isParticipant c "agent" a)
    (ha : a ∈ agents) (h : enqueueAll c k agents db = .ok (r, db')) : db'.Engaged c a := by
  induction agents generalizing db r with
  | nil => cases ha
  | cons b agents ih =>
    obtain ⟨⟨_, db₁⟩, h1, h⟩ := bind_ok h
    obtain ⟨⟨rs, db₂⟩, h2, h⟩ := bind_ok h
    cases h
    rcases List.mem_cons.1 ha with rfl | ha
    · exact (enqueue_covers hp h1).holds (enqueueAll_frame h2).2
    · exact ih ((enqueueInTransaction_turnsOnly h1).isParticipant "agent" ▸ hp) ha h2

theorem enqueueForMessage_frame {c' : String} {k : ℕ} {st s text : String} {r : List String}
    (h : enqueueForMessage c' k st s text db = .ok (r, db')) :
    db.TurnsOnly db' ∧ Rows (RowHolds c a) db db' := by
  unfold enqueueForMessage at h
  split at h
  · cases h
    exact ⟨.refl _, .of_turns_eq RowHolds.refl rfl⟩
  · exact enqueueAll_frame h

/-- **A routed message covers itself.** -/
theorem enqueueForMessage_covers {k : ℕ} {st s text : String} {r : List String}
    (hp : db.isParticipant c "agent" a) (hconn : db.connected c = false)
    (ht : messageTargetsAgent st s a (agentMentions text) none)
    (h : enqueueForMessage c k st s text db = .ok (r, db')) : db'.Engaged c a := by
  unfold enqueueForMessage at h
  rw [hconn] at h
  refine enqueueAll_covers hp ?_ h
  simp only [messageTargets, List.mem_dedup, List.mem_insertionSort, List.mem_filter,
    List.mem_filterMap, Option.ite_none_right_eq_some]
  have hmem : (⟨c, "agent", a⟩ : Participant) ∈ db.participants := by
    simpa [isParticipant] using hp
  exact ⟨⟨_, hmem, ⟨rfl, rfl⟩, rfl⟩, ht⟩

/-! ## Finishing and stopping -/

/-- A record of a turn that does not know of the message more than the turn's row. -/
def Backed (c a : String) (m : ℕ) (turn : ConversationTurn) (db : Db) : Prop :=
  ∀ t ∈ db.turns, t.id = turn.id → t.conversationId = turn.conversationId ∧
    t.agentId = turn.agentId ∧ (t.conversationId = c → t.agentId = a → t.status.active →
      m ≤ turn.trigger → m ≤ t.trigger)

theorem endTurn_rows {id : ℕ} {status : TurnStatus} {r : Option ℕ} {e : Option String}
    (hstatus : status.active = false) :
    Rows (RowCarries c a m) db (db.endTurn id status r e) := by
  refine updateTurns_rows RowCarries.refl (fun _ => rfl) ?_
  intro t _ _ hc ha
  exact ⟨hc, ha, by simp [hstatus]⟩

theorem finishInTransaction_frame {turn : ConversationTurn} {status : TurnStatus} {r : Option ℕ}
    {e : Option String} {b : Bool} (hstatus : status.active = false)
    (h : finishInTransaction turn status r e db = .ok (b, db')) :
    db.TurnsOnly db' ∧ Rows (RowCarries c a m) db db' := by
  obtain ⟨-, rfl⟩ | ⟨-, db₁, rfl, ⟨-, rfl⟩ | ⟨latest, -, h⟩⟩ := finishInTransaction_cases h
  · exact ⟨.refl _, .of_turns_eq RowCarries.refl rfl⟩
  · exact ⟨updateTurns_turnsOnly .., endTurn_rows hstatus⟩
  · exact ⟨(updateTurns_turnsOnly ..).trans (insertTurn_turnsOnly h),
      (endTurn_rows hstatus).trans RowCarries.trans (insertTurn_rows RowCarries.refl h)⟩

/-- **Finishing keeps a message covered.**  If the finished turn alone covered it, the
message came after the turn's trigger, and the follow-up covers it. -/
theorem finish_covers {turn : ConversationTurn} {status : TurnStatus} {r : Option ℕ}
    {e : Option String} {b : Bool} (hs : db.Schema) (howed : db.Owed c a m)
    (hb : Backed c a m turn db) (hcov : db.Covered c a m)
    (h : finishInTransaction turn status r e db = .ok (b, db')) : db'.Covered c a m := by
  obtain ⟨-, rfl⟩ | ⟨-, db₁, hdb₁, hcases⟩ := finishInTransaction_cases h
  · exact hcov
  have hkeep : ∀ t ∈ db₁.turns, t ∈ db'.turns := by
    obtain ⟨-, rfl⟩ | ⟨latest, -, hins⟩ := hcases
    · exact fun t ht => ht
    · obtain ⟨-, -, rfl⟩ := insertTurn_eq hins
      exact fun t ht => List.mem_append_left _ ht
  obtain ⟨t, ht, htm⟩ := hcov
  obtain ⟨ht, hc, ha⟩ := mem_turnsOf.1 ht
  by_cases hend : t.id = turn.id ∧ t.status = .running
  · have hmem : { t with status := status, resultMessageId := r, errorMessage := e } ∈
        db₁.turns := by
      rw [hdb₁]
      exact List.mem_map.2 ⟨t, ht, by simp [hend.1, hend.2]⟩
    by_cases hm : m ≤ t.trigger
    · exact ⟨_, mem_turnsOf.2 ⟨hkeep _ hmem, hc, ha⟩, Or.inl hm⟩
    -- the turn covered the message only by being active
    obtain ⟨h1, h2, h3⟩ := hb t ht hend.1
    have hact : t.status.active := TurnStatus.active_iff.2 (Or.inr hend.2)
    have hlt : turn.trigger < m := by
      by_contra hle
      exact hm (h3 hc ha hact (not_lt.1 hle))
    rw [hc] at h1
    rw [ha] at h2
    have howed₁ : db₁.Owed c a m := by
      rw [hdb₁]
      exact (updateTurns_turnsOnly _ _).owed_iff.2 howed
    obtain ⟨latest, hl, -⟩ := howed₁.le_latest hlt (b := none) rfl
    obtain ⟨hnone, -⟩ | ⟨latest', -, hins⟩ := hcases
    · rw [← h1, ← h2, hl] at hnone
      cases hnone
    · obtain ⟨-, -, rfl⟩ := insertTurn_eq hins
      refine ⟨db₁.newTurn turn.conversationId turn.agentId latest', ?_, Or.inr rfl⟩
      exact mem_turnsOf.2 ⟨List.mem_append_right _ (List.mem_singleton.2 rfl), h1.symm, h2.symm⟩
  · refine ⟨t, mem_turnsOf.2 ⟨hkeep t ?_, hc, ha⟩, htm⟩
    rw [hdb₁]
    exact List.mem_map.2 ⟨t, ht, if_neg (by simpa using hend)⟩

theorem requeueStopped_frame {t : ConversationTurn} (h : db.requeueStopped t = .ok db') :
    db.TurnsOnly db' ∧ Rows (RowHolds c a) db db' := by
  obtain ⟨-, rfl⟩ | ⟨-, -, rfl⟩ | ⟨-, latest, q, -, hq⟩ := requeueStopped_cases h
  · exact ⟨.refl _, .of_turns_eq RowHolds.refl rfl⟩
  · exact ⟨.refl _, .of_turns_eq RowHolds.refl rfl⟩
  · exact ⟨enqueueInTransaction_turnsOnly hq, enqueueInTransaction_holds hq⟩

theorem haltTurn_rows (c' : String) (id : ℕ) (lease running : Bool) :
    Rows (RowCarries c a m) db (db.haltTurn c' id lease running) := by
  refine updateTurns_rows RowCarries.refl (fun _ => rfl) ?_
  intro t _ _ hc ha
  refine ⟨hc, ha, fun hact => ?_⟩
  dsimp only at hact
  split at hact <;> simp [TurnStatus.active] at hact

theorem stopTurn_frame {c' : String} {id : ℕ} {lease : Option (String × ℤ)} {r : Cancellation}
    (h : stopTurn c' id lease db = .ok (r, db')) :
    db.TurnsOnly db' ∧ Rows (RowCarries c a m) db db' := by
  obtain rfl | ⟨t, -, -, -, -, h⟩ := stopTurn_cases h
  · exact ⟨.refl _, .of_turns_eq RowCarries.refl rfl⟩
  · obtain ⟨h1, h2⟩ := requeueStopped_frame h
    exact ⟨(updateTurns_turnsOnly ..).trans h1,
      Rows.trans RowCarries.trans (haltTurn_rows c' id _ _) (h2.mono RowHolds.carries)⟩

/-- **Stopping keeps a message covered**, unless the turn was queued with an older trigger. -/
theorem stop_covers {c' : String} {id : ℕ} {lease : Option (String × ℤ)} {r : Cancellation}
    (hs : db.Schema) (hp : db.isParticipant c "agent" a) (howed : db.Owed c a m)
    (hcov : db.Covered c a m) (h : stopTurn c' id lease db = .ok (r, db')) :
    db'.Covered c a m ∨ db.PassedOver db' c a m := by
  obtain rfl | ⟨t, ht, hid, hc', -, h⟩ := stopTurn_cases h
  · exact Or.inl hcov
  obtain ⟨u, hu, hum⟩ := hcov
  obtain ⟨hu, hc, ha⟩ := mem_turnsOf.1 hu
  have hhold := (requeueStopped_frame (c := c) (a := a) h).2
  by_cases hstop : u.id = id ∧ u.conversationId = c' ∧ stoppable lease.isSome u.status
  · obtain rfl : t = u := hs.eq_of_id ht hu (hid.trans hstop.1.symm)
    have hmem : _ ∈ (db.haltTurn c' id lease.isSome (t.status = .running : Bool)).turns :=
      List.mem_map.2 ⟨t, ht, if_pos (by simpa [and_assoc] using hstop)⟩
    by_cases hm : m ≤ t.trigger
    · exact Or.inl (Covered.holds ⟨_, mem_turnsOf.2 ⟨hmem, hc, ha⟩, Or.inl hm⟩ hhold)
    have hact := hum.resolve_left hm
    rcases TurnStatus.active_iff.1 hact with hq | hrun
    · right
      refine ⟨howed, t, mem_turnsOf.2 ⟨ht, hc, ha⟩, hq, not_le.1 hm, ?_⟩
      obtain ⟨-, rfl⟩ | ⟨hrun, -⟩ | ⟨hrun, -⟩ := requeueStopped_cases h
      · exact ⟨_, hmem, rfl, by simp [hq]⟩
      · rw [hq] at hrun; cases hrun
      · rw [hq] at hrun; cases hrun
    · left
      have howed₁ : (db.haltTurn c' id lease.isSome (t.status = .running : Bool)).Owed c a m :=
        (updateTurns_turnsOnly _ _).owed_iff.2 howed
      obtain ⟨latest, hl, -⟩ := howed₁.le_latest (not_le.1 hm) (b := none) rfl
      obtain ⟨hno, -⟩ | ⟨-, hnone, -⟩ | ⟨-, latest', q, -, hq⟩ := requeueStopped_cases h
      · exact absurd hrun hno
      · rw [hc, ha, hl] at hnone
        cases hnone
      · rw [hc, ha] at hq
        have hp₁ : (db.haltTurn c' id lease.isSome (t.status = .running : Bool)).isParticipant c
            "agent" a := hp
        exact (enqueue_covers hp₁ hq).covered
  · refine Or.inl (Covered.holds ⟨u, mem_turnsOf.2 ⟨?_, hc, ha⟩, hum⟩ hhold)
    exact List.mem_map.2 ⟨u, hu, if_neg (by simpa [and_assoc] using hstop)⟩

/-! ## Deleting a message -/

theorem foldl_turnsOnly {α : Type} {f : Db → α → Db} (h : ∀ (db : Db) a, db.TurnsOnly (f db a))
    (as : List α) (db : Db) : db.TurnsOnly (as.foldl f db) := by
  induction as generalizing db with
  | nil => exact .refl _
  | cons a as ih => exact (h db a).trans (ih _)

/-- What retargeting a queued turn to input before message `d` can change. -/
def RowRetargeted (d : ℕ) (t t' : ConversationTurn) : Prop :=
  t'.conversationId = t.conversationId ∧ t'.agentId = t.agentId ∧ t'.status = t.status ∧
    (t'.triggerMessageId = t.triggerMessageId ∨
      t.status = .queued ∧ ∃ l, t'.triggerMessageId = some l ∧ l < d)

theorem RowRetargeted.refl {d : ℕ} (t : ConversationTurn) : RowRetargeted d t t :=
  ⟨rfl, rfl, rfl, Or.inl rfl⟩

theorem RowRetargeted.trans {d : ℕ} (t u v : ConversationTurn) (h : RowRetargeted d t u)
    (h' : RowRetargeted d u v) : RowRetargeted d t v := by
  obtain ⟨h1, h2, h3, h4⟩ := h
  obtain ⟨h5, h6, h7, h8⟩ := h'
  refine ⟨h5.trans h1, h6.trans h2, h7.trans h3, ?_⟩
  rcases h8 with h8 | ⟨hq, h8⟩
  · rw [h8]
    exact h4
  · exact Or.inr ⟨h3 ▸ hq, h8⟩

theorem retargetQueuedTurnBeforeMessage_rows (c' : String) (id : ℕ) (a' : String) (d : ℕ)
    (db : Db) : Rows (RowRetargeted d) db (db.retargetQueuedTurnBeforeMessage c' id a' d) := by
  unfold retargetQueuedTurnBeforeMessage
  dsimp only
  split
  · exact .of_turns_eq RowRetargeted.refl rfl
  · rename_i latest hl
    obtain ⟨msg, -, -, -, -, hlt, -⟩ := mem_of_latestAddressedMessage hl
    refine updateTurns_rows RowRetargeted.refl (fun _ => rfl) fun t _ hw => ?_
    simp only [Bool.and_eq_true, decide_eq_true_eq] at hw
    exact ⟨rfl, rfl, rfl, Or.inr ⟨hw.1.2, latest, rfl, by simpa using hlt⟩⟩

theorem retargetQueuedTurnBeforeMessage_turnsOnly (c' : String) (id : ℕ) (a' : String) (d : ℕ)
    (db : Db) : db.TurnsOnly (db.retargetQueuedTurnBeforeMessage c' id a' d) := by
  unfold retargetQueuedTurnBeforeMessage
  dsimp only
  split
  · exact .refl _
  · exact updateTurns_turnsOnly ..

/-- Retargeting does not lose a message that is owed, other than the deleted one. -/
theorem retargetQueuedTurnBeforeMessage_carries {c' : String} {id : ℕ} {a' : String} {d : ℕ}
    (howed : db.Owed c a m) (hne : c = c' → m ≠ d) (hrow : ∀ t ∈ db.turns, t.id = id →
      t.conversationId = c' ∧ t.agentId = a') :
    Rows (RowCarries c a m) db (db.retargetQueuedTurnBeforeMessage c' id a' d) := by
  unfold retargetQueuedTurnBeforeMessage
  dsimp only
  split
  · exact .of_turns_eq RowCarries.refl rfl
  rename_i latest hl
  refine updateTurns_rows RowCarries.refl (fun _ => rfl) fun t ht hw hc ha => ⟨hc, ha, ?_⟩
  simp only [Bool.and_eq_true, decide_eq_true_eq] at hw
  obtain ⟨⟨hid, -⟩, htrig⟩ := hw
  intro hact
  refine ⟨hact, fun hm => ?_⟩
  obtain ⟨rfl, rfl⟩ := hrow t ht hid
  have hmd : m < d := by
    have := hne hc.symm
    simp only [ConversationTurn.trigger, htrig, Option.getD_some] at hm
    omega
  show m ≤ latest
  obtain ⟨msg, -, -, -, hafter, -⟩ := mem_of_latestAddressedMessage hl
  rw [hc, ha] at hl hafter
  rcases Nat.lt_or_ge ((db.latestPromptBoundaryBefore c a d true).getD 0) m with hlt | hge
  · obtain ⟨latest', hl', hle⟩ := howed.le_latest hlt (b := some d) (by simpa using hmd)
    rw [hl] at hl'
    cases hl'
    exact hle
  · omega

theorem retargetAll_carries {c' : String} {d : ℕ} (hs : db.Schema) (howed : db.Owed c a m)
    (hne : c = c' → m ≠ d) : Rows (RowCarries c a m) db (db.retargetAll c' d) := by
  have hnames : ∀ t ∈ db.turns.filter (QueuedFor c' d), ∃ u ∈ db.turns, u.id = t.id ∧
      u.conversationId = c' ∧ u.agentId = t.agentId := by
    intro t ht
    obtain ⟨ht, hq⟩ := List.mem_filter.1 ht
    simp only [QueuedFor, Bool.and_eq_true, decide_eq_true_eq] at hq
    exact ⟨t, ht, rfl, hq.1.1, rfl⟩
  unfold retargetAll
  generalize db.turns.filter (QueuedFor c' d) = ts at hnames
  induction ts generalizing db with
  | nil => exact .of_turns_eq RowCarries.refl rfl
  | cons t ts ih =>
    have hevolves : db.Evolves (db.retargetQueuedTurnBeforeMessage c' t.id t.agentId d) :=
      retargetQueuedTurnBeforeMessage_evolves c' t.id t.agentId d
    have hfirst : Rows (RowCarries c a m) db
        (db.retargetQueuedTurnBeforeMessage c' t.id t.agentId d) := by
      apply retargetQueuedTurnBeforeMessage_carries howed hne
      intro v hv hid
      obtain ⟨u, hu, huid, h1, h2⟩ := hnames t (List.mem_cons_self ..)
      rw [hs.eq_of_id hv hu (hid.trans huid.symm)]
      exact ⟨h1, h2⟩
    refine hfirst.trans RowCarries.trans (ih (hevolves.schema hs) ?_ ?_)
    · exact (retargetQueuedTurnBeforeMessage_turnsOnly ..).owed_iff.2 howed
    · intro v hv
      obtain ⟨u, hu, huid, h1, h2⟩ := hnames v (List.mem_cons_of_mem _ hv)
      obtain ⟨u', hu', hb⟩ := hevolves.rows u hu
      exact ⟨u', hu', hb.id.trans huid, hb.conversationId.trans h1, hb.agentId.trans h2⟩

/-- A failed row that had the deleted message in its prompt, and is cancelled now. -/
def RowGivenUp (c' : String) (d : ℕ) (t t' : ConversationTurn) : Prop :=
  t.conversationId = c' ∧ t.status = .failed ∧ d ≤ t.trigger ∧
    t'.conversationId = t.conversationId ∧ t'.agentId = t.agentId ∧ t'.status = .cancelled

/-- A deletion stops a row of the agent, if at all, for one of these reasons. -/
def RowDismissed (c' : String) (d : ℕ) (t t' : ConversationTurn) : Prop :=
  t' = t ∨ RowGivenUp c' d t t' ∨
    (QueuedFor c' d t ∨ ConsumedBy c' d .running t) ∧ t'.conversationId = t.conversationId ∧
      t'.agentId = t.agentId ∧ t'.status = .cancelled ∧ t'.trigger = t.trigger

theorem dismissAll_rows (c' : String) (d : ℕ) (agents : List String) (db : Db) :
    Rows (fun t t' => t' = t ∨ RowGivenUp c' d t t') db
      (agents.foldl (dismissFailed c' d) db) := by
  refine foldl_rows (fun _ => Or.inl rfl) ?_ (fun db a => ?_) agents db
  · rintro t u v (rfl | ⟨hc, hfail, hd, hconv, hagent, hu⟩) h'
    · exact h'
    · rcases h' with rfl | ⟨-, hfail', -⟩
      · exact Or.inr ⟨hc, hfail, hd, hconv, hagent, hu⟩
      · rw [hu] at hfail'
        cases hfail'
  · refine updateTurns_rows (fun _ => Or.inl rfl) (fun _ => rfl) fun t _ hw => Or.inr ?_
    simp only [ConsumedBy, Bool.and_eq_true, decide_eq_true_eq] at hw
    obtain ⟨⟨⟨hc, hfail⟩, htrig⟩, -⟩ := hw
    obtain ⟨k, hk, hdk⟩ := (Option.any_eq_true _ _).1 htrig
    refine ⟨hc, hfail, ?_, rfl, rfl, rfl⟩
    simpa [ConversationTurn.trigger, hk] using hdk

theorem dismiss_rows (c' : String) (d : ℕ) (agents : List String) (db : Db) :
    Rows (RowDismissed c' d) db ((agents.foldl (dismissFailed c' d) db).cancelConsumed c' d) := by
  intro t ht
  obtain ⟨t₁, ht₁, hid, h1⟩ := dismissAll_rows c' d agents db t ht
  refine ⟨_, List.mem_map_of_mem ht₁, ?_⟩
  rcases h1 with rfl | ⟨hc, hfail, hd, hconv, hagent, hst⟩
  · split
    · rename_i hw
      refine ⟨rfl, Or.inr (Or.inr ⟨?_, rfl, rfl, rfl, rfl⟩)⟩
      simpa using hw
    · exact ⟨rfl, Or.inl rfl⟩
  · refine ⟨?_, Or.inr (Or.inl ⟨hc, hfail, hd, ?_, ?_, ?_⟩)⟩
    · split <;> exact hid
    · split <;> exact hconv
    · split <;> exact hagent
    · split
      · rfl
      · exact hst

theorem dismiss_carries (c' : String) (d : ℕ) (agents : List String) (db : Db) :
    Rows (RowCarries c a m) db
      ((agents.foldl (dismissFailed c' d) db).cancelConsumed c' d) := by
  have hfailed : Rows (RowCarries c a m) db (agents.foldl (dismissFailed c' d) db) := by
    refine foldl_rows RowCarries.refl RowCarries.trans (fun db a' => ?_) agents db
    refine updateTurns_rows RowCarries.refl (fun _ => rfl) fun t _ _ hc ha => ⟨hc, ha, ?_⟩
    simp [TurnStatus.active]
  refine hfailed.trans RowCarries.trans ?_
  refine updateTurns_rows RowCarries.refl (fun _ => rfl) fun t _ _ hc ha => ⟨hc, ha, ?_⟩
  simp [TurnStatus.active]

theorem requeueAll_frame {c' : String} {d : ℕ} {agents : List String}
    (h : requeueAll c' d agents db = .ok db') :
    db.TurnsOnly db' ∧ Rows (RowHolds c a) db db' := by
  induction agents generalizing db with
  | nil =>
    cases h
    exact ⟨.refl _, .of_turns_eq RowHolds.refl rfl⟩
  | cons b agents ih =>
    rw [requeueAll] at h
    split at h
    · exact ih h
    · obtain ⟨⟨q, db₁⟩, h1, h⟩ := bind_ok h
      obtain ⟨h2, h3⟩ := ih h
      exact ⟨(enqueueInTransaction_turnsOnly h1).trans h2,
        (enqueueInTransaction_holds h1).trans RowHolds.trans h3⟩

/-- The agent of a stopped running turn is queued for a message newer than the deleted one. -/
theorem requeueAll_covers {d : ℕ} {agents : List String} (hp : db.isParticipant c "agent" a)
    (howed : db.Owed c a m) (hd : d < m) (ha : a ∈ agents)
    (h : requeueAll c d agents db = .ok db') : db'.Engaged c a := by
  induction agents generalizing db with
  | nil => cases ha
  | cons b agents ih =>
    rw [requeueAll] at h
    rcases List.mem_cons.1 ha with rfl | ha
    · obtain ⟨latest, hl, -⟩ := howed.le_latest hd (b := none) rfl
      have hrep : db.replacementFor c a d = some latest := by simp [replacementFor, hl]
      rw [hrep] at h
      obtain ⟨⟨q, db₁⟩, h1, h⟩ := bind_ok h
      exact (enqueue_covers hp h1).holds (requeueAll_frame h).2
    · split at h
      · exact ih hp howed ha h
      · obtain ⟨⟨q, db₁⟩, h1, h⟩ := bind_ok h
        have honly := enqueueInTransaction_turnsOnly h1
        exact ih (honly.isParticipant "agent" ▸ hp) (honly.owed_iff.2 howed) ha h

theorem forgetResult_holds (c' : String) (d : ℕ) :
    Rows (RowHolds c a) db (db.forgetResult c' d) :=
  updateTurns_rows RowHolds.refl (fun _ => rfl) fun _ _ _ hc ha => ⟨hc, ha, Iff.rfl, le_rfl⟩

theorem retargetAll_rows (c' : String) (d : ℕ) (db : Db) :
    Rows (RowRetargeted d) db (db.retargetAll c' d) := by
  unfold retargetAll
  apply foldl_rows RowRetargeted.refl RowRetargeted.trans
  intro db t
  exact retargetQueuedTurnBeforeMessage_rows c' t.id t.agentId d db

theorem retargetAll_turnsOnly (c' : String) (d : ℕ) (db : Db) :
    db.TurnsOnly (db.retargetAll c' d) :=
  foldl_turnsOnly (fun _ _ => retargetQueuedTurnBeforeMessage_turnsOnly ..) _ _

theorem dismiss_turnsOnly (c' : String) (d : ℕ) (agents : List String) (db : Db) :
    db.TurnsOnly ((agents.foldl (dismissFailed c' d) db).cancelConsumed c' d) :=
  (foldl_turnsOnly (fun _ _ => updateTurns_turnsOnly ..) _ _).trans (updateTurns_turnsOnly ..)

theorem reconcile_turnsOnly {c' : String} {d : ℕ} {r : List ℕ}
    (h : reconcileMessageDeletionTurns c' d db = .ok (r, db')) : db.TurnsOnly db' := by
  obtain ⟨db₁, db₂, rfl, h1, rfl⟩ := reconcileMessageDeletionTurns_eq h
  exact (retargetAll_turnsOnly c' d db).trans ((dismiss_turnsOnly ..).trans
    ((requeueAll_frame (c := c') (a := c') h1).1.trans (updateTurns_turnsOnly ..)))

theorem reconcile_carries {c' : String} {d : ℕ} {r : List ℕ} (hs : db.Schema)
    (howed : db.Owed c a m) (hne : c = c' → m ≠ d)
    (h : reconcileMessageDeletionTurns c' d db = .ok (r, db')) :
    Rows (RowCarries c a m) db db' := by
  obtain ⟨db₁, db₂, rfl, h1, rfl⟩ := reconcileMessageDeletionTurns_eq h
  have h2 : Rows (RowCarries c a m) db (db.retargetAll c' d) := retargetAll_carries hs howed hne
  have h3 := dismiss_carries (c := c) (a := a) (m := m) c' d
    ((db.retargetAll c' d).affectedAgents c' d) (db.retargetAll c' d)
  have h4 : Rows (RowHolds c a) _ (db₂.forgetResult c' d) :=
    (requeueAll_frame h1).2.trans RowHolds.trans (forgetResult_holds c' d)
  exact (h2.trans RowCarries.trans h3).trans RowCarries.trans (h4.mono RowHolds.carries)

/-- **Deleting another message keeps a message covered**, unless a failed turn that had both
in its prompt was dismissed, or a queued turn with an older trigger was cancelled. -/
theorem reconcile_covers {c' : String} {d : ℕ} {r : List ℕ}
    (hp : db.isParticipant c "agent" a) (howed : db.Owed c a m) (hcov : db.Covered c a m)
    (h : reconcileMessageDeletionTurns c' d db = .ok (r, db')) :
    db'.Covered c a m ∨ (c' = c ∧ db.Dismissed d db' c a m) ∨ db.PassedOver db' c a m := by
  obtain ⟨db₁, db₂, rfl, h1, rfl⟩ := reconcileMessageDeletionTurns_eq h
  obtain ⟨t, ht, htm⟩ := hcov
  obtain ⟨ht, hc, ha⟩ := mem_turnsOf.1 ht
  obtain ⟨t₁, ht₁, hid₁, hc₁, ha₁, hst₁, htr₁⟩ := retargetAll_rows c' d db t ht
  rw [hc] at hc₁
  rw [ha] at ha₁
  obtain ⟨t₂, ht₂, hid₂, hrow⟩ := dismiss_rows c' d
    ((db.retargetAll c' d).affectedAgents c' d) (db.retargetAll c' d) t₁ ht₁
  have hhold : Rows (RowHolds c a) _ (db₂.forgetResult c' d) :=
    (requeueAll_frame h1).2.trans RowHolds.trans (forgetResult_holds c' d)
  -- a row that is not queued still has its trigger
  have hsame : t.status ≠ .queued → t₁.trigger = t.trigger := by
    intro hq
    rcases htr₁ with htr | ⟨hq', -⟩
    · simp [ConversationTurn.trigger, htr]
    · exact absurd hq' hq
  obtain ⟨t₃, ht₃, hb⟩ :=
    ((requeueAll_evolves h1).trans (forgetResult_evolves c' d db₂)).rows t₂ ht₂
  rcases hrow with rfl | ⟨hc', hfail, hd, hc₂, ha₂, hst₂⟩ | ⟨hstop, hc₂, ha₂, hst₂, htr₂⟩
  · refine Or.inl (Covered.holds ⟨t₂, mem_turnsOf.2 ⟨ht₂, hc₁, ha₁⟩, ?_⟩ hhold)
    by_cases hact : t.status.active
    · exact Or.inr (hst₁ ▸ hact)
    · refine Or.inl ((htm.resolve_right hact).trans (hsame ?_).ge)
      rintro hq
      exact hact (TurnStatus.active_iff.2 (Or.inl hq))
  · rw [hst₁] at hfail
    have hmem₃ : t₃ ∈ (db₂.forgetResult c' d).turnsOf c a := mem_turnsOf.2
      ⟨ht₃, hb.conversationId.trans (hc₂.trans hc₁), hb.agentId.trans (ha₂.trans ha₁)⟩
    by_cases hm : m ≤ t₃.trigger
    · exact Or.inl ⟨t₃, hmem₃, Or.inl hm⟩
    · refine Or.inr (Or.inl ⟨hc'.symm.trans hc₁, t, mem_turnsOf.2 ⟨ht, hc, ha⟩, hfail, ?_, ?_, t₃,
        hmem₃, hb.id.trans (hid₂.trans hid₁), hb.status.2.1 hst₂, not_le.1 hm⟩)
      · exact hd.trans (hsame (by rw [hfail]; decide)).le
      · exact htm.resolve_right (by simp [hfail, TurnStatus.active])
  -- the row was cancelled with its trigger unchanged
  by_cases hm : m ≤ t₁.trigger
  · exact Or.inl (Covered.holds ⟨t₂, mem_turnsOf.2 ⟨ht₂, hc₂.trans hc₁, ha₂.trans ha₁⟩,
      Or.inl (htr₂ ▸ hm)⟩ hhold)
  rcases hstop with hq | hrun
  · right; right
    simp only [QueuedFor, Bool.and_eq_true, decide_eq_true_eq] at hq
    have hd : t₁.trigger = d := by simp [ConversationTurn.trigger, hq.1.2]
    have htd : t.trigger = d := by
      rcases htr₁ with htr | ⟨-, l, hl, hlt⟩
      · rw [← hd]
        simp [ConversationTurn.trigger, htr]
      · rw [hl] at hq
        obtain rfl : l = d := by simpa using hq.1.2
        omega
    refine ⟨howed, t, mem_turnsOf.2 ⟨ht, hc, ha⟩, hst₁ ▸ hq.2, by omega, t₃, ht₃, ?_, ?_⟩
    · exact hb.id.trans (hid₂.trans hid₁)
    · exact hb.status.2.1 hst₂
  · left
    have hmem : a ∈ (((db.retargetAll c' d).turns.filter (ConsumedBy c' d .running)).map
        (·.agentId)) := List.mem_map.2 ⟨t₁, List.mem_filter.2 ⟨ht₁, hrun⟩, ha₁⟩
    simp only [ConsumedBy, Bool.and_eq_true, decide_eq_true_eq] at hrun
    obtain ⟨⟨rfl, -⟩, htrig⟩ := hrun
    have hd : d < m := by
      obtain ⟨k, hk, hdk⟩ := (Option.any_eq_true _ _).1 htrig
      simp only [ConversationTurn.trigger, hk, Option.getD_some] at hm
      simp only [decide_eq_true_eq] at hdk
      omega
    have honly := (retargetAll_turnsOnly t₁.conversationId d db).trans
      (dismiss_turnsOnly t₁.conversationId d
        ((db.retargetAll t₁.conversationId d).affectedAgents t₁.conversationId d) _)
    rw [hc₁] at h1 honly hmem ⊢
    exact ((requeueAll_covers (honly.isParticipant "agent" ▸ hp) (honly.owed_iff.2 howed) hd hmem
      h1).holds (forgetResult_holds c d)).covered

/-! ## One call -/

/-- What a call does, as far as a message and an agent are concerned; `E` is the exception
that it makes. -/
structure Minds (E : Prop) (c a : String) (m : ℕ) (db db' : Db) : Prop where
  participant : db.isParticipant c "agent" a → db'.isParticipant c "agent" a
  connected : db'.connected c = db.connected c
  next : db.nextMessageId ≤ db'.nextMessageId
  fresh : db'.Owed c a m → db.Owed c a m ∨ db.nextMessageId ≤ m
  carries : db.Owed c a m → db'.Owed c a m → Rows (RowCarries c a m) db db'
  covered : db'.Owed c a m → (db.Owed c a m → db.Covered c a m) →
    db'.Covered c a m ∨ E ∨ db.PassedOver db' c a m

theorem Minds.mono {E E' : Prop} (h : Minds E c a m db db') (hE : E → E') :
    Minds E' c a m db db' :=
  { h with covered := fun ho hc => (h.covered ho hc).imp id (Or.imp hE id) }

theorem Minds.of_holds {E : Prop}
    (hp : db.isParticipant c "agent" a → db'.isParticipant c "agent" a)
    (hconn : db'.connected c = db.connected c) (hnext : db.nextMessageId ≤ db'.nextMessageId)
    (howed : db'.Owed c a m → db.Owed c a m) (hrows : Rows (RowHolds c a) db db') :
    Minds E c a m db db' where
  participant := hp
  connected := hconn
  next := hnext
  fresh h := Or.inl (howed h)
  carries _ _ := hrows.mono RowHolds.carries
  covered h hcov := Or.inl ((hcov (howed h)).holds hrows)

theorem Minds.of_turnsOnly {E : Prop} (h : db.TurnsOnly db')
    (hcarries : db.Owed c a m → Rows (RowCarries c a m) db db')
    (hcov : db.Owed c a m → db.Covered c a m →
      db'.Covered c a m ∨ E ∨ db.PassedOver db' c a m) :
    Minds E c a m db db' where
  participant hp := (h.isParticipant "agent").trans hp
  connected := by obtain ⟨_, _, rfl⟩ := h; rfl
  next := by obtain ⟨_, _, rfl⟩ := h; exact le_rfl
  fresh ho := Or.inl (h.owed_iff.1 ho)
  carries ho _ := hcarries ho
  covered ho hc := hcov (h.owed_iff.1 ho) (hc (h.owed_iff.1 ho))

theorem owed_of_insertMessage {c' : String} {msg : SendMessage} {target : Option String}
    {stored : ConversationMessage} {db₁ : Db}
    (hins : db.insertMessage c' msg target = .ok (stored, db₁))
    (h : db₁.Owed c a m) : db.Owed c a m ∨
      (m = db.nextMessageId ∧ stored.id = m ∧ c' = c ∧
        messageTargetsAgent msg.senderType msg.senderId a (agentMentions msg.content) target) := by
  obtain ⟨rfl, rfl⟩ := insertMessage_eq hins
  obtain ⟨x, hx, hid, hc, hd, ht⟩ := h
  rcases List.mem_append.1 hx with hx | hx
  · exact Or.inl ⟨x, hx, hid, hc, hd, ht⟩
  · rw [List.mem_singleton.1 hx] at hid hc ht
    exact Or.inr ⟨hid.symm, hid, hc, ht⟩

theorem insertMessage_frame {c' : String} {msg : SendMessage} {target : Option String}
    {stored : ConversationMessage} {db₁ : Db}
    (hins : db.insertMessage c' msg target = .ok (stored, db₁)) :
    db₁.isParticipant c "agent" a = db.isParticipant c "agent" a ∧
      db₁.connected c = db.connected c ∧ db₁.turns = db.turns ∧
      db.nextMessageId ≤ db₁.nextMessageId := by
  obtain ⟨-, rfl⟩ := insertMessage_eq hins
  exact ⟨rfl, rfl, rfl, Nat.le_succ _⟩

/-- Calls that store a message and then only touch turns. -/
theorem Minds.of_insert {E : Prop} {c' : String} {msg : SendMessage} {target : Option String}
    {stored : ConversationMessage} {db₁ : Db}
    (hins : db.insertMessage c' msg target = .ok (stored, db₁)) (honly : db₁.TurnsOnly db')
    (hcarries : db.Owed c a m → Rows (RowCarries c a m) db₁ db')
    (hcov : db₁.Owed c a m → (db.Owed c a m → db₁.Covered c a m) →
      db'.Covered c a m ∨ E ∨ db.PassedOver db' c a m) :
    Minds E c a m db db' := by
  have howed : db'.Owed c a m → db.Owed c a m ∨ m = db.nextMessageId := by
    intro h
    exact (owed_of_insertMessage hins (honly.owed_iff.1 h)).imp id And.left
  obtain ⟨hpart, hconn, hturns, hnext⟩ := insertMessage_frame (c := c) (a := a) hins
  refine ⟨fun hp => ?_, ?_, ?_, ?_, ?_, ?_⟩
  · rw [honly.isParticipant, hpart]
    exact hp
  · obtain ⟨_, _, rfl⟩ := honly
    exact hconn
  · obtain ⟨_, _, rfl⟩ := honly
    exact hnext
  · exact fun h => (howed h).imp id fun h => h.ge
  · exact fun h _ => Rows.trans RowCarries.trans (.of_turns_eq RowCarries.refl hturns) (hcarries h)
  · intro h hc
    refine hcov (honly.owed_iff.1 h) fun ho => ?_
    exact (hc ho).holds (.of_turns_eq RowHolds.refl hturns)

/-- What is known of a run when a message and an agent are watched: `held` are the records
that `claim_next` handed out so far. -/
structure Watch (c a : String) (m : ℕ) (db : Db) (held : List ConversationTurn) : Prop where
  schema : db.Schema
  numbered : db.Numbered
  participant : db.isParticipant c "agent" a
  connected : db.connected c = false
  known : ∀ r ∈ held, r.trigger < db.nextMessageId ∧ ∃ t ∈ db.turns, t.id = r.id
  backed : db.Owed c a m ∨ db.nextMessageId ≤ m → ∀ r ∈ held, Backed c a m r db

theorem Backed.evolves {turn : ConversationTurn} (hs : db.Schema) (he : db.Evolves db')
    (hr : Rows (RowCarries c a m) db db') (hex : ∃ t ∈ db.turns, t.id = turn.id)
    (hb : Backed c a m turn db) : Backed c a m turn db' := by
  intro t' ht' hid'
  obtain ⟨t, ht, hid⟩ := hex
  obtain ⟨h1, h2, h3⟩ := hb t ht hid
  have hs' := he.schema hs
  obtain ⟨u, hu, hbec⟩ := he.rows t ht
  obtain ⟨v, hv, hvid, hrow⟩ := hr t ht
  obtain rfl := hs'.eq_of_id ht' hu (hid'.trans (hid.symm.trans hbec.id.symm))
  obtain rfl := hs'.eq_of_id ht' hv (hid'.trans (hid.symm.trans hvid.symm))
  refine ⟨hbec.conversationId.trans h1, hbec.agentId.trans h2, ?_⟩
  intro hc ha hact hm
  rw [hbec.conversationId] at hc
  rw [hbec.agentId] at ha
  obtain ⟨-, -, h4⟩ := hrow hc ha
  obtain ⟨h5, h6⟩ := h4 hact
  exact h6 (h3 hc ha h5 hm)

theorem carries_of_later (hn : db.Numbered) (he : db.Evolves db') (hm : db.nextMessageId ≤ m) :
    Rows (RowCarries c a m) db db' := by
  intro t ht
  obtain ⟨t', ht', hb⟩ := he.rows t ht
  refine ⟨t', ht', hb.id, fun hc ha => ⟨hb.conversationId.trans hc, hb.agentId.trans ha, ?_⟩⟩
  intro hact
  refine ⟨hb.active hact, fun hle => ?_⟩
  have := hn.triggers t ht
  omega

end Db

/-- The record that a call claims. -/
def claimed (db : Db) (op : Op) : Option ConversationTurn :=
  match reply db op with
  | some (.claimed t) => t
  | _ => none

/-- The metadata that the call stores names no target; a targeted send stores the target
itself. -/
def Op.Plain : Op → Prop
  | .sendRouted _ _ target => target = none
  | .completeWithMessage _ _ target => target = none
  | _ => True

section

open Db

variable {E : Prop} {db db' : Db} {c a : String} {m : ℕ} {held : List ConversationTurn}

theorem claimNext_minds (hp : db.isParticipant c "agent" a) : Minds E c a m db db.claimNext.2 := by
  have hstray : Rows (RowHolds c a) db db.cancelStrayTurns := by
    refine updateTurns_rows RowHolds.refl (fun _ => rfl) fun t _ hw hc ha => ?_
    simp [hasParticipant, hc, ha, hp] at hw
  rcases claimNext_cases db with h | ⟨next, -, -, h⟩ <;> rw [h]
  · exact .of_holds id rfl le_rfl id hstray
  · refine .of_holds id rfl le_rfl id (hstray.trans RowHolds.trans ?_)
    refine updateTurns_rows RowHolds.refl (fun _ => rfl) fun t _ hw hc ha => ⟨hc, ha, ?_, le_rfl⟩
    simp only [Bool.and_eq_true, decide_eq_true_eq] at hw
    simp [hw.2, TurnStatus.active]

theorem recover_minds : Minds E c a m db db.recover := by
  refine .of_holds id rfl le_rfl id (updateTurns_rows RowHolds.refl (fun _ => rfl) ?_)
  intro t _ hw hc ha
  simp only [decide_eq_true_eq] at hw
  exact ⟨hc, ha, by simp [hw, TurnStatus.active], le_rfl⟩

theorem removeParticipant_minds {c' kind id : String} (hne : (c', kind, id) ≠ (c, "agent", a)) :
    Minds E c a m db (db.removeParticipant c' kind id).2 := by
  have hp : db.isParticipant c "agent" a →
      (db.deleteParticipant ⟨c', kind, id⟩).isParticipant c "agent" a := by
    intro hp
    simp only [isParticipant, deleteParticipant, decide_eq_true_eq, List.mem_filter] at hp ⊢
    refine ⟨hp, fun heq => hne ?_⟩
    cases heq
    rfl
  unfold removeParticipant
  dsimp only
  split
  · rename_i hkind
    refine .of_holds hp rfl le_rfl (fun h => h) ?_
    refine @updateTurns_rows (db.deleteParticipant ⟨c', kind, id⟩) (RowHolds c a) RowHolds.refl
      _ _ (fun _ => rfl) ?_
    intro t _ hw hc ha
    simp only [Bool.and_eq_true, decide_eq_true_eq] at hw
    rw [hc, ha] at hw
    exact absurd (by rw [← hw.1.1, ← hw.1.2, hkind]) hne
  · exact .of_holds hp rfl le_rfl (fun h => h) (.of_turns_eq RowHolds.refl rfl)

theorem enqueueInTransaction_minds {c' a' : String} {k : ℕ} {r : Bool}
    (h : enqueueInTransaction c' a' k db = .ok (r, db')) : Minds E c a m db db' := by
  have hrows : Rows (RowHolds c a) db db' := enqueueInTransaction_holds h
  refine .of_turnsOnly (enqueueInTransaction_turnsOnly h) (fun _ => hrows.mono RowHolds.carries) ?_
  exact fun _ hcov => Or.inl (hcov.holds hrows)

theorem enqueueForMessage_minds {c' : String} {k : ℕ} {st s text : String} {r : List String}
    (h : enqueueForMessage c' k st s text db = .ok (r, db')) : Minds E c a m db db' := by
  obtain ⟨honly, hrows⟩ := enqueueForMessage_frame (c := c) (a := a) h
  refine .of_turnsOnly honly (fun _ => hrows.mono RowHolds.carries) ?_
  exact fun _ hcov => Or.inl (hcov.holds hrows)

theorem sendRoutedMessage_minds {c' : String} {msg : SendMessage} {r : ℕ × List String}
    (hw : Watch c a m db held) (h : sendRoutedMessage c' msg none db = .ok (r, db')) :
    Minds E c a m db db' := by
  obtain ⟨stored, db₁, queued, hins, hq⟩ := sendRoutedMessage_eq h
  obtain ⟨honly, hrows⟩ := enqueueForMessage_frame (c := c) (a := a) hq
  refine .of_insert hins honly (fun _ => hrows.mono RowHolds.carries) fun howed hcov => ?_
  left
  rcases owed_of_insertMessage hins howed with ho | ⟨-, hid, rfl, ht⟩
  · exact (hcov ho).holds hrows
  · obtain ⟨hpart, hconn, -⟩ := insertMessage_frame (c := c') (a := a) hins
    exact (enqueueForMessage_covers (hpart.trans hw.participant) (hconn.trans hw.connected) ht
      hq).covered

theorem sendTargetedRoutedMessage_minds {c' target : String} {msg : SendMessage}
    {r : ℕ × List String} (hw : Watch c a m db held)
    (h : sendTargetedRoutedMessage c' target msg db = .ok (r, db')) : Minds E c a m db db' := by
  obtain ⟨stored, db₁, q, hins, hq⟩ := sendTargetedRoutedMessage_eq h
  have hrows : Rows (RowHolds c a) db₁ db' := enqueueInTransaction_holds hq
  refine .of_insert hins (enqueueInTransaction_turnsOnly hq) (fun _ => hrows.mono RowHolds.carries)
    fun howed hcov => ?_
  left
  rcases owed_of_insertMessage hins howed with ho | ⟨-, hid, rfl, ht⟩
  · exact (hcov ho).holds hrows
  · obtain ⟨hpart, -⟩ := insertMessage_frame (c := c') (a := a) hins
    obtain rfl : a = target := by
      unfold messageTargetsAgent at ht
      split at ht
      · cases ht
      · simpa using ht
    exact (enqueue_covers (hpart.trans hw.participant) hq).covered

theorem finishInTransaction_minds {turn : ConversationTurn} {status : TurnStatus} {k : Option ℕ}
    {e : Option String} {b : Bool} (hw : Watch c a m db held) (hheld : turn ∈ held)
    (hstatus : status.active = false) (h : finishInTransaction turn status k e db = .ok (b, db')) :
    Minds E c a m db db' := by
  obtain ⟨honly, hrows⟩ := finishInTransaction_frame (c := c) (a := a) (m := m) hstatus h
  refine .of_turnsOnly honly (fun _ => hrows) fun howed hcov => Or.inl ?_
  exact finish_covers hw.schema howed (hw.backed (Or.inl howed) turn hheld) hcov h

theorem completeWithMessage_minds {turn : ConversationTurn} {msg : SendMessage}
    {r : Option ConversationMessage} (hw : Watch c a m db held) (hheld : turn ∈ held)
    (h : completeWithMessage turn msg none db = .ok (r, db')) : Minds E c a m db db' := by
  obtain ⟨-, rfl⟩ | ⟨-, stored, db₁, db₂, q, q', -, hins, hq, hf⟩ := completeWithMessage_cases h
  · exact .of_holds id rfl le_rfl id (.of_turns_eq RowHolds.refl rfl)
  obtain ⟨honly, hrows⟩ := enqueueForMessage_frame (c := c) (a := a) hq
  obtain ⟨honly', hrows'⟩ := finishInTransaction_frame (c := c) (a := a) (m := m) rfl hf
  have hcarries : Rows (RowCarries c a m) db₁ db₂ := hrows.mono RowHolds.carries
  refine .of_insert hins (honly.trans honly') (fun _ => hcarries.trans RowCarries.trans hrows') ?_
  intro howed hcov
  left
  have hevolves := (insertMessage_evolves hins).trans (enqueueForMessage_evolves hq)
  have hnew := owed_of_insertMessage hins howed
  have hb : Backed c a m turn db :=
    hw.backed (hnew.imp id fun h => h.1.ge) turn hheld
  obtain ⟨hpart, hconn, hturns, -⟩ := insertMessage_frame (c := c) (a := a) hins
  have hb₂ : Backed c a m turn db₂ := by
    refine hb.evolves hw.schema hevolves ?_ (hw.known turn hheld).2
    exact Rows.trans RowCarries.trans (.of_turns_eq RowCarries.refl hturns) hcarries
  refine finish_covers (hevolves.schema hw.schema) (honly.owed_iff.2 howed) hb₂ ?_ hf
  rcases hnew with ho | ⟨-, hid, hc, ht⟩
  · exact (hcov ho).holds hrows
  · rw [hc] at hq
    exact (enqueueForMessage_covers (hpart.trans hw.participant) (hconn.trans hw.connected) ht
      hq).covered

theorem stopTurn_minds {c' : String} {id : ℕ} {lease : Option (String × ℤ)} {r : Cancellation}
    (hw : Watch c a m db held) (h : stopTurn c' id lease db = .ok (r, db')) :
    Minds E c a m db db' := by
  obtain ⟨honly, hrows⟩ := stopTurn_frame (c := c) (a := a) (m := m) h
  refine .of_turnsOnly honly (fun _ => hrows) fun howed hcov => ?_
  exact (stop_covers hw.schema hw.participant howed hcov h).imp (fun h => h) Or.inr

/-- A message that is owed after a deletion was owed before, and is not the deleted one. -/
theorem owed_of_markDeleted {c' : String} {d : ℕ} (h : (db.markDeleted c' d).Owed c a m) :
    db.Owed c a m ∧ (c = c' → m ≠ d) := by
  obtain ⟨x, hx, hid, hc, hd, ht⟩ := h
  obtain ⟨y, hy, rfl⟩ := List.mem_map.1 hx
  split at hid
  · rename_i hdel
    simp only [hdel, and_self, if_true] at hd
    cases hd
  · rename_i hkeep
    simp only [hkeep, if_false] at hc hd ht
    refine ⟨⟨y, hy, hid, hc, hd, ht⟩, ?_⟩
    rintro rfl rfl
    exact hkeep ⟨hid, hc⟩

theorem deleteMessage_minds {c' : String} {d : ℕ} {r : List ℕ}
    (hw : Watch c a m db held) (h : deleteMessage c' d db = .ok (r, db')) :
    Minds (c' = c ∧ db.Dismissed d db' c a m) c a m db db' := by
  unfold deleteMessage at h
  split at h
  · cases h
  obtain ⟨⟨_, db₁⟩, h1, h2⟩ := bind_ok h
  cases h2
  have honly := reconcile_turnsOnly h1
  have hback : (db₁.markDeleted c' d).Owed c a m → db.Owed c a m ∧ (c = c' → m ≠ d) := by
    intro ho
    obtain ⟨h3, h4⟩ := owed_of_markDeleted ho
    exact ⟨honly.owed_iff.1 h3, h4⟩
  refine ⟨fun hp => (honly.isParticipant "agent").trans hp, ?_, ?_, fun ho => Or.inl (hback ho).1,
    ?_, ?_⟩
  · obtain ⟨_, _, rfl⟩ := honly
    rfl
  · obtain ⟨_, _, rfl⟩ := honly
    exact le_rfl
  · intro ho ho'
    have hrows := reconcile_carries hw.schema ho (hback ho').2 h1
    exact hrows
  · intro ho hcov
    obtain ⟨h3, -⟩ := hback ho
    have hcases := reconcile_covers hw.participant h3 (hcov h3) h1
    exact hcases

/-- **One call.**  Whatever is called, with records that were claimed: what the agent was
owed and had covered stays covered. -/
theorem exec_minds {op : Op} {r : Reply} (hw : Watch c a m db held)
    (hheld : ∀ turn, op.finishes = some turn → turn ∈ held) (hplain : op.Plain)
    (hstay : op ≠ .removeParticipant c "agent" a) (h : op.exec db = .ok (r, db')) :
    Minds (∃ d, op = .deleteMessage c d ∧ db.Dismissed d db' c a m) c a m db db' := by
  cases op with
  | claimNext => cases h; exact claimNext_minds hw.participant
  | recover => cases h; exact recover_minds
  | tick now => cases h; exact .of_holds id rfl le_rfl id (.of_turns_eq RowHolds.refl rfl)
  | removeParticipant c' kind id =>
    cases h
    refine removeParticipant_minds fun heq => hstay ?_
    cases heq
    rfl
  | sendRouted c' msg target =>
    obtain ⟨⟨_, _⟩, h1, h⟩ := bind_ok h
    cases h
    cases hplain
    exact sendRoutedMessage_minds hw h1
  | sendAgentRouted =>
    obtain ⟨⟨_, _⟩, h1, h⟩ := bind_ok h
    cases h
    exact sendRoutedMessage_minds hw (sendAgentRoutedMessage_eq h1)
  | sendTargeted =>
    obtain ⟨⟨_, _⟩, h1, h⟩ := bind_ok h
    cases h
    exact sendTargetedRoutedMessage_minds hw h1
  | enqueue =>
    obtain ⟨⟨_, _⟩, h1, h⟩ := bind_ok h
    cases h
    exact enqueueInTransaction_minds h1
  | enqueueForMessage =>
    obtain ⟨⟨_, _⟩, h1, h⟩ := bind_ok h
    cases h
    exact enqueueForMessage_minds h1
  | completeWithMessage turn msg target =>
    obtain ⟨⟨_, _⟩, h1, h⟩ := bind_ok h
    cases h
    cases hplain
    exact completeWithMessage_minds hw (hheld turn rfl) h1
  | complete turn =>
    obtain ⟨⟨_, _⟩, h1, h⟩ := bind_ok h
    cases h
    exact finishInTransaction_minds hw (hheld turn rfl) rfl h1
  | fail turn =>
    obtain ⟨⟨_, _⟩, h1, h⟩ := bind_ok h
    cases h
    exact finishInTransaction_minds hw (hheld turn rfl) rfl h1
  | cancel =>
    obtain ⟨⟨_, _⟩, h1, h⟩ := bind_ok h
    cases h
    exact stopTurn_minds hw h1
  | expireLease =>
    obtain ⟨⟨_, _⟩, h1, h⟩ := bind_ok h
    cases h
    exact stopTurn_minds hw h1
  | deleteMessage c' d =>
    obtain ⟨⟨_, _⟩, h1, h⟩ := bind_ok h
    cases h
    refine (deleteMessage_minds hw h1).mono ?_
    rintro ⟨rfl, hdismissed⟩
    exact ⟨d, rfl, hdismissed⟩
  | addParticipant c' kind id =>
    obtain ⟨⟨_, _⟩, h1, h⟩ := bind_ok h
    cases h
    rw [addParticipant_eq h1]
    unfold insertParticipant
    split
    · exact .of_holds (fun h => h) rfl le_rfl (fun h => h) (.of_turns_eq RowHolds.refl rfl)
    · refine .of_holds ?_ rfl le_rfl (fun h => h) (.of_turns_eq RowHolds.refl rfl)
      intro hp
      simp only [isParticipant, decide_eq_true_eq] at hp ⊢
      exact List.mem_append_left _ hp

theorem step_minds {op : Op} (hw : Watch c a m db held)
    (hheld : ∀ turn, op.finishes = some turn → turn ∈ held) (hplain : op.Plain)
    (hstay : op ≠ .removeParticipant c "agent" a) :
    Minds (∃ d, op = .deleteMessage c d ∧ db.Dismissed d (step db op) c a m) c a m db
      (step db op) := by
  rcases step_cases db op with ⟨h, -⟩ | ⟨r, h, -⟩
  · rw [h]
    exact .of_holds id rfl le_rfl id (.of_turns_eq RowHolds.refl rfl)
  · exact exec_minds hw hheld hplain hstay h

/-- A claimed record is a row of the table that the claim leaves. -/
theorem mem_of_claimed {op : Op} {r : ConversationTurn} (h : claimed db op = some r) :
    r ∈ (step db op).turns := by
  unfold claimed at h
  rcases step_cases db op with ⟨-, hr⟩ | ⟨r', hx, hr⟩
  · rw [hr] at h; cases h
  rw [hr] at h
  cases op
  case claimNext =>
    obtain ⟨rfl, hdb⟩ := Prod.mk.inj (Except.ok.inj hx)
    rw [← hdb]
    replace h : db.claimNext.1 = some r := h
    rcases claimNext_cases db with hc | ⟨next, -, -, hc⟩ <;> rw [hc] at h ⊢
    · cases h
    · exact List.mem_of_find?_eq_some h
  case recover | removeParticipant | tick =>
    obtain ⟨rfl, -⟩ := Prod.mk.inj (Except.ok.inj hx)
    cases h
  all_goals
    obtain ⟨_, -, h2⟩ := bind_ok hx
    obtain ⟨rfl, -⟩ := Prod.mk.inj (Except.ok.inj h2)
    cases h

/-- What is watched stays watched. -/
theorem Db.Watch.step {op : Op} (hw : Watch c a m db held)
    (hheld : ∀ turn, op.finishes = some turn → turn ∈ held) (hplain : op.Plain)
    (hstay : op ≠ .removeParticipant c "agent" a) :
    Watch c a m (step db op) (held ++ (claimed db op).toList) := by
  have hm := step_minds hw hheld hplain hstay
  have he := step_evolves db op
  have hs := he.schema hw.schema
  have hn := he.numbered hw.numbered
  refine ⟨hs, hn, hm.participant hw.participant, hm.connected.trans hw.connected, ?_, ?_⟩
  · intro r hr
    rcases List.mem_append.1 hr with hr | hr
    · obtain ⟨h1, t, ht, hid⟩ := hw.known r hr
      obtain ⟨t', ht', hb⟩ := he.rows t ht
      exact ⟨h1.trans_le hm.next, t', ht', hb.id.trans hid⟩
    · have hmem := mem_of_claimed (Option.mem_toList.1 hr)
      exact ⟨hn.triggers r hmem, r, hmem, rfl⟩
  · intro hlive r hr
    rcases List.mem_append.1 hr with hr | hr
    · obtain ⟨hlt, hex⟩ := hw.known r hr
      have hlive' : db.Owed c a m ∨ db.nextMessageId ≤ m :=
        hlive.elim hm.fresh fun h => Or.inr (hm.next.trans h)
      refine (hw.backed hlive' r hr).evolves hw.schema he ?_ hex
      by_cases hlater : db.nextMessageId ≤ m
      · exact carries_of_later hw.numbered he hlater
      · have howed := hlive'.resolve_right hlater
        refine hm.carries howed (hlive.resolve_right fun h => hlater (hm.next.trans h))
    · have hmem := mem_of_claimed (Option.mem_toList.1 hr)
      intro t ht hid
      obtain rfl := hs.eq_of_id ht hmem hid
      exact ⟨rfl, rfl, fun _ _ _ h => h⟩

/-! ## Runs -/

/-- A database with no messages and no turns yet. -/
structure Db.Fresh (db : Db) : Prop where
  messages : db.messages = []
  turns : db.turns = []
  pos : 0 < db.nextMessageId

/-- Every completing call of the run is given a record that `claim_next` returned earlier. -/
def Genuine (db : Db) (ops : List Op) : Prop :=
  ∀ before op, before ++ [op] <+: ops → ∀ turn, op.finishes = some turn →
    turn ∈ outputs step claimed db before

/-- In every run what is watched stays watched. -/
theorem watch_runOps {ops : List Op} (hfresh : db.Fresh) (hp : db.isParticipant c "agent" a)
    (hconn : db.connected c = false) (hgenuine : Genuine db ops) (hplain : ∀ op ∈ ops, op.Plain)
    (hstay : .removeParticipant c "agent" a ∉ ops) :
    Watch c a m (runOps step db ops) (outputs step claimed db ops) := by
  induction ops using List.reverseRecOn with
  | nil =>
    obtain ⟨hm, ht, hpos⟩ := hfresh
    refine ⟨⟨by simp [ht], by simp [ht]⟩, ⟨hpos, by simp [hm], by simp [ht]⟩, hp, hconn, ?_, ?_⟩
    · simp [outputs]
    · simp [outputs]
  | append_singleton ops op ih =>
    have hw := ih (fun before o h => hgenuine before o (h.trans (List.prefix_append _ _)))
      (fun o ho => hplain o (List.mem_append_left _ ho))
      (fun h => hstay (List.mem_append_left _ h))
    rw [runOps_concat, outputs_concat]
    refine hw.step (hgenuine ops op (List.prefix_refl _)) (hplain op (by simp)) ?_
    rintro rfl
    exact hstay (by simp)

/-- **No addressed message is stranded.**  In every run of the queue and the manager, in a
conversation without Connect commands and for an agent that stays a participant: a visible
message that addresses the agent is covered, unless a deletion dismissed a failed turn of the
agent that had it in its prompt to an earlier one, or a queued turn of the agent with an older
trigger was cancelled while the message was there. -/
theorem addressed_message_covered {ops : List Op} (hfresh : db.Fresh)
    (hp : db.isParticipant c "agent" a) (hconn : db.connected c = false)
    (hgenuine : Genuine db ops) (hplain : ∀ op ∈ ops, op.Plain)
    (hstay : .removeParticipant c "agent" a ∉ ops)
    (hpass : ∀ before op, before ++ [op] <+: ops →
      ¬ (runOps step db before).PassedOver (runOps step db (before ++ [op])) c a m)
    (howed : (runOps step db ops).Owed c a m) :
    (runOps step db ops).Covered c a m ∨
      ∃ before d, before ++ [.deleteMessage c d] <+: ops ∧
        (runOps step db before).Dismissed d (runOps step db (before ++ [.deleteMessage c d]))
          c a m := by
  induction ops using List.reverseRecOn with
  | nil =>
      obtain ⟨x, hx, -⟩ := howed
      simp [hfresh.messages] at hx
  | append_singleton ops op ih =>
      have hgenuine' : Genuine db ops := fun before o h =>
        hgenuine before o (h.trans (List.prefix_append _ _))
      have hplain' : ∀ o ∈ ops, o.Plain := fun o ho => hplain o (List.mem_append_left _ ho)
      have hstay' : .removeParticipant c "agent" a ∉ ops := fun h =>
        hstay (List.mem_append_left _ h)
      have hw : Watch c a m (runOps step db ops) (outputs step claimed db ops) :=
        watch_runOps hfresh hp hconn hgenuine' hplain' hstay'
      have hm := step_minds hw (hgenuine ops op (List.prefix_refl _)) (hplain op (by simp)) (by
        rintro rfl
        exact hstay (by simp))
      rw [runOps_concat] at howed ⊢
      have hold := ih hgenuine' hplain' hstay' fun before o h =>
        hpass before o (h.trans (List.prefix_append _ _))
      by_cases hdismissed : ∃ before d, before ++ [.deleteMessage c d] <+: ops ∧
          (runOps step db before).Dismissed d (runOps step db (before ++ [.deleteMessage c d]))
            c a m
      · obtain ⟨before, d, h1, h2⟩ := hdismissed
        exact Or.inr ⟨before, d, h1.trans (List.prefix_append _ _), h2⟩
      rcases hm.covered howed fun ho => (hold ho).resolve_right hdismissed with
        hc | ⟨d, rfl, hd⟩ | hpo
      · exact Or.inl hc
      · refine Or.inr ⟨ops, d, List.prefix_refl _, ?_⟩
        rw [runOps_concat]
        exact hd
      · have hno := hpass ops op (List.prefix_refl _)
        rw [runOps_concat] at hno
        exact absurd hpo hno

end

section

variable (db db' : Db) (c a : String) (m : ℕ) (op : Op)

instance : Decidable (db.Owed c a m) := by unfold Db.Owed; infer_instance
instance : Decidable (db.Covered c a m) := by unfold Db.Covered; infer_instance
instance : Decidable (db.PassedOver db' c a m) := by unfold Db.PassedOver; infer_instance

instance : Decidable op.Plain := by
  cases op <;> unfold Op.Plain <;> infer_instance

end

theorem fresh_twoAgents : twoAgents.Fresh := ⟨rfl, rfl, by decide⟩

/-- A user addresses an agent. -/
def callAtlas : Op := .sendRouted "c" ⟨"user", "u", "hello @[AGENT:atlas:Atlas]"⟩ none

/-- A second message arrives while the turn of the first runs, and the turn is cancelled. -/
def cancelledRun : List Op := [callAtlas, .claimNext, callAtlas, .cancel "c" 0]

theorem cancelledRun_covers :
    (runOps step twoAgents cancelledRun).Covered "c" "atlas" 2 ∨
      ∃ before d, before ++ [.deleteMessage "c" d] <+: cancelledRun ∧
        (runOps step twoAgents before).Dismissed d
          (runOps step twoAgents (before ++ [.deleteMessage "c" d])) "c" "atlas" 2 := by
  refine addressed_message_covered fresh_twoAgents (by decide) (by decide) ?_ ?_ ?_ ?_ ?_
  · intro before op hp
    refine @forall_prefix_concat _ (fun before op => ∀ turn ∈ op.finishes,
      turn ∈ outputs step claimed twoAgents before) _ ?_ _ _ hp
    decide +kernel
  · decide
  · simp [cancelledRun, callAtlas]
  · intro before op hp
    refine @forall_prefix_concat _ (fun before op => ¬ (runOps step twoAgents before).PassedOver
      (runOps step twoAgents (before ++ [op])) "c" "atlas" 2) _ ?_ _ _ hp
    decide +kernel
  · decide +kernel

/-- A turn with two messages in its prompt fails, and the first message is deleted. -/
def dismissedRun : List Op :=
  [callAtlas, callAtlas, .claimNext, .fail { firstTurn 2 with status := .running } "lost",
    .deleteMessage "c" 1]

/-- A deletion dismisses a failed turn and leaves the other messages of its prompt without
a turn. -/
theorem dismissed_turn_strands : ¬ ∀ (db : Db) (ops : List Op) (c a : String) (m : ℕ), db.Fresh →
    db.isParticipant c "agent" a → db.connected c = false → Genuine db ops →
    (∀ op ∈ ops, op.Plain) → .removeParticipant c "agent" a ∉ ops →
    (runOps step db ops).Owed c a m → (runOps step db ops).Covered c a m := by
  intro h
  have hcov := h twoAgents dismissedRun "c" "atlas" 2 fresh_twoAgents (by decide) (by decide)
    (by
      intro before op hp
      refine @forall_prefix_concat _ (fun before op => ∀ turn ∈ op.finishes,
        turn ∈ outputs step claimed twoAgents before) _ ?_ _ _ hp
      decide +kernel)
    (by decide) (by simp [dismissedRun, callAtlas]) (by decide +kernel)
  revert hcov
  decide +kernel

end XpressClaw.Conversations
