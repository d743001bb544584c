import XpressClaw.Conversations.Coverage
import XpressClaw.Conversations.Sessions

/-!
# Deleting a message

What `delete_message` leaves of the turns and the native sessions of a conversation.

* `Db.retargetAll_eq` — the queued turns of the message fall back in one update, each to the
  newest earlier message that its agent has not answered.
* `Untriggered`, `Idle`, `Answered` — what the stages of the reconciliation keep: no active
  turn has the message as its trigger, an agent has no active turn, a finished turn of an agent
  has some trigger.
* `deletion_settled` — **a deletion settles the conversation exactly when nobody waits behind a
  queued turn**: the turns that consumed the message are over for good and no native session is
  left; but a queued turn of the message only looks back for other input, not forward.
-/

namespace XpressClaw.Conversations

open Lib

namespace Db

variable {db db' : Db} {c a : String} {m : ℕ}

/-! ## Boundaries -/

/-- A turn of the agent that is over has the trigger. -/
def Answered (db : Db) (c a : String) (k : ℕ) : Prop :=
  ∃ t ∈ db.turnsOf c a, ¬ t.status.active ∧ t.triggerMessageId = some k

/-- The newest trigger of the agent's turns that are over. -/
def lastFinishedTrigger (db : Db) (c a : String) : ℕ :=
  (((db.turnsOf c a).filter (!·.status.active)).filterMap (·.triggerMessageId)).max?.getD 0

/-- The newest message before the deleted one that the agent has not answered. -/
def earlierAddressed (db : Db) (c a : String) (m : ℕ) : Option ℕ :=
  db.latestAddressedMessage c a ((db.latestPromptBoundaryBefore c a m true).getD 0) (some m)

theorem Answered.le_last {k : ℕ} (h : db.Answered c a k) : k ≤ db.lastFinishedTrigger c a := by
  obtain ⟨t, ht, hover, htrigger⟩ := h
  have hmem : k ∈ ((db.turnsOf c a).filter (!·.status.active)).filterMap (·.triggerMessageId) :=
    List.mem_filterMap.2 ⟨t, List.mem_filter.2 ⟨ht, by simpa using hover⟩, htrigger⟩
  unfold lastFinishedTrigger
  cases hmax : (((db.turnsOf c a).filter (!·.status.active)).filterMap
      (·.triggerMessageId)).max? with
  | none =>
    rw [List.max?_eq_none_iff.1 hmax] at hmem
    cases hmem
  | some last => exact (List.max?_eq_some_iff.1 hmax).2 k hmem

theorem answered_of_boundary {before k : ℕ} {all : Bool}
    (h : db.latestPromptBoundaryBefore c a before all = some k) :
    db.Answered c a k ∧ k < before := by
  have hmem := List.max?_mem h
  simp only [List.mem_filter, List.mem_filterMap, decide_eq_true_eq] at hmem
  obtain ⟨⟨t, ⟨ht, hstatus⟩, htrigger⟩, hlt⟩ := hmem
  refine ⟨⟨t, ht, ?_, htrigger⟩, hlt⟩
  cases hs : t.status <;> simp_all [TurnStatus.active]

theorem boundary_lt {before k : ℕ} (hk : 0 < k)
    (h : ∀ j, db.Answered c a j → j < before → j < k) :
    (db.latestPromptBoundaryBefore c a before true).getD 0 < k := by
  cases hb : db.latestPromptBoundaryBefore c a before true with
  | none => exact hk
  | some j =>
    obtain ⟨hj, hlt⟩ := answered_of_boundary hb
    exact h j hj hlt

theorem boundary_le_last (before : ℕ) :
    (db.latestPromptBoundaryBefore c a before true).getD 0 ≤ db.lastFinishedTrigger c a := by
  cases hb : db.latestPromptBoundaryBefore c a before true with
  | none => exact Nat.zero_le _
  | some j => exact (answered_of_boundary hb).1.le_last

/-- The search finds something exactly when something is owed within its bounds. -/
theorem latest_isSome_iff {after : ℕ} {b : Option ℕ} :
    (db.latestAddressedMessage c a after b).isSome ↔
      ∃ k, db.Owed c a k ∧ after < k ∧ b.all (k < ·) := by
  constructor
  · intro h
    obtain ⟨k, hk⟩ := Option.isSome_iff_exists.1 h
    obtain ⟨msg, hmsg, hid, hconv, hafter, hbefore, hdeleted, htargets⟩ :=
      mem_of_latestAddressedMessage hk
    exact ⟨k, ⟨msg, hmsg, hid, hconv, hdeleted, htargets⟩, hafter, hbefore⟩
  · rintro ⟨k, howed, hafter, hbefore⟩
    obtain ⟨latest, hl, -⟩ := howed.le_latest hafter hbefore
    rw [hl]
    rfl

/-! ## Turns that are over -/

/-- The turns that are over are the same. -/
def SameOver (db db' : Db) : Prop :=
  ∀ t : ConversationTurn, ¬ t.status.active → (t ∈ db'.turns ↔ t ∈ db.turns)

theorem SameOver.refl (db : Db) : SameOver db db := fun _ _ => Iff.rfl

theorem SameOver.answered (h : SameOver db db') {k : ℕ} :
    db'.Answered c a k ↔ db.Answered c a k := by
  constructor
  · rintro ⟨t, ht, hover, hk⟩
    obtain ⟨ht, hc, ha⟩ := mem_turnsOf.1 ht
    exact ⟨t, mem_turnsOf.2 ⟨(h t hover).1 ht, hc, ha⟩, hover, hk⟩
  · rintro ⟨t, ht, hover, hk⟩
    obtain ⟨ht, hc, ha⟩ := mem_turnsOf.1 ht
    exact ⟨t, mem_turnsOf.2 ⟨(h t hover).2 ht, hc, ha⟩, hover, hk⟩

/-- An update of active turns that leaves them active. -/
theorem updateTurns_sameOver {w : ConversationTurn → Bool}
    {set : ConversationTurn → ConversationTurn}
    (hw : ∀ t ∈ db.turns, w t → t.status.active ∧ (set t).status.active) :
    SameOver db (db.updateTurns w set) := by
  intro t hover
  constructor
  · intro ht
    obtain ⟨u, hu, rfl⟩ := List.mem_map.1 ht
    by_cases hwu : w u = true
    · rw [if_pos hwu] at hover
      exact absurd (hw u hu hwu).2 hover
    · rw [if_neg hwu]
      exact hu
  · intro ht
    refine List.mem_map.2 ⟨t, ht, if_neg fun hwt => ?_⟩
    exact hover (hw t ht hwt).1

theorem max?_congr {l l' : List ℕ} (h : ∀ k, k ∈ l ↔ k ∈ l') : l.max? = l'.max? := by
  cases hl : l.max? with
  | none =>
    rw [List.max?_eq_none_iff] at hl
    subst hl
    rw [List.eq_nil_iff_forall_not_mem.2 fun k hk => List.not_mem_nil ((h k).2 hk)]
    rfl
  | some k =>
    obtain ⟨hk, hmax⟩ := List.max?_eq_some_iff.1 hl
    exact (List.max?_eq_some_iff.2 ⟨(h k).1 hk, fun j hj => hmax j ((h j).2 hj)⟩).symm

theorem SameOver.boundary (h : SameOver db db') (before : ℕ) (all : Bool) :
    db'.latestPromptBoundaryBefore c a before all =
    db.latestPromptBoundaryBefore c a before all := by
  have hover : ∀ t : ConversationTurn, (t.status = .cancelled || t.status = .failed ||
      (all && t.status = .completed)) = true → (t ∈ db'.turns ↔ t ∈ db.turns) := by
    intro t ht
    refine h t ?_
    cases hs : t.status <;> simp_all [TurnStatus.active]
  refine max?_congr fun k => ?_
  simp only [List.mem_filter, List.mem_filterMap, mem_turnsOf]
  constructor
  · rintro ⟨⟨t, ⟨⟨ht, hc, ha⟩, hs⟩, hk⟩, hlt⟩
    exact ⟨⟨t, ⟨⟨(hover t hs).1 ht, hc, ha⟩, hs⟩, hk⟩, hlt⟩
  · rintro ⟨⟨t, ⟨⟨ht, hc, ha⟩, hs⟩, hk⟩, hlt⟩
    exact ⟨⟨t, ⟨⟨(hover t hs).2 ht, hc, ha⟩, hs⟩, hk⟩, hlt⟩

theorem SameOver.earlierAddressed (h : SameOver db db') (honly : db.TurnsOnly db') :
    db'.earlierAddressed c a m = db.earlierAddressed c a m := by
  obtain ⟨_, _, rfl⟩ := honly
  rw [Db.earlierAddressed, h.boundary]
  rfl

/-! ## Retargeting -/

/-- What becomes of a queued turn of the message. -/
def retarget (db : Db) (c : String) (m : ℕ) (t : ConversationTurn) : ConversationTurn :=
  { t with triggerMessageId := some ((db.earlierAddressed c t.agentId m).getD m) }

theorem queuedFor_iff {t : ConversationTurn} : QueuedFor c m t = true ↔
    t.conversationId = c ∧ t.triggerMessageId = some m ∧ t.status = .queued := by
  simp [QueuedFor, and_assoc]

theorem earlierAddressed_lt {k : ℕ} (h : db.earlierAddressed c a m = some k) : k < m := by
  obtain ⟨-, -, -, -, -, hlt, -⟩ := mem_of_latestAddressedMessage h
  simpa using hlt

theorem retarget_of_none {t : ConversationTurn} (hq : QueuedFor c m t)
    (h : db.earlierAddressed c t.agentId m = none) : db.retarget c m t = t := by
  rw [retarget, h, Option.getD_none, ← (queuedFor_iff.1 hq).2.1]

theorem retargetQueuedTurnBeforeMessage_of_none (id : ℕ) (h : db.earlierAddressed c a m = none) :
    db.retargetQueuedTurnBeforeMessage c id a m = db := by
  unfold retargetQueuedTurnBeforeMessage
  unfold earlierAddressed at h
  dsimp only
  rw [h]

theorem retargetQueuedTurnBeforeMessage_of_some (id : ℕ) {k : ℕ}
    (h : db.earlierAddressed c a m = some k) :
    db.retargetQueuedTurnBeforeMessage c id a m =
      db.updateTurns (fun t => t.id = id && t.status = .queued && t.triggerMessageId = some m)
        fun t => { t with triggerMessageId := some k } := by
  unfold retargetQueuedTurnBeforeMessage
  unfold earlierAddressed at h
  dsimp only
  rw [h]

/-- One turn of the loop: the row it is about joins the rows that are retargeted. -/
theorem retargetQueuedTurnBeforeMessage_eq (hs : db.Schema) {ts : List ConversationTurn}
    {t : ConversationTurn} (ht : t ∈ db.turns) (hq : QueuedFor c m t) :
    (db.updateTurns (fun u => QueuedFor c m u && u ∈ ts) (db.retarget c m)
      ).retargetQueuedTurnBeforeMessage c t.id t.agentId m =
    db.updateTurns (fun u => QueuedFor c m u && u ∈ ts ++ [t]) (db.retarget c m) := by
  obtain ⟨hconv, htrigger, hqueued⟩ := queuedFor_iff.1 hq
  have hsame : SameOver db (db.updateTurns (fun u => QueuedFor c m u && u ∈ ts)
      (db.retarget c m)) := by
    refine updateTurns_sameOver fun u _ hu => ?_
    have hqu := (queuedFor_iff.1 (Bool.and_eq_true_iff.1 hu).1).2.2
    exact ⟨TurnStatus.active_iff.2 (Or.inl hqu), TurnStatus.active_iff.2 (Or.inl hqu)⟩
  have hearlier : (db.updateTurns (fun u => QueuedFor c m u && u ∈ ts)
      (db.retarget c m)).earlierAddressed c t.agentId m = db.earlierAddressed c t.agentId m :=
    hsame.earlierAddressed (updateTurns_turnsOnly _ _)
  cases he : db.earlierAddressed c t.agentId m with
  | none =>
    rw [retargetQueuedTurnBeforeMessage_of_none t.id (hearlier.trans he)]
    simp only [updateTurns, Db.mk.injEq, true_and, and_true]
    refine List.map_congr_left fun u hu => ?_
    by_cases hut : u = t
    · subst hut
      simp [retarget_of_none hq he]
    · simp [hut]
  | some k =>
    rw [retargetQueuedTurnBeforeMessage_of_some t.id (hearlier.trans he)]
    simp only [updateTurns, Db.mk.injEq, true_and, and_true, List.map_map]
    refine List.map_congr_left fun u hu => ?_
    have hk := earlierAddressed_lt he
    by_cases hut : u = t
    · subst hut
      by_cases hin : u ∈ ts
      · simp [hq, hin, retarget, he, hk.ne]
      · simp [hq, hin, retarget, he, hqueued, htrigger]
    · have hid : u.id ≠ t.id := fun hid => hut (hs.eq_of_id hu ht hid)
      by_cases hin : u ∈ ts
      · by_cases hqu : QueuedFor c m u = true
        · simp [hqu, hin, retarget, hid]
        · simp [hqu, hid]
      · simp [hin, hut, hid]

/-- **Retargeting is one update.** -/
theorem retargetAll_eq (hs : db.Schema) :
    db.retargetAll c m = db.updateTurns (QueuedFor c m) (db.retarget c m) := by
  have hfold : ∀ ts done : List ConversationTurn, (∀ t ∈ ts, t ∈ db.turns ∧ QueuedFor c m t) →
      ts.foldl (fun d t => d.retargetQueuedTurnBeforeMessage c t.id t.agentId m)
        (db.updateTurns (fun u => QueuedFor c m u && u ∈ done) (db.retarget c m)) =
      db.updateTurns (fun u => QueuedFor c m u && u ∈ done ++ ts) (db.retarget c m) := by
    intro ts
    induction ts with
    | nil => simp
    | cons t ts ih =>
      intro done hts
      obtain ⟨ht, hq⟩ := hts t (by simp)
      rw [List.foldl_cons, retargetQueuedTurnBeforeMessage_eq hs ht hq,
        ih _ fun u hu => hts u (by simp [hu])]
      simp
  have hall := hfold (db.turns.filter (QueuedFor c m)) []
    (fun t ht => by simpa using List.mem_filter.1 ht)
  have hstart : db.updateTurns (fun u => QueuedFor c m u && u ∈ ([] : List ConversationTurn))
      (db.retarget c m) = db := by simp [updateTurns]
  rw [hstart] at hall
  rw [retargetAll, hall]
  simp only [updateTurns, Db.mk.injEq, true_and, and_true]
  refine List.map_congr_left fun u hu => ?_
  by_cases hq : QueuedFor c m u = true
  · simp [hq, hu]
  · simp [hq]

theorem retargetAll_sameOver (hs : db.Schema) : SameOver db (db.retargetAll c m) := by
  rw [retargetAll_eq hs]
  refine updateTurns_sameOver fun u _ hu => ?_
  have hqueued := (queuedFor_iff.1 hu).2.2
  exact ⟨TurnStatus.active_iff.2 (Or.inl hqueued), TurnStatus.active_iff.2 (Or.inl hqueued)⟩

/-! ## Stopping -/

theorem consumedBy_iff {status : TurnStatus} {t : ConversationTurn} :
    ConsumedBy c m status t = true ↔ t.conversationId = c ∧ t.status = status ∧
      ∃ k, t.triggerMessageId = some k ∧ m ≤ k := by
  simp [ConsumedBy, Option.any_eq_true, and_assoc]

/-- The two updates of `reconcile_message_deletion_turns` that end turns. -/
def stopConsumed (c : String) (m : ℕ) (db : Db) : Db :=
  ((db.affectedAgents c m).foldl (dismissFailed c m) db).cancelConsumed c m

/-- Dismissing leaves the active turns alone. -/
theorem mem_dismissFailed {t : ConversationTurn} (ht : t.status.active) (agent : String) :
    t ∈ (dismissFailed c m db agent).turns ↔ t ∈ db.turns := by
  constructor
  · intro hmem
    obtain ⟨u, hu, rfl⟩ := List.mem_map.1 hmem
    by_cases hw : (ConsumedBy c m .failed u && u.agentId = agent) = true
    · rw [if_pos hw] at ht
      cases ht
    · rw [if_neg hw]
      exact hu
  · intro hmem
    refine List.mem_map.2 ⟨t, hmem, if_neg fun hw => ?_⟩
    rw [(consumedBy_iff.1 (Bool.and_eq_true_iff.1 hw).1).2.1] at ht
    cases ht

theorem mem_dismissAll {t : ConversationTurn} (ht : t.status.active) (agents : List String) :
    t ∈ (agents.foldl (dismissFailed c m) db).turns ↔ t ∈ db.turns := by
  induction agents generalizing db with
  | nil => rfl
  | cons agent agents ih => exact ih.trans (mem_dismissFailed ht agent)

/-- An active turn that is left was active before, and did not consume the message. -/
theorem mem_stopConsumed {t : ConversationTurn} (ht : t.status.active) :
    t ∈ (db.stopConsumed c m).turns ↔
      t ∈ db.turns ∧ QueuedFor c m t = false ∧ ConsumedBy c m .running t = false := by
  have hdismissed : t ∈ ((db.affectedAgents c m).foldl (dismissFailed c m) db).turns ↔
      t ∈ db.turns := mem_dismissAll ht _
  rw [← hdismissed]
  constructor
  · intro hmem
    obtain ⟨u, hu, rfl⟩ := List.mem_map.1 hmem
    by_cases hw : (QueuedFor c m u || ConsumedBy c m .running u) = true
    · rw [if_pos hw] at ht
      cases ht
    · rw [if_neg hw]
      exact ⟨hu, by simpa using hw⟩
  · rintro ⟨hmem, hq, hc⟩
    refine List.mem_map.2 ⟨t, hmem, if_neg ?_⟩
    dsimp only
    simp [hq, hc]

theorem stopConsumed_cancels {t : ConversationTurn} (ht : t ∈ db.turns)
    (hc : ConsumedBy c m .running t) :
    ∃ t' ∈ (db.stopConsumed c m).turns, t'.id = t.id ∧ t'.status = .cancelled := by
  have hact : t.status.active := TurnStatus.active_iff.2 (Or.inr (consumedBy_iff.1 hc).2.1)
  refine ⟨{ t with status := .cancelled, errorMessage := none }, ?_, rfl, rfl⟩
  refine List.mem_map.2 ⟨t, (mem_dismissAll hact (db.affectedAgents c m)).2 ht, if_pos ?_⟩
  dsimp only
  rw [hc, Bool.or_true]

theorem dismissFailed_answered {k : ℕ} {agent : String}
    (h : (dismissFailed c m db agent).Answered c a k) : db.Answered c a k := by
  obtain ⟨t', ht', hover, hk⟩ := h
  obtain ⟨ht', hconv, hagent⟩ := mem_turnsOf.1 ht'
  obtain ⟨t, ht, rfl⟩ := List.mem_map.1 ht'
  by_cases hw : (ConsumedBy c m .failed t && t.agentId = agent) = true
  · rw [if_pos hw] at hk hagent
    obtain rfl : t.agentId = agent := by simpa using (Bool.and_eq_true_iff.1 hw).2
    obtain rfl : t.agentId = a := hagent
    exact (answered_of_boundary hk).1
  · rw [if_neg hw] at hover hk hconv hagent
    exact ⟨t, mem_turnsOf.2 ⟨ht, hconv, hagent⟩, hover, hk⟩

/-- What an agent answered before the message, it had answered. -/
theorem stopConsumed_answered {k : ℕ} (hk : k < m) (h : (db.stopConsumed c m).Answered c a k) :
    db.Answered c a k := by
  have hdismiss : ∀ (agents : List String) (db : Db),
      (agents.foldl (dismissFailed c m) db).Answered c a k → db.Answered c a k := by
    intro agents
    induction agents with
    | nil => exact fun _ h => h
    | cons agent agents ih => exact fun db h => dismissFailed_answered (ih _ h)
  apply hdismiss (db.affectedAgents c m) db
  obtain ⟨t', ht', hover, htrigger⟩ := h
  obtain ⟨ht', hconv, hagent⟩ := mem_turnsOf.1 ht'
  obtain ⟨t, ht, rfl⟩ := List.mem_map.1 ht'
  by_cases hw : (QueuedFor c m t || ConsumedBy c m .running t) = true
  · rw [if_pos hw] at htrigger
    rcases Bool.or_eq_true_iff.1 hw with hq | hc
    · rw [(queuedFor_iff.1 hq).2.1] at htrigger
      cases htrigger
      exact absurd hk (lt_irrefl m)
    · obtain ⟨j, hj, hle⟩ := (consumedBy_iff.1 hc).2.2
      rw [hj] at htrigger
      cases htrigger
      exact absurd hk (not_lt.2 hle)
  · rw [if_neg hw] at hover htrigger hconv hagent
    exact ⟨t, mem_turnsOf.2 ⟨ht, hconv, hagent⟩, hover, htrigger⟩

/-! ## Queuing again -/

/-- No active turn of the conversation has the message as its trigger. -/
def Untriggered (c : String) (m : ℕ) (db : Db) : Prop :=
  ∀ t ∈ db.turns, t.conversationId = c → t.status.active → t.triggerMessageId ≠ some m

theorem stopConsumed_untriggered : (db.stopConsumed c m).Untriggered c m := by
  intro t ht hc hact htrigger
  obtain ⟨-, hq, hr⟩ := (mem_stopConsumed hact).1 ht
  rcases TurnStatus.active_iff.1 hact with hs | hs
  · rw [queuedFor_iff.2 ⟨hc, htrigger, hs⟩] at hq
    cases hq
  · rw [consumedBy_iff.2 ⟨hc, hs, m, htrigger, le_rfl⟩] at hr
    cases hr

theorem enqueueInTransaction_sameOver {k : ℕ} {r : Bool} (hs : db.Schema)
    (h : enqueueInTransaction c a k db = .ok (r, db')) : SameOver db db' := by
  obtain ⟨-, ⟨-, rfl⟩ | ⟨-, -, -, rfl⟩ | ⟨t, ht, hq, rfl⟩ | h⟩ := enqueueInTransaction_cases h
  · exact .refl _
  · exact .refl _
  · refine updateTurns_sameOver fun u hu hid => ?_
    rw [hs.eq_of_id hu (mem_turnsOf.1 ht).1 (by simpa using hid)]
    exact ⟨TurnStatus.active_iff.2 (Or.inl hq), TurnStatus.active_iff.2 (Or.inl hq)⟩
  · obtain ⟨-, -, rfl⟩ := insertTurn_eq h
    intro u hu
    rw [List.mem_append, List.mem_singleton]
    refine ⟨fun hmem => hmem.resolve_right ?_, Or.inl⟩
    rintro rfl
    exact hu rfl

theorem Untriggered.enqueue {k : ℕ} {r : Bool} (hdb : db.Untriggered c m) (hs : db.Schema)
    (hk : k ≠ m) (h : enqueueInTransaction c a k db = .ok (r, db')) : db'.Untriggered c m := by
  obtain ⟨-, ⟨-, rfl⟩ | ⟨-, -, -, rfl⟩ | ⟨t, ht, hq, rfl⟩ | h⟩ := enqueueInTransaction_cases h
  · exact hdb
  · exact hdb
  · intro u' hu' hc hact htrigger
    obtain ⟨u, hu, rfl⟩ := List.mem_map.1 hu'
    by_cases hid : u.id = t.id
    · obtain rfl := hs.eq_of_id hu (mem_turnsOf.1 ht).1 hid
      simp only [decide_true, if_true, Option.some.injEq] at htrigger hc hact
      -- the higher one of two triggers, neither of which is the message
      have hold := hdb u hu hc (TurnStatus.active_iff.2 (Or.inl hq))
      have htrig : u.trigger = m := by omega
      cases hu : u.triggerMessageId with
      | none =>
        have hzero : m = 0 := by rw [← htrig, ConversationTurn.trigger, hu]; rfl
        omega
      | some j =>
        rw [ConversationTurn.trigger, hu, Option.getD_some] at htrig
        exact hold (htrig ▸ hu)
    · simp only [hid, decide_false, Bool.false_eq_true, if_false] at htrigger hc hact
      exact hdb u hu hc hact htrigger
  · obtain ⟨-, -, rfl⟩ := insertTurn_eq h
    intro u hu hc hact htrigger
    rcases List.mem_append.1 hu with hu | hu
    · exact hdb u hu hc hact htrigger
    · rw [List.mem_singleton.1 hu] at htrigger
      exact hk (Option.some.inj htrigger)

theorem enqueueInTransaction_of_not_participant {k : ℕ} {r : Bool}
    (hp : db.isParticipant c "agent" a = false)
    (h : enqueueInTransaction c a k db = .ok (r, db')) : db' = db := by
  unfold enqueueInTransaction at h
  obtain ⟨_, -, h⟩ := bind_ok h
  obtain ⟨_, -, h⟩ := bind_ok h
  split at h
  · cases h
  · rw [hp] at h
    cases h
    rfl

/-- Queuing another agent engages nobody else. -/
theorem engaged_of_enqueue {b : String} {k : ℕ} {r : Bool} (hb : b ≠ a)
    (h : enqueueInTransaction c b k db = .ok (r, db')) (he : db'.Engaged c a) :
    db.Engaged c a := by
  obtain ⟨-, ⟨-, rfl⟩ | ⟨-, -, -, rfl⟩ | ⟨t, -, -, rfl⟩ | h⟩ := enqueueInTransaction_cases h
  · exact he
  · exact he
  · obtain ⟨u', hu', hact⟩ := he
    obtain ⟨hu', hc, ha⟩ := mem_turnsOf.1 hu'
    obtain ⟨u, hu, rfl⟩ := List.mem_map.1 hu'
    by_cases hid : u.id = t.id
    · simp only [hid, decide_true, if_true] at hc ha hact
      exact ⟨u, mem_turnsOf.2 ⟨hu, hc, ha⟩, hact⟩
    · simp only [hid, decide_false, Bool.false_eq_true, if_false] at hc ha hact
      exact ⟨u, mem_turnsOf.2 ⟨hu, hc, ha⟩, hact⟩
  · obtain ⟨-, -, rfl⟩ := insertTurn_eq h
    obtain ⟨u, hu, hact⟩ := he
    obtain ⟨hu, hc, ha⟩ := mem_turnsOf.1 hu
    rcases List.mem_append.1 hu with hu | hu
    · exact ⟨u, mem_turnsOf.2 ⟨hu, hc, ha⟩, hact⟩
    · rw [List.mem_singleton.1 hu] at ha
      exact absurd ha hb

theorem replacementFor_ne {k : ℕ} (h : db.replacementFor c a m = some k) : k ≠ m := by
  unfold replacementFor at h
  split at h
  · rename_i latest hl
    cases h
    obtain ⟨-, -, -, -, hlt, -⟩ := mem_of_latestAddressedMessage hl
    exact hlt.ne'
  · exact (earlierAddressed_lt h).ne

/-- The induction over the requeued agents. -/
theorem requeueAll_induct {P : Db → Prop} {agents : List String}
    (hP : ∀ d d' b k r, P d → b ∈ agents → k ≠ m →
      enqueueInTransaction c b k d = .ok (r, d') → P d')
    (h : requeueAll c m agents db = .ok db') (hdb : P db) : P db' := by
  induction agents generalizing db with
  | nil =>
    cases h
    exact hdb
  | cons b agents ih =>
    have htail : ∀ d d' b' k r, P d → b' ∈ agents → k ≠ m →
        enqueueInTransaction c b' k d = .ok (r, d') → P d' :=
      fun d d' b' k r hd hb => hP d d' b' k r hd (List.mem_cons_of_mem _ hb)
    rw [requeueAll] at h
    split at h
    · exact ih htail h hdb
    · rename_i k hk
      obtain ⟨⟨r, db₁⟩, h1, h⟩ := bind_ok h
      exact ih htail h (hP db db₁ b k r hdb (List.mem_cons_self ..) (replacementFor_ne hk) h1)

theorem replacementFor_isSome {k : ℕ} (howed : db.Owed c a k) (hpos : 0 < k) (hk : k ≠ m)
    (hans : ∀ j, db.Answered c a j → j < m → j < k) :
    ∃ replacement, db.replacementFor c a m = some replacement := by
  rw [replacementFor]
  cases hl : db.latestAddressedMessage c a m none with
  | some latest => exact ⟨latest, rfl⟩
  | none =>
    apply Option.isSome_iff_exists.1
    refine latest_isSome_iff.2 ⟨k, howed, boundary_lt hpos hans, ?_⟩
    rw [Option.all_some, decide_eq_true_eq]
    by_contra hle
    have hsome := latest_isSome_iff.2 ⟨k, howed, show m < k by omega, (rfl : none.all _ = true)⟩
    rw [hl] at hsome
    cases hsome

/-- The agent of a stopped running turn has a turn again when something is left that it did not
answer. -/
theorem requeueAll_engages {agents : List String} {k : ℕ} (hs : db.Schema)
    (hp : db.isParticipant c "agent" a) (howed : db.Owed c a k) (hpos : 0 < k) (hk : k ≠ m)
    (hans : ∀ j, db.Answered c a j → j < m → j < k) (ha : a ∈ agents)
    (h : requeueAll c m agents db = .ok db') : db'.Engaged c a := by
  induction agents generalizing db with
  | nil => cases ha
  | cons b agents ih =>
    rw [requeueAll] at h
    rcases List.mem_cons.1 ha with rfl | ha
    · obtain ⟨replacement, hr⟩ := replacementFor_isSome howed hpos hk hans
      rw [hr] at h
      obtain ⟨⟨q, db₁⟩, h1, h⟩ := bind_ok h
      exact (enqueue_covers hp h1).holds (requeueAll_frame h).2
    · split at h
      · exact ih hs hp howed hans ha h
      · obtain ⟨⟨q, db₁⟩, h1, h⟩ := bind_ok h
        have honly := enqueueInTransaction_turnsOnly h1
        refine ih ((enqueueInTransaction_evolves h1).schema hs)
          (honly.isParticipant "agent" ▸ hp) (honly.owed_iff.2 howed) (fun j hj => ?_) ha h
        exact hans j ((enqueueInTransaction_sameOver hs h1).answered.1 hj)

/-! ## The whole deletion -/

theorem deleteMessage_eq {r : List ℕ} (h : deleteMessage c m db = .ok (r, db')) :
    ∃ db₂, requeueAll c m (((db.retargetAll c m).turns.filter (ConsumedBy c m .running)).map
        (·.agentId)) ((db.retargetAll c m).stopConsumed c m) = .ok db₂ ∧
      db' = (db₂.forgetResult c m).markDeleted c m := by
  unfold deleteMessage at h
  split at h
  · cases h
  · obtain ⟨⟨_, db₁⟩, h1, h⟩ := bind_ok h
    cases h
    obtain ⟨_, db₂, rfl, h2, rfl⟩ := reconcileMessageDeletionTurns_eq h1
    exact ⟨db₂, h2, rfl⟩

theorem stopConsumed_evolves (c : String) (m : ℕ) (db : Db) : db.Evolves (db.stopConsumed c m) :=
  (foldl_evolves (dismissFailed_evolves c m) _ _).trans (cancelConsumed_evolves c m _)

theorem retargeted_stopped_evolves (c : String) (m : ℕ) (db : Db) :
    db.Evolves ((db.retargetAll c m).stopConsumed c m) :=
  (retargetAll_evolves c m db).trans (stopConsumed_evolves c m _)

theorem mem_forgetResult {t' : ConversationTurn} (h : t' ∈ (db.forgetResult c m).turns) :
    ∃ t ∈ db.turns, t'.conversationId = t.conversationId ∧ t'.agentId = t.agentId ∧
      t'.status = t.status ∧ t'.triggerMessageId = t.triggerMessageId := by
  obtain ⟨t, ht, rfl⟩ := List.mem_map.1 h
  refine ⟨t, ht, ?_⟩
  split <;> exact ⟨rfl, rfl, rfl, rfl⟩

theorem owed_markDeleted_iff {k : ℕ} :
    (db.markDeleted c m).Owed c a k ↔ db.Owed c a k ∧ k ≠ m := by
  constructor
  · intro h
    obtain ⟨howed, hne⟩ := owed_of_markDeleted h
    exact ⟨howed, hne rfl⟩
  · rintro ⟨⟨x, hx, hid, hc, hd, ht⟩, hne⟩
    refine ⟨x, List.mem_map.2 ⟨x, hx, if_neg ?_⟩, hid, hc, hd, ht⟩
    rintro ⟨hxm, -⟩
    exact hne (hid.symm.trans hxm)

section

variable {r : List ℕ}

theorem deleteMessage_untriggered (hs : db.Schema) (h : deleteMessage c m db = .ok (r, db')) :
    db'.Untriggered c m := by
  obtain ⟨db₂, hrequeue, rfl⟩ := deleteMessage_eq h
  have hdone : db₂.Schema ∧ db₂.Untriggered c m := by
    refine requeueAll_induct (P := fun d => d.Schema ∧ d.Untriggered c m) ?_ hrequeue
      ⟨(retargeted_stopped_evolves c m db).schema hs, stopConsumed_untriggered⟩
    intro d d' b k r hd _ hk he
    exact ⟨(enqueueInTransaction_evolves he).schema hd.1, hd.2.enqueue hd.1 hk he⟩
  intro t' ht' hc hact htrigger
  obtain ⟨t, ht, h1, -, h2, h3⟩ := mem_forgetResult ht'
  exact hdone.2 t ht (h1 ▸ hc) (h2 ▸ hact) (h3 ▸ htrigger)

/-- Retargeting leaves a turn that ran as it is. -/
theorem mem_retargetAll_of_running (hs : db.Schema) {t : ConversationTurn}
    (hrun : t.status = .running) : t ∈ (db.retargetAll c m).turns ↔ t ∈ db.turns := by
  rw [retargetAll_eq hs]
  constructor
  · intro hmem
    obtain ⟨u, hu, rfl⟩ := List.mem_map.1 hmem
    by_cases hq : QueuedFor c m u = true
    · rw [if_pos hq] at hrun
      have hst : u.status = .running := hrun
      rw [(queuedFor_iff.1 hq).2.2] at hst
      cases hst
    · rw [if_neg hq]
      exact hu
  · intro hmem
    refine List.mem_map.2 ⟨t, hmem, if_neg fun hq => ?_⟩
    rw [(queuedFor_iff.1 hq).2.2] at hrun
    cases hrun

theorem deleteMessage_cancels (hs : db.Schema) (h : deleteMessage c m db = .ok (r, db'))
    {t : ConversationTurn} (ht : t ∈ db.turns) (hc : ConsumedBy c m .running t) :
    ∃ t' ∈ db'.turns, t'.id = t.id ∧ t'.status = .cancelled := by
  obtain ⟨db₂, hrequeue, rfl⟩ := deleteMessage_eq h
  have hmem := (mem_retargetAll_of_running (c := c) (m := m) hs (consumedBy_iff.1 hc).2.1).2 ht
  obtain ⟨u, hu, hid, hst⟩ := stopConsumed_cancels hmem hc
  have hrest := (requeueAll_evolves hrequeue).trans
    ((forgetResult_evolves c m db₂).trans (markDeleted_evolves c m _))
  obtain ⟨t', ht', hb⟩ := hrest.rows u hu
  exact ⟨t', ht', hb.id.trans hid, hb.status.2.1 hst⟩

/-- The agent whose running turn was stopped has a turn again. -/
theorem deleteMessage_engages_running (hs : db.Schema)
    (h : deleteMessage c m db = .ok (r, db')) {t : ConversationTurn} (ht : t ∈ db.turns)
    (hc : ConsumedBy c m .running t) (hp : db.isParticipant c "agent" t.agentId) {k : ℕ}
    (howed : db.Owed c t.agentId k) (hk : k ≠ m) (hlast : db.lastFinishedTrigger c t.agentId < k) :
    db'.Engaged c t.agentId := by
  obtain ⟨db₂, hrequeue, rfl⟩ := deleteMessage_eq h
  have honly : db.TurnsOnly ((db.retargetAll c m).stopConsumed c m) :=
    (retargetAll_turnsOnly c m db).trans (dismiss_turnsOnly ..)
  have hengaged : db₂.Engaged c t.agentId := by
    refine requeueAll_engages ((retargeted_stopped_evolves c m db).schema hs)
      (honly.isParticipant "agent" ▸ hp) (honly.owed_iff.2 howed) (by omega) hk ?_ ?_ hrequeue
    · intro j hj hlt
      have hanswered := (retargetAll_sameOver hs).answered.1 (stopConsumed_answered hlt hj)
      exact hanswered.le_last.trans_lt hlast
    · refine List.mem_map.2 ⟨t, List.mem_filter.2 ⟨?_, hc⟩, rfl⟩
      exact (mem_retargetAll_of_running hs (consumedBy_iff.1 hc).2.1).2 ht
  exact hengaged.holds (forgetResult_holds c m)

/-- A queued turn that falls back stays. -/
theorem deleteMessage_engages_queued (hs : db.Schema)
    (h : deleteMessage c m db = .ok (r, db')) {t : ConversationTurn} (ht : t ∈ db.turns)
    (hq : QueuedFor c m t) {k : ℕ} (hk : db.earlierAddressed c t.agentId m = some k) :
    db'.Engaged c t.agentId := by
  obtain ⟨db₂, hrequeue, rfl⟩ := deleteMessage_eq h
  obtain ⟨hconv, -, hqueued⟩ := queuedFor_iff.1 hq
  have hact : (db.retarget c m t).status.active := TurnStatus.active_iff.2 (Or.inl hqueued)
  have hmem : db.retarget c m t ∈ (db.retargetAll c m).turns := by
    rw [retargetAll_eq hs]
    exact List.mem_map.2 ⟨t, ht, if_pos hq⟩
  have hstays : db.retarget c m t ∈ ((db.retargetAll c m).stopConsumed c m).turns := by
    refine (mem_stopConsumed hact).2 ⟨hmem, ?_, ?_⟩
    · rw [Bool.eq_false_iff]
      intro hagain
      have htrigger := (queuedFor_iff.1 hagain).2.1
      simp only [retarget, hk, Option.getD_some, Option.some.injEq] at htrigger
      exact (earlierAddressed_lt hk).ne htrigger
    · rw [Bool.eq_false_iff]
      intro hrun
      have hst : t.status = .running := (consumedBy_iff.1 hrun).2.1
      rw [hqueued] at hst
      cases hst
  have hengaged : ((db.retargetAll c m).stopConsumed c m).Engaged c t.agentId :=
    ⟨_, mem_turnsOf.2 ⟨hstays, hconv, rfl⟩, hact⟩
  exact (hengaged.holds (requeueAll_frame hrequeue).2).holds (forgetResult_holds c m)

/-- A turn that is stopped was the only active one of its agent. -/
theorem stopped_not_engaged (hs : db.Schema) {t : ConversationTurn} (ht : t ∈ db.turns)
    (hstop : ConsumedBy c m .running t ∨
      QueuedFor c m t ∧ db.earlierAddressed c t.agentId m = none) :
    ¬ ((db.retargetAll c m).stopConsumed c m).Engaged c t.agentId := by
  rintro ⟨u, hu, hact⟩
  obtain ⟨hu, hc, ha⟩ := mem_turnsOf.1 hu
  obtain ⟨hu, hq, hr⟩ := (mem_stopConsumed hact).1 hu
  rw [retargetAll_eq hs] at hu
  obtain ⟨v, hv, rfl⟩ := List.mem_map.1 hu
  have hvt : v = t := by
    have hcols : v.conversationId = c ∧ v.agentId = t.agentId ∧ v.status.active := by
      by_cases hqv : QueuedFor c m v = true
      · rw [if_pos hqv] at hc ha hact
        exact ⟨hc, ha, hact⟩
      · rw [if_neg hqv] at hc ha hact
        exact ⟨hc, ha, hact⟩
    rcases hstop with hrun | ⟨hqueue, -⟩
    · obtain ⟨htc, hts, -⟩ := consumedBy_iff.1 hrun
      exact hs.eq_of_active hv ht hcols.2.2 (TurnStatus.active_iff.2 (Or.inr hts))
        (hcols.1.trans htc.symm) hcols.2.1
    · obtain ⟨htc, -, hts⟩ := queuedFor_iff.1 hqueue
      exact hs.eq_of_active hv ht hcols.2.2 (TurnStatus.active_iff.2 (Or.inl hts))
        (hcols.1.trans htc.symm) hcols.2.1
  subst hvt
  rcases hstop with hrun | ⟨hqueue, hnone⟩
  · have hnq : ¬ QueuedFor c m v = true := by
      intro hqv
      have hst := (queuedFor_iff.1 hqv).2.2
      rw [(consumedBy_iff.1 hrun).2.1] at hst
      cases hst
    rw [if_neg hnq, hrun] at hr
    cases hr
  · rw [if_pos hqueue, retarget_of_none hqueue hnone, hqueue] at hq
    cases hq

/-- Without a replacement the agent of a stopped turn has none left. -/
theorem deleteMessage_not_engaged (hs : db.Schema) (h : deleteMessage c m db = .ok (r, db'))
    {t : ConversationTurn} (ht : t ∈ db.turns)
    (hstop : ConsumedBy c m .running t ∧ db.isParticipant c "agent" t.agentId = false ∨
      QueuedFor c m t ∧ db.earlierAddressed c t.agentId m = none) :
    ¬ db'.Engaged c t.agentId := by
  obtain ⟨db₂, hrequeue, rfl⟩ := deleteMessage_eq h
  have honly : db.TurnsOnly ((db.retargetAll c m).stopConsumed c m) :=
    (retargetAll_turnsOnly c m db).trans (dismiss_turnsOnly ..)
  have hidle : ¬ db₂.Engaged c t.agentId := by
    refine (requeueAll_induct (P := fun d => db.TurnsOnly d ∧ ¬ d.Engaged c t.agentId) ?_ hrequeue
      ⟨honly, stopped_not_engaged hs ht (hstop.imp And.left id)⟩).2
    intro d d' b k r hd hb _ he
    refine ⟨hd.1.trans (enqueueInTransaction_turnsOnly he), fun hengaged => hd.2 ?_⟩
    by_cases hbt : b = t.agentId
    · subst hbt
      rcases hstop with ⟨-, hp⟩ | ⟨hq, -⟩
      · rw [← hd.1.isParticipant (c := c) (a := t.agentId) "agent"] at hp
        rw [enqueueInTransaction_of_not_participant hp he] at hengaged
        exact hengaged
      · -- the agent has a queued turn, so none of its turns was running
        obtain ⟨u, hu, hagent⟩ := List.mem_map.1 hb
        obtain ⟨hu, hrun⟩ := List.mem_filter.1 hu
        obtain ⟨huc, hus, -⟩ := consumedBy_iff.1 hrun
        obtain ⟨htc, -, hts⟩ := queuedFor_iff.1 hq
        have hut := hs.eq_of_active ((mem_retargetAll_of_running hs hus).1 hu) ht
          (TurnStatus.active_iff.2 (Or.inr hus)) (TurnStatus.active_iff.2 (Or.inl hts))
          (huc.trans htc.symm) hagent
        rw [hut, hts] at hus
        cases hus
    · exact engaged_of_enqueue hbt he hengaged
  rintro ⟨t', ht', hact⟩
  obtain ⟨ht', hc, ha⟩ := mem_turnsOf.1 ht'
  obtain ⟨u, hu, h1, h2, h3, -⟩ := mem_forgetResult ht'
  exact hidle ⟨u, mem_turnsOf.2 ⟨hu, h1 ▸ hc, h2 ▸ ha⟩, h3 ▸ hact⟩

end

end Db

/-! ## The sessions -/

namespace SessionDb

/-- No agent keeps a native session in the conversation. -/
def Forgotten (c : String) (s : SessionDb) : Prop :=
  ∀ x ∈ s.sessions, x.conversationId = c → x.nativeSessionId = none

theorem forgetConversation_forgotten (c : String) (s : SessionDb) :
    (s.forgetConversation c).Forgotten c := by
  intro x' hx' hc
  obtain ⟨x, hx, rfl⟩ := List.mem_map.1 hx'
  by_cases hconv : x.conversationId = c
  · simp [hconv]
  · simp only [hconv, decide_false, Bool.false_eq_true, if_false] at hc

variable {c a : String} {m : ℕ} {s s' : SessionDb}

theorem Forgotten.upsertSession (h : s.Forgotten c) (c' a : String) :
    (s.upsertSession c' a).Forgotten c := by
  unfold SessionDb.upsertSession
  split
  · exact h
  · intro x hx hc
    rcases List.mem_append.1 hx with hx | hx
    · exact h x hx hc
    · rw [List.mem_singleton.1 hx]

theorem Forgotten.enqueue {k : ℕ} {r : Bool} (h : s.Forgotten c)
    (he : enqueueInTransaction c a k s = .ok (r, s')) : s'.Forgotten c := by
  obtain ⟨⟨inserted, s₁⟩, h1, he⟩ := bind_ok he
  obtain ⟨⟨_, db₁⟩, -, h1⟩ := bind_ok h1
  cases h1
  cases he
  have hs₁ : Forgotten c { s with db := db₁ } := h
  split
  · exact hs₁.upsertSession c a
  · exact hs₁

theorem Forgotten.requeueAll {agents : List String} (h : s.Forgotten c)
    (hr : requeueAll c m agents s = .ok s') : s'.Forgotten c := by
  induction agents generalizing s with
  | nil =>
    cases hr
    exact h
  | cons agent agents ih =>
    rw [SessionDb.requeueAll] at hr
    split at hr
    · exact ih h hr
    · obtain ⟨⟨_, s₁⟩, h1, hr⟩ := bind_ok hr
      exact ih (h.enqueue h1) hr

theorem deleteMessage_forgotten {r : List ℕ} (h : deleteMessage c m s = .ok (r, s')) :
    s'.Forgotten c := by
  unfold deleteMessage at h
  split at h
  · cases h
  · obtain ⟨⟨_, s₁⟩, h1, h⟩ := bind_ok h
    cases h
    obtain ⟨s₂, h2, h1⟩ := bind_ok h1
    cases h1
    have hforgotten : s₂.Forgotten c := by
      refine Forgotten.requeueAll ?_ h2
      exact forgetConversation_forgotten c { s with db := s.db.retargetAll c m }
    exact hforgotten

theorem deleteMessage_ok_db {r : List ℕ} (h : deleteMessage c m s = .ok (r, s')) :
    Db.deleteMessage c m s.db = .ok (r, s'.db) := by
  rw [← deleteMessage_db c m s, h]
  rfl

end SessionDb

/-! ## What a deletion settles -/

/-- A deletion settled the conversation: no active turn has the message as its trigger; the
turns that ran with a trigger at or after it are cancelled, for good, and their completions
change nothing; no agent keeps a native session; and an agent that had such a turn, or a queued
turn of the message, has a turn as long as something newer than what its finished turns answered
is addressed to it. -/
structure DeletionSettled (c : String) (m : ℕ) (s s' : SessionDb) : Prop where
  untriggered : s'.db.Untriggered c m
  cancelled : ∀ t ∈ s.db.turns, Db.ConsumedBy c m .running t → ∀ later,
    (∃ t' ∈ (runOps SessionDb.step s' later).db.turns, t'.id = t.id ∧ t'.status = .cancelled) ∧
    ∀ call turn, Call.finishes call = some turn → turn.id = t.id →
      (runOps SessionDb.step s' later).step call = runOps SessionDb.step s' later ∧
      ∀ msg, (runOps SessionDb.step s' later).reply call ≠ some (.published (some msg))
  forgotten : s'.Forgotten c
  engaged : ∀ t ∈ s.db.turns,
    Db.ConsumedBy c m .running t ∨ Db.QueuedFor c m t →
    ∀ k, s'.db.Owed c t.agentId k → s.db.lastFinishedTrigger c t.agentId < k →
      s'.db.Engaged c t.agentId

/-- Nobody waits behind a turn that the deletion ends: a queued turn of the message has earlier
input to fall back to, or nothing newer than the message is left to answer; and the agent of a
running turn takes part in the conversation, or has nothing left to answer. -/
def Db.NobodyWaits (db : Db) (c : String) (m : ℕ) : Prop :=
  ∀ t ∈ db.turns,
    (QueuedFor c m t → (db.earlierAddressed c t.agentId m).isSome ∨
      db.latestAddressedMessage c t.agentId (max m (db.lastFinishedTrigger c t.agentId)) none =
        none) ∧
    (ConsumedBy c m .running t → db.isParticipant c "agent" t.agentId ∨
      db.latestAddressedMessage c t.agentId (db.lastFinishedTrigger c t.agentId) (some m) = none ∧
      db.latestAddressedMessage c t.agentId (max m (db.lastFinishedTrigger c t.agentId)) none =
        none)

instance (db : Db) (c : String) (m : ℕ) : Decidable (db.NobodyWaits c m) := by
  unfold Db.NobodyWaits
  infer_instance

variable {c : String} {m : ℕ} {s s' : SessionDb} {r : List ℕ}

theorem deleteMessage_owed_iff (h : SessionDb.deleteMessage c m s = .ok (r, s')) {a : String}
    {k : ℕ} : s'.db.Owed c a k ↔ s.db.Owed c a k ∧ k ≠ m := by
  have hdb := SessionDb.deleteMessage_ok_db h
  unfold Db.deleteMessage at hdb
  split at hdb
  · cases hdb
  · obtain ⟨⟨_, db₁⟩, h1, hdb⟩ := bind_ok hdb
    obtain ⟨-, hs'⟩ := Prod.mk.inj (Except.ok.inj hdb)
    rw [← hs', Db.owed_markDeleted_iff, (Db.reconcile_turnsOnly h1).owed_iff]

/-- What a deletion settles in any case. -/
theorem deletion_cancels (hs : s.db.Schema) (h : SessionDb.deleteMessage c m s = .ok (r, s'))
    {t : ConversationTurn} (ht : t ∈ s.db.turns) (hc : Db.ConsumedBy c m .running t)
    (later : List Call) :
    (∃ t' ∈ (runOps SessionDb.step s' later).db.turns, t'.id = t.id ∧ t'.status = .cancelled) ∧
    ∀ call turn, Call.finishes call = some turn → turn.id = t.id →
      (runOps SessionDb.step s' later).step call = runOps SessionDb.step s' later ∧
      ∀ msg, (runOps SessionDb.step s' later).reply call ≠ some (.published (some msg)) := by
  have hdb := SessionDb.deleteMessage_ok_db h
  obtain ⟨u, hu, hid, hst⟩ := Db.deleteMessage_cancels hs hdb ht hc
  have hlater := SessionDb.runOps_evolves s' later
  obtain ⟨t', ht', hb⟩ := hlater.rows u hu
  refine ⟨⟨t', ht', hb.id.trans hid, hb.status.2.1 hst⟩, fun call turn hcall hturn => ?_⟩
  have hover : s'.db.Over turn.id :=
    ⟨(Db.deleteMessage_evolves hdb).schema hs, u, hu, hid.trans hturn.symm,
      by simp [hst, TurnStatus.active]⟩
  exact SessionDb.inert_of_over (hover.evolves hlater) hcall

/-- **A deletion settles the conversation exactly when nobody waits behind a turn that it
ends.** -/
theorem deletion_settled (hs : s.db.Schema) (h : SessionDb.deleteMessage c m s = .ok (r, s')) :
    DeletionSettled c m s s' ↔ s.db.NobodyWaits c m := by
  have hdb := SessionDb.deleteMessage_ok_db h
  constructor
  · intro hsettled t ht
    -- what is still owed engages the agent
    have hwaits : ∀ after b, (∀ k, after < k → Option.all (k < ·) b → k ≠ m) →
        s.db.lastFinishedTrigger c t.agentId ≤ after →
        (Db.ConsumedBy c m .running t ∨ Db.QueuedFor c m t) →
        ¬ s'.db.Engaged c t.agentId → s.db.latestAddressedMessage c t.agentId after b = none := by
      intro after b hne hle hstop hidle
      by_contra hsome
      obtain ⟨k, howed, hafter, hb⟩ := Db.latest_isSome_iff.1 (Option.ne_none_iff_isSome.1 hsome)
      refine hidle (hsettled.engaged t ht hstop k ?_ (hle.trans_lt hafter))
      exact (deleteMessage_owed_iff h).2 ⟨howed, hne k hafter hb⟩
    refine ⟨fun hq => ?_, fun hc => ?_⟩
    · by_cases hearlier : (s.db.earlierAddressed c t.agentId m).isSome
      · exact Or.inl hearlier
      · have hidle := Db.deleteMessage_not_engaged hs hdb ht
          (Or.inr ⟨hq, by simpa using hearlier⟩)
        refine Or.inr (hwaits _ none (fun k hk _ => ?_) (le_max_right _ _) (Or.inr hq) hidle)
        omega
    · by_cases hp : s.db.isParticipant c "agent" t.agentId = true
      · exact Or.inl hp
      · have hidle := Db.deleteMessage_not_engaged hs hdb ht (Or.inl ⟨hc, by simpa using hp⟩)
        refine Or.inr ⟨hwaits _ (some m) (fun k _ hk => ?_) le_rfl (Or.inl hc) hidle,
          hwaits _ none (fun k hk _ => ?_) (le_max_right _ _) (Or.inl hc) hidle⟩
        · rw [Option.all_some, decide_eq_true_eq] at hk
          omega
        · omega
  · intro hnobody
    refine ⟨Db.deleteMessage_untriggered hs hdb, fun t ht hc later =>
      deletion_cancels hs h ht hc later, SessionDb.deleteMessage_forgotten h, ?_⟩
    intro t ht hstop k hk hlast
    obtain ⟨howed, hne⟩ := (deleteMessage_owed_iff h).1 hk
    -- something is left before the message or after it
    have hnone : s.db.latestAddressedMessage c t.agentId
        (max m (s.db.lastFinishedTrigger c t.agentId)) none = none → k < m := by
      intro hno
      by_contra hle
      have hsome := Db.latest_isSome_iff.2
        ⟨k, howed, show max m (s.db.lastFinishedTrigger c t.agentId) < k by omega,
          (rfl : none.all _ = true)⟩
      rw [hno] at hsome
      cases hsome
    rcases hstop with hc | hq
    · rcases (hnobody t ht).2 hc with hp | ⟨hbefore, hafter⟩
      · exact Db.deleteMessage_engages_running hs hdb ht hc hp howed hne hlast
      · have hsome := Db.latest_isSome_iff.2 ⟨k, howed, hlast,
          show (some m).all (k < ·) = true by simpa using hnone hafter⟩
        rw [hbefore] at hsome
        cases hsome
    · have hearlier : (s.db.earlierAddressed c t.agentId m).isSome := by
        rcases (hnobody t ht).1 hq with hearlier | hafter
        · exact hearlier
        · refine Db.latest_isSome_iff.2 ⟨k, howed, (Db.boundary_le_last m).trans_lt hlast, ?_⟩
          simpa using hnone hafter
      obtain ⟨j, hj⟩ := Option.isSome_iff_exists.1 hearlier
      exact Db.deleteMessage_engages_queued hs hdb ht hq hj

section

variable (db : Db) (c a : String)

instance : Decidable (db.Engaged c a) := by unfold Db.Engaged; infer_instance

end

theorem schema_run (calls : List Call) : (runOps SessionDb.step ⟨twoAgents, []⟩ calls).db.Schema :=
  (SessionDb.runOps_evolves ⟨twoAgents, []⟩ calls).schema schema_twoAgents

/-- One response runs for two messages. -/
def answering : SessionDb :=
  runOps SessionDb.step ⟨twoAgents, []⟩ [.op callAtlas "", .op callAtlas "", .op .claimNext ""]

theorem answering_settled : ∃ r s', SessionDb.deleteMessage "c" 2 answering = .ok (r, s') ∧
    DeletionSettled "c" 2 answering s' := by
  have hok : (SessionDb.deleteMessage "c" 2 answering).toOption.isSome := by decide +kernel
  cases h : SessionDb.deleteMessage "c" 2 answering with
  | error e =>
      rw [h] at hok
      cases hok
  | ok p => exact ⟨p.1, p.2, rfl, (deletion_settled (schema_run _) h).2 (by decide +kernel)⟩

/-- A second message arrives while the response to the first runs, and the server restarts. -/
def restarted : SessionDb :=
  runOps SessionDb.step ⟨twoAgents, []⟩
    [.op callAtlas "", .op .claimNext "", .op callAtlas "", .op .recover ""]

/-- The queued turn of the first message is ended with it, and the second one waits. -/
theorem deletion_leaves_waiting : ¬ ∀ (s s' : SessionDb) (c : String) (m : ℕ) (r : List ℕ),
    s.db.Schema → SessionDb.deleteMessage c m s = .ok (r, s') → DeletionSettled c m s s' := by
  intro hall
  have hwaits : (SessionDb.deleteMessage "c" 1 restarted).toOption.any (fun p =>
      decide (p.2.db.Owed "c" "atlas" 2 ∧ ¬ p.2.db.Engaged "c" "atlas")) = true := by decide +kernel
  have hqueued : ∃ t ∈ restarted.db.turns, Db.QueuedFor "c" 1 t = true ∧ t.agentId = "atlas" ∧
      restarted.db.lastFinishedTrigger "c" t.agentId < 2 := by decide +kernel
  obtain ⟨p, hp, hwaits⟩ := (Option.any_eq_true _ _).1 hwaits
  obtain ⟨howed, hidle⟩ := of_decide_eq_true hwaits
  obtain ⟨t, ht, hq, hagent, hlast⟩ := hqueued
  cases h : SessionDb.deleteMessage "c" 1 restarted with
  | error e =>
      rw [h] at hp
      cases hp
  | ok q =>
      rw [h] at hp
      cases hp
      have hsettled := hall restarted p.2 "c" 1 p.1 (schema_run _) h
      exact hidle (hagent ▸ hsettled.engaged t ht (Or.inr hq) 2 (hagent ▸ howed) hlast)

end XpressClaw.Conversations
