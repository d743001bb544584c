import XpressClaw.Conversations.Lifecycle

/-!
# Turns that a conversation starts by itself

Routing a message looks whether the conversation is connected; the other calls that queue an
agent do not: a targeted message, and what is left to answer when a turn ends, is stopped or
loses its message.

* `Op.startsTurn` — the call finds something of this kind to queue in a connected
  conversation.
* `step_quiet` — every other call starts no turn in a connected conversation.
-/

namespace XpressClaw.Conversations

open Lib

namespace Db

/-- The agent of a connected conversation has no active turn. -/
def wakes (db : Db) (conversationId agentId : String) : Bool :=
  db.connected conversationId && db.isParticipant conversationId "agent" agentId &&
    (db.turnsOf conversationId agentId).all (!·.status.active)

/-- Something in a connected conversation is addressed to the agent of the turn and newer than
what the turn answers. -/
def owes (db : Db) (turn : ConversationTurn) : Bool :=
  db.connected turn.conversationId &&
    (db.latestAddressedMessage turn.conversationId turn.agentId turn.trigger none).isSome

/-- The turn is running. -/
def runs (db : Db) (turnId : ℕ) : Bool := db.turns.any fun t => t.id = turnId && t.status = .running

/-- Stopping the turn finds it running, and something left to answer. -/
def stopOwes (db : Db) (conversationId : String) (turnId : ℕ) : Bool :=
  (db.turns.find? fun t => t.id = turnId && t.conversationId = conversationId).any fun t =>
    t.status = .running && db.owes t

/-- Deleting the message stops a running turn of a connected conversation that has something
else to answer. -/
def deletionOwes (db : Db) (conversationId : String) (messageId : ℕ) : Bool :=
  let retargeted := db.retargetAll conversationId messageId
  let stopped := ((retargeted.affectedAgents conversationId messageId).foldl
    (dismissFailed conversationId messageId) retargeted).cancelConsumed conversationId messageId
  db.connected conversationId &&
    (retargeted.turns.filter (ConsumedBy conversationId messageId .running)).any fun t =>
      (stopped.replacementFor conversationId t.agentId messageId).isSome

end Db

/-- The call starts a turn in a connected conversation. -/
def Op.startsTurn (db : Db) : Op → Bool
  | .sendTargeted c a _ => db.wakes c a
  | .enqueue c a _ => db.wakes c a
  | .completeWithMessage turn msg target =>
      db.runs turn.id && match db.insertMessage turn.conversationId msg target with
        | .ok (_, db) => db.owes turn
        | .error _ => false
  | .complete turn _ => db.runs turn.id && db.owes turn
  | .fail turn _ => db.runs turn.id && db.owes turn
  | .cancel c id => db.stopOwes c id
  | .expireLease c id command now => db.leaseExpired c id command now && db.stopOwes c id
  | .deleteMessage c m => db.deletionOwes c m
  | _ => false

namespace Db

variable {db db' : Db} {C : String → Bool}

/-- Every active turn in one of the conversations was active before. -/
def Quiet (C : String → Bool) (db db' : Db) : Prop :=
  ∀ t' ∈ db'.turns, t'.status.active → C t'.conversationId = true →
    ∃ t ∈ db.turns, t.id = t'.id ∧ t.conversationId = t'.conversationId ∧ t.status.active

theorem Quiet.of_turns_eq (h : db'.turns = db.turns) : Quiet C db db' :=
  fun t ht hact _ => ⟨t, h ▸ ht, rfl, rfl, hact⟩

theorem Quiet.trans {db'' : Db} (h : Quiet C db db') (h' : Quiet C db' db'') :
    Quiet C db db'' := by
  intro t'' ht'' hact hc
  obtain ⟨t', ht', hid', hc', hact'⟩ := h' t'' ht'' hact hc
  obtain ⟨t, ht, hid, hconv, hact''⟩ := h t' ht' hact' (hc' ▸ hc)
  exact ⟨t, ht, hid.trans hid', hconv.trans hc', hact''⟩

theorem updateTurns_quiet {w : ConversationTurn → Bool} {set : ConversationTurn → ConversationTurn}
    (h : ∀ t, w t → (set t).id = t.id ∧ (set t).conversationId = t.conversationId ∧
      ((set t).status.active → t.status.active)) : Quiet C db (db.updateTurns w set) := by
  intro t' ht' hact _
  obtain ⟨t, ht, rfl⟩ := List.mem_map.1 ht'
  by_cases hw : w t = true
  · obtain ⟨hid, hconv, hactive⟩ := h t hw
    simp only [hw, if_true] at hact ⊢
    exact ⟨t, ht, hid.symm, hconv.symm, hactive hact⟩
  · simp only [hw] at hact ⊢
    exact ⟨t, ht, rfl, rfl, hact⟩

theorem endTurns_quiet {w : ConversationTurn → Bool} {set : ConversationTurn → ConversationTurn}
    (hid : ∀ t, (set t).id = t.id) (hconv : ∀ t, (set t).conversationId = t.conversationId)
    (hend : ∀ t, (set t).status.active = false) : Quiet C db (db.updateTurns w set) :=
  updateTurns_quiet fun t _ => ⟨hid t, hconv t, fun hact => by simp [hend t] at hact⟩

theorem foldl_quiet {α : Type} {f : Db → α → Db} (h : ∀ (db : Db) a, Quiet C db (f db a))
    (as : List α) (db : Db) : Quiet C db (as.foldl f db) := by
  induction as generalizing db with
  | nil => exact .of_turns_eq rfl
  | cons a as ih => exact (h db a).trans (ih _)

theorem insertTurn_quiet {c a : String} {m : ℕ} (hc : C c = false)
    (h : db.insertTurn c a m = .ok db') : Quiet C db db' := by
  obtain ⟨-, -, rfl⟩ := insertTurn_eq h
  intro t' ht' hact hconnected
  rcases List.mem_append.1 ht' with hold | hnew
  · exact ⟨t', hold, rfl, rfl, hact⟩
  · rw [List.mem_singleton.1 hnew] at hconnected
    rw [show (db.newTurn c a m).conversationId = c from rfl, hc] at hconnected
    cases hconnected

/-- Queuing an agent that is not idle, or not in one of the conversations, is quiet. -/
theorem enqueue_quiet {c a : String} {m : ℕ} {r : Bool}
    (hno : C c = true → db.isParticipant c "agent" a = true →
      ∃ t ∈ db.turnsOf c a, t.status.active)
    (h : enqueueInTransaction c a m db = .ok (r, db')) : Quiet C db db' := by
  by_cases hp : db.isParticipant c "agent" a = true
  · obtain ⟨-, ⟨-, rfl⟩ | ⟨-, -, -, rfl⟩ | ⟨t, -, -, rfl⟩ | hinsert⟩ := enqueueInTransaction_cases h
    · exact .of_turns_eq rfl
    · exact .of_turns_eq rfl
    · exact updateTurns_quiet fun t _ => ⟨rfl, rfl, fun h => h⟩
    · refine insertTurn_quiet ?_ hinsert
      by_contra hc
      obtain ⟨t, ht, hact⟩ := hno (by simpa using hc) hp
      exact (insertTurn_eq hinsert).1 t ht hact
  · unfold enqueueInTransaction at h
    obtain ⟨_, -, h⟩ := bind_ok h
    obtain ⟨_, -, h⟩ := bind_ok h
    split at h
    · cases h
    · simp only [hp] at h
      cases h
      exact .of_turns_eq rfl

theorem exists_active_of_wakes {c a : String} (h : db.wakes c a = false)
    (hc : db.connected c = true) (hp : db.isParticipant c "agent" a = true) :
    ∃ t ∈ db.turnsOf c a, t.status.active := by
  rw [wakes, hc, hp, Bool.true_and, Bool.true_and, List.all_eq_false] at h
  obtain ⟨t, ht, hact⟩ := h
  exact ⟨t, ht, by simpa using hact⟩

/-- Routing is quiet in connected conversations. -/
theorem enqueueForMessage_quiet {c st s text : String} {m : ℕ} {r : List String}
    (h : enqueueForMessage c m st s text db = .ok (r, db')) : Quiet db.connected db db' := by
  unfold enqueueForMessage at h
  split at h
  · cases h
    exact .of_turns_eq rfl
  · rename_i hconnected
    have hfree : ∀ (agents r : List String) (db₁ db₂ : Db),
        enqueueAll c m agents db₁ = .ok (r, db₂) → Quiet db.connected db₁ db₂ := by
      intro agents
      induction agents with
      | nil =>
        intro r db₁ db₂ h
        cases h
        exact .of_turns_eq rfl
      | cons a agents ih =>
        intro r db₁ db₂ h
        obtain ⟨⟨_, db₃⟩, h1, h⟩ := bind_ok h
        obtain ⟨⟨_, db₄⟩, h2, h⟩ := bind_ok h
        cases h
        exact (enqueue_quiet (fun hc => absurd hc hconnected) h1).trans (ih _ _ _ h2)
    exact hfree _ _ _ _ h

theorem insertMessage_quiet {c : String} {msg : SendMessage} {target : Option String}
    {stored : ConversationMessage} (h : db.insertMessage c msg target = .ok (stored, db')) :
    Quiet C db db' := by
  obtain ⟨-, rfl⟩ := insertMessage_eq h
  exact .of_turns_eq rfl

theorem insertMessage_connected {c : String} {msg : SendMessage} {target : Option String}
    {stored : ConversationMessage} (h : db.insertMessage c msg target = .ok (stored, db')) :
    db'.connected = db.connected := by
  obtain ⟨-, rfl⟩ := insertMessage_eq h
  rfl

theorem sendRoutedMessage_quiet {c : String} {msg : SendMessage} {target : Option String}
    {r : ℕ × List String} (h : sendRoutedMessage c msg target db = .ok (r, db')) :
    Quiet db.connected db db' := by
  obtain ⟨stored, db₁, queued, h1, h2⟩ := sendRoutedMessage_eq h
  have hrouted := enqueueForMessage_quiet h2
  rw [insertMessage_connected h1] at hrouted
  exact (insertMessage_quiet h1).trans hrouted

theorem sendTargetedRoutedMessage_quiet {c target : String} {msg : SendMessage}
    {r : ℕ × List String} (hno : db.wakes c target = false)
    (h : sendTargetedRoutedMessage c target msg db = .ok (r, db')) :
    Quiet db.connected db db' := by
  obtain ⟨stored, db₁, q, h1, h2⟩ := sendTargetedRoutedMessage_eq h
  refine (insertMessage_quiet h1).trans (enqueue_quiet (fun hc hp => ?_) h2)
  obtain ⟨-, rfl⟩ := insertMessage_eq h1
  exact exists_active_of_wakes hno hc hp

theorem finish_quiet {turn : ConversationTurn} {status : TurnStatus} {m : Option ℕ}
    {e : Option String} {r : Bool} (hstatus : status.active = false)
    (hno : C turn.conversationId = true → db.runs turn.id = true →
      db.latestAddressedMessage turn.conversationId turn.agentId turn.trigger none = none)
    (h : finishInTransaction turn status m e db = .ok (r, db')) : Quiet C db db' := by
  have hended : Quiet C db (db.endTurn turn.id status m e) :=
    endTurns_quiet (fun _ => rfl) (fun _ => rfl) fun _ => hstatus
  obtain ⟨-, rfl⟩ | ⟨⟨t, ht, hid, hrun⟩, db₁, rfl, ⟨-, rfl⟩ | ⟨latest, hlatest, hinsert⟩⟩ :=
    finishInTransaction_cases h
  · exact .of_turns_eq rfl
  · exact hended
  · refine hended.trans (insertTurn_quiet ?_ hinsert)
    by_contra hc
    have hsome : db.latestAddressedMessage turn.conversationId turn.agentId turn.trigger none =
        some latest := hlatest
    have hruns : db.runs turn.id = true := by
      rw [runs, List.any_eq_true]
      exact ⟨t, ht, by simp [hid, hrun]⟩
    rw [hno (by simpa using hc) hruns] at hsome
    cases hsome

theorem latest_of_owes {turn : ConversationTurn} (h : db.owes turn = false)
    (hc : db.connected turn.conversationId = true) :
    db.latestAddressedMessage turn.conversationId turn.agentId turn.trigger none = none := by
  simpa [owes, hc] using h

theorem completeWithMessage_quiet {turn : ConversationTurn} {msg : SendMessage}
    {target : Option String} {r : Option ConversationMessage}
    (hno : (Op.completeWithMessage turn msg target).startsTurn db = false)
    (h : completeWithMessage turn msg target db = .ok (r, db')) : Quiet db.connected db db' := by
  obtain ⟨-, rfl⟩ | ⟨⟨t, ht, hid, hrun⟩, stored, db₁, db₂, q, q', -, h1, h2, h3⟩ :=
    completeWithMessage_cases h
  · exact .of_turns_eq rfl
  · have hconnected := insertMessage_connected h1
    have hruns : db.runs turn.id = true := by
      rw [runs, List.any_eq_true]
      exact ⟨t, ht, by simp [hid, hrun]⟩
    have howes : db₁.owes turn = false := by
      simpa [Op.startsTurn, hruns, h1] using hno
    have hrouted := enqueueForMessage_quiet h2
    rw [hconnected] at hrouted
    refine (insertMessage_quiet h1).trans (hrouted.trans (finish_quiet rfl (fun hc _ => ?_) h3))
    -- the published message is not routed in a connected conversation
    rw [← hconnected] at hc
    unfold enqueueForMessage at h2
    rw [if_pos hc] at h2
    cases h2
    exact latest_of_owes howes hc

theorem stopTurn_quiet {c : String} {id : ℕ} {lease : Option (String × ℤ)} {r : Cancellation}
    (hno : (lease.all (fun l => db.leaseExpired c id l.1 l.2) && db.stopOwes c id) = false)
    (h : stopTurn c id lease db = .ok (r, db')) : Quiet db.connected db db' := by
  unfold stopTurn at h
  cases hf : db.turns.find? (fun t => t.id = id && t.conversationId = c) with
  | none =>
    rw [hf] at h
    cases h
  | some t =>
    rw [hf] at h
    have hfound := List.find?_some hf
    simp only [Bool.and_eq_true, decide_eq_true_eq] at hfound
    dsimp only at h
    split at h
    · cases h
      exact .of_turns_eq rfl
    rename_i hexpired
    split at h
    · cases h
      exact .of_turns_eq rfl
    obtain ⟨db₁, hrequeue, h⟩ := bind_ok h
    cases h
    have hall : lease.all (fun l => db.leaseExpired c id l.1 l.2) = true := by
      cases lease with
      | none => rfl
      | some l => simpa using hexpired
    have hstop : (decide (t.status = .running) && db.owes t) = false := by
      simpa [hall, stopOwes, hf] using hno
    have hhalted : Quiet db.connected db
        (db.haltTurn c id lease.isSome (t.status = .running : Bool)) := by
      refine endTurns_quiet (fun _ => rfl) (fun _ => rfl) fun u => ?_
      dsimp only
      split <;> rfl
    refine hhalted.trans ?_
    · obtain ⟨-, rfl⟩ | ⟨-, -, rfl⟩ | ⟨hrun, latest, q, hlatest, hqueued⟩ :=
        requeueStopped_cases hrequeue
      · exact .of_turns_eq rfl
      · exact .of_turns_eq rfl
      · refine enqueue_quiet (fun hc _ => ?_) hqueued
        have hsome : db.latestAddressedMessage t.conversationId t.agentId t.trigger none =
          some latest := hlatest
        have howes : db.owes t = false := by simpa [hrun] using hstop
        rw [latest_of_owes howes hc] at hsome
        cases hsome

theorem requeueAll_eq {c : String} {m : ℕ} {agents : List String}
    (hno : ∀ a ∈ agents, db.replacementFor c a m = none) (h : requeueAll c m agents db = .ok db') :
    db' = db := by
  induction agents with
  | nil =>
    cases h
    rfl
  | cons a agents ih =>
    rw [requeueAll, hno a (by simp)] at h
    exact ih (fun b hb => hno b (by simp [hb])) h

theorem requeueAll_quiet {c : String} {m : ℕ} {agents : List String} (hc : C c = false)
    (h : requeueAll c m agents db = .ok db') : Quiet C db db' := by
  induction agents generalizing db with
  | nil =>
    cases h
    exact .of_turns_eq rfl
  | cons a agents ih =>
    rw [requeueAll] at h
    split at h
    · exact ih h
    · obtain ⟨⟨q, db₁⟩, h1, h⟩ := bind_ok h
      exact (enqueue_quiet (fun hc' => by simp [hc] at hc') h1).trans (ih h)

theorem deleteMessage_quiet {c : String} {m : ℕ} {r : List ℕ} (hno : db.deletionOwes c m = false)
    (h : deleteMessage c m db = .ok (r, db')) : Quiet db.connected db db' := by
  unfold deleteMessage at h
  split at h
  · cases h
  · obtain ⟨⟨_, db₃⟩, h1, h⟩ := bind_ok h
    cases h
    obtain ⟨db₁, db₂, rfl, hrequeue, rfl⟩ := reconcileMessageDeletionTurns_eq h1
    have hretargeted : Quiet db.connected db (db.retargetAll c m) := by
      refine foldl_quiet (fun db t => ?_) _ _
      unfold retargetQueuedTurnBeforeMessage
      dsimp only
      split
      · exact .of_turns_eq rfl
      · exact updateTurns_quiet fun t _ => ⟨rfl, rfl, fun h => h⟩
    have hdismissed (as : List String) (db₁ : Db) :
        Quiet db.connected db₁ (as.foldl (dismissFailed c m) db₁) := by
      refine foldl_quiet (fun db a => ?_) as db₁
      exact endTurns_quiet (fun _ => rfl) (fun _ => rfl) fun _ => rfl
    have hcancelled (db₁ : Db) : Quiet db.connected db₁ (db₁.cancelConsumed c m) :=
      endTurns_quiet (fun _ => rfl) (fun _ => rfl) fun _ => rfl
    have hforgotten : Quiet db.connected db₂ (db₂.forgetResult c m) :=
      updateTurns_quiet fun t _ => ⟨rfl, rfl, fun h => h⟩
    have hstopped := hretargeted.trans
      ((hdismissed ((db.retargetAll c m).affectedAgents c m) _).trans (hcancelled _))
    refine hstopped.trans (.trans ?_ (hforgotten.trans (.of_turns_eq rfl)))
    cases hc : db.connected c with
    | false => exact requeueAll_quiet hc hrequeue
    | true =>
      have hnone := hno
      simp only [deletionOwes, hc, Bool.true_and, List.any_eq_false] at hnone
      rw [requeueAll_eq (fun a ha => ?_) hrequeue]
      · exact .of_turns_eq rfl
      · obtain ⟨t, ht, rfl⟩ := List.mem_map.1 ha
        simpa using hnone t ht

theorem claimNext_quiet : Quiet C db db.claimNext.2 := by
  have hcancelled : Quiet C db db.cancelStrayTurns :=
    endTurns_quiet (fun _ => rfl) (fun _ => rfl) fun _ => rfl
  rcases claimNext_cases db with h | ⟨next, -, -, h⟩
  · rw [h]
    exact hcancelled
  · rw [h]
    refine hcancelled.trans (updateTurns_quiet fun t ht => ⟨rfl, rfl, fun _ => ?_⟩)
    simp only [Bool.and_eq_true, decide_eq_true_eq] at ht
    rw [ht.2]
    rfl

end Db

/-- **Every other call is quiet** in the connected conversations. -/
theorem exec_quiet {db db' : Db} {op : Op} {r : Reply} (hno : op.startsTurn db = false)
    (h : op.exec db = .ok (r, db')) : Db.Quiet db.connected db db' := by
  cases op with
  | claimNext =>
    cases h
    exact Db.claimNext_quiet
  | recover =>
    cases h; exact Db.updateTurns_quiet fun t ht => ⟨rfl, rfl, by simp_all [TurnStatus.active]⟩
  | removeParticipant c kind id =>
    cases h
    unfold Db.removeParticipant
    dsimp only
    split
    · exact .trans (.of_turns_eq rfl) (Db.endTurns_quiet (fun _ => rfl) (fun _ => rfl)
        fun _ => rfl)
    · exact .of_turns_eq rfl
  | tick now => cases h; exact .of_turns_eq rfl
  | sendRouted =>
    obtain ⟨⟨_, _⟩, h1, h⟩ := bind_ok h
    cases h
    exact Db.sendRoutedMessage_quiet h1
  | sendAgentRouted =>
    obtain ⟨⟨_, _⟩, h1, h⟩ := bind_ok h
    cases h
    exact Db.sendRoutedMessage_quiet (Db.sendAgentRoutedMessage_eq h1)
  | sendTargeted =>
    obtain ⟨⟨_, _⟩, h1, h⟩ := bind_ok h
    cases h
    exact Db.sendTargetedRoutedMessage_quiet hno h1
  | enqueue =>
    obtain ⟨⟨_, _⟩, h1, h⟩ := bind_ok h
    cases h
    exact Db.enqueue_quiet (fun hc hp => Db.exists_active_of_wakes hno hc hp) h1
  | enqueueForMessage =>
    obtain ⟨⟨_, _⟩, h1, h⟩ := bind_ok h
    cases h
    exact Db.enqueueForMessage_quiet h1
  | completeWithMessage =>
    obtain ⟨⟨_, _⟩, h1, h⟩ := bind_ok h
    cases h
    exact Db.completeWithMessage_quiet hno h1
  | complete =>
    obtain ⟨⟨_, _⟩, h1, h⟩ := bind_ok h
    cases h
    refine Db.finish_quiet rfl (fun hc hruns => ?_) h1
    exact Db.latest_of_owes (by simpa [Op.startsTurn, hruns] using hno) hc
  | fail =>
    obtain ⟨⟨_, _⟩, h1, h⟩ := bind_ok h
    cases h
    refine Db.finish_quiet rfl (fun hc hruns => ?_) h1
    exact Db.latest_of_owes (by simpa [Op.startsTurn, hruns] using hno) hc
  | cancel =>
    obtain ⟨⟨_, _⟩, h1, h⟩ := bind_ok h
    cases h
    exact Db.stopTurn_quiet (by simpa [Op.startsTurn] using hno) h1
  | expireLease =>
    obtain ⟨⟨_, _⟩, h1, h⟩ := bind_ok h
    cases h
    exact Db.stopTurn_quiet (by simpa [Op.startsTurn] using hno) h1
  | deleteMessage =>
    obtain ⟨⟨_, _⟩, h1, h⟩ := bind_ok h
    cases h
    exact Db.deleteMessage_quiet hno h1
  | addParticipant =>
    obtain ⟨⟨_, _⟩, h1, h⟩ := bind_ok h
    cases h
    rw [Db.addParticipant_eq h1]
    unfold Db.insertParticipant
    split <;> exact .of_turns_eq rfl

end XpressClaw.Conversations
