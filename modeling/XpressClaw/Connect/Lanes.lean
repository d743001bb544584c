import XpressClaw.Connect.Authority
import XpressClaw.Conversations.FollowUps

/-!
# What runs in a connected conversation

A conversation is connected by the commands that were admitted into it.  Admission queues a
turn only where nothing is active, and the turn is the command's.  As long as no other call
starts a turn in a connected conversation, every active turn there belongs to an accepted
command.  Whether the lease of that command is live is looked at by nothing that claims a turn:
it is up to the calls that granted the lease and ended it.

* `Sys.Laned` — the invariant.
* `Sys.strays` — the calls that break the lane: those that start a turn in a connected
  conversation by themselves.
* `Covered` — the calls have left a command a lease that reaches beyond a time.
* `connected_turns_authorized` — in runs in which no call strays every claimed turn of a connected
  conversation is the turn of an accepted command, whose lease is live if and only if the calls
  before the claim have it covered.
-/

namespace XpressClaw.Connect

open Lib

namespace Sys

/-- The conversation has a command. -/
def linked (s : Sys) (conversationId : String) : Bool :=
  s.commands.any (·.conversationId = some conversationId)

/-- The call is not refused, and starts a turn in a connected conversation by itself. -/
def strays (s : Sys) : Op → Bool
  | .talk op => (op.exec s.talkView).isOk && op.startsTurn s.talkView
  | _ => false

/-- **Every active turn of a connected conversation is that of an accepted command.** -/
structure Laned (s : Sys) : Prop where
  schema : s.Schema
  turns : s.talk.Schema
  numbered : s.talk.Numbered
  single : ∀ c ∈ s.commands, c.turnId.isSome → c.attemptId = none
  own : ∀ t ∈ s.talk.turns, t.status.active → s.linked t.conversationId = true →
    ∃ c ∈ s.commands, c.accepted = true ∧ c.turnId = some t.id

variable {s s' : Sys} {wire : Wire}

theorem connected_talkView (s : Sys) : s.talkView.connected = s.linked := by
  funext conversationId
  simp [Conversations.Db.connected, talkView, linked, List.any_map, Function.comp_def]

/-! ## Admission -/

/-- What an admission does to the turns, with the row it adds. -/
inductive Seats (s s' : Sys) (row : CommandRow) : Prop
  /-- Nothing is queued in a conversation. -/
  | none (hturn : row.turnId = none) (hconversation : row.conversationId = none)
      (hturns : s'.talk.turns = s.talk.turns)
  /-- One turn is queued, where nothing was active. -/
  | seated (conversationId : String) (t : Conversations.ConversationTurn)
      (hconversation : row.conversationId = some conversationId) (hturn : row.turnId = some t.id)
      (hattempt : row.attemptId = none) (haccepted : row.accepted = true)
      (hturns : s'.talk.turns = s.talk.turns ++ [t])
      (hidle : ∀ u ∈ s.talk.turns, u.conversationId = conversationId → u.status.active = false)

/-- The conversations are as before but for the tables that turns do not depend on. -/
def SameTurns (s s' : Sys) : Prop :=
  s'.talk.turns = s.talk.turns ∧ s'.talk.nextTurnId = s.talk.nextTurnId ∧
    s'.talk.messages = s.talk.messages ∧ s'.talk.nextMessageId = s.talk.nextMessageId

theorem SameTurns.evolves (h : s.SameTurns s') : s.talk.Evolves s'.talk := by
  obtain ⟨hturns, hnext, hmessages, hmessage⟩ := h
  refine .of_turns_eq hturns hnext fun hn => ⟨?_, ?_, ?_⟩
  · rw [hmessage]
    exact hn.pos
  · rw [hmessages, hmessage]
    exact hn.messages
  · rw [hturns, hmessage]
    exact hn.triggers

theorem createLocal_sameTurns {fresh : String} {c : Command}
    (h : s.createLocal fresh c = .ok s') : s.SameTurns s' := by
  unfold createLocal at h
  split at h
  · unfold createTask at h
    split at h
    · cases h
    · split at h
      · cases h
      · obtain ⟨_, -, h⟩ := bind_ok h
        cases h
        exact ⟨rfl, rfl, rfl, rfl⟩
  · cases h
    exact ⟨rfl, rfl, rfl, rfl⟩

/-- The local work of a command that is not busy has no active turn. -/
theorem localWork_sameTurns {instanceId fresh localId : String} {c : Command}
    (hfree : s.workBusy instanceId c = false)
    (h : s.localWork instanceId c fresh = .ok (localId, s')) : s.SameTurns s' ∧
      ∀ u ∈ s.talk.turns, u.conversationId = localId → u.status.active = false := by
  unfold localWork at h
  split at h
  · rename_i w hw
    cases h
    refine ⟨⟨rfl, rfl, rfl, rfl⟩, fun u hu hconv => ?_⟩
    have hmatch := List.find?_some hw
    have hidle := List.any_eq_false.1 hfree w (List.mem_of_find?_eq_some hw)
    rw [hmatch, Bool.true_and, Bool.not_eq_true, localBusy, Bool.or_eq_false_iff,
      Bool.or_eq_false_iff] at hidle
    have hquiet := List.any_eq_false.1 hidle.1.2 u hu
    simpa [hconv] using hquiet
  · split at h
    · cases h
    · rename_i htaken
      obtain ⟨s₁, h1, h⟩ := bind_ok h
      obtain ⟨s₂, h2, h⟩ := bind_ok h
      cases h
      refine ⟨?_, fun u hu hconv => ?_⟩
      · unfold insertWork at h2
        split at h2
        · cases h2
        · cases h2
          have hcreated := createLocal_sameTurns h1
          exact hcreated
      · simp only [taken, Bool.or_eq_true, List.any_eq_true, decide_eq_true_eq, not_or] at htaken
        exact absurd ⟨u, hu, hconv⟩ htaken.2

theorem admitTask_sameTurns {c : Command} {taskId : String} {now : ℤ} {work : LocalWork}
    (h : s.admitTask c taskId now = .ok (work, s')) :
    s.SameTurns s' ∧ work.turn = none ∧ work.conversation = none := by
  unfold admitTask at h
  split at h
  · cases h
  · dsimp only at h
    split at h
    · cases h
    · cases h
      exact ⟨⟨rfl, rfl, rfl, rfl⟩, rfl, rfl⟩

/-- A turn was inserted. -/
theorem insertTurn_of_enqueue {db db' : Conversations.Db} {c a : String} {m : ℕ}
    (h : Conversations.Db.enqueueInTransaction c a m db = .ok (true, db')) :
    db.insertTurn c a m = .ok db' := by
  unfold Conversations.Db.enqueueInTransaction at h
  obtain ⟨_, -, h⟩ := bind_ok h
  obtain ⟨_, -, h⟩ := bind_ok h
  split at h
  · cases h
  · split at h
    · cases h
    · split at h
      · split at h
        · cases h
        · cases h
      · obtain ⟨db₁, hinsert, h⟩ := bind_ok h
        cases h
        exact hinsert

theorem admitChat_seated {c : Command} {conversationId : String} {work : LocalWork}
    (hn : s.talk.Numbered) (h : s.admitChat c conversationId = .ok (work, s')) :
    s.talk.Evolves s'.talk ∧ work.conversation = some conversationId ∧ work.attempt = none ∧
      ∃ t, work.turn = some t.id ∧ s'.talk.turns = s.talk.turns ++ [t] := by
  have hview : s.talk.Evolves s.talkView :=
    .of_turns_eq rfl rfl fun hn => ⟨hn.pos, hn.messages, hn.triggers⟩
  unfold admitChat at h
  split at h
  · cases h
  · rename_i message db hmessage
    split at h
    · cases h
    · cases h
    · rename_i db' henqueue
      have hinsert := insertTurn_of_enqueue henqueue
      split at h
      · cases h
      · rename_i t hfind
        cases h
        refine ⟨hview.trans ((Conversations.Db.insertMessage_evolves hmessage).trans
          (Conversations.Db.insertTurn_evolves hinsert)), rfl, rfl, ?_⟩
        obtain ⟨hstored, rfl⟩ := Conversations.Db.insertMessage_eq hmessage
        obtain ⟨-, -, rfl⟩ := Conversations.Db.insertTurn_eq hinsert
        refine ⟨t, rfl, ?_⟩
        -- the turn that is found is the new one: older triggers have older numbers
        have hfound := List.find?_some hfind
        simp only [Bool.and_eq_true, decide_eq_true_eq] at hfound
        rcases List.mem_append.1 (List.mem_of_find?_eq_some hfind) with hold | hnew
        · have hlt := hn.triggers t hold
          simp only [Conversations.ConversationTurn.trigger, hfound.2, hstored] at hlt
          exact absurd hlt (lt_irrefl _)
        · rw [List.mem_singleton] at hnew
          rw [hnew]
          rfl

theorem admitWork_seats {instanceId fresh : String} {c : Command} {now : ℤ} {work : LocalWork}
    (hn : s.talk.Numbered) (h : s.admitWork instanceId c fresh now = .ok (work, s')) :
    s.talk.Evolves s'.talk ∧ ∀ wire status leaseUntil,
      (receiptRow wire instanceId c work status leaseUntil).accepted = true →
      s.Seats s' (receiptRow wire instanceId c work status leaseUntil) := by
  unfold admitWork at h
  split at h
  · cases h
  · rename_i hbusy
    obtain ⟨⟨localId, s₁⟩, hlocal, h⟩ := bind_ok h
    obtain ⟨hsame, hidle⟩ := localWork_sameTurns (by simpa using hbusy) hlocal
    dsimp only at h
    split at h
    · obtain ⟨htask, hturn, hconversation⟩ := admitTask_sameTurns h
      refine ⟨hsame.evolves.trans htask.evolves, fun wire status leaseUntil _ => ?_⟩
      exact .none hturn hconversation (htask.1.trans hsame.1)
    · obtain ⟨hevolves, hconversation, hattempt, t, hturn, hturns⟩ :=
        admitChat_seated (hsame.evolves.numbered hn) h
      refine ⟨hsame.evolves.trans hevolves, fun wire status leaseUntil hacc => ?_⟩
      exact .seated localId t hconversation hturn hattempt hacc (by rw [hturns, hsame.1]) hidle

theorem admitNew_seats {instanceId fresh : String} {c : Command} {leaseUntil now expires : ℤ}
    (hn : s.talk.Numbered)
    (h : s.admitNew wire instanceId c fresh leaseUntil now expires = .ok s') :
    s.talk.Evolves s'.talk ∧ ∃ row, s'.commands = s.commands ++ [row] ∧ s.Seats s' row := by
  unfold admitNew at h
  split at h
  · cases h
  · split at h
    · cases h
    · split at h
      · obtain ⟨rfl, -⟩ := insertCommand_cases h
        exact ⟨.refl _, _, rfl, .none rfl rfl rfl⟩
      · obtain ⟨_, -, h⟩ := bind_ok h
        split at h
        · cases h
        · obtain ⟨⟨work, s₁⟩, hwork, h⟩ := bind_ok h
          obtain ⟨rfl, -⟩ := insertCommand_cases h
          obtain ⟨hevolves, hseats⟩ := admitWork_seats hn hwork
          have hsame := (admitWork_cases hwork).1
          refine ⟨hevolves, _, by rw [hsame.1], ?_⟩
          have hrow := hseats wire "accepted" leaseUntil (by simp [CommandRow.accepted, receiptRow])
          cases hrow with
          | none hturn hconversation hturns => exact .none hturn hconversation hturns
          | seated conversationId t hconversation hturn hattempt hacc hturns hidle =>
            exact .seated conversationId t hconversation hturn hattempt hacc hturns hidle

/-! ## The invariant -/

/-- An update that leaves a command's work and its being accepted alone. -/
theorem Laned.update (h : s.Laned) (hs' : s'.Schema) {f : CommandRow → CommandRow}
    (hcommands : s'.commands = s.commands.map f)
    (hf : ∀ c ∈ s.commands, (f c).turnId = c.turnId ∧ (f c).attemptId = c.attemptId ∧
      (f c).conversationId = c.conversationId)
    (hacc : ∀ c ∈ s.commands, ∀ t ∈ s'.talk.turns, c.turnId = some t.id → t.status.active →
      c.accepted = true → (f c).accepted = true)
    (hturns : s'.talk.Schema) (hnumbered : s'.talk.Numbered)
    (hquiet : Conversations.Db.Quiet s.linked s.talk s'.talk) : s'.Laned := by
  refine ⟨hs', hturns, hnumbered, ?_, ?_⟩
  · rw [hcommands]
    intro c' hc' hsome
    obtain ⟨c, hc, rfl⟩ := List.mem_map.1 hc'
    obtain ⟨hturn, hattempt, -⟩ := hf c hc
    rw [hattempt]
    exact h.single c hc (by rwa [hturn] at hsome)
  · intro t' ht' hact hlinked
    have hwas : s.linked t'.conversationId = true := by
      rw [linked, hcommands, List.any_map, List.any_eq_true] at hlinked
      obtain ⟨c, hc, hconversation⟩ := hlinked
      rw [linked, List.any_eq_true]
      refine ⟨c, hc, ?_⟩
      simpa [(hf c hc).2.2] using hconversation
    obtain ⟨t, ht, hid, hconv, hactive⟩ := hquiet t' ht' hact hwas
    obtain ⟨c, hc, haccepted, hturn⟩ := h.own t ht hactive (by rw [hconv]; exact hwas)
    have hturn' : c.turnId = some t'.id := by rw [hturn, hid]
    refine ⟨f c, by rw [hcommands]; exact List.mem_map_of_mem hc,
      hacc c hc t' ht' hturn' hact haccepted, ?_⟩
    rw [(hf c hc).1, hturn']

theorem Laned.same (h : s.Laned) (hs' : s'.Schema) (hcommands : s'.commands = s.commands)
    (htalk : s'.talk = s.talk) : s'.Laned :=
  h.update (f := fun c => c) hs' (by rw [hcommands, List.map_id']) (fun _ _ => ⟨rfl, rfl, rfl⟩)
    (fun _ _ _ _ _ _ hacc => hacc) (by rw [htalk]; exact h.turns) (by rw [htalk]; exact h.numbered)
    (.of_turns_eq (by rw [htalk]))

/-- Calls that set other columns of commands. -/
theorem Laned.rows (h : s.Laned) (hs' : s'.Schema) {w : CommandRow → Bool}
    {set : CommandRow → CommandRow}
    (hcommands : s'.commands = s.commands.map fun c => if w c then set c else c)
    (htalk : s'.talk = s.talk)
    (hset : ∀ c, (set c).turnId = c.turnId ∧ (set c).attemptId = c.attemptId ∧
      (set c).conversationId = c.conversationId ∧ (set c).accepted = c.accepted) : s'.Laned := by
  refine h.update hs' hcommands (fun c _ => ?_) (fun c _ t _ _ _ hacc => ?_)
    (by rw [htalk]; exact h.turns) (by rw [htalk]; exact h.numbered) (.of_turns_eq (by rw [htalk]))
  · obtain ⟨hturn, hattempt, hconversation, -⟩ := hset c
    split
    · exact ⟨hturn, hattempt, hconversation⟩
    · exact ⟨rfl, rfl, rfl⟩
  · split
    · rw [(hset c).2.2.2]
      exact hacc
    · exact hacc

/-- A command whose turn is active is not collected. -/
theorem collect_active (h : s.Laned) {c : CommandRow} (hc : c ∈ s.commands)
    {t : Conversations.ConversationTurn} (ht : t ∈ s.talk.turns) (hturn : c.turnId = some t.id)
    (hact : t.status.active = true) : s.collectAttempt c = c ∧ s.collectTurn c = c := by
  have hattempt := h.single c hc (by simp [hturn])
  have hfound : s.turn? t.id = some t := by
    cases hf : s.turn? t.id with
    | none =>
      have hno := List.find?_eq_none.1 hf t ht
      simp at hno
    | some u =>
      have hid := List.find?_some hf
      simp only [decide_eq_true_eq] at hid
      rw [h.turns.eq_of_id (List.mem_of_find?_eq_some hf) ht hid]
  constructor
  · unfold collectAttempt
    rw [hattempt]
  · unfold collectTurn
    simp [hturn, hfound, hact]

theorem collected_becomes (instanceId : String) {set : CommandRow → CommandRow}
    (hset : ∀ c : CommandRow, c.accepted = true → c.Becomes (set c)) (c : CommandRow) :
    c.Becomes (if (c.instanceId = instanceId && c.accepted : Bool) then set c else c) := by
  split
  · rename_i hw
    simp only [Bool.and_eq_true] at hw
    exact hset c hw.2
  · exact .refl c

theorem collect_laned (h : s.Laned) (instanceId : String) : (s.collect instanceId).Laned := by
  refine h.update (h.schema.update (collect_moved instanceId) (.of_eq rfl)) (List.map_map ..)
    (fun c _ => ?_) (fun c hc t ht hturn hact hacc => ?_) h.turns h.numbered (.of_turns_eq rfl)
  · have hattempt := collected_becomes instanceId
      (fun c hacc => collectAttempt_becomes (s := s) hacc) c
    have hcollected := hattempt.trans (collected_becomes instanceId
      (fun c hacc => collectTurn_becomes (s := s) hacc) _)
    exact ⟨hcollected.turnId, hcollected.attemptId, hcollected.conversationId⟩
  · obtain ⟨hattempt, hcollect⟩ := collect_active h hc ht hturn hact
    simp only [Function.comp_apply, hattempt, ite_self, hcollect]
    exact hacc

theorem recover_laned (h : s.Laned) (now : ℤ) : (s.recover now).Laned := by
  have hschema : (s.recover now).Schema := h.schema.update (.of_eq rfl) (.of_eq rfl)
  have hevolves : s.talk.Evolves (s.recover now).talk := by
    refine Conversations.Db.setTurns_evolves (fun t ht => ?_) fun _ => rfl
    simp only [Bool.and_eq_true] at ht
    exact ⟨rfl, rfl, rfl, .of_active ht.2 _, fun _ => ht.2⟩
  exact h.update (f := fun c => c) hschema (List.map_id' _).symm (fun _ _ => ⟨rfl, rfl, rfl⟩)
    (fun _ _ _ _ _ _ hacc => hacc) (hevolves.schema h.turns) (hevolves.numbered h.numbered)
    (Conversations.Db.endTurns_quiet (fun _ => rfl) (fun _ => rfl) fun _ => rfl)

theorem dropTurn_laned (h : s.Laned) (id : ℕ)
    (hs' : s' = { s with talk := { s.talk with turns := s.talk.turns.filter (·.id ≠ id) } }) :
    s'.Laned := by
  subst hs'
  refine h.update (f := fun c => c) (h.schema.update (.of_eq rfl) (.of_eq rfl))
    (List.map_id' _).symm (fun _ _ => ⟨rfl, rfl, rfl⟩) (fun _ _ _ _ _ _ hacc => hacc) ⟨?_, ?_⟩
    ⟨h.numbered.pos, ?_, ?_⟩ ?_
  · exact h.turns.apart.filter _
  · exact fun t ht => h.turns.fresh t (List.mem_filter.1 ht).1
  · exact h.numbered.messages
  · exact fun t ht => h.numbered.triggers t (List.mem_filter.1 ht).1
  · exact fun t ht hact _ => ⟨t, (List.mem_filter.1 ht).1, rfl, rfl, hact⟩

theorem talk_laned (h : s.Laned) {op : Conversations.Op} (hno : s.strays (.talk op) = false)
    (hs' : s' = { s with talk := Conversations.step s.talkView op }) : s'.Laned := by
  subst hs'
  have hview : s.talk.Evolves s.talkView :=
    .of_turns_eq rfl rfl fun hn => ⟨hn.pos, hn.messages, hn.triggers⟩
  have hevolves := hview.trans (Conversations.step_evolves s.talkView op)
  refine h.update (f := fun c => c) (h.schema.update (.of_eq rfl) (.of_eq rfl))
    (List.map_id' _).symm (fun _ _ => ⟨rfl, rfl, rfl⟩) (fun _ _ _ _ _ _ hacc => hacc)
    (hevolves.schema h.turns)
    (hevolves.numbered h.numbered) ?_
  rcases Conversations.step_cases s.talkView op with ⟨heq, -⟩ | ⟨r, hexec, -⟩
  · rw [heq]
    exact .of_turns_eq rfl
  · rw [← connected_talkView]
    refine Conversations.exec_quiet ?_ hexec
    simpa [strays, hexec, Except.isOk, Except.toBool] using hno

theorem admit_laned (h : s.Laned) {instanceId fresh : String} {c : Command}
    {leaseUntil now : ℤ} {e : Execution} (hs' : s'.Schema)
    (hok : s.admitCommand wire instanceId c fresh leaseUntil now = .ok (e, s')) : s'.Laned := by
  obtain ⟨expires, -, hok⟩ := bind_ok hok
  split at hok
  · split at hok
    · cases hok
    · cases hok
      exact h
  · obtain ⟨s₁, hnew, hok⟩ := bind_ok hok
    split at hok
    · cases hok
    · cases hok
      obtain ⟨hevolves, row, hcommands, hseats⟩ := admitNew_seats h.numbered hnew
      have hcases (c : CommandRow) (hc : c ∈ s'.commands) : c ∈ s.commands ∨ c = row := by
        rw [hcommands] at hc
        simpa using hc
      have hkept {t : Conversations.ConversationTurn} (ht : t ∈ s.talk.turns)
          (hact : t.status.active) (hlinked : s.linked t.conversationId = true) :
          ∃ c ∈ s'.commands, c.accepted = true ∧ c.turnId = some t.id := by
        obtain ⟨c, hc, hown⟩ := h.own t ht hact hlinked
        exact ⟨c, by rw [hcommands]; exact List.mem_append_left _ hc, hown⟩
      cases hseats with
      | none hturn hconversation hturns =>
        refine ⟨hs', hevolves.schema h.turns, hevolves.numbered h.numbered, fun c hc hsome => ?_,
          fun t ht hact hlinked => ?_⟩
        · rcases hcases c hc with hold | rfl
          · exact h.single c hold hsome
          · simp [hturn] at hsome
        · rw [hturns] at ht
          refine hkept ht hact ?_
          simpa [linked, hcommands, hconversation] using hlinked
      | seated conversationId u hconversation hturn hattempt hacc hturns hidle =>
        refine ⟨hs', hevolves.schema h.turns, hevolves.numbered h.numbered, fun c hc hsome => ?_,
          fun t ht hact hlinked => ?_⟩
        · rcases hcases c hc with hold | rfl
          · exact h.single c hold hsome
          · exact hattempt
        · rw [hturns] at ht
          rcases List.mem_append.1 ht with hold | hnew
          · refine hkept hold hact ?_
            have hother : ¬ conversationId = t.conversationId := by
              intro heq
              rw [hidle t hold heq.symm] at hact
              cases hact
            simpa [linked, hcommands, hconversation, hother] using hlinked
          · rw [List.mem_singleton] at hnew
            subst hnew
            exact ⟨row, by rw [hcommands]; simp, hacc, hturn⟩

/-- A claimed turn was queued, in the same conversation. -/
theorem queued_of_claimNext {db : Conversations.Db} (hs : db.Schema)
    {t' : Conversations.ConversationTurn} (h : db.claimNext.1 = some t') :
    ∃ t ∈ db.turns, t.status = .queued ∧ t'.id = t.id ∧ t'.conversationId = t.conversationId := by
  unfold Conversations.Db.claimNext at h
  dsimp only at h
  split at h
  · cases h
  · rename_i next hnext
    have hmem := List.mem_filter.1 (List.argmin_mem hnext)
    simp only [Bool.and_eq_true, decide_eq_true_eq] at hmem
    obtain ⟨hin, hqueued, -⟩ := hmem
    have hstray := (Conversations.Db.cancelStrayTurns_evolves db).schema hs
    have hfound := List.find?_some h
    simp only [decide_eq_true_eq] at hfound
    obtain ⟨u, hu, rfl⟩ := List.mem_map.1 (List.mem_of_find?_eq_some h)
    have hid : u.id = next.id := by
      dsimp only at hfound
      split at hfound <;> exact hfound
    have heq := hstray.eq_of_id hu hin hid
    subst heq
    refine ⟨u, ?_, hqueued, hfound, ?_⟩
    · obtain ⟨v, hv, rfl⟩ := List.mem_map.1 hin
      split at hqueued
      · cases hqueued
      · rename_i hstays
        rw [if_neg hstays]
        exact hv
    · split <;> rfl

theorem Laned.claimed (h : s.Laned) {t : Conversations.ConversationTurn}
    (ht : s.talkView.claimNext.1 = some t) (hlinked : s.linked t.conversationId = true) :
    ∃ c ∈ s.commands, c.accepted = true ∧ c.turnId = some t.id := by
  have hview : s.talkView.Schema := ⟨h.turns.apart, h.turns.fresh⟩
  obtain ⟨u, hu, hqueued, hid, hconv⟩ := queued_of_claimNext hview ht
  rw [hconv] at hlinked
  rw [hid]
  exact h.own u hu (by rw [hqueued]; rfl) hlinked

end Sys

/-! ## Leases -/

section Leases

variable {wire : Wire} {needsUserInput : String → Bool} {s : Sys}

/-- The lease that a call grants the command: at its admission, or by a renewal that its binding
backs. -/
def Op.grants (id : String) (s : Sys) : Op → Option ℤ
  | .admitCommand _ c _ leaseUntil _ =>
      if c.id = id && (s.command? id).isNone then some leaseUntil else none
  | .renew instanceId i leaseUntil =>
      if i = id && (s.command? id).any fun c => c.instanceId = instanceId && s.renewable c then
        some leaseUntil
      else none
  | _ => none

/-- The call disables the binding of the command, or publishes it at a higher generation. -/
def Op.ends (wire : Wire) (id : String) (s : Sys) : Op → Bool
  | .disableBinding instanceId b =>
      (s.command? id).any fun c => c.instanceId = instanceId && c.bindingId = b
  | .bind instanceId b =>
      (s.bind wire instanceId b).isOk && ((s.command? id).any (·.bindingId = b.id)) &&
        (s.binding? b.id).any (·.saved.generation < b.generation)
  | _ => false

/-- What one call does to the lease of an accepted command. -/
inductive LeaseStep (wire : Wire) (s : Sys) (op : Op) (c' : CommandRow) : Prop
  | ended (hends : op.ends wire c'.id s = true) (hlease : c'.leaseUntil = 0)
  | granted (hends : op.ends wire c'.id s = false)
      (hgrants : op.grants c'.id s = some c'.leaseUntil)
  | kept (hends : op.ends wire c'.id s = false) (hgrants : op.grants c'.id s = none)
      (c : CommandRow) (hc : c ∈ s.commands) (hacc : c.accepted = true) (hid : c.id = c'.id)
      (hlease : c.leaseUntil = c'.leaseUntil)

theorem Sys.admitNew_lease {s' : Sys} {instanceId fresh : String} {c : Command}
    {leaseUntil now expires : ℤ}
    (h : s.admitNew wire instanceId c fresh leaseUntil now expires = .ok s') :
    ∃ row, s'.commands = s.commands ++ [row] ∧ row.id = c.id ∧ row.leaseUntil = leaseUntil := by
  unfold admitNew at h
  split at h
  · cases h
  · split at h
    · cases h
    · split at h
      · obtain ⟨rfl, -⟩ := insertCommand_cases h
        exact ⟨_, rfl, rfl, rfl⟩
      · obtain ⟨_, -, h⟩ := bind_ok h
        split at h
        · cases h
        · obtain ⟨⟨work, s₁⟩, hwork, h⟩ := bind_ok h
          obtain ⟨rfl, -⟩ := insertCommand_cases h
          exact ⟨_, by rw [(admitWork_cases hwork).1.1], rfl, rfl⟩

/-- An update that sets the lease of the rows it is about. -/
theorem LeaseStep.update {op : Op} (hs : s.Schema) {w : CommandRow → Bool} {leaseUntil : ℤ}
    {c' : CommandRow} (hacc : c'.accepted = true)
    (hc' : c' ∈ s.commands.map fun c => if w c then { c with leaseUntil := leaseUntil } else c)
    (hset : ∀ c ∈ s.commands, s.command? c.id = some c → c.accepted = true → w c = true →
      (op.ends wire c.id s = true ∧ leaseUntil = 0) ∨
        op.ends wire c.id s = false ∧ op.grants c.id s = some leaseUntil)
    (hkept : ∀ c ∈ s.commands, s.command? c.id = some c → c.accepted = true → w c = false →
      op.ends wire c.id s = false ∧ op.grants c.id s = none) : LeaseStep wire s op c' := by
  obtain ⟨c, hc, rfl⟩ := List.mem_map.1 hc'
  have hfound := hs.command?_of_mem hc
  by_cases hw : w c = true
  · rw [if_pos hw] at hacc ⊢
    rcases hset c hc hfound hacc hw with ⟨hends, hzero⟩ | ⟨hends, hgrants⟩
    · exact .ended hends hzero
    · exact .granted hends hgrants
  · rw [if_neg hw] at hacc ⊢
    obtain ⟨hends, hgrants⟩ := hkept c hc hfound hacc (by simpa using hw)
    exact .kept hends hgrants c hc hacc rfl rfl

/-- Every call ends the lease of a command, grants it one, or leaves it. -/
theorem step_leaseStep (hs : s.Schema) (op : Op) {c' : CommandRow}
    (hc' : c' ∈ (step wire needsUserInput s op).commands) (hacc : c'.accepted = true) :
    LeaseStep wire s op c' := by
  have hsame {s' : Sys} (h : s'.commands = s.commands) (hmem : c' ∈ s'.commands)
      (hends : op.ends wire c'.id s = false) (hgrants : op.grants c'.id s = none) :
      LeaseStep wire s op c' := .kept hends hgrants c' (h ▸ hmem) hacc rfl rfl
  cases op with
  | bind instanceId b =>
    rw [step_bind] at hc'
    cases hok : s.bind wire instanceId b with
    | error e =>
      rw [hok] at hc'
      exact hsame rfl hc' (by simp [Op.ends, hok, Except.isOk, Except.toBool]) rfl
    | ok s' =>
      rw [hok] at hc'
      rcases Sys.bind_cases hok with ⟨row, hrow, -, -, rfl⟩ | ⟨hnone, rfl⟩
      · unfold Sys.republish at hc'
        dsimp only at hc'
        split at hc'
        · rename_i hraised
          have hends (c : CommandRow) (hfound : s.command? c.id = some c) :
              (Op.bind instanceId b).ends wire c.id s = decide (c.bindingId = b.id) := by
            simp [Op.ends, hok, hfound, hrow, hraised, Except.isOk, Except.toBool]
          refine .update hs hacc hc' (fun c _ hfound _ hw => .inl ⟨?_, rfl⟩)
            fun c _ hfound hacc hw => ⟨?_, rfl⟩
          · rw [hends c hfound]
            simp only [Bool.and_eq_true] at hw
            exact hw.1
          · rw [hends c hfound]
            simpa [hacc] using hw
        · rename_i hkept
          exact hsame rfl hc' (by simp [Op.ends, hrow, hkept]) rfl
      · exact hsame rfl hc' (by simp [Op.ends, hnone]) rfl
  | disableBinding instanceId b =>
    refine .update hs hacc hc' (fun c _ hfound _ hw => .inl ⟨?_, rfl⟩)
      fun c _ hfound hacc hw => ⟨?_, rfl⟩
    · simp only [Bool.and_eq_true, decide_eq_true_eq] at hw
      simp [Op.ends, hfound, hw.1]
    · simpa [Op.ends, hfound, hacc] using hw
  | admitCommand instanceId c fresh leaseUntil now =>
    rw [step_admitCommand] at hc'
    have hknown : c' ∈ s.commands → (Op.admitCommand instanceId c fresh leaseUntil now).grants
        c'.id s = none := by
      intro hmem
      by_cases hid : c.id = c'.id
      · simp [Op.grants, hid, hs.command?_of_mem hmem]
      · simp [Op.grants, hid]
    split at hc'
    · rename_i e s' hok
      rcases Sys.admit_cases hok with ⟨row, -, -, -, -, rfl⟩ | ⟨hnone, -⟩
      · exact hsame rfl hc' rfl (hknown hc')
      · obtain ⟨expires, -, hok⟩ := bind_ok hok
        rw [hnone] at hok
        obtain ⟨s₁, hnew, hok⟩ := bind_ok hok
        split at hok
        · cases hok
        · cases hok
          obtain ⟨row, hcommands, hid, hlease⟩ := Sys.admitNew_lease hnew
          rw [hcommands] at hc'
          rcases List.mem_append.1 hc' with hold | hrow
          · exact hsame rfl hold rfl (hknown hold)
          · rw [List.mem_singleton] at hrow
            subst hrow
            exact .granted rfl (by simp [Op.grants, hid, hnone, hlease])
    · exact hsame rfl hc' rfl (hknown hc')
  | renew instanceId id leaseUntil =>
    have hgrants (c : CommandRow) (hfound : s.command? c.id = some c) :
        (Op.renew instanceId id leaseUntil).grants c.id s =
          if c.id = id && (c.instanceId = instanceId && s.renewable c) then some leaseUntil
          else none := by
      by_cases hid : c.id = id
      · subst hid
        simp [Op.grants, hfound]
      · simp [Op.grants, hid, Ne.symm hid]
    refine .update hs hacc hc' (fun c _ hfound _ hw => .inr ⟨rfl, ?_⟩)
      fun c _ hfound hacc hw => ⟨rfl, ?_⟩
    · rw [hgrants c hfound, if_pos]
      simp_all
    · rw [hgrants c hfound, if_neg]
      simp_all
  | acknowledge instanceId id =>
    obtain ⟨c, hc, rfl⟩ := List.mem_map.1 hc'
    have hrow : ∀ d : CommandRow, (d = c ∨ d = { c with acknowledged := true }) →
        d.accepted = true → LeaseStep wire s (.acknowledge instanceId id) d := by
      rintro d (rfl | rfl) hd
      · exact .kept rfl rfl d hc hd rfl rfl
      · exact .kept rfl rfl c hc hd rfl rfl
    refine hrow _ ?_ hacc
    split
    · exact .inr rfl
    · exact .inl rfl
  | collect instanceId =>
    obtain ⟨c, hc, hbecomes, hlease⟩ := Sys.collect_lease hc'
    refine .kept rfl rfl c hc ?_ hbecomes.id.symm hlease.symm
    by_contra hclosed
    rw [Bool.not_eq_true] at hclosed
    rw [CommandRow.accepted_of_receipt (hbecomes.final hclosed), hclosed] at hacc
    cases hacc
  | _ => exact hsame rfl hc' rfl rfl

end Leases

/-! ## Runs -/

variable {wire : Wire} {needsUserInput : String → Bool} {s : Sys}

/-- A call at a time, in seconds since the epoch. -/
def timed (wire : Wire) (needsUserInput : String → Bool) (s : Sys) (call : ℕ × Op) : Sys :=
  step wire needsUserInput s call.2

theorem timed_laned (h : s.Laned) {call : ℕ × Op} (hno : s.strays call.2 = false) :
    (timed wire needsUserInput s call).Laned := by
  obtain ⟨now, op⟩ := call
  have hschema : (step wire needsUserInput s op).Schema := step_schema h.schema op
  show (step wire needsUserInput s op).Laned
  cases op with
  | bind instanceId b =>
    rw [step_bind] at hschema ⊢
    split at hschema
    · rename_i s' hok
      rcases Sys.bind_cases hok with ⟨row, -, -, -, rfl⟩ | ⟨-, rfl⟩
      · unfold Sys.republish at hschema ⊢
        dsimp only at hschema ⊢
        split
        · rename_i hraised
          rw [if_pos hraised] at hschema
          exact h.rows hschema rfl rfl fun _ => ⟨rfl, rfl, rfl, rfl⟩
        · rename_i hkept
          rw [if_neg hkept] at hschema
          exact h.same hschema rfl rfl
      · exact h.same hschema rfl rfl
    · exact h
  | disableBinding instanceId b =>
    exact h.rows hschema rfl rfl fun _ => ⟨rfl, rfl, rfl, rfl⟩
  | admitCommand instanceId c fresh leaseUntil now =>
    rw [step_admitCommand] at hschema ⊢
    split at hschema
    · rename_i e s' hok
      exact Sys.admit_laned h hschema hok
    · exact h
  | renew instanceId id leaseUntil =>
    exact h.rows hschema rfl rfl fun _ => ⟨rfl, rfl, rfl, rfl⟩
  | acknowledge instanceId id =>
    exact h.rows hschema rfl rfl fun _ => ⟨rfl, rfl, rfl, rfl⟩
  | collect instanceId => exact Sys.collect_laned h instanceId
  | recover now => exact Sys.recover_laned h now
  | tasks op => exact h.same hschema rfl rfl
  | dropAttempt id => exact h.same hschema rfl rfl
  | dropTurn id => exact Sys.dropTurn_laned h id rfl
  | talk op => exact Sys.talk_laned h hno rfl

/-- The tables of an instance before it is paired. -/
structure Sys.Ready (s : Sys) : Prop where
  unpaired : s.Unpaired
  turns : s.talk.Schema
  numbered : s.talk.Numbered

theorem Sys.Ready.laned (h : s.Ready) : s.Laned := by
  refine ⟨h.unpaired.schema, h.turns, h.numbered, ?_, ?_⟩
  · simp [h.unpaired.commands]
  · simp [Sys.linked, h.unpaired.commands]

variable (wire needsUserInput)

/-- **The calls have the command covered at the time**: one of them granted it a lease that
reaches further, and none since has ended it or granted another. -/
def Covered (s : Sys) (calls : List (ℕ × Op)) (id : String) (now : ℕ) : Prop :=
  ∃ (earlier later : List (ℕ × Op)) (call : ℕ × Op) (lease : ℤ),
    calls = earlier ++ call :: later ∧
    call.2.grants id (runOps (timed wire needsUserInput) s earlier) = some lease ∧ now < lease ∧
    Along (timed wire needsUserInput)
      (fun s call => call.2.grants id s = none ∧ call.2.ends wire id s = false)
      (runOps (timed wire needsUserInput) s (earlier ++ [call])) later

variable {wire needsUserInput}

/-- The last call covers the command, or leaves it covered. -/
theorem covered_concat {calls : List (ℕ × Op)} {call : ℕ × Op} {id : String} {now : ℕ} :
    Covered wire needsUserInput s (calls ++ [call]) id now ↔
      (∃ lease : ℤ, call.2.grants id (runOps (timed wire needsUserInput) s calls) = some lease ∧
        now < lease) ∨
      ((call.2.grants id (runOps (timed wire needsUserInput) s calls) = none ∧
        call.2.ends wire id (runOps (timed wire needsUserInput) s calls) = false) ∧
        Covered wire needsUserInput s calls id now) := by
  constructor
  · rintro ⟨earlier, later, granting, lease, hcalls, hgrants, hlease, hrest⟩
    rcases List.eq_nil_or_concat later with rfl | ⟨later, last, rfl⟩
    · obtain ⟨rfl, hlast⟩ := List.append_inj' hcalls rfl
      cases hlast
      exact .inl ⟨lease, hgrants, hlease⟩
    · rw [List.concat_eq_append, ← List.cons_append, ← List.append_assoc] at hcalls
      obtain ⟨rfl, hlast⟩ := List.append_inj' hcalls rfl
      cases hlast
      rw [List.concat_eq_append, along_append] at hrest
      refine .inr ⟨?_, earlier, later, granting, lease, rfl, hgrants, hlease, hrest.1⟩
      have hlast := hrest.2.1
      rwa [← runOps_append, List.append_assoc, List.singleton_append] at hlast
  · rintro (⟨lease, hgrants, hlease⟩ | ⟨hkept, earlier, later, granting, lease, rfl, hgrants,
      hlease, hrest⟩)
    · exact ⟨calls, [], call, lease, rfl, hgrants, hlease, trivial⟩
    · refine ⟨earlier, later ++ [call], granting, lease, by simp, hgrants, hlease, ?_⟩
      refine along_append.2 ⟨hrest, ?_, trivial⟩
      rwa [← runOps_append, List.append_assoc, List.singleton_append]

/-- **The lease of an accepted command is live exactly when the calls have it covered.** -/
theorem live_iff_covered (hs : s.Unpaired) (calls : List (ℕ × Op)) {c : CommandRow}
    (hc : c ∈ (runOps (timed wire needsUserInput) s calls).commands) (hacc : c.accepted = true)
    (now : ℕ) : (now : ℤ) < c.leaseUntil ↔ Covered wire needsUserInput s calls c.id now := by
  have hschema (calls : List (ℕ × Op)) : (runOps (timed wire needsUserInput) s calls).Schema := by
    induction calls using List.reverseRecOn with
    | nil => exact hs.schema
    | append_singleton calls call ih =>
      rw [runOps_concat]
      exact step_schema ih call.2
  induction calls using List.reverseRecOn generalizing c with
  | nil =>
    rw [runOps_nil, hs.commands] at hc
    cases hc
  | append_singleton calls call ih =>
    rw [covered_concat]
    rw [runOps_concat] at hc
    cases step_leaseStep (hschema calls) call.2 hc hacc with
    | ended hends hlease =>
      have hno : call.2.grants c.id (runOps (timed wire needsUserInput) s calls) = none := by
        cases hop : call.2 <;> simp_all [Op.ends, Op.grants]
      simp [hno, hends, hlease]
    | granted hends hgrants => simp [hgrants]
    | kept hends hgrants d hd hdacc hid hlease =>
      have hcovered := ih hd hdacc
      rw [hlease, hid] at hcovered
      simp [hgrants, hends, hcovered]

variable (wire needsUserInput)

/-- **A connected conversation runs authorized turns only**, as long as no call starts a turn
there by itself: every active turn is that of an accepted command, and so is every claimed one.
The lease of that command is live if and only if the calls before the claim have it covered. -/
theorem connected_turns_authorized (hs : s.Ready) (calls : List (ℕ × Op))
    (hrun : Along (timed wire needsUserInput) (fun s call => s.strays call.2 = false) s calls) :
    (∀ before after, calls = before ++ after →
      let s₁ := runOps (timed wire needsUserInput) s before
      ∀ t ∈ s₁.talk.turns, t.status.active → s₁.linked t.conversationId = true →
        ∃ c ∈ s₁.commands, c.accepted = true ∧ c.turnId = some t.id) ∧
    ∀ before (now : ℕ) after, calls = before ++ (now, .talk .claimNext) :: after →
      let s₁ := runOps (timed wire needsUserInput) s before
      ∀ t, s₁.talkView.claimNext.1 = some t → s₁.linked t.conversationId = true →
        ∃ c ∈ s₁.commands, c.accepted = true ∧ c.turnId = some t.id ∧
          (0 < c.leaseUntil ∧ (now : ℤ) < c.leaseUntil ↔
            Covered wire needsUserInput s before c.id now) := by
  have hlaned {before : List (ℕ × Op)}
      (h : Along (timed wire needsUserInput) (fun s call => s.strays call.2 = false) s before) :
      (runOps (timed wire needsUserInput) s before).Laned :=
    h.invariant (I := Sys.Laned) (fun _ _ h hno => timed_laned h hno) hs.laned
  constructor
  · rintro before after rfl
    exact (hlaned (along_append.1 hrun).1).own
  · rintro before now after rfl s₁ t ht hlinked
    obtain ⟨hbefore, -⟩ := along_append.1 hrun
    obtain ⟨c, hc, hacc, hturn⟩ := (hlaned hbefore).claimed ht hlinked
    refine ⟨c, hc, hacc, hturn, ?_⟩
    rw [← live_iff_covered hs.unpaired before hc hacc now]
    omega

theorem ready_unpaired : unpaired.Ready := by
  refine ⟨unpaired_unpaired, ⟨List.Pairwise.nil, ?_⟩, ⟨Nat.one_pos, ?_, ?_⟩⟩ <;> simp [unpaired]

/-- The Agent is published and asked, and its turn is claimed. -/
def askedAndClaimed : List (ℕ × Op) :=
  asked.map (Prod.mk 100) ++ [(110, .talk .claimNext)]

/-- The row of the claimed turn. -/
def questionTurn : Conversations.ConversationTurn where
  id := 0
  conversationId := "chat"
  agentId := "atlas"
  triggerMessageId := some 1
  status := .running
  queuedAt := 0

/-- The lease is renewed before it expires, and the turn is claimed after that. -/
def renewedAndClaimed : List (ℕ × Op) :=
  asked.map (Prod.mk 100) ++ [(150, .renew "instance" question.id 300)] ++
    [(250, .talk .claimNext)]

/-- The turn is claimed under the lease of the renewal. -/
theorem renewedAndClaimed_authorized :
    ∃ c ∈ (runOps (timed plainWire fun _ => false) unpaired
        (asked.map (Prod.mk 100) ++ [(150, .renew "instance" question.id 300)])).commands,
      c.accepted = true ∧ c.turnId = some 0 ∧ 250 < c.leaseUntil := by
  obtain ⟨c, hc, hacc, hturn, hlease⟩ :=
    (connected_turns_authorized plainWire (fun _ => false) ready_unpaired renewedAndClaimed
      (by decide +kernel)).2 _ 250 [] rfl questionTurn (by decide +kernel) (by decide +kernel)
  have hids : ∀ c ∈ (runOps (timed plainWire fun _ => false) unpaired
      (asked.map (Prod.mk 100) ++ [(150, .renew "instance" question.id 300)])).commands,
      c.id = question.id := by decide +kernel
  have hcovered : Covered plainWire (fun _ => false) unpaired
      (asked.map (Prod.mk 100) ++ [(150, .renew "instance" question.id 300)]) c.id 250 := by
    rw [hids c hc]
    exact ⟨asked.map (Prod.mk 100), [], _, 300, rfl, by decide +kernel, by decide, trivial⟩
  exact ⟨c, hc, hacc, hturn, (hlease.2 hcovered).2⟩

/-- The binding is disabled while the turn waits. -/
def disabledMeanwhile : List (ℕ × Op) :=
  asked.map (Prod.mk 100) ++ [(105, .disableBinding "instance" (atlas 1).id)]

/-- Somebody writes into the conversation while the turn runs, and the turn fails. -/
def followedUp : List (ℕ × Op) :=
  askedAndClaimed ++ [(115, .talk (.sendRouted "chat" ⟨"user", "local", "Another request"⟩ none)),
    (120, .talk (.fail questionTurn "stopped"))]

/-- The claimed turn, and the leases of the accepted commands it is the turn of. -/
def claimedLeases (calls : List (ℕ × Op)) : Option (ℕ × Bool × List ℤ) :=
  let s := runOps (timed plainWire fun _ => false) unpaired calls
  s.talkView.claimNext.1.map fun t => (t.id, s.linked t.conversationId,
    (s.commands.filter fun c => c.accepted && c.turnId = some t.id).map (·.leaseUntil))

/-- A turn whose lease was ended is claimed, and so is one that no command asked for. -/
theorem unauthorized_turns_claimed :
    claimedLeases disabledMeanwhile = some (0, true, [0]) ∧
      claimedLeases followedUp = some (1, true, []) := by
  decide +kernel

end XpressClaw.Connect
