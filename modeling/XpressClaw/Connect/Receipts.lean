import XpressClaw.Connect.Steps
import XpressClaw.Conversations.Coverage

/-!
# Commands are admitted and answered once

A command's row is looked up by its identifier before anything is done for it, and no call
deletes a row or changes its identifiers: the first admission makes the one execution of a
command, and every later one returns the same identifiers.  A receipt changes only while the
command is accepted.

* `admit_newWork` — an admission makes at most one turn or attempt, and none for a command
  that has a row.
* `recover_collect_terminal` — after `recover` and `collect` no command of the instance is
  accepted.
* `commands_answered_once` — the five properties, over every run.
-/

namespace XpressClaw.Connect

open Lib

/-! ## What an admission makes -/

namespace Sys

variable {s s' : Sys} {wire : Wire}

/-- The turns and attempts of the second database that the first one does not have. -/
def newWork (s s' : Sys) : ℕ :=
  (s'.talk.turns.filter fun t => !s.talk.turns.any (·.id = t.id)).length +
    (s'.tasks.attempts.filter fun a => !s.tasks.attempts.any (·.id = a.id)).length

theorem length_new_append {α : Type} {key : α → ℕ} {rows rows' added : List α}
    (h : ∀ r ∈ rows', key r ∈ rows.map key) :
    ((rows' ++ added).filter fun r => !rows.any fun o => decide (key o = key r)).length ≤
      added.length := by
  have hold : rows'.filter (fun r => !rows.any fun o => decide (key o = key r)) = [] := by
    rw [List.filter_eq_nil_iff]
    intro r hr
    obtain ⟨o, ho, hkey⟩ := List.mem_map.1 (h r hr)
    simp only [Bool.not_eq_true, Bool.not_eq_false', List.any_eq_true, decide_eq_true_eq]
    exact ⟨o, ho, hkey⟩
  rw [List.filter_append, hold, List.nil_append]
  exact List.length_filter_le _ added

/-- The turns and attempts are as before. -/
def SameWork (s s' : Sys) : Prop :=
  s'.talk.turns = s.talk.turns ∧ s'.tasks.attempts = s.tasks.attempts

/-- At most so many turns and attempts were added. -/
structure Extends (s s' : Sys) (k l : ℕ) : Prop where
  turns : ∃ rows added, s'.talk.turns = rows ++ added ∧ added.length ≤ k ∧
    ∀ r ∈ rows, r.id ∈ s.talk.turns.map (·.id)
  attempts : ∃ rows added, s'.tasks.attempts = rows ++ added ∧ added.length ≤ l ∧
    ∀ r ∈ rows, r.id ∈ s.tasks.attempts.map (·.id)

theorem Extends.newWork_le {k l : ℕ} (h : s.Extends s' k l) : s.newWork s' ≤ k + l := by
  obtain ⟨oldTurns, turns, hturns, hk, holdTurns⟩ := h.turns
  obtain ⟨oldAttempts, attempts, hattempts, hl, holdAttempts⟩ := h.attempts
  rw [newWork, hturns, hattempts]
  exact Nat.add_le_add ((length_new_append holdTurns).trans hk)
    ((length_new_append holdAttempts).trans hl)

theorem keeps_turns (h : s'.talk.turns = s.talk.turns) :
    ∃ rows added, s'.talk.turns = rows ++ added ∧ added.length ≤ 0 ∧
      ∀ r ∈ rows, r.id ∈ s.talk.turns.map (·.id) :=
  ⟨s.talk.turns, [], by rw [h, List.append_nil], le_rfl, fun _ hr => List.mem_map_of_mem hr⟩

theorem keeps_attempts (h : s'.tasks.attempts = s.tasks.attempts) :
    ∃ rows added, s'.tasks.attempts = rows ++ added ∧ added.length ≤ 0 ∧
      ∀ r ∈ rows, r.id ∈ s.tasks.attempts.map (·.id) :=
  ⟨s.tasks.attempts, [], by rw [h, List.append_nil], le_rfl, fun _ hr => List.mem_map_of_mem hr⟩

theorem SameWork.newWork_eq_zero (h : s.SameWork s') : s.newWork s' = 0 := by
  have hnone : s.Extends s' 0 0 := ⟨keeps_turns h.1, keeps_attempts h.2⟩
  have hle := hnone.newWork_le
  omega

theorem SameWork.newWork_le_one (h : s.SameWork s') : s.newWork s' ≤ 1 := by
  rw [h.newWork_eq_zero]
  exact Nat.zero_le 1

theorem Extends.of_same {s₁ : Sys} {k l : ℕ} (hsame : s.SameWork s₁) (h : s₁.Extends s' k l) :
    s.Extends s' k l := by
  obtain ⟨hturns, hattempts⟩ := h
  rw [hsame.1] at hturns
  rw [hsame.2] at hattempts
  exact ⟨hturns, hattempts⟩

theorem localWork_sameWork {instanceId fresh localId : String} {c : Command}
    (h : s.localWork instanceId c fresh = .ok (localId, s')) : s.SameWork s' := by
  unfold localWork at h
  split at h
  · cases h
    exact ⟨rfl, rfl⟩
  · split at h
    · cases h
    · obtain ⟨s₁, hcreated, h⟩ := bind_ok h
      obtain ⟨s₂, hinserted, h⟩ := bind_ok h
      cases h
      have hlocal : s.SameWork s₁ := by
        unfold createLocal createTask at hcreated
        split at hcreated
        · split at hcreated
          · cases hcreated
          · split at hcreated
            · cases hcreated
            · obtain ⟨_, -, hcreated⟩ := bind_ok hcreated
              cases hcreated
              exact ⟨rfl, rfl⟩
        · cases hcreated
          exact ⟨rfl, rfl⟩
      unfold insertWork at hinserted
      split at hinserted
      · cases hinserted
      · cases hinserted
        exact hlocal

theorem enqueueAuthorized_attempts {db db' : Tasks.Db} {taskId agentId : String} {now : ℤ}
    {item : Tasks.QueueItem}
    (h : Tasks.Db.enqueueAuthorized taskId agentId now db = .ok (item, db')) :
    ∃ added, added.length ≤ 1 ∧ db'.attempts = db.attempts ++ added := by
  obtain ⟨_, -, h⟩ := bind_ok h
  split at h
  · cases h
    exact ⟨[], Nat.zero_le _, (List.append_nil _).symm⟩
  · unfold Tasks.Db.enqueueNew at h
    split at h
    · cases h
    · dsimp only at h
      split at h
      · cases h
      · cases h
        exact ⟨[_], le_rfl, rfl⟩

theorem admitTask_extends {c : Command} {taskId : String} {now : ℤ} {work : LocalWork}
    (h : s.admitTask c taskId now = .ok (work, s')) : s.Extends s' 0 1 := by
  unfold admitTask at h
  split at h
  · cases h
  · dsimp only at h
    split at h
    · cases h
    · rename_i queued db' henqueue
      cases h
      obtain ⟨added, hone, hattempts⟩ := enqueueAuthorized_attempts henqueue
      refine ⟨keeps_turns rfl, ?_⟩
      simp only [Tasks.Db.updateAttempts, hattempts, List.map_append]
      refine ⟨_, _, rfl, by simpa using hone, fun r hr => ?_⟩
      obtain ⟨a, ha, rfl⟩ := List.mem_map.1 hr
      have hid := List.mem_map_of_mem (f := fun a : Tasks.WorkAttempt => a.id) ha
      split <;> exact hid

theorem admitChat_extends {c : Command} {conversationId : String} {work : LocalWork}
    (h : s.admitChat c conversationId = .ok (work, s')) : s.Extends s' 1 0 := by
  unfold admitChat at h
  split at h
  · cases h
  · rename_i message db hmessage
    obtain ⟨-, rfl⟩ := Conversations.Db.insertMessage_eq hmessage
    split at h
    · cases h
    · cases h
    · rename_i db' henqueue
      split at h
      · cases h
      · cases h
        obtain ⟨-, ⟨-, rfl⟩ | ⟨-, -, -, rfl⟩ | ⟨t, -, -, rfl⟩ | hinsert⟩ :=
          Conversations.Db.enqueueInTransaction_cases henqueue
        · exact ⟨⟨_, [], (List.append_nil _).symm, Nat.zero_le 1,
            fun r hr => List.mem_map_of_mem hr⟩, keeps_attempts rfl⟩
        · exact ⟨⟨_, [], (List.append_nil _).symm, Nat.zero_le 1,
            fun r hr => List.mem_map_of_mem hr⟩, keeps_attempts rfl⟩
        · refine ⟨⟨_, [], (List.append_nil _).symm, Nat.zero_le 1, fun r hr => ?_⟩,
            keeps_attempts rfl⟩
          obtain ⟨u, hu, rfl⟩ := List.mem_map.1 hr
          have hid := List.mem_map_of_mem (f := fun t : Conversations.ConversationTurn => t.id) hu
          split <;> exact hid
        · obtain ⟨-, -, rfl⟩ := Conversations.Db.insertTurn_eq hinsert
          exact ⟨⟨_, [_], rfl, le_rfl, fun r hr => List.mem_map_of_mem hr⟩, keeps_attempts rfl⟩

theorem admitWork_newWork {instanceId fresh : String} {c : Command} {now : ℤ} {work : LocalWork}
    (h : s.admitWork instanceId c fresh now = .ok (work, s')) : s.newWork s' ≤ 1 := by
  unfold admitWork at h
  split at h
  · cases h
  · obtain ⟨⟨localId, s₁⟩, hlocal, h⟩ := bind_ok h
    have hsame := localWork_sameWork hlocal
    dsimp only at h
    split at h
    · exact (Extends.of_same hsame (admitTask_extends h)).newWork_le
    · exact (Extends.of_same hsame (admitChat_extends h)).newWork_le

/-- An admission makes one turn or attempt at most. -/
theorem admit_newWork {instanceId fresh : String} {c : Command} {leaseUntil now : ℤ}
    {e : Execution} (h : s.admitCommand wire instanceId c fresh leaseUntil now = .ok (e, s')) :
    s.newWork s' ≤ 1 := by
  obtain ⟨expires, -, h⟩ := bind_ok h
  split at h
  · split at h
    · cases h
    · cases h
      exact SameWork.newWork_le_one ⟨rfl, rfl⟩
  · obtain ⟨s₁, hnew, h⟩ := bind_ok h
    split at h
    · cases h
    · cases h
      unfold admitNew at hnew
      split at hnew
      · cases hnew
      · split at hnew
        · cases hnew
        · split at hnew
          · obtain ⟨rfl, -⟩ := insertCommand_cases hnew
            exact SameWork.newWork_le_one ⟨rfl, rfl⟩
          · obtain ⟨_, -, hnew⟩ := bind_ok hnew
            split at hnew
            · cases hnew
            · obtain ⟨⟨work, s₂⟩, hwork, hnew⟩ := bind_ok hnew
              obtain ⟨rfl, -⟩ := insertCommand_cases hnew
              have hone : s.newWork s₂ ≤ 1 := admitWork_newWork hwork
              exact hone

/-! ## Restarts -/

/-- The execution of a command has ended or is gone. -/
def Over (s : Sys) (c : CommandRow) : Prop :=
  (∀ i ∈ c.attemptId, ∀ a ∈ s.tasks.attempt? i, a.status.terminal = true) ∧
    ∀ i ∈ c.turnId, ∀ t ∈ s.turn? i, t.status.active = false

/-- A restart ends the executions of all accepted commands. -/
theorem recover_over (now : ℤ) {c : CommandRow} (hc : c ∈ s.commands) (hacc : c.accepted = true) :
    (s.recover now).Over c := by
  constructor
  · intro i hi a ha
    have haccepted : s.tasksView.acceptedAttempt (some i) = true := by
      simp only [Tasks.Db.acceptedAttempt, Option.isSome_some, Bool.true_and, List.any_eq_true]
      refine ⟨_, List.mem_map_of_mem hc, ?_⟩
      simp only [CommandRow.accepted, decide_eq_true_eq] at hacc
      simp [hacc, Option.mem_def.1 hi]
    obtain ⟨hmem, hid⟩ : a ∈ (s.recover now).tasks.attempts ∧ a.id = i :=
      ⟨Table.mem_of_get ha, @Table.key_of_get _ _ _ Tasks.WorkAttempt.id _ _ _ ha⟩
    obtain ⟨a₀, ha₀, rfl⟩ := List.mem_map.1 hmem
    by_cases hended : a₀.status.terminal = true
    · simp [hended]
    · have ha₀id : a₀.id = i := by
        dsimp only at hid
        split at hid <;> exact hid
      rw [if_pos (by simp [ha₀id, haccepted, hended])]
      rfl
  · intro i hi t ht
    have haccepted : s.acceptedTurn i = true := by
      rw [acceptedTurn, List.any_eq_true]
      exact ⟨c, hc, by simp [hacc, Option.mem_def.1 hi]⟩
    have hmem := List.mem_of_find?_eq_some ht
    have hid := List.find?_some ht
    simp only [decide_eq_true_eq] at hid
    obtain ⟨t₀, ht₀, rfl⟩ := List.mem_map.1 hmem
    by_cases hactive : t₀.status.active = true
    · have ht₀id : t₀.id = i := by
        dsimp only at hid
        split at hid <;> exact hid
      rw [if_pos (by simp [ht₀id, haccepted, hactive])]
      rfl
    · simp [hactive]

theorem collectAttempt_terminal {c : CommandRow} (hover : s.Over c)
    (hattempt : c.attemptId.isSome) : (s.collectAttempt c).terminal = true := by
  obtain ⟨i, hi⟩ := Option.isSome_iff_exists.1 hattempt
  unfold collectAttempt
  split
  · rename_i hnone
    rw [hnone] at hi
    cases hi
  · rename_i i' hi'
    split
    · exact lost_terminal c
    · rename_i a ha
      rw [if_pos (hover.1 i' hi' a ha)]
      exact takeAttempt_terminal a c

theorem collectTurn_terminal {c : CommandRow} (hover : s.Over c) (hturn : c.turnId.isSome) :
    (s.collectTurn c).terminal = true := by
  obtain ⟨i, hi⟩ := Option.isSome_iff_exists.1 hturn
  unfold collectTurn
  split
  · rename_i hnone
    rw [hnone] at hi
    cases hi
  · rename_i i' hi'
    split
    · exact lost_terminal c
    · rename_i t ht
      simp only [hover.2 i' hi' t ht]
      exact takeTurn_terminal t c

theorem accepted_of_terminal {c : CommandRow} (h : c.terminal = true) : c.accepted = false := by
  simp only [CommandRow.terminal, Bool.or_eq_true, decide_eq_true_eq] at h
  rcases h with (h | h) | h <;> simp [CommandRow.accepted, h]

/-- What is over is collected. -/
theorem collect_terminal {instanceId : String} {c' : CommandRow} (hs : s.Schema)
    (hover : ∀ c ∈ s.commands, c.accepted = true → s.Over c)
    (hc' : c' ∈ (s.collect instanceId).commands) (howner : c'.instanceId = instanceId) :
    c'.terminal = true := by
  have hmine (c : CommandRow) (h : c.instanceId = instanceId) (hacc : c.accepted = true) :
      (decide (c.instanceId = instanceId) && c.accepted) = true := by
    simp [h, hacc]
  have hother (c : CommandRow) (h : c.terminal = true) :
      (decide (c.instanceId = instanceId) && c.accepted) ≠ true := by
    simp [accepted_of_terminal h]
  obtain ⟨c₁, hc₁, rfl⟩ := List.mem_map.1 hc'
  obtain ⟨c, hc, rfl⟩ := List.mem_map.1 hc₁
  rcases hs.named c hc with hacc | hend
  · have hc_owner : c.instanceId = instanceId := by
      by_contra hne
      simp [hne] at howner
    simp only [if_pos (hmine c hc_owner hacc)]
    cases hattempt : c.attemptId with
    | some i =>
      have hend := collectAttempt_terminal (hover c hc hacc) (by simp [hattempt])
      rw [if_neg (hother _ hend)]
      exact hend
    | none =>
      have hskip : s.collectAttempt c = c := by
        unfold collectAttempt
        rw [hattempt]
      have hturn : c.turnId.isSome := by
        simpa [hattempt] using hs.executing c hc hacc
      rw [hskip, if_pos (hmine c hc_owner hacc)]
      exact collectTurn_terminal (hover c hc hacc) hturn
  · simp only [if_neg (hother c hend)]
    exact hend

end Sys

/-! ## Runs -/

section Runs

variable {wire : Wire} {needsUserInput : String → Bool} {s : Sys}

theorem recover_collect_terminal (hs : s.Schema) (now : ℤ) (instanceId : String) :
    ∀ c ∈ ((s.recover now).collect instanceId).commands, c.instanceId = instanceId →
      c.terminal = true := by
  intro c hc howner
  have hrecovered : (s.recover now).Schema := hs.update (.of_eq rfl) (.of_eq rfl)
  exact Sys.collect_terminal hrecovered (fun c hc hacc => Sys.recover_over now hc hacc) hc howner

theorem admit_known {instanceId fresh : String} {c : Command} {leaseUntil now : ℤ}
    (h : (s.command? c.id).isSome) :
    step wire needsUserInput s (.admitCommand instanceId c fresh leaseUntil now) = s := by
  rw [step_admitCommand]
  split
  · rename_i e s' hok
    rcases Sys.admit_cases hok with ⟨row, -, -, -, -, rfl⟩ | ⟨hnone, -⟩
    · rfl
    · rw [hnone] at h
      cases h
  · rfl

/-- An admitted command has a row. -/
theorem admit_row (hs : s.Schema) {instanceId fresh : String} {c : Command} {leaseUntil now : ℤ}
    {e : Execution}
    (h : reply wire needsUserInput s (.admitCommand instanceId c fresh leaseUntil now) = some e) :
    (∃ expires, Sys.validate wire c = .ok expires) ∧
      ∃ row ∈ (step wire needsUserInput s
        (.admitCommand instanceId c fresh leaseUntil now)).commands,
        row.id = c.id ∧ row.instanceId = instanceId ∧
        row.payloadHash = wire.digest (Sys.immutable c) ∧ e = row.execution := by
  have hschema : (step wire needsUserInput s
    (.admitCommand instanceId c fresh leaseUntil now)).Schema := step_schema hs _
  rw [step_admitCommand] at hschema ⊢
  simp only [reply, Op.exec] at h
  cases hok : s.admitCommand wire instanceId c fresh leaseUntil now with
  | error err =>
    rw [hok] at h
    cases h
  | ok p =>
    rw [hok] at h hschema
    obtain ⟨expires, hvalid, -⟩ := bind_ok hok
    have he : p.1 = e := by simpa [Except.map] using h
    refine ⟨⟨expires, hvalid⟩, ?_⟩
    rcases Sys.admit_cases hok with ⟨row, hrow, howner, hhash, hexec, hp⟩ |
      ⟨-, row, hrow, stored, hstored, hexec⟩
    · obtain ⟨hmem, hid⟩ := Sys.mem_of_command? hrow
      exact ⟨row, by simp only [hp]; exact hmem, hid, howner, hhash, he.symm.trans hexec⟩
    · have hmem : row ∈ p.2.commands := by
        rw [hrow.commands]
        exact List.mem_append_right _ (List.mem_singleton_self row)
      obtain ⟨hstored_mem, hid⟩ := Sys.mem_of_command? hstored
      have heq := hschema.eq_of_command hstored_mem hmem (hid.trans hrow.id.symm)
      subst heq
      exact ⟨stored, hmem, hid, hrow.owner, hrow.hash, he.symm.trans hexec⟩

theorem reply_of_row (hs : s.Schema) {instanceId fresh : String} {c : Command}
    {leaseUntil now expires : ℤ} {row : CommandRow} (hrow : row ∈ s.commands)
    (hid : row.id = c.id) (howner : row.instanceId = instanceId)
    (hhash : row.payloadHash = wire.digest (Sys.immutable c))
    (hvalid : Sys.validate wire c = .ok expires) :
    reply wire needsUserInput s (.admitCommand instanceId c fresh leaseUntil now) =
      some row.execution := by
  have hfound : s.command? c.id = some row := by
    rw [← hid]
    exact hs.command?_of_mem hrow
  simp [reply, Op.exec, Sys.admitCommand, hvalid, hfound, howner, hhash, Except.map,
    bind, Except.bind]

theorem validate_congr {c c' : Command} (h : Sys.immutable c' = Sys.immutable c) :
    Sys.validate wire c' = Sys.validate wire c := by
  have hversion : c'.version = c.version :=
    (congrArg Command.version h : (Sys.immutable c').version = (Sys.immutable c).version)
  have hid : c'.id = c.id := (congrArg Command.id h : (Sys.immutable c').id = (Sys.immutable c).id)
  have hkind : c'.kind = c.kind :=
    (congrArg Command.kind h : (Sys.immutable c').kind = (Sys.immutable c).kind)
  have hpayload : c'.payload = c.payload :=
    (congrArg Command.payload h : (Sys.immutable c').payload = (Sys.immutable c).payload)
  have hexpires : c'.expiresAt = c.expiresAt :=
    (congrArg Command.expiresAt h : (Sys.immutable c').expiresAt = (Sys.immutable c).expiresAt)
  rw [Sys.validate, Sys.validate, hversion, hid, hkind, hpayload, hexpires, h]

/-- The identifiers of two executions agree. -/
def Execution.sameIds (e e' : Execution) : Prop :=
  e'.id = e.id ∧ e'.conversationId = e.conversationId ∧ e'.turnId = e.turnId ∧
    e'.taskId = e.taskId ∧ e'.attemptId = e.attemptId

theorem CommandRow.Becomes.sameIds {c c' : CommandRow} (h : c.Becomes c') :
    c.execution.sameIds c'.execution := by
  refine ⟨h.id, h.conversationId, h.turnId, ?_, h.attemptId⟩
  exact (congrArg CommandRow.taskId h.frozen : c'.frozen.taskId = c.frozen.taskId)

/-- The turns and attempts that a call makes for a command identifier. -/
def Op.makes (id : String) (wire : Wire) (needsUserInput : String → Bool) (s : Sys) : Op → ℕ
  | .admitCommand instanceId c fresh leaseUntil now =>
      if c.id = id then
        s.newWork (step wire needsUserInput s (.admitCommand instanceId c fresh leaseUntil now))
      else 0
  | _ => 0

theorem makes_le_one (id : String) (op : Op) : op.makes id wire needsUserInput s ≤ 1 := by
  cases op with
  | admitCommand instanceId c fresh leaseUntil now =>
    simp only [Op.makes]
    split
    · rw [step_admitCommand]
      split
      · rename_i hok
        exact Sys.admit_newWork hok
      · exact Sys.SameWork.newWork_le_one ⟨rfl, rfl⟩
    · exact Nat.zero_le 1
  | _ => exact Nat.zero_le 1

theorem makes_known {id : String} (h : (s.command? id).isSome) (op : Op) :
    op.makes id wire needsUserInput s = 0 := by
  cases op with
  | admitCommand instanceId c fresh leaseUntil now =>
    simp only [Op.makes]
    split
    · rename_i hid
      subst hid
      rw [admit_known h]
      exact Sys.SameWork.newWork_eq_zero ⟨rfl, rfl⟩
    · rfl
  | _ => rfl

theorem known_of_makes {id : String} {op : Op} (h : op.makes id wire needsUserInput s ≠ 0) :
    ((step wire needsUserInput s op).command? id).isSome := by
  cases op with
  | admitCommand instanceId c fresh leaseUntil now =>
    simp only [Op.makes] at h
    split at h
    · rename_i hid
      subst hid
      rw [step_admitCommand] at h ⊢
      split at h
      · rename_i e s' hok
        rcases Sys.admit_cases hok with
          ⟨row, hrow, -, -, -, rfl⟩ | ⟨-, row, -, stored, hstored, -⟩
        · exact Option.isSome_of_eq_some hrow
        · exact Option.isSome_of_eq_some hstored
      · exact absurd (Sys.SameWork.newWork_eq_zero ⟨rfl, rfl⟩) h
    · exact absurd rfl h
  | _ => exact absurd rfl h

theorem step_known (hs : s.Schema) {id : String} (h : (s.command? id).isSome) (op : Op) :
    ((step wire needsUserInput s op).command? id).isSome := by
  obtain ⟨row, hrow⟩ := Option.isSome_iff_exists.1 h
  obtain ⟨hmem, hid⟩ := Sys.mem_of_command? hrow
  obtain ⟨row', hmem', hbecomes⟩ := step_keeps hs op hmem
  rw [← hid, ← hbecomes.id]
  exact Option.isSome_of_eq_some ((step_schema hs op).command?_of_mem hmem')

end Runs

variable (wire : Wire) (needsUserInput : String → Bool)

/-- **Commands are admitted and answered once.**  After any calls from an unpaired instance: a
command identifier made one turn or attempt at most, and no two commands share one; only
terminal receipts are acknowledged; a restart leaves no command of an instance accepted;
terminal receipts stay as they are; and an admitted command that is replayed with the same
immutable payload is answered with the same identifiers, without any change. -/
theorem commands_answered_once {s : Sys} (hs : s.Unpaired) (ops : List Op) :
    let run := runOps (step wire needsUserInput)
    let s₁ := run s ops
    (∀ id, total (step wire needsUserInput) (Op.makes id wire needsUserInput) s ops ≤ 1) ∧
    (∀ c ∈ s₁.commands, ∀ c' ∈ s₁.commands, c.id ≠ c'.id →
      (c.turnId.isSome → c.turnId ≠ c'.turnId) ∧
        (c.attemptId.isSome → c.attemptId ≠ c'.attemptId)) ∧
    (∀ c ∈ s₁.commands, c.acknowledged = true → c.terminal = true) ∧
    (∀ instanceId now, ∀ c ∈ (run s (ops ++ [.recover now, .collect instanceId])).commands,
      c.instanceId = instanceId → c.terminal = true) ∧
    (∀ c ∈ s₁.commands, c.terminal = true → ∀ later, ∃ c',
      (run s (ops ++ later)).command? c.id = some c' ∧ c'.receipt = c.receipt) ∧
    ∀ instanceId c fresh leaseUntil now e,
      reply wire needsUserInput s₁ (.admitCommand instanceId c fresh leaseUntil now) = some e →
      ∀ later c' fresh' leaseUntil' now', Sys.immutable c' = Sys.immutable c →
        let s₂ := run s (ops ++ .admitCommand instanceId c fresh leaseUntil now :: later)
        step wire needsUserInput s₂ (.admitCommand instanceId c' fresh' leaseUntil' now') = s₂ ∧
          ∃ e', reply wire needsUserInput s₂ (.admitCommand instanceId c' fresh' leaseUntil' now') =
            some e' ∧ e.sameIds e' := by
  intro run s₁
  have hs₁ : s₁.Schema := run_schema wire needsUserInput hs.schema ops
  refine ⟨fun id => ?_, fun c hc c' hc' hne => ⟨fun hsome heq => ?_, fun hsome heq => ?_⟩,
    fun c hc hack => ?_, fun instanceId now => ?_, fun c hc hend later => ?_, ?_⟩
  · exact total_le_one (I := Sys.Schema) (S := fun s => s.Schema ∧ (s.command? id).isSome)
      (fun _ op h => step_schema h op) (fun _ op h => ⟨step_schema h.1 op, step_known h.1 h.2 op⟩)
      (fun _ op h => makes_known h.2 op) (fun _ op _ => makes_le_one id op)
      (fun _ op h hmade => ⟨step_schema h op, known_of_makes hmade⟩) hs.schema ops
  · exact hne (hs₁.turns c hc c' hc' hsome heq)
  · exact hne (hs₁.attempts c hc c' hc' hsome heq)
  · exact (hs₁.named c hc).resolve_left (by simp [hs₁.settled c hc hack])
  · intro c hc howner
    simp only [run, runOps_append] at hc
    exact recover_collect_terminal hs₁ now instanceId c hc howner
  · obtain ⟨c', hc', hbecomes⟩ := run_keeps wire needsUserInput hs₁ later hc
    simp only [run, runOps_append]
    refine ⟨c', ?_, hbecomes.final (Sys.accepted_of_terminal hend)⟩
    rw [← hbecomes.id]
    exact (run_schema wire needsUserInput hs₁ later).command?_of_mem hc'
  · intro instanceId c fresh leaseUntil now e hreply later c' fresh' leaseUntil' now' himm
    have hid : c'.id = c.id :=
      (congrArg Command.id himm : (Sys.immutable c').id = (Sys.immutable c).id)
    obtain ⟨⟨expires, hvalid⟩, row, hrow, hrid, howner, hhash, rfl⟩ := admit_row hs₁ hreply
    simp only [run, runOps_append, runOps_cons]
    have hnext : (step wire needsUserInput s₁
      (.admitCommand instanceId c fresh leaseUntil now)).Schema := step_schema hs₁ _
    obtain ⟨row', hrow', hbecomes⟩ := run_keeps wire needsUserInput hnext later hrow
    have hs₂ := run_schema wire needsUserInput hnext later
    have hrid' : row'.id = c'.id := hbecomes.id.trans (hrid.trans hid.symm)
    have hhash' : row'.payloadHash = wire.digest (Sys.immutable c') := by
      rw [himm, ← hhash]
      exact (congrArg CommandRow.payloadHash hbecomes.frozen :
        row'.frozen.payloadHash = row.frozen.payloadHash)
    refine ⟨admit_known ?_, row'.execution, ?_, hbecomes.sameIds⟩
    · rw [← hrid']
      exact Option.isSome_of_eq_some (hs₂.command?_of_mem hrow')
    · exact reply_of_row hs₂ hrow' hrid' (hbecomes.instanceId.trans howner) hhash'
        ((validate_congr himm).trans hvalid)

theorem askedTwice_once :
    total (step plainWire fun _ => false) (Op.makes question.id plainWire fun _ => false) unpaired
      (asked ++ [.recover 150, .collect "instance"] ++ asked) ≤ 1 :=
  (commands_answered_once plainWire (fun _ => false) unpaired_unpaired _).1 question.id

end XpressClaw.Connect
