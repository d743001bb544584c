import XpressClaw.Connect.Journal
import XpressClaw.Lib.Prog
import XpressClaw.Lib.Runs
import XpressClaw.Tasks.Calm

/-!
# What a call does to the journal

* `Admitted` — the one row that a successful first admission adds, and what it refers to.
* `step_commands`, `step_bindings` — every other call changes rows in place, and what it
  leaves alone in a row.
* `Sys.Schema` — the invariant of the journal: identifiers and executions belong to one
  command, an accepted command has an execution, a command was admitted at or below the
  generation of its binding, and nothing accepted is acknowledged.
-/

namespace XpressClaw.Connect

open Lib

/-! ## Rows -/

/-- The columns of a command that no call changes. -/
def CommandRow.frozen (c : CommandRow) : CommandRow :=
  { c with
    status := ""
    resultText := none
    resultError := none
    acknowledged := false
    leaseUntil := 0 }

/-- The status, the text and the error of a command. -/
def CommandRow.receipt (c : CommandRow) : Receipt := ⟨c.status, c.resultText, c.resultError⟩

/-- `completed`, `failed` or `cancelled`. -/
def CommandRow.terminal (c : CommandRow) : Bool :=
  c.status = "completed" || c.status = "failed" || c.status = "cancelled"

/-- The status is one of the journal's. -/
def CommandRow.Named (c : CommandRow) : Prop := c.accepted = true ∨ c.terminal = true

/-- Only a receipt that is final is acknowledged. -/
def CommandRow.Settled (c : CommandRow) : Prop := c.acknowledged = true → c.accepted = false

/-- What a call may do to a command. -/
structure CommandRow.Becomes (c c' : CommandRow) : Prop where
  frozen : c'.frozen = c.frozen
  final : c.accepted = false → c'.receipt = c.receipt
  settled : c.Settled → c'.Settled
  named : c.Named → c'.Named

section Rows

variable {a b c c' : CommandRow}

theorem CommandRow.Becomes.refl (c : CommandRow) : c.Becomes c :=
  ⟨rfl, fun _ => rfl, fun h => h, fun h => h⟩

theorem CommandRow.accepted_of_receipt (h : c'.receipt = c.receipt) : c'.accepted = c.accepted := by
  have hs := congrArg Receipt.status h
  simp only [receipt] at hs
  rw [accepted, accepted, hs]

theorem CommandRow.Becomes.trans (h : a.Becomes b) (h' : b.Becomes c) : a.Becomes c := by
  refine ⟨h'.frozen.trans h.frozen, fun ha => ?_, fun ha => h'.settled (h.settled ha),
    fun ha => h'.named (h.named ha)⟩
  have hb : b.accepted = false := by rw [accepted_of_receipt (h.final ha)]; exact ha
  exact (h'.final hb).trans (h.final ha)

theorem CommandRow.Becomes.id (h : c.Becomes c') : c'.id = c.id :=
  (congrArg CommandRow.id h.frozen : c'.frozen.id = c.frozen.id)

theorem CommandRow.Becomes.turnId (h : c.Becomes c') : c'.turnId = c.turnId :=
  (congrArg CommandRow.turnId h.frozen : c'.frozen.turnId = c.frozen.turnId)

theorem CommandRow.Becomes.attemptId (h : c.Becomes c') : c'.attemptId = c.attemptId :=
  (congrArg CommandRow.attemptId h.frozen : c'.frozen.attemptId = c.frozen.attemptId)

theorem CommandRow.Becomes.lease (c : CommandRow) (leaseUntil : ℤ) :
    c.Becomes { c with leaseUntil := leaseUntil } :=
  ⟨rfl, fun _ => rfl, fun h => h, fun h => h⟩

theorem CommandRow.Becomes.settle (h : c.accepted = true) (hf : c'.frozen = c.frozen)
    (hack : c'.acknowledged = c.acknowledged) (hend : c'.terminal = true) : c.Becomes c' := by
  refine ⟨hf, fun hc => ?_, fun hs hc => ?_, fun _ => Or.inr hend⟩
  · rw [h] at hc
    cases hc
  · rw [hack] at hc
    rw [hs hc] at h
    cases h

end Rows

theorem CommandRow.Becomes.bindingId {c c' : CommandRow} (h : c.Becomes c') :
    c'.bindingId = c.bindingId :=
  (congrArg CommandRow.bindingId h.frozen : c'.frozen.bindingId = c.frozen.bindingId)

theorem CommandRow.Becomes.instanceId {c c' : CommandRow} (h : c.Becomes c') :
    c'.instanceId = c.instanceId :=
  (congrArg CommandRow.instanceId h.frozen : c'.frozen.instanceId = c.frozen.instanceId)

theorem CommandRow.Becomes.conversationId {c c' : CommandRow} (h : c.Becomes c') :
    c'.conversationId = c.conversationId :=
  (congrArg CommandRow.conversationId h.frozen : c'.frozen.conversationId = c.frozen.conversationId)

theorem CommandRow.Becomes.bindingGeneration {c c' : CommandRow} (h : c.Becomes c') :
    c'.bindingGeneration = c.bindingGeneration :=
  (congrArg CommandRow.bindingGeneration h.frozen :
    c'.frozen.bindingGeneration = c.frozen.bindingGeneration)

/-- What a call may do to a binding: `b` is the row before it. -/
structure BindingRow.Rises (b' b : BindingRow) : Prop where
  id : b'.id = b.id
  owner : b'.instanceId = b.instanceId
  generation : b.generation ≤ b'.generation
  saved : b.saved.generation = b.generation → b'.saved.generation = b'.generation

theorem BindingRow.Rises.refl (b : BindingRow) : b.Rises b := ⟨rfl, rfl, le_rfl, fun h => h⟩

namespace Sys

variable {s s' : Sys} {wire : Wire}

/-! ## Admission -/

/-- The row that a first admission of the command adds. -/
structure Admitted (wire : Wire) (instanceId : String) (c : Command) (row : CommandRow)
    (s s' : Sys) : Prop where
  commands : s'.commands = s.commands ++ [row]
  bindings : s'.bindings = s.bindings
  id : row.id = c.id
  owner : row.instanceId = instanceId
  hash : row.payloadHash = wire.digest (immutable c)
  acknowledged : row.acknowledged = false
  named : row.Named
  apart : ∀ c' ∈ s.commands, c'.id ≠ row.id ∧ (row.turnId.isSome → c'.turnId ≠ row.turnId) ∧
    (row.attemptId.isSome → c'.attemptId ≠ row.attemptId)
  executing : row.accepted = true → row.turnId.isSome ∨ row.attemptId.isSome
  binding : ∃ b ∈ s.bindings, b.id = row.bindingId ∧ b.instanceId = instanceId ∧
    b.saved = { c.binding with active := true } ∧ row.bindingGeneration = b.saved.generation

/-- The journal's tables but for its work items are as before. -/
def SameJournal (s s' : Sys) : Prop := s'.commands = s.commands ∧ s'.bindings = s.bindings

theorem createTask_same {taskId : String} {c : Command} (h : s.createTask taskId c = .ok s') :
    s.SameJournal s' ∧ s'.tasks.queue = s.tasks.queue := by
  unfold createTask at h
  split at h
  · cases h
  · split at h
    · cases h
    · obtain ⟨_, -, h⟩ := bind_ok h
      cases h
      exact ⟨⟨rfl, rfl⟩, rfl⟩

theorem createLocal_same {fresh : String} {c : Command} (h : s.createLocal fresh c = .ok s') :
    s.SameJournal s' ∧ s'.tasks.queue = s.tasks.queue := by
  unfold createLocal at h
  split at h
  · exact createTask_same h
  · cases h
    exact ⟨⟨rfl, rfl⟩, rfl⟩

theorem insertWork_same {instanceId localId : String} {c : Command}
    (h : s.insertWork instanceId c localId = .ok s') :
    s.SameJournal s' ∧ s'.tasks.queue = s.tasks.queue := by
  unfold insertWork at h
  split at h
  · cases h
  · cases h
    exact ⟨⟨rfl, rfl⟩, rfl⟩

theorem localWork_same {instanceId fresh localId : String} {c : Command}
    (h : s.localWork instanceId c fresh = .ok (localId, s')) : s.SameJournal s' := by
  unfold localWork at h
  split at h
  · cases h
    exact ⟨rfl, rfl⟩
  · split at h
    · cases h
    · obtain ⟨s₁, h1, h⟩ := bind_ok h
      obtain ⟨s₂, h2, h⟩ := bind_ok h
      cases h
      have hcreated := (createLocal_same h1).1
      have hwork := (insertWork_same h2).1
      exact ⟨hwork.1.trans hcreated.1, hwork.2.trans hcreated.2⟩

/-- An admitted task turn keeps the journal, and has an attempt if nothing was queued. -/
theorem admitTask_cases {c : Command} {taskId : String} {now : ℤ} {work : LocalWork}
    (h : s.admitTask c taskId now = .ok (work, s')) : s.SameJournal s' ∧
      ((∀ q ∈ s.tasks.queue, q.taskId = taskId → q.status ≠ .queued) → work.attempt.isSome) := by
  unfold admitTask at h
  split at h
  · cases h
  · dsimp only at h
    split at h
    · cases h
    · rename_i queued db' henqueue
      cases h
      refine ⟨⟨rfl, rfl⟩, fun hidle => ?_⟩
      obtain ⟨_, -, henqueue⟩ := bind_ok henqueue
      split at henqueue
      · rename_i q hfind
        have hmem := List.mem_of_find?_eq_some hfind
        have hsome := List.find?_some hfind
        simp only [Bool.and_eq_true, decide_eq_true_eq] at hsome
        exact absurd hsome.2 (hidle q hmem hsome.1)
      · rw [Tasks.Db.enqueueNew_attempt henqueue]
        rfl

theorem admitChat_cases {c : Command} {conversationId : String} {work : LocalWork}
    (h : s.admitChat c conversationId = .ok (work, s')) :
    s.SameJournal s' ∧ work.turn.isSome := by
  unfold admitChat at h
  split at h
  · cases h
  · split at h
    · cases h
    · cases h
    · split at h
      · cases h
      · cases h
        exact ⟨⟨rfl, rfl⟩, rfl⟩

/-- Nothing is queued for the local task of a command that is not busy. -/
theorem localWork_idle {instanceId fresh localId : String} {c : Command}
    (hfree : s.workBusy instanceId c = false)
    (h : s.localWork instanceId c fresh = .ok (localId, s')) :
    ∀ q ∈ s'.tasks.queue, q.taskId = localId → q.status ≠ .queued := by
  unfold localWork at h
  split at h
  · rename_i w hw
    cases h
    have hmatch := List.find?_some hw
    have hidle := List.any_eq_false.1 hfree w (List.mem_of_find?_eq_some hw)
    rw [hmatch, Bool.true_and, Bool.not_eq_true, localBusy, Bool.or_eq_false_iff] at hidle
    intro q hq htask hqueued
    have hfree := List.any_eq_false.1 hidle.2 q hq
    simp [htask, hqueued] at hfree
  · split at h
    · cases h
    · rename_i htaken
      obtain ⟨s₁, h1, h⟩ := bind_ok h
      obtain ⟨s₂, h2, h⟩ := bind_ok h
      cases h
      have hqueue : s'.tasks.queue = s.tasks.queue :=
        (insertWork_same h2).2.trans (createLocal_same h1).2
      intro q hq htask _
      rw [hqueue] at hq
      simp only [taken, Bool.or_eq_true, List.any_eq_true, decide_eq_true_eq, not_or] at htaken
      exact htaken.1.1.2 ⟨q, hq, htask⟩

theorem admitWork_cases {instanceId fresh : String} {c : Command} {now : ℤ} {work : LocalWork}
    (h : s.admitWork instanceId c fresh now = .ok (work, s')) :
    s.SameJournal s' ∧ (work.turn.isSome ∨ work.attempt.isSome) := by
  unfold admitWork at h
  split at h
  · cases h
  · rename_i hbusy
    obtain ⟨⟨localId, s₁⟩, h1, h⟩ := bind_ok h
    have hlocal := localWork_same h1
    have hidle := localWork_idle (by simpa using hbusy) h1
    dsimp only at h
    split at h
    · obtain ⟨hsame, hattempt⟩ := admitTask_cases h
      exact ⟨⟨hsame.1.trans hlocal.1, hsame.2.trans hlocal.2⟩, Or.inr (hattempt hidle)⟩
    · obtain ⟨hsame, hturn⟩ := admitChat_cases h
      exact ⟨⟨hsame.1.trans hlocal.1, hsame.2.trans hlocal.2⟩, Or.inl hturn⟩

theorem insertCommand_cases {row : CommandRow} (h : s.insertCommand row = .ok s') :
    s' = { s with commands := s.commands ++ [row] } ∧
      ∀ c ∈ s.commands, c.id ≠ row.id ∧ (row.turnId.isSome → c.turnId ≠ row.turnId) ∧
        (row.attemptId.isSome → c.attemptId ≠ row.attemptId) := by
  unfold insertCommand at h
  split at h
  · cases h
  · rename_i hfree
    cases h
    refine ⟨rfl, fun c hc => ?_⟩
    simp only [List.any_eq_true, not_exists, not_and, Bool.or_eq_true, Bool.and_eq_true,
      decide_eq_true_eq, not_or] at hfree
    obtain ⟨⟨hid, hturn⟩, hattempt⟩ := hfree c hc
    exact ⟨hid, hturn, hattempt⟩

theorem admitNew_admitted {instanceId fresh : String} {c : Command} {leaseUntil now expires : ℤ}
    (h : s.admitNew wire instanceId c fresh leaseUntil now expires = .ok s') :
    ∃ row, Admitted wire instanceId c row s s' := by
  unfold admitNew at h
  split at h
  · cases h
  · rename_i b hb
    split at h
    · cases h
    · rename_i hsaved
      have hmem := List.mem_of_find?_eq_some hb
      have hfound := List.find?_some hb
      simp only [Bool.and_eq_true, decide_eq_true_eq] at hfound
      simp only [ne_eq, not_not] at hsaved
      have hgeneration : c.binding.generation = b.saved.generation := by rw [hsaved]
      split at h
      · obtain ⟨rfl, hapart⟩ := insertCommand_cases h
        refine ⟨_, rfl, rfl, rfl, rfl, rfl, rfl, Or.inr ?_, hapart, ?_,
          b, hmem, hfound.1, hfound.2, hsaved, hgeneration⟩
        · simp [CommandRow.terminal, receiptRow]
        · simp [CommandRow.accepted, receiptRow]
      · obtain ⟨_, -, h⟩ := bind_ok h
        split at h
        · cases h
        · obtain ⟨⟨work, s₁⟩, h1, h⟩ := bind_ok h
          obtain ⟨hsame, hexec⟩ := admitWork_cases h1
          obtain ⟨rfl, hapart⟩ := insertCommand_cases h
          rw [hsame.1] at hapart
          refine ⟨_, ?_, hsame.2, rfl, rfl, rfl, rfl, Or.inl ?_, hapart, fun _ => hexec,
            b, hmem, hfound.1, hfound.2, hsaved, hgeneration⟩
          · rw [hsame.1]
          · simp [CommandRow.accepted, receiptRow]

/-- An admission returns the stored command, or adds the row of a new one. -/
theorem admit_cases {instanceId fresh : String} {c : Command} {leaseUntil now : ℤ} {e : Execution}
    (h : s.admitCommand wire instanceId c fresh leaseUntil now = .ok (e, s')) :
    (∃ row, s.command? c.id = some row ∧ row.instanceId = instanceId ∧
      row.payloadHash = wire.digest (immutable c) ∧ e = row.execution ∧ s' = s) ∨
    (s.command? c.id = none ∧ ∃ row, Admitted wire instanceId c row s s' ∧
      ∃ stored, s'.command? c.id = some stored ∧ e = stored.execution) := by
  obtain ⟨expires, -, h⟩ := bind_ok h
  split at h
  · rename_i row hrow
    split at h
    · cases h
    · rename_i hmatch
      cases h
      simp only [Bool.or_eq_true, decide_eq_true_eq, not_or, not_not, ne_eq] at hmatch
      exact Or.inl ⟨row, hrow, hmatch.1, hmatch.2, rfl, rfl⟩
  · rename_i hnone
    obtain ⟨s₁, h1, h⟩ := bind_ok h
    split at h
    · cases h
    · rename_i stored hstored
      cases h
      obtain ⟨row, hrow⟩ := admitNew_admitted h1
      exact Or.inr ⟨hnone, row, hrow, stored, hstored, rfl⟩

/-! ## Changes in place -/

/-- The commands change in place. -/
def Moved (s s' : Sys) : Prop :=
  ∃ f : CommandRow → CommandRow, (∀ c : CommandRow, c.Becomes (f c)) ∧
    s'.commands = s.commands.map f

/-- The bindings change in place. -/
def Raised (s s' : Sys) : Prop :=
  ∃ g : BindingRow → BindingRow, (∀ b ∈ s.bindings, (g b).Rises b) ∧
    s'.bindings = s.bindings.map g

theorem Moved.of_eq (h : s'.commands = s.commands) : s.Moved s' :=
  ⟨id, CommandRow.Becomes.refl, by rw [h, List.map_id]⟩

theorem Raised.of_eq (h : s'.bindings = s.bindings) : s.Raised s' :=
  ⟨id, fun b _ => .refl b, by rw [h, List.map_id]⟩

theorem Moved.trans {s'' : Sys} (h : s.Moved s') (h' : s'.Moved s'') : s.Moved s'' := by
  obtain ⟨f, hf, hs'⟩ := h
  obtain ⟨g, hg, hs''⟩ := h'
  refine ⟨fun c => g (f c), fun c => (hf c).trans (hg (f c)), ?_⟩
  rw [hs'', hs', List.map_map]
  rfl

theorem updateCommands_moved {w : CommandRow → Bool} {set : CommandRow → CommandRow}
    (h : ∀ c, w c = true → c.Becomes (set c)) : s.Moved (s.updateCommands w set) := by
  refine ⟨fun c => if w c then set c else c, fun c => ?_, rfl⟩
  by_cases hw : w c = true
  · simpa [hw] using h c hw
  · simpa [hw] using CommandRow.Becomes.refl c

theorem lost_terminal (c : CommandRow) : (lost c).terminal = true := by
  simp [lost, CommandRow.terminal]

theorem outcome_terminal {c : CommandRow} {completed cancelled : Bool}
    (h : c.status = outcome completed cancelled) : c.terminal = true := by
  rw [CommandRow.terminal, h, outcome]
  cases completed <;> cases cancelled <;> rfl

theorem takeAttempt_terminal (a : Tasks.WorkAttempt) (c : CommandRow) :
    (takeAttempt a c).terminal = true := outcome_terminal rfl

theorem takeTurn_terminal (t : Conversations.ConversationTurn) (c : CommandRow) :
    (s.takeTurn t c).terminal = true := outcome_terminal rfl

theorem collectAttempt_becomes {c : CommandRow} (h : c.accepted = true) :
    c.Becomes (s.collectAttempt c) := by
  unfold collectAttempt
  split
  · exact .refl c
  · split
    · exact .settle h rfl rfl (lost_terminal c)
    · split
      · exact .settle h rfl rfl (takeAttempt_terminal _ c)
      · exact .refl c

theorem collectTurn_becomes {c : CommandRow} (h : c.accepted = true) :
    c.Becomes (s.collectTurn c) := by
  unfold collectTurn
  split
  · exact .refl c
  · split
    · exact .settle h rfl rfl (lost_terminal c)
    · split
      · exact .refl c
      · exact .settle h rfl rfl (takeTurn_terminal _ c)

theorem collect_moved (instanceId : String) : s.Moved (s.collect instanceId) := by
  have hmine (c : CommandRow) (h : (decide (c.instanceId = instanceId) && c.accepted) = true) :
      c.accepted = true := by
    simp only [Bool.and_eq_true] at h
    exact h.2
  exact (updateCommands_moved fun c hc => collectAttempt_becomes (hmine c hc)).trans
    (updateCommands_moved fun c hc => collectTurn_becomes (hmine c hc))

theorem republish_moved (row : BindingRow) (b : Binding) : s.Moved (s.republish row b) := by
  have hstored : s.Moved (s.updateBindings (·.id = b.id) fun r =>
      { r with saved := b, active := b.active, generation := b.generation }) := .of_eq rfl
  unfold republish
  dsimp only
  split
  · exact hstored.trans (updateCommands_moved fun c _ => .lease c 0)
  · exact hstored

/-! ## Bindings -/

theorem bind_cases {instanceId : String} {b : Binding} (h : s.bind wire instanceId b = .ok s') :
    (∃ row, s.binding? b.id = some row ∧ sameIdentity row instanceId b = true ∧
      row.saved.generation ≤ b.generation ∧ s' = s.republish row b) ∨
    (s.binding? b.id = none ∧
      s' = { s with bindings := s.bindings ++ [bindingRow instanceId b] }) := by
  unfold bind at h
  split at h
  · cases h
  · obtain ⟨_, -, h⟩ := bind_ok h
    split at h
    · cases h
    · obtain ⟨_, -, h⟩ := bind_ok h
      split at h
      · rename_i row hrow
        split at h
        · cases h
        · rename_i hsame
          cases h
          simp only [Bool.or_eq_true, Bool.not_eq_true', decide_eq_true_eq, not_or,
            Bool.not_eq_false, not_lt] at hsame
          exact Or.inl ⟨row, hrow, hsame.1, hsame.2, rfl⟩
      · rename_i hnone
        split at h
        · cases h
        · cases h
          exact Or.inr ⟨hnone, rfl⟩

theorem mem_of_binding? {id : String} {row : BindingRow} (h : s.binding? id = some row) :
    row ∈ s.bindings ∧ row.id = id :=
  ⟨Table.mem_of_get h, @Table.key_of_get _ _ _ BindingRow.id _ _ _ h⟩

theorem mem_of_command? {id : String} {row : CommandRow} (h : s.command? id = some row) :
    row ∈ s.commands ∧ row.id = id :=
  ⟨Table.mem_of_get h, @Table.key_of_get _ _ _ CommandRow.id _ _ _ h⟩

@[simp] theorem republish_bindings (row : BindingRow) (b : Binding) :
    (s.republish row b).bindings = s.bindings.map fun r =>
      if r.id = b.id then { r with saved := b, active := b.active, generation := b.generation }
      else r := by
  unfold republish
  dsimp only
  split
  · simp [updateCommands, updateBindings]
  · simp [updateBindings]

/-! ## The invariant -/

/-- **The invariant of the journal.** -/
structure Schema (s : Sys) : Prop where
  commands : (s.commands.map (·.id)).Nodup
  bindings : (s.bindings.map (·.id)).Nodup
  turns : ∀ c ∈ s.commands, ∀ c' ∈ s.commands, c.turnId.isSome → c.turnId = c'.turnId → c.id = c'.id
  attempts : ∀ c ∈ s.commands, ∀ c' ∈ s.commands, c.attemptId.isSome →
    c.attemptId = c'.attemptId → c.id = c'.id
  saved : ∀ b ∈ s.bindings, b.saved.generation = b.generation
  references : ∀ c ∈ s.commands, ∃ b ∈ s.bindings, b.id = c.bindingId ∧
    b.instanceId = c.instanceId ∧ c.bindingGeneration ≤ b.generation
  executing : ∀ c ∈ s.commands, c.accepted = true → c.turnId.isSome ∨ c.attemptId.isSome
  settled : ∀ c ∈ s.commands, c.Settled
  named : ∀ c ∈ s.commands, c.Named

theorem Schema.eq_of_binding (h : s.Schema) {b b' : BindingRow} (hb : b ∈ s.bindings)
    (hb' : b' ∈ s.bindings) (hid : b.id = b'.id) : b = b' :=
  List.inj_on_of_nodup_map h.bindings hb hb' hid

theorem Schema.eq_of_command (h : s.Schema) {c c' : CommandRow} (hc : c ∈ s.commands)
    (hc' : c' ∈ s.commands) (hid : c.id = c'.id) : c = c' :=
  List.inj_on_of_nodup_map h.commands hc hc' hid

theorem Schema.command?_of_mem (h : s.Schema) {c : CommandRow} (hc : c ∈ s.commands) :
    s.command? c.id = some c :=
  Table.get_eq_some_of_mem h.commands hc

/-- The commands change in place, and the bindings rise. -/
theorem Schema.update (hs : s.Schema) (hmoved : s.Moved s') (hraised : s.Raised s') :
    s'.Schema := by
  obtain ⟨f, hf, hcommands⟩ := hmoved
  obtain ⟨g, hg, hbindings⟩ := hraised
  have hmem : ∀ c' ∈ s'.commands, ∃ c ∈ s.commands, c.Becomes c' := by
    intro c' hc'
    rw [hcommands] at hc'
    obtain ⟨c, hc, rfl⟩ := List.mem_map.1 hc'
    exact ⟨c, hc, hf c⟩
  have hids : s'.commands.map (·.id) = s.commands.map (·.id) := by
    rw [hcommands, List.map_map]
    exact List.map_congr_left fun c _ => (hf c).id
  have hbids : s'.bindings.map (·.id) = s.bindings.map (·.id) := by
    rw [hbindings, List.map_map]
    exact List.map_congr_left fun b hb => (hg b hb).id
  refine ⟨by rw [hids]; exact hs.commands, by rw [hbids]; exact hs.bindings, ?_, ?_, ?_, ?_, ?_, ?_,
    ?_⟩
  · intro c₁ h₁ c₂ h₂ hsome heq
    obtain ⟨d₁, hd₁, hb₁⟩ := hmem c₁ h₁
    obtain ⟨d₂, hd₂, hb₂⟩ := hmem c₂ h₂
    rw [hb₁.turnId] at hsome heq
    rw [hb₂.turnId] at heq
    rw [hb₁.id, hb₂.id]
    exact hs.turns d₁ hd₁ d₂ hd₂ hsome heq
  · intro c₁ h₁ c₂ h₂ hsome heq
    obtain ⟨d₁, hd₁, hb₁⟩ := hmem c₁ h₁
    obtain ⟨d₂, hd₂, hb₂⟩ := hmem c₂ h₂
    rw [hb₁.attemptId] at hsome heq
    rw [hb₂.attemptId] at heq
    rw [hb₁.id, hb₂.id]
    exact hs.attempts d₁ hd₁ d₂ hd₂ hsome heq
  · intro b' hb'
    rw [hbindings] at hb'
    obtain ⟨b, hb, rfl⟩ := List.mem_map.1 hb'
    exact (hg b hb).saved (hs.saved b hb)
  · intro c' hc'
    obtain ⟨c, hc, hbecomes⟩ := hmem c' hc'
    obtain ⟨b, hb, hid, howner, hle⟩ := hs.references c hc
    have hrises := hg b hb
    refine ⟨g b, by rw [hbindings]; exact List.mem_map_of_mem hb, ?_, ?_, ?_⟩
    · rw [hrises.id, hid, hbecomes.bindingId]
    · rw [hrises.owner, howner, hbecomes.instanceId]
    · rw [hbecomes.bindingGeneration]
      exact hle.trans hrises.generation
  · intro c' hc' hacc
    obtain ⟨c, hc, hbecomes⟩ := hmem c' hc'
    rw [hbecomes.turnId, hbecomes.attemptId]
    apply hs.executing c hc
    by_contra hclosed
    have hfinal := CommandRow.accepted_of_receipt (hbecomes.final (by simpa using hclosed))
    rw [hacc] at hfinal
    exact hclosed hfinal.symm
  · intro c' hc'
    obtain ⟨c, hc, hbecomes⟩ := hmem c' hc'
    exact hbecomes.settled (hs.settled c hc)
  · intro c' hc'
    obtain ⟨c, hc, hbecomes⟩ := hmem c' hc'
    exact hbecomes.named (hs.named c hc)

theorem Schema.admitted (hs : s.Schema) {instanceId : String} {c : Command} {row : CommandRow}
    (h : Admitted wire instanceId c row s s') : s'.Schema := by
  have hmem : ∀ c' ∈ s'.commands, c' ∈ s.commands ∨ c' = row := by
    intro c' hc'
    rw [h.commands] at hc'
    simpa using hc'
  refine ⟨?_, by rw [h.bindings]; exact hs.bindings, ?_, ?_,
    by rw [h.bindings]; exact hs.saved, ?_, ?_, ?_, ?_⟩
  · rw [h.commands, List.map_append]
    refine List.Nodup.append hs.commands (by simp) ?_
    intro id hid hid'
    obtain ⟨c', hc', rfl⟩ := List.mem_map.1 hid
    simp only [List.map_cons, List.map_nil, List.mem_singleton] at hid'
    exact (h.apart c' hc').1 hid'
  · intro c₁ h₁ c₂ h₂ hsome heq
    rcases hmem c₁ h₁ with h₁ | rfl
    · rcases hmem c₂ h₂ with h₂ | rfl
      · exact hs.turns c₁ h₁ c₂ h₂ hsome heq
      · exact absurd heq ((h.apart c₁ h₁).2.1 (heq ▸ hsome))
    · rcases hmem c₂ h₂ with h₂ | rfl
      · exact absurd heq.symm ((h.apart c₂ h₂).2.1 hsome)
      · rfl
  · intro c₁ h₁ c₂ h₂ hsome heq
    rcases hmem c₁ h₁ with h₁ | rfl
    · rcases hmem c₂ h₂ with h₂ | rfl
      · exact hs.attempts c₁ h₁ c₂ h₂ hsome heq
      · exact absurd heq ((h.apart c₁ h₁).2.2 (heq ▸ hsome))
    · rcases hmem c₂ h₂ with h₂ | rfl
      · exact absurd heq.symm ((h.apart c₂ h₂).2.2 hsome)
      · rfl
  · intro c' hc'
    rw [h.bindings]
    rcases hmem c' hc' with hc' | rfl
    · exact hs.references c' hc'
    · obtain ⟨b, hb, hid, howner, -, hgeneration⟩ := h.binding
      refine ⟨b, hb, hid, howner.trans h.owner.symm, ?_⟩
      rw [hgeneration, hs.saved b hb]
  · intro c' hc' hacc
    rcases hmem c' hc' with hc' | rfl
    · exact hs.executing c' hc' hacc
    · exact h.executing hacc
  · intro c' hc'
    rcases hmem c' hc' with hc' | rfl
    · exact hs.settled c' hc'
    · intro hack
      rw [h.acknowledged] at hack
      cases hack
  · intro c' hc'
    rcases hmem c' hc' with hc' | rfl
    · exact hs.named c' hc'
    · exact h.named

/-- A new binding. -/
theorem Schema.bound (hs : s.Schema) {instanceId : String} {b : Binding}
    (hnone : s.binding? b.id = none) (hcommands : s'.commands = s.commands)
    (hbindings : s'.bindings = s.bindings ++ [bindingRow instanceId b]) : s'.Schema := by
  refine ⟨by rw [hcommands]; exact hs.commands, ?_, by rw [hcommands]; exact hs.turns,
    by rw [hcommands]; exact hs.attempts, ?_, ?_, by rw [hcommands]; exact hs.executing,
    by rw [hcommands]; exact hs.settled, by rw [hcommands]; exact hs.named⟩
  · rw [hbindings, List.map_append]
    refine List.Nodup.append hs.bindings (by simp) ?_
    intro id hid hid'
    obtain ⟨r, hr, rfl⟩ := List.mem_map.1 hid
    simp only [List.map_cons, List.map_nil, List.mem_singleton] at hid'
    have hfree := List.find?_eq_none.1 hnone r hr
    simp [hid', bindingRow] at hfree
  · intro r hr
    rw [hbindings] at hr
    rcases List.mem_append.1 hr with hr | hr
    · exact hs.saved r hr
    · rw [List.mem_singleton] at hr
      subst hr
      rfl
  · rw [hcommands]
    intro c hc
    obtain ⟨r, hr, h⟩ := hs.references c hc
    exact ⟨r, by rw [hbindings]; exact List.mem_append_left _ hr, h⟩

theorem republish_raised (hs : s.Schema) {row : BindingRow} {b : Binding}
    (hrow : s.binding? b.id = some row) (hle : row.saved.generation ≤ b.generation) :
    s.Raised (s.republish row b) := by
  refine ⟨_, fun r hr => ?_, republish_bindings row b⟩
  obtain ⟨hmem, hid⟩ := mem_of_binding? hrow
  by_cases hb : r.id = b.id
  · rw [if_pos hb]
    have heq := hs.eq_of_binding hr hmem (hb.trans hid.symm)
    refine ⟨rfl, rfl, ?_, fun _ => rfl⟩
    rw [heq, ← hs.saved row hmem]
    exact hle
  · rw [if_neg hb]
    exact .refl r

theorem disableBinding_raised (instanceId b : String) :
    s.Raised (s.disableBinding instanceId b) := by
  refine ⟨_, fun r _ => ?_, rfl⟩
  dsimp only
  split
  · exact ⟨rfl, rfl, le_rfl, fun h => h⟩
  · exact .refl r

/-- A call that starts from an invariant store. -/
inductive Effect (wire : Wire) (s s' : Sys) (op : Op) : Prop
  /-- Rows change in place. -/
  | moved (hc : s.Moved s') (hb : s.Raised s')
  | bound (instanceId : String) (b : Binding) (hop : op = .bind instanceId b)
      (hnone : s.binding? b.id = none)
      (hs' : s' = { s with bindings := s.bindings ++ [bindingRow instanceId b] })
  | admitted (instanceId : String) (c : Command) (fresh : String) (leaseUntil now : ℤ)
      (row : CommandRow) (hop : op = .admitCommand instanceId c fresh leaseUntil now)
      (hnone : s.command? c.id = none) (hrow : Admitted wire instanceId c row s s')

end Sys

/-! ## Every call -/

variable {wire : Wire} {needsUserInput : String → Bool} {s : Sys}

theorem step_bind (instanceId : String) (b : Binding) :
    step wire needsUserInput s (.bind instanceId b) =
      match s.bind wire instanceId b with
      | .ok s' => s'
      | .error _ => s := by
  simp only [step, Op.exec]
  cases s.bind wire instanceId b <;> rfl

theorem step_admitCommand (instanceId : String) (c : Command) (fresh : String)
    (leaseUntil now : ℤ) :
    step wire needsUserInput s (.admitCommand instanceId c fresh leaseUntil now) =
      match s.admitCommand wire instanceId c fresh leaseUntil now with
      | .ok (_, s') => s'
      | .error _ => s := by
  simp only [step, Op.exec]
  cases s.admitCommand wire instanceId c fresh leaseUntil now <;> rfl

variable (wire needsUserInput) in
theorem step_effect (hs : s.Schema) (op : Op) :
    Sys.Effect wire s (step wire needsUserInput s op) op := by
  have hsame {s' : Sys} (hc : s'.commands = s.commands) (hb : s'.bindings = s.bindings) :
      Sys.Effect wire s s' op := .moved (.of_eq hc) (.of_eq hb)
  cases op with
  | bind instanceId b =>
    rw [step_bind]
    cases h : s.bind wire instanceId b with
    | error e => exact hsame rfl rfl
    | ok s' =>
      rcases Sys.bind_cases h with ⟨row, hrow, -, hle, rfl⟩ | ⟨hnone, rfl⟩
      · exact .moved (Sys.republish_moved row b) (Sys.republish_raised hs hrow hle)
      · exact .bound instanceId b rfl hnone rfl
  | disableBinding instanceId b =>
    exact .moved (Sys.updateCommands_moved fun c _ => .lease c 0)
      (Sys.disableBinding_raised instanceId b)
  | admitCommand instanceId c fresh leaseUntil now =>
    rw [step_admitCommand]
    cases h : s.admitCommand wire instanceId c fresh leaseUntil now with
    | error e => exact hsame rfl rfl
    | ok p =>
      rcases Sys.admit_cases h with ⟨row, -, -, -, -, hp⟩ | ⟨hnone, row, hrow, -⟩
      · simp only [hp]
        exact hsame rfl rfl
      · exact .admitted instanceId c fresh leaseUntil now row rfl hnone hrow
  | renew instanceId id leaseUntil =>
    exact .moved (Sys.updateCommands_moved fun c _ => .lease c leaseUntil) (.of_eq rfl)
  | acknowledge instanceId id =>
    refine .moved (Sys.updateCommands_moved fun c hc => ⟨rfl, fun _ => rfl, fun _ _ => ?_,
      fun h => h⟩) (.of_eq rfl)
    simp only [Bool.and_eq_true, Bool.not_eq_true'] at hc
    exact hc.2
  | collect instanceId => exact .moved (Sys.collect_moved instanceId) (.of_eq rfl)
  | _ => exact hsame rfl rfl

theorem step_schema (hs : s.Schema) (op : Op) : (step wire needsUserInput s op).Schema := by
  cases step_effect wire needsUserInput hs op with
  | moved hc hb => exact hs.update hc hb
  | bound instanceId b hop hnone hs' => exact hs.bound hnone (by rw [hs']) (by rw [hs'])
  | admitted instanceId c fresh leaseUntil now row hop hnone hrow => exact hs.admitted hrow

theorem step_keeps (hs : s.Schema) (op : Op) {c : CommandRow} (hc : c ∈ s.commands) :
    ∃ c' ∈ (step wire needsUserInput s op).commands, c.Becomes c' := by
  cases step_effect wire needsUserInput hs op with
  | moved hmoved hb =>
    obtain ⟨f, hf, hcommands⟩ := hmoved
    exact ⟨f c, by rw [hcommands]; exact List.mem_map_of_mem hc, hf c⟩
  | bound instanceId b hop hnone hs' => exact ⟨c, by rw [hs']; exact hc, .refl c⟩
  | admitted instanceId cmd fresh leaseUntil now row hop hnone hrow =>
    exact ⟨c, by rw [hrow.commands]; exact List.mem_append_left _ hc, .refl c⟩

/-- The journal of an instance that was never paired. -/
structure Sys.Unpaired (s : Sys) : Prop where
  bindings : s.bindings = []
  commands : s.commands = []

theorem Sys.Unpaired.schema (h : s.Unpaired) : s.Schema := by
  constructor <;> simp [h.bindings, h.commands]

theorem run_schema (wire : Wire) (needsUserInput : String → Bool) (hs : s.Schema) (ops : List Op) :
    (runOps (step wire needsUserInput) s ops).Schema :=
  runOps_invariant (I := Sys.Schema) (fun _ op h => step_schema h op) hs ops

theorem run_keeps (wire : Wire) (needsUserInput : String → Bool) (hs : s.Schema) (ops : List Op)
    {c : CommandRow} (hc : c ∈ s.commands) :
    ∃ c' ∈ (runOps (step wire needsUserInput) s ops).commands, c.Becomes c' := by
  induction ops generalizing s c with
  | nil => exact ⟨c, hc, .refl c⟩
  | cons op ops ih =>
    obtain ⟨c₁, hc₁, hbecomes₁⟩ := step_keeps hs op hc
    obtain ⟨c₂, hc₂, hbecomes₂⟩ := ih (step_schema hs op) hc₁
    exact ⟨c₂, hc₂, hbecomes₁.trans hbecomes₂⟩

/-! ## An instance with one Agent -/

/-- One Agent in one project, before the instance is paired. -/
def unpaired : Sys where
  tasks := { projects := [⟨"home", false⟩], agents := [⟨"atlas", some "home"⟩] }

theorem unpaired_unpaired : unpaired.Unpaired := ⟨rfl, rfl⟩

/-- Serialization and parsing, as far as the requests below need it. -/
def plainWire : Wire where
  validUuid id := id.length = 36
  expiry text := if text = "2100-01-01T00:00:00Z" then some 4102444800 else none
  size c := c.payload.text.utf8ByteSize
  digest c := c.id ++ c.payload.text

/-- The published Agent at a generation. -/
def atlas (generation : ℤ) : Binding where
  id := "8c3f6f0e-5d0b-4f7e-9a51-000000000001"
  localProjectId := "home"
  localAgentId := "atlas"
  projectId := "team"
  agentName := "local-atlas"
  generation := generation
  active := true

/-- A chat request to the published Agent. -/
def question : Command where
  id := "8c3f6f0e-5d0b-4f7e-9a51-000000000002"
  binding := atlas 1
  kind := "chat_turn"
  workId := "chat-7"
  payload := { text := "Status?" }
  expiresAt := "2100-01-01T00:00:00Z"

/-- The Agent is published and asked. -/
def asked : List Op :=
  [.bind "instance" (atlas 1), .admitCommand "instance" question "chat" 200 100]

end XpressClaw.Connect
