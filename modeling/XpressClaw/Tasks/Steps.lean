import XpressClaw.Lib.Prog
import XpressClaw.Lib.Runs
import XpressClaw.Tasks.Sessions

/-!
# What a transaction does to dispatches and attempts

Two relations between the database before and after a transaction.

* `Kept` — a dispatch is queued only if it was queued before, and an attempt that has ended
  keeps its status and result.
* `Calm` — moreover a dispatch runs only if it ran before, for the same agent and attempt, and
  an attempt that has ended and holds no container gets none.

Every transaction is calm except the claim, the steps of recovery and a container that is set
on an attempt that has ended (`exec_calm`); the claim is still kept.
-/

namespace XpressClaw.Tasks

open Lib

/-- The keys and references the schema of the database enforces. -/
structure Db.Schema (db : Db) : Prop where
  items : (db.queue.map (·.id)).Nodup
  itemIds : ∀ q ∈ db.queue, q.id < db.nextQueueId
  attempts : (db.attempts.map (·.id)).Nodup
  attemptIds : ∀ a ∈ db.attempts, a.id < db.nextAttemptId
  links : ∀ q ∈ db.queue, ∀ i, q.attemptId = some i →
    ∃ a ∈ db.attempts, a.id = i ∧ a.queueId = some q.id
  running : ∀ q ∈ db.queue, q.status = .running → q.attemptId.isSome
  orphans : ∀ o ∈ db.orphaned, ∃ a ∈ db.attempts, a.id = o.attemptId ∧ a.queueId = some o.queueId
  continuations : ∀ e ∈ db.executions, ∀ i, e.continuationAttemptId = some i →
    ∃ a ∈ db.attempts, a.id = i

theorem Db.Schema.attempt?_of_mem {db : Db} (h : db.Schema) {a : WorkAttempt}
    (ha : a ∈ db.attempts) : db.attempt? a.id = some a :=
  Table.get_eq_some_of_mem h.attempts ha

theorem Db.Schema.item?_of_mem {db : Db} (h : db.Schema) {q : QueueItem} (hq : q ∈ db.queue) :
    db.item? q.id = some q :=
  Table.get_eq_some_of_mem h.items hq

theorem Db.Schema.eq_of_id {db : Db} (h : db.Schema) {a b : WorkAttempt} (ha : a ∈ db.attempts)
    (hb : b ∈ db.attempts) (hid : a.id = b.id) : a = b := by
  have h1 := h.attempt?_of_mem ha
  rw [hid, h.attempt?_of_mem hb] at h1
  exact (Option.some.inj h1).symm

/-! ## Rows -/

/-- The attempt has ended. -/
abbrev WorkAttempt.ended (a : WorkAttempt) : Prop := a.status.terminal = true

structure RowKept (q q' : QueueItem) : Prop where
  id : q'.id = q.id
  queued : q'.status = .queued → q.status = .queued

structure RowCalm (q q' : QueueItem) : Prop extends RowKept q q' where
  running : q'.status = .running →
    q.status = .running ∧ q'.agentId = q.agentId ∧ q'.attemptId = q.attemptId

structure AttemptKept (a a' : WorkAttempt) : Prop where
  id : a'.id = a.id
  queueId : a'.queueId = a.queueId
  ended : a.ended → a'.status = a.status ∧ a'.result = a.result

structure AttemptCalm (a a' : WorkAttempt) : Prop extends AttemptKept a a' where
  free : a.ended → a.containerId = none → a'.containerId = none

theorem RowKept.refl (q : QueueItem) : RowKept q q := ⟨rfl, fun h => h⟩

theorem RowCalm.refl (q : QueueItem) : RowCalm q q := ⟨.refl q, fun h => ⟨h, rfl, rfl⟩⟩

theorem AttemptKept.refl (a : WorkAttempt) : AttemptKept a a := ⟨rfl, rfl, fun _ => ⟨rfl, rfl⟩⟩

theorem AttemptCalm.refl (a : WorkAttempt) : AttemptCalm a a := ⟨.refl a, fun _ h => h⟩

theorem RowKept.trans {a b c : QueueItem} (h : RowKept a b) (h' : RowKept b c) : RowKept a c :=
  ⟨h'.id.trans h.id, fun hq => h.queued (h'.queued hq)⟩

theorem RowCalm.trans {a b c : QueueItem} (h : RowCalm a b) (h' : RowCalm b c) : RowCalm a c := by
  refine ⟨h.toRowKept.trans h'.toRowKept, fun hr => ?_⟩
  obtain ⟨hb, hagent, hattempt⟩ := h'.running hr
  obtain ⟨ha, hagent', hattempt'⟩ := h.running hb
  exact ⟨ha, hagent.trans hagent', hattempt.trans hattempt'⟩

theorem AttemptKept.trans {a b c : WorkAttempt} (h : AttemptKept a b) (h' : AttemptKept b c) :
    AttemptKept a c := by
  refine ⟨h'.id.trans h.id, h'.queueId.trans h.queueId, fun he => ?_⟩
  obtain ⟨hs, hr⟩ := h.ended he
  obtain ⟨hs', hr'⟩ := h'.ended (by rw [WorkAttempt.ended, hs]; exact he)
  exact ⟨hs'.trans hs, hr'.trans hr⟩

theorem AttemptCalm.trans {a b c : WorkAttempt} (h : AttemptCalm a b) (h' : AttemptCalm b c) :
    AttemptCalm a c := by
  refine ⟨h.toAttemptKept.trans h'.toAttemptKept, fun he hc => ?_⟩
  refine h'.free ?_ (h.free he hc)
  rw [WorkAttempt.ended, (h.ended he).1]
  exact he

/-! ## Databases -/

namespace Db

/-- The rows of `db'` come from those of `db` as `Q` and `A` allow, or are new and as `N`
allows; the schema holds again. -/
structure Shifts (Q : QueueItem → QueueItem → Prop) (N : QueueItem → Prop)
    (A : WorkAttempt → WorkAttempt → Prop) (db db' : Db) : Prop where
  queue : ∀ q' ∈ db'.queue, (∃ q ∈ db.queue, Q q q') ∨ (db.nextQueueId ≤ q'.id ∧ N q')
  attempts : ∀ a ∈ db.attempts, ∃ a' ∈ db'.attempts, A a a'
  next : db.nextQueueId ≤ db'.nextQueueId
  schema : db.Schema → db'.Schema

/-- Dispatches are not queued again, and attempts that have ended stay as they ended. -/
abbrev Kept : Db → Db → Prop := Shifts RowKept (fun _ => True) AttemptKept

/-- Dispatches do not start either, and attempts that have ended get no container. -/
abbrev Calm : Db → Db → Prop := Shifts RowCalm (fun q => q.status ≠ .running) AttemptCalm

variable {db db' db'' : Db}

theorem Calm.kept (h : db.Calm db') : db.Kept db' where
  queue q' hq' := by
    rcases h.queue q' hq' with ⟨q, hq, hr⟩ | ⟨hid, -⟩
    · exact Or.inl ⟨q, hq, hr.toRowKept⟩
    · exact Or.inr ⟨hid, trivial⟩
  attempts a ha := by
    obtain ⟨a', ha', hr⟩ := h.attempts a ha
    exact ⟨a', ha', hr.toAttemptKept⟩
  next := h.next
  schema := h.schema

theorem Calm.refl (db : Db) : db.Calm db :=
  ⟨fun q hq => Or.inl ⟨q, hq, .refl q⟩, fun a ha => ⟨a, ha, .refl a⟩, le_rfl, fun h => h⟩

theorem Kept.trans (h : db.Kept db') (h' : db'.Kept db'') : db.Kept db'' where
  queue q hq := by
    rcases h'.queue q hq with ⟨q', hq', hr'⟩ | ⟨hid, -⟩
    · rcases h.queue q' hq' with ⟨q₀, hq₀, hr⟩ | ⟨hid, -⟩
      · exact Or.inl ⟨q₀, hq₀, hr.trans hr'⟩
      · exact Or.inr ⟨by rw [hr'.id]; exact hid, trivial⟩
    · exact Or.inr ⟨h.next.trans hid, trivial⟩
  attempts a ha := by
    obtain ⟨b, hb, hr⟩ := h.attempts a ha
    obtain ⟨c, hc, hr'⟩ := h'.attempts b hb
    exact ⟨c, hc, hr.trans hr'⟩
  next := h.next.trans h'.next
  schema hs := h'.schema (h.schema hs)

theorem Calm.trans (h : db.Calm db') (h' : db'.Calm db'') : db.Calm db'' where
  queue q hq := by
    rcases h'.queue q hq with ⟨q', hq', hr'⟩ | ⟨hid, hn⟩
    · rcases h.queue q' hq' with ⟨q₀, hq₀, hr⟩ | ⟨hid, hn⟩
      · exact Or.inl ⟨q₀, hq₀, hr.trans hr'⟩
      · refine Or.inr ⟨by rw [hr'.id]; exact hid, fun hrun => hn (hr'.running hrun).1⟩
    · exact Or.inr ⟨h.next.trans hid, hn⟩
  attempts a ha := by
    obtain ⟨b, hb, hr⟩ := h.attempts a ha
    obtain ⟨c, hc, hr'⟩ := h'.attempts b hb
    exact ⟨c, hc, hr.trans hr'⟩
  next := h.next.trans h'.next
  schema hs := h'.schema (h.schema hs)

/-! ### Elementary changes -/

/-- The other tables change. -/
theorem Calm.of_eq (hq : db'.queue = db.queue) (ha : db'.attempts = db.attempts)
    (hnq : db'.nextQueueId = db.nextQueueId) (hna : db'.nextAttemptId = db.nextAttemptId)
    (ho : db'.orphaned = db.orphaned)
    (he : ∀ e ∈ db'.executions, ∀ i, e.continuationAttemptId = some i →
      e ∈ db.executions ∨ ∃ a ∈ db.attempts, a.id = i) : db.Calm db' where
  queue q h := Or.inl ⟨q, hq ▸ h, .refl q⟩
  attempts a h := ⟨a, ha.symm ▸ h, .refl a⟩
  next := hnq.ge
  schema hs := by
    refine ⟨by rw [hq]; exact hs.items, by rw [hq, hnq]; exact hs.itemIds,
      by rw [ha]; exact hs.attempts, by rw [ha, hna]; exact hs.attemptIds,
      by rw [hq, ha]; exact hs.links, by rw [hq]; exact hs.running,
      by rw [ho, ha]; exact hs.orphans, fun e h i hi => ?_⟩
    rw [ha]
    rcases he e h i hi with h | h
    · exact hs.continuations e h i hi
    · exact h

theorem Calm.plan (hq : db'.queue = db.queue) (ha : db'.attempts = db.attempts)
    (hnq : db'.nextQueueId = db.nextQueueId) (hna : db'.nextAttemptId = db.nextAttemptId)
    (ho : db'.orphaned = db.orphaned) (he : db'.executions = db.executions) : db.Calm db' :=
  .of_eq hq ha hnq hna ho fun _ h _ _ => Or.inl (he ▸ h)

/-- The rows of the queue change, each keeping its identity and its attempt. -/
theorem mapQueue_schema {g : QueueItem → QueueItem} (hs : db.Schema)
    (hid : ∀ q, (g q).id = q.id) (hattempt : ∀ q, (g q).attemptId = q.attemptId)
    (hrun : ∀ q ∈ db.queue, (g q).status = .running → q.attemptId.isSome) :
    ({ db with queue := db.queue.map g } : Db).Schema := by
  have hitems : (db.queue.map g).map (·.id) = db.queue.map (·.id) := by
    simp only [List.map_map]
    exact List.map_congr_left fun q _ => hid q
  refine ⟨by rw [hitems]; exact hs.items, ?_, hs.attempts, hs.attemptIds, ?_, ?_, hs.orphans,
    hs.continuations⟩
  · intro q' hq'
    obtain ⟨q, hq, rfl⟩ := List.mem_map.1 hq'
    rw [hid]
    exact hs.itemIds q hq
  · intro q' hq' i hi
    obtain ⟨q, hq, rfl⟩ := List.mem_map.1 hq'
    rw [hid]
    exact hs.links q hq i ((hattempt q).symm.trans hi)
  · intro q' hq' hr
    obtain ⟨q, hq, rfl⟩ := List.mem_map.1 hq'
    rw [hattempt]
    exact hrun q hq hr

theorem mapQueue_calm {g : QueueItem → QueueItem} (hattempt : ∀ q, (g q).attemptId = q.attemptId)
    (h : ∀ q, RowCalm q (g q)) : db.Calm { db with queue := db.queue.map g } where
  queue q' hq' := by
    obtain ⟨q, hq, rfl⟩ := List.mem_map.1 hq'
    exact Or.inl ⟨q, hq, h q⟩
  attempts a ha := ⟨a, ha, .refl a⟩
  next := le_rfl
  schema hs := mapQueue_schema hs (fun q => (h q).id) hattempt fun q hq hr =>
    hs.running q hq ((h q).running hr).1

theorem updateQueue_calm {w : QueueItem → Bool} {set : QueueItem → QueueItem}
    (hattempt : ∀ q, w q → (set q).attemptId = q.attemptId) (h : ∀ q, w q → RowCalm q (set q)) :
    db.Calm (db.updateQueue w set) := by
  apply mapQueue_calm
  · intro q
    by_cases hw : w q
    · simpa [hw] using hattempt q hw
    · simp [hw]
  · intro q
    by_cases hw : w q
    · simpa [hw] using h q hw
    · simpa [hw] using RowCalm.refl q

/-- The rows of the attempts change, each keeping its identity and its dispatch. -/
theorem updateAttempts_schema {w : WorkAttempt → Bool} {set : WorkAttempt → WorkAttempt}
    (hs : db.Schema) (hid : ∀ a, (set a).id = a.id) (hqueue : ∀ a, (set a).queueId = a.queueId) :
    (db.updateAttempts w set).Schema := by
  have hid' : ∀ a, (if w a then set a else a).id = a.id := by
    intro a
    by_cases hw : w a <;> simp [hw, hid]
  have hqueue' : ∀ a, (if w a then set a else a).queueId = a.queueId := by
    intro a
    by_cases hw : w a <;> simp [hw, hqueue]
  have hitems : (db.attempts.map fun a => if w a then set a else a).map (·.id) =
      db.attempts.map (·.id) := by
    simp only [List.map_map]
    exact List.map_congr_left fun a _ => hid' a
  have hmem : ∀ a ∈ db.attempts, (if w a then set a else a) ∈ (db.updateAttempts w set).attempts :=
    fun a ha => List.mem_map_of_mem ha
  refine ⟨hs.items, hs.itemIds, by rw [updateAttempts, hitems]; exact hs.attempts, ?_, ?_,
    hs.running, ?_, ?_⟩
  · intro a' ha'
    obtain ⟨a, ha, rfl⟩ := List.mem_map.1 ha'
    rw [hid']
    exact hs.attemptIds a ha
  · intro q hq i hi
    obtain ⟨a, ha, hai, haq⟩ := hs.links q hq i hi
    exact ⟨_, hmem a ha, (hid' a).trans hai, (hqueue' a).trans haq⟩
  · intro o ho
    obtain ⟨a, ha, hai, haq⟩ := hs.orphans o ho
    exact ⟨_, hmem a ha, (hid' a).trans hai, (hqueue' a).trans haq⟩
  · intro e he i hi
    obtain ⟨a, ha, hai⟩ := hs.continuations e he i hi
    exact ⟨_, hmem a ha, (hid' a).trans hai⟩

theorem updateAttempts_kept {w : WorkAttempt → Bool} {set : WorkAttempt → WorkAttempt}
    (hid : ∀ a, (set a).id = a.id) (hqueue : ∀ a, (set a).queueId = a.queueId)
    (h : ∀ a ∈ db.attempts, w a → AttemptKept a (set a)) : db.Kept (db.updateAttempts w set) where
  queue q hq := Or.inl ⟨q, hq, .refl q⟩
  attempts a ha := by
    refine ⟨_, List.mem_map_of_mem ha, ?_⟩
    by_cases hw : w a
    · simpa [hw] using h a ha hw
    · simpa [hw] using AttemptKept.refl a
  next := le_rfl
  schema hs := updateAttempts_schema hs hid hqueue

theorem updateAttempts_calm {w : WorkAttempt → Bool} {set : WorkAttempt → WorkAttempt}
    (hid : ∀ a, (set a).id = a.id) (hqueue : ∀ a, (set a).queueId = a.queueId)
    (h : ∀ a ∈ db.attempts, w a → AttemptCalm a (set a)) : db.Calm (db.updateAttempts w set) where
  queue q hq := Or.inl ⟨q, hq, .refl q⟩
  attempts a ha := by
    refine ⟨_, List.mem_map_of_mem ha, ?_⟩
    by_cases hw : w a
    · simpa [hw] using h a ha hw
    · simpa [hw] using AttemptCalm.refl a
  next := le_rfl
  schema hs := updateAttempts_schema hs hid hqueue

theorem updateTasks_calm (w : Task → Bool) (set : Task → Task) : db.Calm (db.updateTasks w set) :=
  .plan rfl rfl rfl rfl rfl rfl

theorem insertItem_calm (taskId agentId : String) (now : ℤ) :
    db.Calm (db.insertItem taskId agentId now).2 where
  queue q' hq' := by
    rcases List.mem_append.1 hq' with hq | hq
    · exact Or.inl ⟨q', hq, .refl q'⟩
    · rw [List.mem_singleton] at hq
      subst hq
      exact Or.inr ⟨le_rfl, by simp⟩
  attempts a ha := ⟨a, ha, .refl a⟩
  next := Nat.le_succ _
  schema hs := by
    refine ⟨?_, ?_, hs.attempts, hs.attemptIds, ?_, ?_, hs.orphans, hs.continuations⟩
    · simp only [insertItem, List.map_append, List.map_cons, List.map_nil]
      refine List.Nodup.append hs.items (by simp) ?_
      intro i hi hi'
      obtain ⟨q, hq, rfl⟩ := List.mem_map.1 hi
      rw [List.mem_singleton] at hi'
      have hlt := hs.itemIds q hq
      omega
    · intro q hq
      rcases List.mem_append.1 hq with hq | hq
      · exact Nat.lt_succ_of_lt (hs.itemIds q hq)
      · rw [List.mem_singleton] at hq
        subst hq
        exact Nat.lt_succ_self _
    · intro q hq i hi
      rcases List.mem_append.1 hq with hq | hq
      · exact hs.links q hq i hi
      · rw [List.mem_singleton] at hq
        subst hq
        cases hi
    · intro q hq hr
      rcases List.mem_append.1 hq with hq | hq
      · exact hs.running q hq hr
      · rw [List.mem_singleton] at hq
        subst hq
        cases hr

/-- A queue row that does not run gets its attempt. -/
theorem insertAttempt_calm {sessionId taskId : String} {queueId : ℕ} {m : Option ℕ} {now : ℤ}
    (h : ∀ q ∈ db.queue, q.id = queueId → q.status ≠ .running) :
    db.Calm (db.insertAttempt sessionId taskId queueId m now).2 where
  queue q' hq' := by
    obtain ⟨q, hq, rfl⟩ := List.mem_map.1 hq'
    refine Or.inl ⟨q, hq, ?_⟩
    by_cases hid : q.id = queueId
    · have hrun := h q hq hid
      simp only [hid, decide_true, if_true]
      exact ⟨⟨hid.symm, fun hs => hs⟩, fun hr => absurd hr hrun⟩
    · simpa [hid] using RowCalm.refl q
  attempts a ha := ⟨a, List.mem_append_left _ ha, .refl a⟩
  next := le_rfl
  schema hs := by
    have hnew : ∃ a ∈ (db.insertAttempt sessionId taskId queueId m now).2.attempts,
        a.id = db.nextAttemptId ∧ a.queueId = some queueId :=
      ⟨_, List.mem_append_right _ (List.mem_singleton_self _), rfl, rfl⟩
    have hold : ∀ a ∈ db.attempts, a ∈ (db.insertAttempt sessionId taskId queueId m
      now).2.attempts :=
      fun a ha => List.mem_append_left _ ha
    have hset : ∀ q : QueueItem, (if q.id = queueId then
        { q with attemptId := some db.nextAttemptId } else q).id = q.id := by
      intro q
      split <;> rfl
    refine ⟨?_, ?_, ?_, ?_, ?_, ?_, ?_, ?_⟩
    · have hmap : (db.insertAttempt sessionId taskId queueId m now).2.queue.map (·.id) =
          db.queue.map (·.id) := by
        simp only [insertAttempt, updateQueue, List.map_map, decide_eq_true_eq]
        exact List.map_congr_left fun q _ => hset q
      rw [hmap]
      exact hs.items
    · intro q' hq'
      obtain ⟨q, hq, rfl⟩ := List.mem_map.1 hq'
      simp only [decide_eq_true_eq, hset]
      exact hs.itemIds q hq
    · simp only [insertAttempt, updateQueue, List.map_append, List.map_cons, List.map_nil]
      refine List.Nodup.append hs.attempts (by simp) ?_
      intro i hi hi'
      obtain ⟨a, ha, rfl⟩ := List.mem_map.1 hi
      rw [List.mem_singleton] at hi'
      have hlt := hs.attemptIds a ha
      omega
    · intro a ha
      rcases List.mem_append.1 ha with ha | ha
      · exact Nat.lt_succ_of_lt (hs.attemptIds a ha)
      · rw [List.mem_singleton] at ha
        subst ha
        exact Nat.lt_succ_self _
    · intro q' hq' i hi
      obtain ⟨q, hq, rfl⟩ := List.mem_map.1 hq'
      simp only [decide_eq_true_eq] at hi
      rw [show (if decide (q.id = queueId) = true then
        { q with attemptId := some db.nextAttemptId } else q).id = q.id by simpa using hset q]
      by_cases hid : q.id = queueId
      · simp only [hid, if_true, Option.some.injEq] at hi
        obtain ⟨a, ha, hai, haq⟩ := hnew
        exact ⟨a, ha, hai.trans hi, by rw [haq, hid]⟩
      · rw [if_neg hid] at hi
        obtain ⟨a, ha, hai, haq⟩ := hs.links q hq i hi
        exact ⟨a, hold a ha, hai, haq⟩
    · intro q' hq' hr
      obtain ⟨q, hq, rfl⟩ := List.mem_map.1 hq'
      by_cases hid : q.id = queueId
      · simp [hid]
      · simp only [hid, decide_false, Bool.false_eq_true, if_false] at hr ⊢
        exact hs.running q hq hr
    · intro o ho
      obtain ⟨a, ha, hai, haq⟩ := hs.orphans o ho
      exact ⟨a, hold a ha, hai, haq⟩
    · intro e he i hi
      obtain ⟨a, ha, hai⟩ := hs.continuations e he i hi
      exact ⟨a, hold a ha, hai⟩

end Db

end XpressClaw.Tasks
