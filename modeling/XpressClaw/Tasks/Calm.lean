import XpressClaw.Tasks.Steps

/-!
# Calm transactions

One lemma for each transaction: what it does to dispatches and attempts, in the terms of
`Kept` and `Calm`.

* `exec_calm` — every transaction that cannot start or revive a dispatch is calm.
* `claimAt_cases` — a claim is a calm reconciliation followed by one dispatch.
* `requeue_schema` — recovery keeps the schema.
-/

namespace XpressClaw.Tasks

open Lib

theorem RowCalm.stopped {q q' : QueueItem} (hid : q'.id = q.id) (hq : q'.status ≠ .queued)
    (hr : q'.status ≠ .running) : RowCalm q q' :=
  ⟨⟨hid, fun h => absurd h hq⟩, fun h => absurd h hr⟩

theorem RowCalm.waiting {q q' : QueueItem} (hid : q'.id = q.id) (hq : q.status = .queued)
    (hs : q'.status = q.status) : RowCalm q q' :=
  ⟨⟨hid, fun _ => hq⟩, fun h => by rw [hs, hq] at h; cases h⟩

theorem AttemptCalm.unfinished {a a' : WorkAttempt} (hid : a'.id = a.id)
    (hq : a'.queueId = a.queueId) (h : ¬a.ended) : AttemptCalm a a' :=
  ⟨⟨hid, hq, fun he => absurd he h⟩, fun he => absurd he h⟩

theorem AttemptCalm.columns {a a' : WorkAttempt} (hid : a'.id = a.id)
    (hq : a'.queueId = a.queueId) (hs : a'.status = a.status) (hr : a'.result = a.result)
    (hc : a.containerId = none → a'.containerId = none) : AttemptCalm a a' :=
  ⟨⟨hid, hq, fun _ => ⟨hs, hr⟩⟩, fun _ => hc⟩

/-- Whatever the transaction commits is calm. -/
def Tx.Calm {α : Type} (tx : Tx α) : Prop :=
  ∀ db : Db, db.Schema → ∀ r db', tx db = .ok (r, db') → db.Calm db'

namespace Db

variable {db db' db'' : Db} {needsUserInput : String → Bool}

theorem Calm.andThen (h : db.Calm db') (hs : db.Schema) (h' : db'.Schema → db'.Calm db'') :
    db.Calm db'' :=
  h.trans (h' (h.schema hs))

theorem attempt?_mem {i : ℕ} {a : WorkAttempt} (h : db.attempt? i = some a) :
    a ∈ db.attempts ∧ a.id = i :=
  ⟨Table.mem_of_get h, @Table.key_of_get _ _ _ WorkAttempt.id _ _ _ h⟩

theorem item?_mem {i : ℕ} {q : QueueItem} (h : db.item? i = some q) : q ∈ db.queue ∧ q.id = i :=
  ⟨Table.mem_of_get h, @Table.key_of_get _ _ _ QueueItem.id _ _ _ h⟩

/-! ## Queuing -/

theorem preserveQueuedResponse_calm (taskId : String) :
    db.Calm (db.preserveQueuedResponse taskId) :=
  .plan rfl rfl rfl rfl rfl rfl

theorem insertMessageRow_calm (taskId role : String) :
    db.Calm (db.insertMessageRow taskId role).2 :=
  .plan rfl rfl rfl rfl rfl rfl

theorem insertTextMessage_calm (taskId role : String) :
    Tx.Calm (insertTextMessage taskId role) := by
  intro db _ r db' h
  obtain ⟨_, -, h⟩ := bind_ok h
  cases h
  exact insertMessageRow_calm taskId role

theorem insertDispatch_calm (hs : db.Schema) (taskId agentId : String) (m : Option ℕ) (now : ℤ) :
    db.Calm ((db.insertItem taskId agentId now).2.insertAttempt agentId taskId
      (db.insertItem taskId agentId now).1 m now).2 := by
  refine (insertItem_calm taskId agentId now).trans (insertAttempt_calm ?_)
  intro q hq hid
  rcases List.mem_append.1 hq with hq | hq
  · have hlt := hs.itemIds q hq
    rw [hid] at hlt
    exact absurd hlt (lt_irrefl _)
  · rw [List.mem_singleton] at hq
    subst hq
    simp

theorem enqueueNew_calm (taskId agentId : String) (now : ℤ) :
    Tx.Calm (enqueueNew taskId agentId now) := by
  intro db hs r db' h
  unfold enqueueNew at h
  split at h
  · cases h
  · dsimp only at h
    split at h
    · cases h
    · cases h
      exact insertDispatch_calm hs taskId agentId none now

/-- The attempt of a new dispatch is new. -/
theorem enqueueNew_attempt {taskId agentId : String} {now : ℤ} {item : QueueItem}
    (h : enqueueNew taskId agentId now db = .ok (item, db')) :
    item.attemptId = some db.nextAttemptId := by
  unfold enqueueNew at h
  split at h
  · cases h
  · dsimp only at h
    split at h
    · cases h
    · rename_i hitem
      cases h
      obtain ⟨hmem, hid⟩ := item?_mem hitem
      obtain ⟨q, hq, rfl⟩ := List.mem_map.1 hmem
      by_cases hnew : q.id = db.nextQueueId
      · simp [insertItem, hnew]
      · simp [insertItem, hnew] at hid

theorem enqueueAuthorized_calm (taskId agentId : String) (now : ℤ) :
    Tx.Calm (enqueueAuthorized taskId agentId now) := by
  intro db hs r db' h
  obtain ⟨_, -, h⟩ := bind_ok h
  split at h
  · cases h
    exact preserveQueuedResponse_calm taskId
  · exact enqueueNew_calm taskId agentId now db hs r db' h

theorem enqueue_calm (taskId agentId : String) (now : ℤ) :
    Tx.Calm (enqueue taskId agentId now) := by
  intro db hs r db' h
  obtain ⟨_, -, h⟩ := bind_ok h
  exact enqueueAuthorized_calm taskId agentId now db hs r db' h

theorem ensureEnqueued_calm (taskId agentId : String) (now : ℤ) :
    Tx.Calm (ensureEnqueued taskId agentId now) := by
  intro db hs r db' h
  unfold ensureEnqueued at h
  split at h
  · cases h
    exact .refl db
  · obtain ⟨_, -, h⟩ := bind_ok h
    obtain ⟨_, -, h⟩ := bind_ok h
    split at h
    · cases h
      exact preserveQueuedResponse_calm taskId
    · cases h
      exact insertItem_calm taskId agentId now

theorem enqueueContinuation_calm (taskId agentId : String) (now : ℤ) :
    Tx.Calm (enqueueContinuation taskId agentId now) := by
  intro db hs r db' h
  obtain ⟨_, -, h⟩ := bind_ok h
  obtain ⟨_, -, h⟩ := bind_ok h
  split at h
  · cases h
    exact preserveQueuedResponse_calm taskId
  · cases h
    exact (insertItem_calm taskId agentId now).trans (preserveQueuedResponse_calm taskId)

/-- A running row has its attempt already, and gets no second one. -/
theorem createAttempt_calm (sessionId taskId : String) (queueId : ℕ) (now : ℤ) :
    Tx.Calm (createAttempt sessionId taskId queueId now) := by
  intro db hs r db' h
  obtain ⟨_, -, h⟩ := bind_ok h
  split at h
  · cases h
  · rename_i hnone
    cases h
    apply insertAttempt_calm
    intro q hq hid hrun
    obtain ⟨i, hi⟩ := Option.isSome_iff_exists.1 (hs.running q hq hrun)
    obtain ⟨a, ha, -, haq⟩ := hs.links q hq i hi
    refine hnone (List.any_eq_true.2 ⟨a, ha, ?_⟩)
    simp [haq, hid]

theorem discardItem_calm (id : ℕ) : db.Calm (db.discardItem id) where
  queue q hq := Or.inl ⟨q, (List.mem_filter.1 hq).1, .refl q⟩
  attempts a ha := ⟨a, ha, .refl a⟩
  next := le_rfl
  schema hs :=
    { hs with
      items := hs.items.sublist ((List.filter_sublist (l := db.queue)).map _)
      itemIds := fun q hq => hs.itemIds q (List.mem_filter.1 hq).1
      links := fun q hq => hs.links q (List.mem_filter.1 hq).1
      running := fun q hq => hs.running q (List.mem_filter.1 hq).1 }

/-! ## Messages -/

theorem associateResponseTrigger_eq {attemptId messageId : ℕ}
    (h : db.associateResponseTrigger attemptId messageId = .ok db') :
    (∃ a, db.attempt? attemptId = some a) ∧
      db' = db.updateAttempts (·.id = attemptId) fun a =>
        { a with triggerMessageId := some (max (a.triggerMessageId.getD 0) messageId) } := by
  unfold associateResponseTrigger at h
  split at h
  · cases h
  · rename_i a ha
    cases h
    exact ⟨⟨a, ha⟩, rfl⟩

theorem associateResponseTrigger_calm {attemptId messageId : ℕ}
    (h : db.associateResponseTrigger attemptId messageId = .ok db') : db.Calm db' := by
  obtain ⟨-, rfl⟩ := associateResponseTrigger_eq h
  exact updateAttempts_calm (fun _ => rfl) (fun _ => rfl) fun a _ _ =>
    .columns rfl rfl rfl rfl fun hc => hc

/-- An attempt with this identifier is in the table. -/
def HasAttempt (db : Db) (i : ℕ) : Prop := ∃ a ∈ db.attempts, a.id = i

theorem Calm.hasAttempt (h : db.Calm db') {i : ℕ} (hi : db.HasAttempt i) : db'.HasAttempt i := by
  obtain ⟨a, ha, rfl⟩ := hi
  obtain ⟨a', ha', hr⟩ := h.attempts a ha
  exact ⟨a', ha', hr.id⟩

theorem associateResponseTrigger_hasAttempt {attemptId messageId : ℕ}
    (h : db.associateResponseTrigger attemptId messageId = .ok db') : db'.HasAttempt attemptId := by
  obtain ⟨⟨a, ha⟩, -⟩ := associateResponseTrigger_eq h
  exact (associateResponseTrigger_calm h).hasAttempt ⟨a, attempt?_mem ha⟩

theorem takeOver_calm {executionId : String} {attemptId : ℕ} {set : StepExecution → StepExecution}
    (hi : db.HasAttempt attemptId) (h : db.takeOver executionId attemptId set = .ok db') :
    db.Calm db' := by
  unfold takeOver at h
  split at h
  · cases h
  · cases h
    refine .of_eq rfl rfl rfl rfl rfl fun e he i hei => ?_
    obtain ⟨e₀, he₀, rfl⟩ := List.mem_map.1 he
    by_cases hid : e₀.id = executionId
    · simp only [hid, decide_true, if_true, Option.some.injEq] at hei
      exact Or.inr (hei ▸ hi)
    · simp only [hid, decide_false, Bool.false_eq_true, if_false]
      exact Or.inl he₀

theorem adoptWaiting_calm {taskId : String} {attemptId : ℕ} (hi : db.HasAttempt attemptId)
    (h : db.adoptWaiting needsUserInput taskId attemptId = .ok db') : db.Calm db' := by
  unfold adoptWaiting at h
  split at h
  · cases h
    exact .refl db
  · split at h
    · exact takeOver_calm hi h
    · cases h
      exact .refl db

theorem adoptResponse_calm {taskId : String} {attemptId : ℕ} (hi : db.HasAttempt attemptId)
    (h : db.adoptResponse needsUserInput taskId attemptId = .ok db') : db.Calm db' := by
  obtain ⟨db₁, h1, h⟩ := bind_ok h
  cases h
  have hreleased : db.Calm
      { db with automaticResponses := db.automaticResponses.filter (· ≠ attemptId) } :=
    .plan rfl rfl rfl rfl rfl rfl
  exact hreleased.trans ((adoptWaiting_calm (hreleased.hasAttempt hi) h1).trans
    (updateTasks_calm _ _))

theorem associate_adopt_calm {taskId : String} {attemptId messageId : ℕ}
    (h : db.associateResponseTrigger attemptId messageId = .ok db')
    (h' : db'.adoptResponse needsUserInput taskId attemptId = .ok db'') : db.Calm db'' :=
  (associateResponseTrigger_calm h).trans
    (adoptResponse_calm (associateResponseTrigger_hasAttempt h) h')

theorem enqueueContinuationForMessage_calm (taskId agentId : String) (m : ℕ) (now : ℤ) :
    Tx.Calm (enqueueContinuationForMessage needsUserInput taskId agentId m now) := by
  intro db hs r db' h
  obtain ⟨_, -, h⟩ := bind_ok h
  obtain ⟨_, -, h⟩ := bind_ok h
  split at h
  · obtain ⟨db₁, h1, h⟩ := bind_ok h
    obtain ⟨db₂, h2, h⟩ := bind_ok h
    cases h
    exact associate_adopt_calm h1 h2
  · cases h
  · obtain ⟨⟨item, db₁⟩, h1, h⟩ := bind_ok h
    dsimp only at h
    split at h
    · cases h
    · obtain ⟨db₂, h2, h⟩ := bind_ok h
      obtain ⟨db₃, h3, h⟩ := bind_ok h
      cases h
      exact (enqueue_calm taskId agentId now db hs _ _ h1).trans (associate_adopt_calm h2 h3)

theorem addUserMessage_calm (taskId : String) (agentId : Option String) (now : ℤ) :
    Tx.Calm (addUserMessage needsUserInput taskId agentId now) := by
  intro db hs r db' h
  obtain ⟨_, -, h⟩ := bind_ok h
  obtain ⟨⟨m, db₁⟩, h1, h⟩ := bind_ok h
  have hmsg := insertTextMessage_calm taskId "user" db hs _ _ h1
  dsimp only at h
  split at h
  · cases h
    exact hmsg
  · obtain ⟨⟨⟨item, i⟩, db₂⟩, h2, h⟩ := bind_ok h
    cases h
    exact hmsg.andThen hs fun hs₁ =>
      enqueueContinuationForMessage_calm taskId _ m now db₁ hs₁ _ _ h2

theorem enqueueReviewFollowUp_calm (taskId : String) (now : ℤ) :
    Tx.Calm (enqueueReviewFollowUp taskId now) := by
  intro db hs r db' h
  obtain ⟨_, -, h⟩ := bind_ok h
  obtain ⟨_, -, h⟩ := bind_ok h
  split at h
  · cases h
  · split at h
    · cases h
      exact .refl db
    · split at h
      · cases h
      · rename_i agentId _
        dsimp only at h
        have hmsg : db.Calm (db.insertMessageRow taskId "user").2 :=
          insertMessageRow_calm taskId "user"
        split at h
        · obtain ⟨db₁, h1, h⟩ := bind_ok h
          cases h
          exact hmsg.trans ((associateResponseTrigger_calm h1).trans
            ((preserveQueuedResponse_calm taskId).trans (updateTasks_calm _ _)))
        · cases h
        · cases h
          exact hmsg.andThen hs fun hs₁ =>
            (insertDispatch_calm hs₁ taskId agentId _ now).trans (updateTasks_calm _ _)

/-- The attempt a message is associated with exists, and is the one of the new row. -/
theorem enqueueContinuationForMessage_hasAttempt {taskId agentId : String} {m : ℕ} {now : ℤ}
    {r : Option QueueItem × ℕ}
    (h : enqueueContinuationForMessage needsUserInput taskId agentId m now db = .ok (r, db')) :
    db'.HasAttempt r.2 ∧ ∀ item ∈ r.1, item.attemptId = some r.2 := by
  obtain ⟨_, -, h⟩ := bind_ok h
  obtain ⟨_, -, h⟩ := bind_ok h
  split at h
  · obtain ⟨db₁, h1, h⟩ := bind_ok h
    obtain ⟨db₂, h2, h⟩ := bind_ok h
    cases h
    have hhas := associateResponseTrigger_hasAttempt h1
    exact ⟨(adoptResponse_calm hhas h2).hasAttempt hhas, by simp⟩
  · cases h
  · obtain ⟨⟨item, db₁⟩, h1, h⟩ := bind_ok h
    dsimp only at h
    split at h
    · cases h
    · rename_i i hi
      obtain ⟨db₂, h2, h⟩ := bind_ok h
      obtain ⟨db₃, h3, h⟩ := bind_ok h
      cases h
      have hhas := associateResponseTrigger_hasAttempt h2
      refine ⟨(adoptResponse_calm hhas h3).hasAttempt hhas, ?_⟩
      rintro _ ⟨⟩
      exact hi

/-- A dispatched continuation has an attempt. -/
theorem dispatchContinuation_cases {taskId agentId : String} {now : ℤ} (hs : db.Schema)
    {r : ℕ × ℕ} (h : dispatchContinuation needsUserInput taskId agentId now db = .ok (r, db')) :
    db.Calm db' ∧ db'.HasAttempt r.1 := by
  obtain ⟨⟨m, db₁⟩, h1, h⟩ := bind_ok h
  obtain ⟨⟨⟨item, i⟩, db₂⟩, h2, h⟩ := bind_ok h
  have hcalm := (insertTextMessage_calm taskId "user" db hs _ _ h1).andThen hs fun hs₁ =>
    enqueueContinuationForMessage_calm taskId agentId m now db₁ hs₁ _ _ h2
  obtain ⟨hhas, hitem⟩ := enqueueContinuationForMessage_hasAttempt h2
  dsimp only at h
  split at h
  · cases h
  · rename_i item
    split at h
    · cases h
    · rename_i j hj
      cases h
      have hij : i = j := by
        have hi := hitem item rfl
        rw [hj] at hi
        exact (Option.some.inj hi).symm
      exact ⟨hcalm.trans (updateTasks_calm _ _), hij ▸ hhas⟩

theorem startContinuation_calm (executionId taskId agentId : String) (now : ℤ) :
    Tx.Calm (startContinuation needsUserInput executionId taskId agentId now) := by
  intro db hs r db' h
  obtain ⟨⟨⟨i, prompt⟩, db₁⟩, h1, h⟩ := bind_ok h
  obtain ⟨db₂, h2, h⟩ := bind_ok h
  cases h
  obtain ⟨hcalm, hhas⟩ := dispatchContinuation_cases hs h1
  exact hcalm.trans (takeOver_calm hhas h2)

theorem createContinuation_calm (e : StepExecution) (taskId : String) (now : ℤ) :
    Tx.Calm (createContinuation needsUserInput e taskId now) := by
  intro db hs r db' h
  -- the new execution owns nothing yet
  have hinserted (status : String) : db.Calm { db with
      executions := db.executions ++
        [{ id := e.id
           instanceId := e.instanceId
           flowName := e.flowName
           stepId := e.stepId
           taskId := some taskId
           status := status
           startedAt := now }] } := by
    refine .of_eq rfl rfl rfl rfl rfl fun x hx i hi => ?_
    rcases List.mem_append.1 hx with hx | hx
    · exact Or.inl hx
    · rw [List.mem_singleton] at hx
      subst hx
      cases hi
  unfold createContinuation at h
  split at h
  · cases h
    exact .refl db
  · split at h
    · cases h
    · split at h
      · cases h
      · dsimp only at h
        split at h
        · cases h
          exact hinserted _
        · exact (hinserted _).andThen hs fun hs₁ =>
            startContinuation_calm e.id taskId _ now _ hs₁ _ _ h

theorem dispatchWaiting_calm (executionId taskId : String) (now : ℤ) :
    Tx.Calm (dispatchWaiting needsUserInput executionId taskId now) := by
  intro db hs r db' h
  unfold dispatchWaiting at h
  split at h
  · split at h
    · cases h
      exact .refl db
    · split at h
      · cases h
      · split at h
        · cases h
          exact .refl db
        · split at h
          · cases h
          · exact startContinuation_calm executionId taskId _ now db hs _ _ h
  · cases h

/-! ## Finishing -/

theorem updateQueue_failed (w : QueueItem → Bool) (response : String) (now : ℤ) :
    db.Calm (db.updateQueue w (failed response now)) :=
  updateQueue_calm (fun _ _ => rfl) fun q _ =>
    RowCalm.stopped rfl (by simp [failed]) (by simp [failed])

/-! ## Delegation notifications -/

/-- What a retired attempt looks like. -/
def Superseded (a : WorkAttempt) : Prop :=
  a.status = .cancelled ∧ a.result = some supersededReason

theorem retireAll_calm {now : ℤ} {stale : List (ℕ × ℕ)}
    (h : ∀ p ∈ stale, ∀ a ∈ db.attempts, a.id = p.1 → a.ended → Superseded a) :
    db.Calm (retireAll now stale db) := by
  induction stale generalizing db with
  | nil => exact .refl db
  | cons p stale ih =>
    obtain ⟨i, j⟩ := p
    rw [retireAll]
    have hattempts : db.Calm (db.updateAttempts (·.id = i) (superseded now)) := by
      refine updateAttempts_calm (fun _ => rfl) (fun _ => rfl) fun a ha hw => ?_
      by_cases he : a.ended
      · obtain ⟨hst, hres⟩ := h (i, j) List.mem_cons_self a ha (by simpa using hw) he
        exact .columns rfl rfl hst.symm hres.symm fun hc => hc
      · exact .unfinished rfl rfl he
    refine hattempts.trans ((updateQueue_failed _ _ _).trans (ih ?_))
    intro p hp a ha hid he
    obtain ⟨a₀, ha₀, rfl⟩ := List.mem_map.1 ha
    by_cases hi : a₀.id = i
    · simp [hi, Superseded, superseded]
    · simp only [hi, decide_false, Bool.false_eq_true, if_false] at hid he ⊢
      exact h p (List.mem_cons_of_mem _ hp) a₀ ha₀ hid he

theorem retireStale_calm (hs : db.Schema) (taskId : Option String) (now : ℤ) :
    db.Calm (db.retireStale taskId now) := by
  apply retireAll_calm
  intro p hp a ha hid he
  obtain ⟨i, -, hp⟩ := List.mem_flatMap.1 hp
  obtain ⟨q, hq, rfl⟩ := List.mem_map.1 hp
  have hq := (List.mem_filter.1 hq).2
  simp only [Bool.and_eq_true, decide_eq_true_eq, Option.any_eq_true] at hq
  obtain ⟨candidate, hc, ⟨⟨⟨⟨⟨hqueued, -⟩, -⟩, -⟩, -⟩, -⟩⟩ := hq.2
  -- the attempt of a stale response is still queued
  obtain ⟨hmem, hci⟩ := attempt?_mem hc
  have heq := hs.eq_of_id ha hmem (hid.trans hci.symm)
  rw [heq, WorkAttempt.ended, hqueued] at he
  cases he

theorem notificationResponse_calm (taskId agentId : String) (now : ℤ) :
    Tx.Calm (notificationResponse taskId agentId now) := by
  intro db hs r db' h
  unfold notificationResponse at h
  split at h
  · cases h
    exact .refl db
  · obtain ⟨⟨item, db₁⟩, h1, h⟩ := bind_ok h
    dsimp only at h
    split at h
    · cases h
    · cases h
      exact (enqueueNew_calm taskId agentId now db hs _ _ h1).trans
        (.plan rfl rfl rfl rfl rfl rfl)

theorem enqueueDelegationNotification_calm (taskId agentId : String) (m : ℕ) (now : ℤ) :
    Tx.Calm (enqueueDelegationNotification taskId agentId m now) := by
  intro db hs r db' h
  obtain ⟨_, -, h⟩ := bind_ok h
  obtain ⟨_, -, h⟩ := bind_ok h
  obtain ⟨⟨i, db₁⟩, h1, h⟩ := bind_ok h
  obtain ⟨db₂, h2, h⟩ := bind_ok h
  cases h
  exact (notificationResponse_calm taskId agentId now db hs _ _ h1).trans
    (associateResponseTrigger_calm h2)

theorem deliver_calm (o : Outcome) (status : TaskStatus) (owner : String) (now : ℤ) :
    Tx.Calm (deliver o status owner now) := by
  intro db hs r db' h
  obtain ⟨⟨m, db₁⟩, h1, h⟩ := bind_ok h
  obtain ⟨⟨i, db₂⟩, h2, h⟩ := bind_ok h
  cases h
  have hmsg := insertTextMessage_calm o.parentId "system" db hs _ _ h1
  have hqueued := hmsg.andThen hs fun hs₁ =>
    enqueueDelegationNotification_calm o.parentId owner m now db₁ hs₁ _ _ h2
  exact hqueued.trans (.plan rfl rfl rfl rfl rfl rfl)

theorem deliverAll_calm (now : ℤ) (reports : List (Outcome × TaskStatus × String)) :
    Tx.Calm (deliverAll now reports) := by
  induction reports with
  | nil =>
    intro db _ r db' h
    cases h
    exact .refl db
  | cons report reports ih =>
    intro db hs r db' h
    obtain ⟨⟨_, db₁⟩, h1, h⟩ := bind_ok h
    exact (deliver_calm _ _ _ now db hs _ _ h1).andThen hs fun hs₁ => ih db₁ hs₁ _ _ h

theorem reconcile_calm (now : ℤ) : Tx.Calm (reconcile now) := by
  intro db hs r db' h
  obtain ⟨⟨_, db₁⟩, h1, h⟩ := bind_ok h
  cases h
  have hretired := retireStale_calm hs none now
  have hdelivered := hretired.andThen hs fun hs₁ => deliverAll_calm now _ _ hs₁ _ _ h1
  exact hdelivered.trans (.plan rfl rfl rfl rfl rfl rfl)

/-! ## Claiming -/

theorem mem_claimCandidates {agentId : Option String} {now : ℤ} {p : QueueItem × Task}
    (h : p ∈ db.claimCandidates agentId now) : p.1 ∈ db.queue ∧ db.task? p.1.taskId = some p.2 ∧
      ∃ candidate, db.attemptOf p.1 = some candidate ∧
        db.claimable agentId now p.1 p.2 candidate = true := by
  obtain ⟨q, hq, h⟩ := List.mem_filterMap.1 h
  obtain ⟨t, ht, h⟩ := Option.bind_eq_some_iff.1 h
  obtain ⟨candidate, hc, h⟩ := Option.bind_eq_some_iff.1 h
  split at h
  · rename_i hclaim
    cases h
    exact ⟨hq, ht, candidate, hc, hclaim⟩
  · cases h

theorem nextClaim_claimable {agentId : Option String} {now : ℤ} {item : QueueItem}
    (h : db.nextClaim agentId now = some item) : item ∈ db.queue ∧
      ∃ t candidate, db.task? item.taskId = some t ∧ db.attemptOf item = some candidate ∧
        db.claimable agentId now item t candidate = true := by
  obtain ⟨p, hp, rfl⟩ := Option.map_eq_some_iff.1 h
  have hmem := List.mem_of_head? hp
  rw [List.mem_insertionSort] at hmem
  obtain ⟨hq, ht, candidate, hc, hclaim⟩ := mem_claimCandidates hmem
  exact ⟨hq, p.2, candidate, ht, hc, hclaim⟩

/-- A claim is a calm reconciliation and the dispatch of at most one row. -/
theorem claimAt_cases {agentId : Option String} {now : ℤ} {r : Option QueueItem}
    (hs : db.Schema) (h : claimAt agentId now db = .ok (r, db')) :
    ∃ db₁, db.Calm db₁ ∧ ((r = none ∧ db' = db₁) ∨
      ∃ item, db₁.nextClaim agentId now = some item ∧ db' = db₁.dispatch item now ∧
        r = db'.item? item.id) := by
  obtain ⟨⟨_, db₁⟩, h1, h⟩ := bind_ok h
  refine ⟨db₁, reconcile_calm now db hs _ _ h1, ?_⟩
  dsimp only at h
  split at h
  · cases h
    exact Or.inl ⟨rfl, rfl⟩
  · rename_i item hitem
    cases h
    exact Or.inr ⟨item, hitem, rfl, rfl⟩

theorem dispatch_queue (item : QueueItem) (now : ℤ) :
    (db.dispatch item now).queue = db.queue.map fun q =>
      if q.id = item.id ∧ q.status = .queued then
        { q with status := .running, startedAt := some now } else q := by
  simp only [dispatch, updateTasks, updateQueue, Bool.and_eq_true, decide_eq_true_eq]

theorem dispatch_kept {item : QueueItem} {now : ℤ}
    (h : ∀ q ∈ db.queue, q.id = item.id → q.attemptId.isSome) :
    db.Kept (db.dispatch item now) := by
  have hupdate : db.Kept (db.updateQueue (fun q => q.id = item.id && q.status = .queued) fun q =>
      { q with status := .running, startedAt := some now }) := by
    refine ⟨fun q' hq' => ?_, fun a ha => ⟨a, ha, .refl a⟩, le_rfl, fun hs => ?_⟩
    · obtain ⟨q, hq, rfl⟩ := List.mem_map.1 hq'
      refine Or.inl ⟨q, hq, ?_, ?_⟩
      · split <;> rfl
      · split
        · intro hst
          cases hst
        · exact fun hst => hst
    · apply mapQueue_schema hs
      · intro q
        split <;> rfl
      · intro q
        split <;> rfl
      · intro q hq hst
        split at hst
        · rename_i hw
          simp only [Bool.and_eq_true, decide_eq_true_eq] at hw
          exact h q hq hw.1
        · exact hs.running q hq hst
  exact hupdate.trans (updateTasks_calm _ _).kept

theorem claimAt_kept {agentId : Option String} {now : ℤ} {r : Option QueueItem}
    (hs : db.Schema) (h : claimAt agentId now db = .ok (r, db')) : db.Kept db' := by
  obtain ⟨db₁, hcalm, ⟨-, rfl⟩ | ⟨item, hitem, rfl, -⟩⟩ := claimAt_cases hs h
  · exact hcalm.kept
  · refine hcalm.kept.trans (dispatch_kept fun q hq hid => ?_)
    obtain ⟨hmem, t, candidate, -, hc, -⟩ := nextClaim_claimable hitem
    have hs₁ := hcalm.schema hs
    have heq : q = item := by
      have h1 := hs₁.item?_of_mem hq
      rw [hid, hs₁.item?_of_mem hmem] at h1
      exact (Option.some.inj h1).symm
    obtain ⟨i, hi, -⟩ := Option.bind_eq_some_iff.1 hc
    rw [heq, hi]
    rfl

/-! ## Recovery -/

theorem settle_calm {a : WorkAttempt} {now : ℤ} (q : QueueItem) : RowCalm q (settle now a q) := by
  by_cases hc : a.status = .completed
  · exact .stopped rfl (by simp [settle, hc]) (by simp [settle, hc])
  · exact .stopped rfl (by simp [settle, hc]) (by simp [settle, hc])

theorem recoverFinalize_calm (now : ℤ) : db.Calm (db.recoverFinalize now) := by
  refine Calm.trans (mapQueue_calm ?_ ?_) (updateAttempts_calm (fun _ => rfl) (fun _ => rfl)
    fun a _ _ => .columns rfl rfl rfl rfl fun _ => rfl)
  · intro q
    split
    · split <;> rfl
    · rfl
  · intro q
    split
    · split
      · exact settle_calm q
      · exact .refl q
    · exact .refl q

theorem finalizeReleased_calm (id : ℕ) (now : ℤ) : db.Calm (db.finalizeReleased id now) := by
  apply mapQueue_calm
  · intro q
    split
    · split <;> rfl
    · rfl
  · intro q
    split
    · split
      · exact settle_calm q
      · exact .refl q
    · exact .refl q

theorem mem_orphans {o : Orphan} (h : o ∈ db.orphans) : ∃ q ∈ db.queue, ∃ a,
    db.attemptOf q = some a ∧ q.status = .running ∧ ¬a.ended ∧ o = ⟨q.id, a.id, q.taskId⟩ := by
  obtain ⟨q, hq, h⟩ := List.mem_filterMap.1 h
  obtain ⟨a, ha, h⟩ := Option.bind_eq_some_iff.1 h
  split at h
  · rename_i hc
    cases h
    simp only [Bool.and_eq_true, decide_eq_true_eq, Bool.not_eq_true'] at hc
    exact ⟨q, hq, a, ha, hc.1, by simp [WorkAttempt.ended, hc.2], rfl⟩
  · cases h

theorem attemptOf_link {q : QueueItem} {a : WorkAttempt} (hs : db.Schema) (hq : q ∈ db.queue)
    (h : db.attemptOf q = some a) : a ∈ db.attempts ∧ q.attemptId = some a.id ∧
      a.queueId = some q.id := by
  obtain ⟨i, hi, ha⟩ := Option.bind_eq_some_iff.1 h
  obtain ⟨hmem, hid⟩ := attempt?_mem ha
  obtain ⟨b, hb, hbi, hbq⟩ := hs.links q hq i hi
  have heq := hs.eq_of_id hb hmem (hbi.trans hid.symm)
  exact ⟨hmem, by rw [hi, hid], heq ▸ hbq⟩

theorem recoverRead_calm : db.Calm db.recoverRead where
  queue q hq := Or.inl ⟨q, hq, .refl q⟩
  attempts a ha := ⟨a, ha, .refl a⟩
  next := le_rfl
  schema hs :=
    { hs with
      orphans := fun o ho => by
        obtain ⟨q, hq, a, ha, -, -, rfl⟩ := mem_orphans ho
        obtain ⟨hmem, -, hlink⟩ := attemptOf_link hs hq ha
        exact ⟨a, hmem, rfl, hlink⟩ }

theorem requeue_schema (o : Orphan) (hs : db.Schema) : (db.requeue o).Schema := by
  refine (updateTasks_calm _ _).schema (updateAttempts_schema ?_ (fun _ => rfl) fun _ => rfl)
  apply mapQueue_schema hs
  · intro q
    split <;> rfl
  · intro q
    split <;> rfl
  · intro q hq hst
    split at hst
    · cases hst
    · exact hs.running q hq hst

theorem recoverRequeue_schema (hs : db.Schema) : db.recoverRequeue.Schema := by
  have hfold : ∀ (os : List Orphan) (db : Db), db.Schema →
      (os.foldl (fun db o => db.requeue o) db).Schema := by
    intro os
    induction os with
    | nil => exact fun _ h => h
    | cons o os ih => exact fun db h => ih _ (requeue_schema o h)
  exact { hfold db.orphaned db hs with orphans := by simp [recoverRequeue] }

/-! ## Attempts -/

theorem updateAttempts_unfinished {w : WorkAttempt → Bool} {set : WorkAttempt → WorkAttempt}
    (hid : ∀ a, (set a).id = a.id) (hqueue : ∀ a, (set a).queueId = a.queueId)
    (h : ∀ a ∈ db.attempts, w a → ¬a.ended) : db.Calm (db.updateAttempts w set) :=
  updateAttempts_calm hid hqueue fun a ha hw => .unfinished (hid a) (hqueue a) (h a ha hw)

theorem not_ended_of_guard {p : Bool} {a : WorkAttempt} (h : (p && !a.status.terminal) = true) :
    ¬a.ended := by
  simp only [Bool.and_eq_true, Bool.not_eq_true'] at h
  simp [WorkAttempt.ended, h.2]

theorem updateQueue_done (w : QueueItem → Bool) (response : String) (now : ℤ) :
    db.Calm (db.updateQueue w (done response now)) :=
  updateQueue_calm (fun _ _ => rfl) fun q _ =>
    RowCalm.stopped rfl (by simp [done]) (by simp [done])

theorem completeFinalAssistantAttempt_calm (taskId : String) (queueId attemptId : ℕ)
    (content : String) (now : ℤ) :
    Tx.Calm (completeFinalAssistantAttempt taskId queueId attemptId content now) := by
  intro db hs r db' h
  unfold completeFinalAssistantAttempt at h
  split at h
  · cases h
    exact .refl db
  · obtain ⟨⟨m, db₁⟩, h1, h⟩ := bind_ok h
    cases h
    have hanswered : db₁.Calm (db₁.updateAttempts
        (fun a => a.id = attemptId && !a.status.terminal) (answered content now)) :=
      updateAttempts_unfinished (fun _ => rfl) (fun _ => rfl) fun a _ hw => not_ended_of_guard hw
    exact (insertTextMessage_calm taskId "assistant" db hs _ _ h1).trans
      (hanswered.trans (updateQueue_done _ content now))

theorem transitionAttempt_calm (attemptId : ℕ) (status : AttemptStatus)
    (result errorMessage : Option String) (now : ℤ) :
    Tx.Calm (transitionAttempt attemptId status result errorMessage now) := by
  intro db _ r db' h
  unfold transitionAttempt at h
  split at h
  · cases h
  · cases h
    exact updateAttempts_unfinished (fun _ => rfl) (fun _ => rfl) fun a _ hw =>
      not_ended_of_guard hw

theorem setContainer_kept (attemptId : ℕ) (containerId : String) :
    db.Kept (db.setContainer attemptId containerId) :=
  updateAttempts_kept (fun _ => rfl) (fun _ => rfl) fun _ _ _ => ⟨rfl, rfl, fun _ => ⟨rfl, rfl⟩⟩

theorem setContainer_calm {attemptId : ℕ} {containerId : String}
    (h : ∀ a ∈ db.attempts, a.id = attemptId → ¬a.ended) :
    db.Calm (db.setContainer attemptId containerId) :=
  updateAttempts_unfinished (fun _ => rfl) (fun _ => rfl) fun a ha hw => h a ha (by simpa using hw)

theorem clearContainer_calm (attemptId : ℕ) : db.Calm (db.clearContainer attemptId) :=
  updateAttempts_calm (fun _ => rfl) (fun _ => rfl) fun _ _ _ =>
    .columns rfl rfl rfl rfl fun _ => rfl

theorem updateQueue_released (w : QueueItem → Bool) (response : Option String) (now : ℤ) :
    db.Calm (db.updateQueue w (released response now)) :=
  updateQueue_calm (fun _ _ => rfl) fun q _ =>
    RowCalm.stopped rfl (by simp [released]) (by simp [released])

theorem retirePrompt_calm (a : WorkAttempt) (prompt : Option ℕ) :
    db.Calm (db.retirePrompt a prompt) := by
  unfold retirePrompt
  split
  · split
    · exact .refl db
    · exact .plan rfl rfl rfl rfl rfl rfl
  · exact .refl db

theorem stopMonitoring_calm (w : PullRequest → Bool) : db.Calm (db.stopMonitoring w) :=
  .plan rfl rfl rfl rfl rfl rfl

theorem foldl_calm {β : Type} {f : Db → β → Db} (hf : ∀ (db : Db) b, db.Calm (f db b)) (l : List β)
    (db : Db) : db.Calm (l.foldl f db) := by
  induction l generalizing db with
  | nil => exact .refl db
  | cons b l ih => exact (hf db b).trans (ih _)

theorem cancelTaskAttempts_calm (taskId : String) (now : ℤ) :
    Tx.Calm (cancelTaskAttempts taskId now) := by
  intro db _ r db' h
  unfold cancelTaskAttempts at h
  split at h
  · cases h
  · split at h
    · cases h
      exact .refl db
    · cases h
      have hattempts : db.Calm (db.updateAttempts
          (fun a => a.taskId = some taskId && !a.status.terminal) (cancelled none now)) :=
        updateAttempts_unfinished (fun _ => rfl) (fun _ => rfl) fun a _ hw => not_ended_of_guard hw
      refine hattempts.trans ((foldl_calm ?_ _ _).trans ((updateQueue_released _ _ now).trans
        ((updateTasks_calm _ _).trans ((updateTasks_calm _ _).trans (stopMonitoring_calm _)))))
      exact fun db a => retirePrompt_calm a _

theorem cancelOwned_calm {a : WorkAttempt} (hs : db.Schema) (ha : a ∈ db.attempts)
    (he : ¬a.ended) (prompt : ℕ) (now : ℤ) : db.Calm (db.cancelOwned a prompt now) := by
  have hcancelled : db.Calm (db.updateAttempts (·.id = a.id) (cancelled none now)) := by
    refine updateAttempts_unfinished (fun _ => rfl) (fun _ => rfl) fun b hb hw => ?_
    rw [hs.eq_of_id hb ha (by simpa using hw)]
    exact he
  exact hcancelled.trans ((updateQueue_released _ _ now).trans (retirePrompt_calm a _))

theorem cancelWorkflowAttempt_calm (attemptId : ℕ) (prompt : Option ℕ) (restore : TaskStatus)
    (now : ℤ) : Tx.Calm (cancelWorkflowAttempt attemptId prompt restore now) := by
  intro db hs r db' h
  unfold cancelWorkflowAttempt at h
  split at h
  · cases h
  · rename_i a ha
    cases prompt with
    | none =>
      cases h
      exact .refl db
    | some m =>
      dsimp only at h
      split at h
      · cases h
        exact .refl db
      · split at h
        · cases h
        · have hcalm : db.Calm (if a.status.terminal = true then db
              else db.cancelOwned a m now) := by
            split
            · exact .refl db
            · rename_i he
              exact cancelOwned_calm hs (attempt?_mem ha).1 he m now
          split at h
          · cases h
          · cases h
            exact hcalm.trans (updateTasks_calm _ _)

theorem releaseDispatch_calm (queueId : ℕ) (now : ℤ) : db.Calm (db.releaseDispatch queueId now) :=
  updateQueue_released _ _ now

theorem updateQueue_agent {w : QueueItem → Bool} (agentId : String)
    (h : ∀ q, w q → q.status = .queued) :
    db.Calm (db.updateQueue w fun q => { q with agentId := agentId }) :=
  updateQueue_calm (fun _ _ => rfl) fun q hw => RowCalm.waiting rfl (h q hw) rfl

theorem updateAttempts_session (w : WorkAttempt → Bool) (agentId : String) :
    db.Calm (db.updateAttempts w fun a => { a with sessionId := agentId }) :=
  updateAttempts_calm (fun _ => rfl) (fun _ => rfl) fun _ _ _ =>
    .columns rfl rfl rfl rfl fun hc => hc

theorem assign_calm (taskId agentId : String) : db.Calm (db.assign taskId agentId) :=
  (updateAttempts_session _ agentId).trans ((updateQueue_agent agentId fun q hw => by
    simp only [Bool.and_eq_true, decide_eq_true_eq] at hw
    exact hw.2).trans (updateTasks_calm _ _))

theorem synchronizeAgent_calm (taskId agentId : String) :
    db.Calm (db.synchronizeAgent taskId agentId) := by
  have hmoved : db.Calm (db.movePullRequests taskId agentId) := .plan rfl rfl rfl rfl rfl rfl
  refine hmoved.trans ((updateAttempts_session _ agentId).trans
    ((updateQueue_agent agentId fun q hw => ?_).trans (updateTasks_calm _ _)))
  simp only [Bool.and_eq_true, decide_eq_true_eq] at hw
  exact hw.2

/-! ## Connection and deletion -/

theorem stopTask_calm (hs : db.Schema) (commandId : String) (expiredAt : Option ℤ) (now : ℤ) :
    db.Calm (db.stopTask commandId expiredAt now).2 := by
  unfold stopTask
  split
  · exact .refl db
  · split
    · rename_i a _ ha
      split
      · exact .refl db
      · rename_i he
        obtain ⟨i, -, hi⟩ := Option.bind_eq_some_iff.1 ha
        have hstopped (uncertain : Bool) (error : String) : db.Calm
            (db.updateAttempts (·.id = a.id) (stopped uncertain error now)) := by
          refine updateAttempts_unfinished (fun _ => rfl) (fun _ => rfl) fun b hb hw => ?_
          rw [hs.eq_of_id hb (attempt?_mem hi).1 (by simpa using hw)]
          exact he
        exact (hstopped _ _).trans ((updateQueue_released _ _ now).trans (updateTasks_calm _ _))
    · exact .refl db

theorem connectRecover_calm (now : ℤ) : db.Calm (db.connectRecover now) := by
  have hstopped : db.Calm (db.updateAttempts (fun a => db.acceptedAttempt (some a.id) &&
      !a.status.terminal) (stopped true lostAfterRestart now)) :=
    updateAttempts_unfinished (fun _ => rfl) (fun _ => rfl) fun a _ hw => not_ended_of_guard hw
  exact (hstopped.trans (updateQueue_released _ _ now)).trans (updateTasks_calm _ _)

theorem beginCascade_calm (projectId : String) (now : ℤ) :
    Tx.Calm (beginCascade projectId now) := by
  intro db _ r db' h
  unfold beginCascade at h
  split at h
  · cases h
  · cases h
    have hmarked : db.Calm (db.markDeleting projectId) := .plan rfl rfl rfl rfl rfl rfl
    refine hmarked.trans (.trans ?_ ((updateQueue_released _ _ now).trans
      ((updateTasks_calm _ _).trans (stopMonitoring_calm _))))
    refine updateAttempts_unfinished (fun _ => rfl) (fun _ => rfl) fun a _ hw => ?_
    simp only [Bool.and_eq_true, Bool.not_eq_true'] at hw
    simp [WorkAttempt.ended, hw.1]

theorem replan_calm (plan : Db) : Tx.Calm (replan plan) := by
  intro db _ r db' h
  unfold replan at h
  split at h
  · rename_i hrefs
    cases h
    refine .of_eq rfl rfl rfl rfl rfl fun e he i hi => Or.inr ?_
    have hexists := List.all_eq_true.1 hrefs e he
    rw [hi] at hexists
    obtain ⟨a, ha⟩ := Option.isSome_iff_exists.1 hexists
    exact ⟨a, attempt?_mem ha⟩
  · cases h

end Db

/-! ## Every transaction -/

variable {needsUserInput : String → Bool} {db db' : Db}

theorem Op.quiet_calm {α : Type} {tx : Tx α} (h : tx.Calm) : Tx.Calm (Op.quiet tx) := by
  intro db hs r db' h'
  obtain ⟨⟨_, db₁⟩, h1, h'⟩ := bind_ok h'
  cases h'
  exact h db hs _ _ h1

theorem Op.always_calm {f : Db → Db} (h : ∀ db : Db, db.Schema → db.Calm (f db)) :
    Tx.Calm (Op.always f) := by
  intro db hs r db' h'
  cases h'
  exact h db hs

/-- The transaction may start or revive a dispatch, or undo how an attempt ended. -/
def Op.Stirs : Op → Prop
  | .claim _ _ | .recoverRequeue | .setContainer _ _ => True
  | _ => False

/-- Every other transaction is calm. -/
theorem exec_calm {op : Op} (hop : ¬op.Stirs) : Tx.Calm (op.exec needsUserInput) := by
  cases op with
  | enqueue t a now => exact Op.quiet_calm (Db.enqueue_calm t a now)
  | enqueuePlatform t a now => exact Op.quiet_calm (Db.enqueueAuthorized_calm t a now)
  | ensureEnqueued t a now => exact Op.quiet_calm (Db.ensureEnqueued_calm t a now)
  | enqueueContinuation t a now => exact Op.quiet_calm (Db.enqueueContinuation_calm t a now)
  | createAttempt s t q now => exact Op.quiet_calm (Db.createAttempt_calm s t q now)
  | discardItem id => exact Op.always_calm fun db _ => Db.discardItem_calm id
  | addMessage t role => exact Op.quiet_calm (Db.insertTextMessage_calm t role)
  | enqueueForMessage t a m now =>
    intro db hs r db' h
    obtain ⟨⟨⟨item, i⟩, db₁⟩, h1, h⟩ := bind_ok h
    cases h
    exact Db.enqueueContinuationForMessage_calm t a m now db hs _ _ h1
  | addUserMessage t a now =>
    intro db hs r db' h
    obtain ⟨⟨⟨m, i⟩, db₁⟩, h1, h⟩ := bind_ok h
    cases h
    exact Db.addUserMessage_calm t a now db hs _ _ h1
  | enqueueReviewFollowUp t now =>
    intro db hs r db' h
    obtain ⟨⟨x, db₁⟩, h1, h⟩ := bind_ok h
    cases h
    exact Db.enqueueReviewFollowUp_calm t now db hs _ _ h1
  | createContinuation e t now => exact Op.quiet_calm (Db.createContinuation_calm e t now)
  | dispatchWaiting e t now => exact Op.quiet_calm (Db.dispatchWaiting_calm e t now)
  | claim a now => exact absurd trivial hop
  | recoverFinalize now => exact Op.always_calm fun db _ => Db.recoverFinalize_calm now
  | recoverRead => exact Op.always_calm fun db _ => Db.recoverRead_calm
  | recoverRequeue => exact absurd trivial hop
  | complete id response now =>
    exact Op.always_calm fun db _ => Db.updateQueue_done _ response now
  | fail id error now => exact Op.always_calm fun db _ => Db.updateQueue_failed _ error now
  | finalizeReleased id now => exact Op.always_calm fun db _ => Db.finalizeReleased_calm id now
  | completeFinal t q a content now =>
    exact Op.quiet_calm (Db.completeFinalAssistantAttempt_calm t q a content now)
  | transition a status result error now =>
    exact Op.quiet_calm (Db.transitionAttempt_calm a status result error now)
  | setContainer a c => exact absurd trivial hop
  | clearContainer a => exact Op.always_calm fun db _ => Db.clearContainer_calm a
  | cancelTask t now => exact Op.quiet_calm (Db.cancelTaskAttempts_calm t now)
  | cancelWorkflowAttempt a prompt restore now =>
    exact Op.quiet_calm (Db.cancelWorkflowAttempt_calm a prompt restore now)
  | releaseDispatch q now => exact Op.always_calm fun db _ => Db.releaseDispatch_calm q now
  | assign t a => exact Op.always_calm fun db _ => Db.assign_calm t a
  | synchronizeAgent t a => exact Op.always_calm fun db _ => Db.synchronizeAgent_calm t a
  | retireStale t now => exact Op.always_calm fun db hs => Db.retireStale_calm hs t now
  | stopTask c expired now =>
    exact Op.always_calm fun db hs => Db.stopTask_calm hs c expired now
  | connectRecover now => exact Op.always_calm fun db _ => Db.connectRecover_calm now
  | beginCascade p now => exact Op.quiet_calm (Db.beginCascade_calm p now)
  | replan plan => exact Op.quiet_calm (Db.replan_calm plan)

theorem step_cases (needsUserInput : String → Bool) (db : Db) (op : Op) :
    (∃ r, op.exec needsUserInput db = .ok (r, step needsUserInput db op)) ∨
      step needsUserInput db op = db := by
  unfold step
  cases h : op.exec needsUserInput db with
  | error e => exact Or.inr rfl
  | ok p => exact Or.inl ⟨p.1, rfl⟩

theorem exec_of_reply {op : Op} {r : Reply} (h : reply needsUserInput db op = some r) :
    op.exec needsUserInput db = .ok (r, step needsUserInput db op) := by
  unfold reply at h
  unfold step
  cases hx : op.exec needsUserInput db with
  | error e =>
    rw [hx] at h
    cases h
  | ok p =>
    rw [hx] at h
    cases h
    rfl

theorem step_calm {op : Op} (hs : db.Schema) (hop : ¬op.Stirs) :
    db.Calm (step needsUserInput db op) := by
  obtain ⟨r, h⟩ | h := step_cases needsUserInput db op
  · exact exec_calm hop db hs r _ h
  · rw [h]
    exact .refl db

/-- The schema outlives every transaction. -/
theorem step_schema (op : Op) (hs : db.Schema) : (step needsUserInput db op).Schema := by
  by_cases hop : op.Stirs
  · cases op with
    | claim a now =>
      obtain ⟨r, h⟩ | h := step_cases needsUserInput db (.claim a now)
      · obtain ⟨⟨item, db₁⟩, h1, h2⟩ := bind_ok h
        cases h2
        exact (Db.claimAt_kept hs h1).schema hs
      · rw [h]
        exact hs
    | recoverRequeue => exact Db.recoverRequeue_schema hs
    | setContainer a c => exact (Db.setContainer_kept a c).schema hs
    | _ => exact hop.elim
  · exact (step_calm hs hop).schema hs

theorem run_schema (needsUserInput : String → Bool) (hs : db.Schema) (ops : List Op) :
    (runOps (step needsUserInput) db ops).Schema :=
  runOps_invariant (fun _ op h => step_schema op h) hs ops

end XpressClaw.Tasks
