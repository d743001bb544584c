import XpressClaw.Tasks.Calm

/-!
# Whose attempt a user message joins

A user message joins the newest queued response that no workflow continuation owns; without
one it is queued by `enqueue_in_transaction`, which hands back any queued row of the task.

* `associated_owned_iff` — a message lands on an attempt that a continuation owns exactly
  when continuations own every queued row of the task, and there is one (`Db.Reserved`).
* `user_messages_stay_apart` — so in every run whose user messages avoid such tasks, every
  message is associated with an attempt that no continuation owns.
-/

namespace XpressClaw.Tasks

open Lib

namespace Db

/-- The task has queued rows, and workflow continuations own all of them. -/
def Reserved (db : Db) (taskId : String) : Prop :=
  (∃ q ∈ db.queue, q.taskId = taskId ∧ q.status = .queued) ∧
    ∀ q ∈ db.queue, q.taskId = taskId → q.status = .queued → db.workflowOwned q.attemptId = true

instance (db : Db) (taskId : String) : Decidable (db.Reserved taskId) :=
  inferInstanceAs (Decidable (_ ∧ _))

variable {db db' : Db} {needsUserInput : String → Bool}

/-! ## The two places a message can go -/

theorem coalescible_not_owned {taskId : String} {i : Option ℕ}
    (h : db.coalescibleQueuedAttempt taskId = some i) :
    db.workflowOwned i = false ∧ ¬db.Reserved taskId := by
  obtain ⟨q, hq, rfl⟩ := Option.map_eq_some_iff.1 h
  have hmem := List.mem_of_getLast? hq
  simp only [List.mem_filter, Bool.and_eq_true, decide_eq_true_eq, Bool.not_eq_true'] at hmem
  obtain ⟨hqueue, ⟨htask, hqueued⟩, hfree⟩ := hmem
  refine ⟨hfree, fun hr => ?_⟩
  rw [hr.2 q hqueue htask hqueued] at hfree
  cases hfree

theorem coalescible_none {taskId : String} (h : db.coalescibleQueuedAttempt taskId = none)
    {q : QueueItem} (hq : q ∈ db.queue) (htask : q.taskId = taskId) (hqueued : q.status = .queued) :
    db.workflowOwned q.attemptId = true := by
  rw [coalescibleQueuedAttempt, Option.map_eq_none_iff, List.getLast?_eq_none_iff,
    List.filter_eq_nil_iff] at h
  simpa [htask, hqueued] using h q hq

theorem Schema.next_not_owned (hs : db.Schema) :
    db.workflowOwned (some db.nextAttemptId) = false := by
  simp only [workflowOwned, Option.any_some, List.any_eq_false, decide_eq_true_eq]
  intro e he hown
  obtain ⟨a, ha, hid⟩ := hs.continuations e he _ hown
  have hlt := hs.attemptIds a ha
  omega

/-- The row a message is queued with is owned exactly when every queued row is. -/
theorem enqueue_owned_iff (hs : db.Schema) {taskId agentId : String} {now : ℤ} {item : QueueItem}
    (hfree : db.coalescibleQueuedAttempt taskId = none)
    (h : enqueue taskId agentId now db = .ok (item, db')) :
    db.workflowOwned item.attemptId = true ↔ db.Reserved taskId := by
  obtain ⟨_, -, h⟩ := bind_ok h
  obtain ⟨_, -, h⟩ := bind_ok h
  split at h
  · rename_i q hfind
    cases h
    have hmem := List.mem_of_find?_eq_some hfind
    have hsome := List.find?_some hfind
    simp only [Bool.and_eq_true, decide_eq_true_eq] at hsome
    constructor
    · intro _
      exact ⟨⟨_, hmem, hsome⟩, fun q' hq' htask hqueued => coalescible_none hfree hq' htask hqueued⟩
    · intro hr
      exact hr.2 _ hmem hsome.1 hsome.2
  · rename_i hfind
    rw [enqueueNew_attempt h, hs.next_not_owned]
    constructor
    · intro hf
      cases hf
    · rintro ⟨⟨q, hq, htask, hqueued⟩, -⟩
      have hnone := List.find?_eq_none.1 hfind q hq
      simp [htask, hqueued] at hnone

/-! ## Messages -/

theorem enqueueContinuationForMessage_owned_iff (hs : db.Schema) {taskId agentId : String} {m : ℕ}
    {now : ℤ} {r : Option QueueItem × ℕ}
    (h : enqueueContinuationForMessage needsUserInput taskId agentId m now db = .ok (r, db')) :
    db.workflowOwned (some r.2) = true ↔ db.Reserved taskId := by
  obtain ⟨_, -, h⟩ := bind_ok h
  obtain ⟨_, -, h⟩ := bind_ok h
  split at h
  · rename_i i hsome
    obtain ⟨db₁, -, h⟩ := bind_ok h
    obtain ⟨db₂, -, h⟩ := bind_ok h
    cases h
    obtain ⟨hfree, hopen⟩ := coalescible_not_owned hsome
    simp [hfree, hopen]
  · cases h
  · rename_i hfree
    obtain ⟨⟨item, db₁⟩, h1, h⟩ := bind_ok h
    have howned := enqueue_owned_iff hs hfree h1
    dsimp only at h
    split at h
    · cases h
    · rename_i i hi
      obtain ⟨db₂, -, h⟩ := bind_ok h
      obtain ⟨db₃, -, h⟩ := bind_ok h
      cases h
      rw [← hi]
      exact howned

theorem enqueueReviewFollowUp_not_owned (hs : db.Schema) {taskId : String} {now : ℤ} {m i : ℕ}
    (h : enqueueReviewFollowUp taskId now db = .ok (some (m, i), db')) :
    db.workflowOwned (some i) = false := by
  obtain ⟨_, -, h⟩ := bind_ok h
  obtain ⟨_, -, h⟩ := bind_ok h
  split at h
  · cases h
  · split at h
    · cases h
    · split at h
      · cases h
      · dsimp only at h
        split at h
        · rename_i a hsome
          obtain ⟨db₁, -, h⟩ := bind_ok h
          cases h
          exact (coalescible_not_owned hsome).1
        · cases h
        · cases h
          exact hs.next_not_owned

end Db

/-! ## Runs -/

variable {needsUserInput : String → Bool}

/-- The task a user message is written to. -/
def Op.writesTo : Op → Option String
  | .enqueueForMessage taskId _ _ _ | .addUserMessage taskId _ _ => some taskId
  | _ => none

/-- A message lands on an owned attempt exactly when its task has nothing but owned rows
queued. -/
theorem associated_owned_iff {db : Db} (hs : db.Schema) {op : Op} {m i : ℕ}
    (h : reply needsUserInput db op = some (.associated m i)) :
    db.workflowOwned (some i) = true ↔ ∃ taskId ∈ op.writesTo, db.Reserved taskId := by
  have hexec := exec_of_reply h
  cases op with
  | enqueueForMessage taskId agentId m' now =>
    obtain ⟨⟨⟨item, i'⟩, db₁⟩, h1, h2⟩ := bind_ok hexec
    obtain ⟨hr, -⟩ := Prod.mk.inj (Except.ok.inj h2)
    cases hr
    simpa [Op.writesTo] using Db.enqueueContinuationForMessage_owned_iff hs h1
  | addUserMessage taskId agentId now =>
    obtain ⟨⟨⟨m', r⟩, db₁⟩, h1, h2⟩ := bind_ok hexec
    obtain ⟨hr, -⟩ := Prod.mk.inj (Except.ok.inj h2)
    obtain ⟨_, -, h1⟩ := bind_ok h1
    obtain ⟨⟨m₀, db₀⟩, hmsg, h1⟩ := bind_ok h1
    have hcalm := Db.insertTextMessage_calm taskId "user" db hs _ _ hmsg
    obtain ⟨_, -, hmsg⟩ := bind_ok hmsg
    cases hmsg
    cases agentId with
    | none =>
      cases h1
      cases hr
    | some agentId =>
      obtain ⟨⟨⟨item, i'⟩, db₂⟩, h3, h1⟩ := bind_ok h1
      cases h1
      cases hr
      have howned : db.workflowOwned (some i) = true ↔ db.Reserved taskId :=
        Db.enqueueContinuationForMessage_owned_iff (hcalm.schema hs) h3
      simpa [Op.writesTo] using howned
  | enqueueReviewFollowUp taskId now =>
    obtain ⟨⟨r, db₁⟩, h1, h2⟩ := bind_ok hexec
    obtain ⟨hr, -⟩ := Prod.mk.inj (Except.ok.inj h2)
    cases r with
    | none => cases hr
    | some p =>
      cases hr
      simp [Op.writesTo, Db.enqueueReviewFollowUp_not_owned hs h1]
  | claim agentId now =>
    obtain ⟨⟨item, db₁⟩, h1, h2⟩ := bind_ok hexec
    cases h2
  | _ =>
    first
    | cases hexec
    | (obtain ⟨⟨x, db₁⟩, h1, h2⟩ := bind_ok hexec
       cases h2)

/-- **User messages stay apart from workflow continuations.**  In every run whose user messages
go to tasks that are not reserved, no message of a user is ever associated with an attempt
that is the continuation of a workflow step. -/
theorem user_messages_stay_apart {db : Db} (hs : db.Schema) (ops : List Op)
    (hrun : Along (step needsUserInput)
      (fun db op => ∀ taskId ∈ op.writesTo, ¬db.Reserved taskId) db ops) :
    ∀ before op after, ops = before ++ op :: after → ∀ m i,
      reply needsUserInput (runOps (step needsUserInput) db before) op =
        some (.associated m i) →
      ∀ e ∈ (runOps (step needsUserInput) db before).executions,
        e.continuationAttemptId ≠ some i := by
  rintro before op after rfl m i hreply e he howns
  have howned := associated_owned_iff (run_schema needsUserInput hs before) hreply
  obtain ⟨taskId, htask, hreserved⟩ := howned.1 (by
    simp only [Db.workflowOwned, Option.any_some, List.any_eq_true, decide_eq_true_eq]
    exact ⟨e, he, howns⟩)
  exact (along_append.1 hrun).2.1 taskId htask hreserved

/-- A task that a running workflow instance continues. -/
def continuedTask : Db where
  projects := [{ id := "home" }]
  agents := [{ id := "atlas", projectId := some "home" }]
  tasks := [{ id := "report", agentId := some "atlas", projectId := some "home" }]
  instances := [{ id := "run", status := "running" }]

theorem schema_continuedTask : continuedTask.Schema := by
  constructor <;> simp [continuedTask]

/-- The continuation step of the instance. -/
def polish : StepExecution where
  id := "execution"
  instanceId := "run"
  flowName := "main"
  stepId := "polish"
  taskId := none
  status := ""

/-- The continuation is queued and claimed before the user writes. -/
theorem claimed_continuation_stays_apart :
    (runOps (step fun _ => false) continuedTask
      [.createContinuation polish "report" 1000, .claim none 2000]).workflowOwned (some 1) =
        false := by
  have hapart := @user_messages_stay_apart (fun _ => false) _ schema_continuedTask
    [.createContinuation polish "report" 1000, .claim none 2000,
      .addUserMessage "report" (some "atlas") 3000] (by decide +kernel)
    [.createContinuation polish "report" 1000, .claim none 2000] _ [] rfl 2 1 (by decide +kernel)
  simp only [Db.workflowOwned, Option.any_some, List.any_eq_false, decide_eq_true_eq]
  exact hapart

/-- The user writes while the continuation is still queued. -/
theorem message_joins_continuation :
    reply (fun _ => false) (runOps (step fun _ => false) continuedTask
      [.createContinuation polish "report" 1000]) (.addUserMessage "report" (some "atlas") 2000) =
        some (.associated 2 0) ∧
      (runOps (step fun _ => false) continuedTask
        [.createContinuation polish "report" 1000]).executions.map (·.continuationAttemptId) =
          [some 0] ∧
      (runOps (step fun _ => false) continuedTask
        [.createContinuation polish "report" 1000,
          .addUserMessage "report" (some "atlas") 2000]).attempts.map (·.triggerMessageId) =
          [some 2] := by
  decide +kernel

end XpressClaw.Tasks
