import XpressClaw.Workflow.Frame

/-!
# Beside the rows of the engine

The task layer, and every lookup of a step, leaves workflows, instances and executions as they
are, but for the columns that tie an execution to an attempt.  What such a transaction does to
tasks, queue items, attempts and messages matters to nobody who reasons about the engine, so it is
said once here, and both walks over the engine use it.

* `Aside` — one such transaction.
* `Aside.Always` — one that is such whatever it finds; `p.Each Aside.Always` is a program of these.
-/

namespace XpressClaw

open Lib InstanceManager

/-- Two states of an execution that differ at most in what ties it to an attempt. -/
structure SameRow (e f : Execution) : Prop where
  same : SameExecution e f
  status : f.status = e.status
  output : f.output = e.output
  commandResult : f.commandResult = e.commandResult
  commandStartedAt : f.commandStartedAt = e.commandStartedAt

@[refl] theorem SameRow.refl (e : Execution) : SameRow e e := ⟨.refl e, rfl, rfl, rfl, rfl⟩

theorem SameRow.trans {e f g : Execution} (h : SameRow e f) (h' : SameRow f g) : SameRow e g :=
  ⟨h.same.trans h'.same, h'.status.trans h.status, h'.output.trans h.output,
    h'.commandResult.trans h.commandResult, h'.commandStartedAt.trans h.commandStartedAt⟩

/-- The transaction writes beside the rows of the engine. -/
structure Aside (s t : Db) : Prop where
  workflows : t.workflows = s.workflows
  instances : t.instances = s.instances
  executions : ∃ g : Execution → Execution, (∀ e, SameRow e (g e)) ∧
    t.executions = s.executions.map g
  log : t.log = s.log
  nextId : s.nextId ≤ t.nextId

namespace Aside

variable {s t u : Db}

theorem rest (hw : t.workflows = s.workflows) (hi : t.instances = s.instances)
    (he : t.executions = s.executions) (hl : t.log = s.log) (hn : s.nextId ≤ t.nextId) :
    Aside s t :=
  ⟨hw, hi, ⟨id, .refl, by rw [he, List.map_id]⟩, hl, hn⟩

theorem refl (s : Db) : Aside s s := .rest rfl rfl rfl rfl le_rfl

theorem trans (h : Aside s t) (h' : Aside t u) : Aside s u := by
  obtain ⟨g, hg, he⟩ := h.executions
  obtain ⟨g', hg', he'⟩ := h'.executions
  refine ⟨h'.workflows.trans h.workflows, h'.instances.trans h.instances, ⟨g' ∘ g, ?_, ?_⟩,
    h'.log.trans h.log, h.nextId.trans h'.nextId⟩
  · exact fun e => (hg e).trans (hg' _)
  · rw [he', he, List.map_map]

theorem setWork (s : Db) (w : Work) : Aside s (s.setWork w) := .rest rfl rfl rfl rfl le_rfl

theorem work {w : Work} {n : ℕ} (hn : s.nextId ≤ n) : Aside s { s with work := w, nextId := n } :=
  .rest rfl rfl rfl rfl hn

/-- An execution is tied to an attempt. -/
theorem setExecution {id : ℕ} {g : Execution → Execution} (hg : ∀ e, SameRow e (g e)) :
    Aside s (s.setExecution id g) := by
  refine ⟨rfl, rfl, ⟨fun e => if e.id = id then g e else e, fun e => ?_, rfl⟩, rfl, le_rfl⟩
  dsimp only
  split
  · exact hg e
  · exact .refl e

/-- The transaction is beside the rows, whatever it finds. -/
def Always (f : Db → Db) : Prop := ∀ s, Aside s (f s)

end Aside

/-! ## Programs -/

section

variable {α : Type}

theorem read_aside {q : Db → α} : (Prog.read q : Run α).Each Aside.Always :=
  Prog.each_read Aside.refl

theorem fetch_aside {q : Db → Option α} {e : Err} : (fetch q e).Each Aside.Always :=
  read_aside.bind fun _ => Prog.each_orFail

theorem tx_aside {f : Db → Except Err (α × Db)} (h : ∀ s a s', f s = .ok (a, s') → Aside s s') :
    (Prog.tx f : Run α).Each Aside.Always :=
  Prog.each_tx Aside.refl h

theorem update_each {R : Db → Db → Prop} {f : Db → Except Err Db} (hrefl : ∀ s, R s s)
    (h : ∀ s s', f s = .ok s' → R s s') : (update f).Each fun g => ∀ s, R s (g s) := by
  refine Prog.each_tx hrefl fun s a s' hs => ?_
  cases hf : f s with
  | ok w =>
    rw [hf] at hs
    cases hs
    exact h s s' hf
  | error e =>
    rw [hf] at hs
    cases hs

theorem update_aside {f : Db → Except Err Db} (h : ∀ s s', f s = .ok s' → Aside s s') :
    (update f).Each Aside.Always :=
  update_each Aside.refl h

end

/-! ## The task layer -/

theorem TaskBoard.get_aside {id : ℕ} : (TaskBoard.get id).Each Aside.Always := fetch_aside

theorem TaskBoard.create_aside {title agent : String} {descr conv project origin : Option String} :
    (TaskBoard.create title descr agent conv project origin).Each Aside.Always := by
  refine tx_aside fun s id s' h => ?_
  obtain ⟨_, -, h⟩ := bind_ok h
  obtain ⟨_, -, h⟩ := bind_ok h
  obtain ⟨_, -, h⟩ := bind_ok h
  obtain ⟨_, -, h⟩ := bind_ok h
  cases h
  exact .work (Nat.le_succ _)

theorem TaskBoard.updateStatus_aside {task : ℕ} {status : TaskStatus} :
    (TaskBoard.updateStatus task status).Each Aside.Always := by
  refine update_aside fun s s' h => ?_
  split at h
  · cases h
  · obtain ⟨-, -, h⟩ := bind_ok h
    cases h
    exact .setWork s _

namespace TaskQueue

theorem ensureQueued_aside {task : ℕ} {agent : String} :
    (ensureQueued task agent).Each Aside.Always := by
  refine tx_aside fun s r s' h => ?_
  split at h
  · cases h
    exact .refl s
  · obtain ⟨-, -, h⟩ := bind_ok h
    split at h
    · cases h
      exact .refl s
    · cases h
      exact .work (Nat.le_succ _)

theorem createAttemptForItem_aside {item task : ℕ} :
    (createAttemptForItem item task).Each Aside.Always := by
  refine Prog.Each.bind (Prog.Each.attempt (update_aside fun s s' h => ?_)) fun r => ?_
  · obtain ⟨-, -, h⟩ := bind_ok h
    cases h
    exact .work (Nat.le_succ _)
  · cases r with
    | ok _ => exact Prog.each_ret
    | error e => exact (Prog.each_write fun s => .setWork s _).bind fun _ => Prog.each_fail

theorem ensureEnqueued_aside {task : ℕ} {agent : String} :
    (ensureEnqueued task agent).Each Aside.Always := by
  refine ensureQueued_aside.bind fun item => ?_
  cases item with
  | none => exact Prog.each_ret
  | some item => exact createAttemptForItem_aside

variable {s t : Db} {host : Host}

theorem adoptContinuation_aside {task attempt : ℕ} :
    Aside s (adoptContinuation host s task attempt) := by
  unfold adoptContinuation
  split
  · refine .setExecution fun e => ?_
    split
    · exact ⟨⟨rfl, rfl, rfl, rfl, rfl, rfl, rfl, rfl, fun _ h => h⟩, rfl, rfl, rfl, rfl⟩
    · exact .refl e
  · exact .refl s

/-- What follows the reservation of a response: the message triggers it, a waiting
continuation adopts it, and the task is open again. -/
theorem reserve_aside {task attempt message : ℕ} :
    Aside s (reopen (adoptContinuation host (associateTrigger s attempt message) task attempt)
      task false) :=
  ((Aside.setWork s _).trans adoptContinuation_aside).trans (.setWork _ _)

theorem enqueueAuthorized_aside {task : ℕ} {agent : String} :
    Aside s (enqueueAuthorized s task agent).2 := by
  unfold enqueueAuthorized
  split
  · exact .refl s
  · exact .work (Nat.le_add_right _ 2)

theorem enqueueContinuationForMessage_aside {task message : ℕ} {agent : String}
    {item : Option QueueItem}
    (h : enqueueContinuationForMessage host s task agent message = .ok (item, t)) : Aside s t := by
  obtain ⟨-, -, h⟩ := bind_ok h
  split at h
  · split at h
    · cases h
      exact reserve_aside
    · cases h
  · dsimp only at h
    split at h
    · cases h
      exact enqueueAuthorized_aside.trans reserve_aside
    · cases h

end TaskQueue

theorem dispatchContinuation_aside {s t : Db} {host : Host} {task : ℕ} {agent prompt : String}
    {r : ℕ × ℕ} (h : dispatchContinuation host s task agent prompt = .ok (r, t)) : Aside s t := by
  unfold dispatchContinuation at h
  dsimp only at h
  split at h
  · cases h
  · rename_i item db henq
    have hdb : Aside s db := by
      refine Aside.trans ?_ (TaskQueue.enqueueContinuationForMessage_aside henq)
      exact .work (Nat.le_succ _)
    split at h
    · cases h
    · split at h
      · cases h
      · cases h
        exact hdb.trans (.setWork _ _)

theorem bindInstanceToAgentProject_aside {s t : Db} {inst : ℕ} {agent : String}
    (h : bindInstanceToAgentProject s inst agent = .ok t) : Aside s t := by
  unfold bindInstanceToAgentProject at h
  split at h
  · cases h
    exact .refl s
  · obtain ⟨-, -, h⟩ := bind_ok h
    split at h
    · cases h
      exact .refl s
    · cases h
      exact .rest rfl rfl rfl rfl le_rfl

/-! ## Pieces of steps and callbacks -/

section

variable {env : Env}

theorem resolveStepAgent_aside {step : Step} {ctx : Json} :
    (resolveStepAgent env step ctx).Each Aside.Always := by
  unfold resolveStepAgent
  split
  · exact Prog.each_fail
  · dsimp only
    split
    · exact Prog.each_fail
    · exact Prog.each_ret

theorem prepareTaskStep_aside {inst : ℕ} {step : Step} {ctx : Json} :
    (prepareTaskStep env inst step ctx).Each Aside.Always := by
  refine resolveStepAgent_aside.bind fun agent => fetch_aside.bind fun row =>
    read_aside.bind fun belongs => ?_
  dsimp only
  split
  · exact TaskBoard.create_aside.bind fun _ => Prog.each_ret
  · exact Prog.each_fail

theorem waitBoundary_aside {inst : ℕ} {previous : Option Json} :
    (waitBoundary env inst previous).Each Aside.Always := by
  unfold waitBoundary
  split
  · exact Prog.each_ret
  · refine read_aside.bind fun execs => ?_
    split
    · exact Prog.each_ret
    · exact read_aside.bind fun _ => Prog.each_ret

theorem ensureProject_aside {project : Option String} :
    (ensureProject project).Each Aside.Always := by
  unfold ensureProject
  split
  · exact Prog.each_ret
  · refine read_aside.bind fun found => ?_
    split
    · exact Prog.each_ret
    · exact Prog.each_fail

theorem checkAgents_aside {project : Option String} {bindings : List (String × String)} :
    (checkAgents project bindings).Each Aside.Always := by
  refine Prog.each_forEach fun b _ => fetch_aside.bind fun agent => ?_
  split
  · split
    · exact Prog.each_ret
    · exact Prog.each_fail
  · exact Prog.each_ret

theorem terminalAttemptCompletion_aside {attempt : ℕ} :
    (terminalAttemptCompletion attempt).Each Aside.Always :=
  fetch_aside.bind fun _ => Prog.each_ret

end

end XpressClaw
