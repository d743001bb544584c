import XpressClaw.Workflow.Targets

/-!
# Steps of the same id in several flows

Ids have to be unique within a flow only, but the cycle guard and the attempt number of an
execution count every execution of the instance that has the id, in whatever flow.

* `attempts_split` — what the count has too much, exactly.
* `budgets_separate_in_every_run` — a step whose id no other flow uses counts its own executions.
* `shared_budget` — of two steps that share an id, each uses up the budget of the other.
-/

namespace XpressClaw

open Lib InstanceManager

/-! ## Counts -/

namespace Db

variable (db : Db)

/-- The executions of a step of one flow. -/
def ownAttempts (inst : ℕ) (flow stepId : String) : ℕ :=
  (db.executions.filter fun e => e.instanceId = inst ∧ e.flowName = flow ∧ e.stepId = stepId).length

/-- The executions that have the id of the step and stand in another flow. -/
def otherAttempts (inst : ℕ) (flow stepId : String) : ℕ :=
  (db.executions.filter fun e => e.instanceId = inst ∧ e.flowName ≠ flow ∧ e.stepId = stepId).length

/-- The rows that were there when an execution was inserted: rows are only appended. -/
def before (e : Execution) : List Execution := db.executions.takeWhile fun x => x.id ≠ e.id

/-- The column `attempt` of an execution. -/
def attempt (e : Execution) : ℕ :=
  ((db.before e).filter fun x => x.instanceId = e.instanceId ∧ x.stepId = e.stepId).length + 1

/-- The number of an execution among those of its step in its flow. -/
def ownAttempt (e : Execution) : ℕ :=
  ((db.before e).filter fun x => x.instanceId = e.instanceId ∧ x.flowName = e.flowName ∧
    x.stepId = e.stepId).length + 1

end Db

variable {db : Db} {inst : ℕ} {flow stepId : String}

/-- **What the guard counts.** -/
theorem attempts_split : db.stepAttemptCount inst stepId =
    db.ownAttempts inst flow stepId + db.otherAttempts inst flow stepId := by
  unfold Db.stepAttemptCount Db.ownAttempts Db.otherAttempts
  simp only [← List.countP_eq_length_filter]
  induction db.executions with
  | nil => rfl
  | cons e es ih =>
    rw [List.countP_cons, List.countP_cons, List.countP_cons, ih]
    by_cases hflow : e.flowName = flow
    · simp [hflow]
      omega
    · simp [hflow]
      omega

/-- The guard counts the step's own executions as long as no other flow has any. -/
theorem stepAttemptCount_eq_iff : db.stepAttemptCount inst stepId =
    db.ownAttempts inst flow stepId ↔
    ∀ e ∈ db.executions, e.instanceId = inst → e.stepId = stepId → e.flowName = flow := by
  have hzero : db.otherAttempts inst flow stepId = 0 ↔
      ∀ e ∈ db.executions, e.instanceId = inst → e.stepId = stepId → e.flowName = flow := by
    rw [Db.otherAttempts, List.length_eq_zero_iff, List.filter_eq_nil_iff]
    simp only [decide_eq_true_eq]
    constructor
    · intro h e he hi hid
      by_contra hf
      exact h e he ⟨hi, hf, hid⟩
    · rintro h e he ⟨hi, hf, hid⟩
      exact hf (h e he hi hid)
  have hsplit : db.stepAttemptCount inst stepId =
      db.ownAttempts inst flow stepId + db.otherAttempts inst flow stepId := attempts_split
  rw [hsplit, ← hzero]
  omega

/-! ## Every run -/

/-- No other flow has a step of that id, and it is not the one that source gates have. -/
def Definition.OwnId (d : Definition) (flow stepId : String) : Prop :=
  stepId ≠ sourceTaskStepId ∧ ∀ f ∈ d.flows, stepId ∈ collectIds f.2.steps → f.1 = flow

instance (d : Definition) (flow stepId : String) : Decidable (d.OwnId flow stepId) :=
  inferInstanceAs (Decidable (_ ∧ _))

theorem Definition.OwnId.flow_eq {d : Definition} (h : d.OwnId flow stepId) (hw : WellFormed db)
    (hr : db.Runs inst d) {e : Execution} (he : e ∈ db.executions) (hi : e.instanceId = inst)
    (hid : e.stepId = stepId) : e.flowName = flow := by
  obtain ⟨hne, huniq⟩ := h
  have hsaw := sawExecution_of_execution? hw (hw.execution?_of_mem he)
  rcases (hsaw.placed (hi ▸ hr)).stands with hgate | ⟨f, hf, hmem⟩
  · exact absurd (hid.symm.trans hgate) hne
  · exact huniq _ (d.mem_flows_of_flow? hf) (hid ▸ hmem)

/-- **A step that shares its id with no other flow has its budget for itself.**  In every state of
every run the guard counts the executions of that step of that flow, and each of these has its
own number as its attempt. -/
theorem budgets_separate_in_every_run (host : Host) (fuel : ℕ) {db : Db}
    (hdb : db.Initial host.toEnv) (ops : List Op) (schedule : List ℕ) {inst : ℕ} {d : Definition}
    (hr : (calls host fuel db ops schedule).store.Runs inst d) {flow stepId : String}
    (hown : d.OwnId flow stepId) :
    (calls host fuel db ops schedule).store.stepAttemptCount inst stepId =
        (calls host fuel db ops schedule).store.ownAttempts inst flow stepId ∧
      ∀ e ∈ (calls host fuel db ops schedule).store.executions, e.instanceId = inst →
        e.stepId = stepId → e.flowName = flow ∧
          (calls host fuel db ops schedule).store.attempt e =
            (calls host fuel db ops schedule).store.ownAttempt e := by
  have hw := calls_wellFormed fuel hdb ops schedule
  generalize (calls host fuel db ops schedule).store = t at hr hw ⊢
  have hflow : ∀ e ∈ t.executions, e.instanceId = inst → e.stepId = stepId → e.flowName = flow :=
    fun e he hi hid => hown.flow_eq hw hr he hi hid
  refine ⟨stepAttemptCount_eq_iff.2 hflow, fun e he hi hid => ⟨hflow e he hi hid, ?_⟩⟩
  rw [Db.attempt, Db.ownAttempt]
  congr 2
  refine List.filter_congr fun x hx => ?_
  have hmem := (List.takeWhile_sublist _).subset hx
  have heq : x.instanceId = e.instanceId → x.stepId = e.stepId → x.flowName = e.flowName := by
    intro h1 h2
    rw [hflow x hmem (h1.trans hi) (h2.trans hid), hflow e he hi hid]
  simp only [decide_eq_decide]
  constructor
  · rintro ⟨h1, h2⟩
    exact ⟨h1, heq h1 h2, h2⟩
  · rintro ⟨h1, -, h2⟩
    exact ⟨h1, h2⟩

/-- Two flows that jump to each other, with ids of their own. -/
def circling : Definition where
  name := "circling"
  flows :=
    [("main", ⟨[{ id := "turn", stepType := .jump, target := some "flow other" }]⟩),
     ("other", ⟨[{ id := "back", stepType := .jump, target := some "flow main" }]⟩)]

def circlingDb : Db where
  workflows := [{ id := 0, name := "circling", definition := circling }]
  nextId := 1

theorem circlingDb_initial : circlingDb.Initial plainHost.toEnv where
  workflows := by
    intro w hw
    obtain rfl := List.mem_singleton.1 hw
    rfl
  instances := rfl
  executions := rfl
  log := rfl

/-- One start of the workflow, until it has come back to its first step twice. -/
def circlingRun : Db :=
  (calls plainHost 7 circlingDb [.start 0 (.obj []) {} none] (List.replicate 48 0)).store

theorem circling_budget : ∃ i ∈ circlingRun.instances,
    circlingRun.ownAttempts i.id "main" "turn" = 3 ∧
    circlingRun.stepAttemptCount i.id "turn" = circlingRun.ownAttempts i.id "main" "turn" ∧
    ∀ e ∈ circlingRun.executions, e.instanceId = i.id → e.stepId = "turn" →
      e.flowName = "main" ∧ circlingRun.attempt e = circlingRun.ownAttempt e := by
  have hwf := calls_wellFormed 7 circlingDb_initial [.start 0 (.obj []) {} none]
    (List.replicate 48 0)
  have hrow : ∃ i ∈ circlingRun.instances, circlingRun.ownAttempts i.id "main" "turn" = 3 ∧
      (i.definition.any fun d => decide (d.OwnId "main" "turn")) = true := by decide +kernel
  obtain ⟨i, hi, hthree, hany⟩ := hrow
  have hrun := hi
  unfold circlingRun at hrun
  cases hd : i.definition with
  | none => simp [hd] at hany
  | some d =>
      rw [hd, Option.any_some, decide_eq_true_eq] at hany
      refine ⟨i, hi, hthree, ?_⟩
      unfold circlingRun
      exact budgets_separate_in_every_run plainHost 7 circlingDb_initial
        [.start 0 (.obj []) {} none] (List.replicate 48 0) ⟨i, hwf.instance?_of_mem hrun, hd⟩ hany

/-! ## Two flows that share an id -/

/-- Two flows that jump to each other, each with a step `turn`. -/
def pingPong : Definition where
  name := "ping-pong"
  flows :=
    [("main", ⟨[{ id := "turn", stepType := .jump, target := some "flow other" }]⟩),
     ("other", ⟨[{ id := "turn", stepType := .jump, target := some "flow main" }]⟩)]

def pingPongDb : Db where
  workflows := [{ id := 0, name := "ping-pong", definition := pingPong }]
  nextId := 1

theorem pingPongDb_initial : pingPongDb.Initial plainHost.toEnv where
  workflows := by
    intro w hw
    obtain rfl := List.mem_singleton.1 hw
    rfl
  instances := rfl
  executions := rfl
  log := rfl

/-- One start of the workflow, until it has used up a budget. -/
def pingPongRun : Db :=
  (calls plainHost 13 pingPongDb [.start 0 (.obj []) {} none] (List.replicate 130 0)).store

/-- The step of `main` is refused its sixth execution, as the step of `other` had five. -/
theorem shared_budget : pingPongDb.Initial plainHost.toEnv ∧
    ∃ i ∈ pingPongRun.instances, i.status = .failed ∧
      i.errorMessage = some "step 'turn' exceeded max cycles (10)" ∧
      pingPongRun.ownAttempts i.id "main" "turn" = 5 ∧
      pingPongRun.stepAttemptCount i.id "turn" = 10 :=
  ⟨pingPongDb_initial, by decide +kernel⟩

end XpressClaw
