import XpressClaw.Workflow.Callbacks
import XpressClaw.Workflow.Names

/-!
# What a piece of the engine may change

Every transaction of the engine adds rows, changes the mutable columns of some rows,
and leaves the rest alone.  `Scope` says which instances and which executions a piece
of the engine may write (fresh rows always), and `Frame c s t` that the database went
from `s` to `t` within the scope `c`.  A frame is reflexive and transitive, and what a
row is — its id, its instance, its step, its definition — never changes.

`WellFormed` is the invariant that control-flow lookups rest on: definitions are well
targeted, executions stand at steps of their instance's definition, and so do loop
cursors and current executions.  Variables have names that the definition knows.
-/

namespace XpressClaw

open Lib

/-! ## Rows over time -/

/-- The columns of an instance that never change. -/
structure SameInstance (i j : Instance) : Prop where
  id : j.id = i.id
  workflowId : j.workflowId = i.workflowId
  sourceTaskId : j.sourceTaskId = i.sourceTaskId
  triggerData : j.triggerData = i.triggerData
  definition : j.definition = i.definition

/-- The columns of an execution that never change; a command result is kept once it is
there. -/
structure SameExecution (e f : Execution) : Prop where
  id : f.id = e.id
  instanceId : f.instanceId = e.instanceId
  flowName : f.flowName = e.flowName
  stepId : f.stepId = e.stepId
  taskId : f.taskId = e.taskId
  parentExecutionId : f.parentExecutionId = e.parentExecutionId
  waitState : f.waitState = e.waitState
  startedAt : f.startedAt = e.startedAt
  commandResult : ∀ r, e.commandResult = some r → f.commandResult = some r

@[refl] theorem SameInstance.refl (i : Instance) : SameInstance i i := ⟨rfl, rfl, rfl, rfl, rfl⟩

theorem SameInstance.trans {i j k : Instance} (h : SameInstance i j) (h' : SameInstance j k) :
    SameInstance i k :=
  ⟨h'.id.trans h.id, h'.workflowId.trans h.workflowId, h'.sourceTaskId.trans h.sourceTaskId,
    h'.triggerData.trans h.triggerData, h'.definition.trans h.definition⟩

@[refl] theorem SameExecution.refl (e : Execution) : SameExecution e e :=
  ⟨rfl, rfl, rfl, rfl, rfl, rfl, rfl, rfl, fun _ h => h⟩

theorem SameExecution.trans {e f g : Execution} (h : SameExecution e f) (h' : SameExecution f g) :
    SameExecution e g :=
  ⟨h'.id.trans h.id, h'.instanceId.trans h.instanceId, h'.flowName.trans h.flowName,
    h'.stepId.trans h.stepId, h'.taskId.trans h.taskId,
    h'.parentExecutionId.trans h.parentExecutionId, h'.waitState.trans h.waitState,
    h'.startedAt.trans h.startedAt, fun r hr => h'.commandResult r (h.commandResult r hr)⟩

/-- The instances and executions a piece of the engine may write.  What is created
from `base` on may always be written. -/
structure Scope where
  inst : ℕ → Prop
  exec : ℕ → Prop
  base : ℕ
  inst_fresh : ∀ id, base ≤ id → inst id
  exec_fresh : ∀ id, base ≤ id → exec id

/-- No restriction. -/
def Scope.all : Scope := ⟨fun _ => True, fun _ => True, 0, fun _ _ => trivial, fun _ _ => trivial⟩

/-- What a scope lets happen to an instance. -/
def KeepsInstance (c : Scope) (i j : Instance) : Prop := SameInstance i j ∧ (¬ c.inst i.id → j = i)

/-- What a scope lets happen to an execution: outside of it, the status and the output
stay. -/
def KeepsExecution (c : Scope) (e f : Execution) : Prop :=
  SameExecution e f ∧ (¬ c.exec e.id → f.status = e.status ∧ f.output = e.output)

/-- The executions an event is about may be written. -/
def Event.within (w : ℕ → Prop) : Event → Prop
  | .marked e _ => w e
  | .advanced e _ => w e
  | .recorded e _ _ => w e
  | .claimed p => w p
  | .joined p _ _ => w p
  | .goto _ _ _ => True
  | .notFound _ => True
  | .scheduled _ _ _ _ => True
  | .granted _ => True

/-- The database went from `s` to `t` within the scope `c`. -/
structure Frame (c : Scope) (s t : Db) : Prop where
  nextId : s.nextId ≤ t.nextId
  instances : Table.Evolves (KeepsInstance c) (fun j => s.nextId ≤ j.id ∧ j.id < t.nextId)
    s.instances t.instances
  executions : Table.Evolves (KeepsExecution c)
    (fun e => s.nextId ≤ e.id ∧ e.id < t.nextId ∧ c.inst e.instanceId ∧
      ∀ p, e.parentExecutionId = some p → s.nextId ≤ p)
    s.executions t.executions
  log : ∃ new, t.log = s.log ++ new ∧ ∀ ev ∈ new, ev.within c.exec

variable {c : Scope}

theorem KeepsInstance.refl (i : Instance) : KeepsInstance c i i := ⟨.refl i, fun _ => rfl⟩

theorem KeepsInstance.trans {i j k : Instance} (h : KeepsInstance c i j)
    (h' : KeepsInstance c j k) : KeepsInstance c i k := by
  refine ⟨h.1.trans h'.1, fun hn => ?_⟩
  rw [h'.2 (by rwa [h.1.id]), h.2 hn]

theorem KeepsExecution.refl (e : Execution) : KeepsExecution c e e := ⟨.refl e, fun _ => ⟨rfl, rfl⟩⟩

theorem KeepsExecution.trans {e f g : Execution} (h : KeepsExecution c e f)
    (h' : KeepsExecution c f g) : KeepsExecution c e g := by
  refine ⟨h.1.trans h'.1, fun hn => ?_⟩
  obtain ⟨h1, h2⟩ := h.2 hn
  obtain ⟨h3, h4⟩ := h'.2 (by rwa [h.1.id])
  exact ⟨h3.trans h1, h4.trans h2⟩

namespace Frame

variable {s t u : Db}

theorem refl (s : Db) : Frame c s s :=
  ⟨le_rfl, .refl KeepsInstance.refl _, .refl KeepsExecution.refl _, [], by simp, by simp⟩

theorem trans (h : Frame c s t) (h' : Frame c t u) : Frame c s u where
  nextId := h.nextId.trans h'.nextId
  instances := by
    have hn := h.nextId
    have hn' := h'.nextId
    refine Table.Evolves.trans
      (h.instances.mono (fun _ _ h => h) (M := fun j => s.nextId ≤ j.id ∧ j.id < u.nextId) ?_)
      (h'.instances.mono (fun _ _ h => h) ?_) KeepsInstance.trans ?_
    · intro j hj
      omega
    · intro j hj
      omega
    · intro a b ha hab
      rw [hab.1.id]
      exact ha
  executions := by
    have hn := h.nextId
    have hn' := h'.nextId
    refine Table.Evolves.trans
      (h.executions.mono (fun _ _ h => h) (M := fun e => s.nextId ≤ e.id ∧ e.id < u.nextId ∧
        c.inst e.instanceId ∧ ∀ p, e.parentExecutionId = some p → s.nextId ≤ p) ?_)
      (h'.executions.mono (fun _ _ h => h) ?_) KeepsExecution.trans ?_
    · rintro e ⟨h1, h2, h3, h4⟩
      exact ⟨h1, by omega, h3, h4⟩
    · rintro e ⟨h1, h2, h3, h4⟩
      exact ⟨by omega, h2, h3, fun p hp => hn.trans (h4 p hp)⟩
    · intro a b ha hab
      rw [hab.1.id, hab.1.instanceId, hab.1.parentExecutionId]
      exact ha
  log := by
    obtain ⟨l, hl, hw⟩ := h.log
    obtain ⟨l', hl', hw'⟩ := h'.log
    refine ⟨l ++ l', by rw [hl', hl, List.append_assoc], fun ev hev => ?_⟩
    rcases List.mem_append.1 hev with hev | hev
    · exact hw ev hev
    · exact hw' ev hev

theorem mono {c' : Scope} (h : Frame c s t) (hi : ∀ id, c.inst id → c'.inst id)
    (he : ∀ id, c.exec id → c'.exec id) : Frame c' s t where
  nextId := h.nextId
  instances := h.instances.mono
    (fun i _ h => ⟨h.1, fun hn => h.2 fun hc => hn (hi i.id hc)⟩) fun _ h => h
  executions := h.executions.mono
    (fun e _ h => ⟨h.1, fun hn => h.2 fun hc => hn (he e.id hc)⟩)
    fun e h => ⟨h.1, h.2.1, hi _ h.2.2.1, h.2.2.2⟩
  log := by
    obtain ⟨l, hl, hw⟩ := h.log
    refine ⟨l, hl, fun ev hev => ?_⟩
    have := hw ev hev
    cases ev <;> simp only [Event.within] at this ⊢ <;> exact he _ this

theorem toAll (h : Frame c s t) : Frame Scope.all s t :=
  h.mono (fun _ _ => trivial) fun _ _ => trivial

theorem instance? (h : Frame c s t) {id : ℕ} {i : Instance} (hi : s.instance? id = some i) :
    ∃ j, t.instance? id = some j ∧ KeepsInstance c i j :=
  h.instances.get_of_get (fun h => h.1.id) hi

theorem execution? (h : Frame c s t) {id : ℕ} {e : Execution} (he : s.execution? id = some e) :
    ∃ f, t.execution? id = some f ∧ KeepsExecution c e f :=
  h.executions.get_of_get (fun h => h.1.id) he

end Frame

/-! ## The invariant of control-flow lookups -/

namespace Db

/-- The instance runs the definition. -/
def Runs (s : Db) (inst : ℕ) (d : Definition) : Prop :=
  ∃ i, s.instance? inst = some i ∧ i.definition = some d

/-- The execution belongs to the instance. -/
def Belongs (s : Db) (inst id : ℕ) : Prop :=
  ∃ e, s.execution? id = some e ∧ e.instanceId = inst

/-- The execution belongs to the instance, stands at a step and has this task. -/
def At (s : Db) (inst : ℕ) (flow stepId : String) (task : Option ℕ) (id : ℕ) : Prop :=
  ∃ e, s.execution? id = some e ∧ e.instanceId = inst ∧ e.flowName = flow ∧ e.stepId = stepId ∧
    e.taskId = task

/-- The execution of an instance that others belong to: it has no task, and its step
has the given type. -/
def ParentExec (s : Db) (inst : ℕ) (ty : StepType) (id : ℕ) : Prop :=
  ∃ d flow stepId step, s.At inst flow stepId none id ∧ s.Runs inst d ∧
    d.findStep flow stepId = some step ∧ step.stepType = ty

/-- The execution belongs to the instance and stands at a top-level step of its
definition. -/
def TopExec (s : Db) (inst id : ℕ) : Prop :=
  ∃ e d, s.execution? id = some e ∧ e.instanceId = inst ∧ s.Runs inst d ∧
    (d.stepIndex e.flowName e.stepId).isSome

/-- The execution may be completed: if its step is a command, then a result is saved that
succeeds. -/
def Gated (s : Db) (id : ℕ) : Prop :=
  ∃ e d, s.execution? id = some e ∧ s.Runs e.instanceId d ∧
    ∀ step, d.findStep e.flowName e.stepId = some step → step.stepType = .command →
      ∃ r, e.commandResult = some r ∧ r.succeeds step.allowFailure = true

end Db

/-- The execution stands at a step of the definition, as its status needs it. -/
structure PlacedIn (d : Definition) (e : Execution) : Prop where
  flow : (d.flow? e.flowName).isSome
  stands : d.Stands e.flowName e.stepId
  top : e.status = .waiting ∨ e.status = .resuming → (d.stepIndex e.flowName e.stepId).isSome
  idle : e.status = .waitingForIdle →
    (d.findStep e.flowName e.stepId).any fun s => s.stepType = .continue_
  command : e.status = .completed → ∀ step, d.findStep e.flowName e.stepId = some step →
    step.stepType = .command → ∃ r, e.commandResult = some r ∧ r.succeeds step.allowFailure = true

/-- A loop cursor of an instance: its step is in the definition, and its parent and
the body execution it waits for are the instance's. -/
structure LoopOk (s : Db) (inst : ℕ) (d : Definition) (ls : LoopState) : Prop where
  step : (d.findStep ls.flowName ls.stepId).isSome
  flow : (d.flow? ls.flowName).isSome
  named : ls.asVar ∈ d.names
  parent : s.ParentExec inst .loop ls.parentExecutionId
  active : ∀ a, ls.activeExecutionId = some a → s.Belongs inst a

/-- What holds of an instance row. -/
def InstanceOk (s : Db) (i : Instance) : Prop :=
  ∃ d, i.definition = some d ∧ d.WellTargeted ∧
    (∀ ls, i.loopState = some ls → LoopOk s i.id d ls) ∧
    (∀ e, i.currentExecutionId = some e → s.TopExec i.id e) ∧
    d.Allows i.variableStore

/-- What holds of an execution row. -/
def ExecutionOk (s : Db) (e : Execution) : Prop :=
  ∃ d, s.Runs e.instanceId d ∧ PlacedIn d e ∧
    ∀ p, e.parentExecutionId = some p →
      s.TopExec e.instanceId p ∧ s.ParentExec e.instanceId .parallel p

/-- A lookup that was asked for found what it looked for. -/
def Event.Resolved : Event → Prop
  | .goto d flow target => d.Resolves flow target
  | .notFound _ => False
  | _ => True

/-- The invariant. -/
structure WellFormed (s : Db) : Prop where
  workflows : ∀ w ∈ s.workflows, w.definition.WellTargeted
  instances : ∀ i ∈ s.instances, InstanceOk s i
  executions : ∀ e ∈ s.executions, ExecutionOk s e
  instanceIds : ∀ i ∈ s.instances, i.id < s.nextId
  executionIds : ∀ e ∈ s.executions, e.id < s.nextId
  instancesNodup : (s.instances.map Instance.id).Nodup
  executionsNodup : (s.executions.map Execution.id).Nodup
  log : ∀ ev ∈ s.log, ev.Resolved

section Monotone

variable {s t : Db}

theorem Db.Runs.later {inst : ℕ} {d : Definition} (h : s.Runs inst d) (hf : Frame c s t) :
    t.Runs inst d := by
  obtain ⟨i, hi, hd⟩ := h
  obtain ⟨j, hj, hk⟩ := hf.instance? hi
  exact ⟨j, hj, hk.1.definition.trans hd⟩

theorem Db.Runs.unique {inst : ℕ} {d d' : Definition} (h : s.Runs inst d) (h' : s.Runs inst d') :
    d = d' := by
  obtain ⟨i, hi, hd⟩ := h
  obtain ⟨j, hj, hd'⟩ := h'
  rw [hi, Option.some.injEq] at hj
  subst hj
  rw [hd, Option.some.injEq] at hd'
  exact hd'

theorem Db.Belongs.later {inst id : ℕ} (h : s.Belongs inst id) (hf : Frame c s t) :
    t.Belongs inst id := by
  obtain ⟨e, he, hi⟩ := h
  obtain ⟨f, hf', hk⟩ := hf.execution? he
  exact ⟨f, hf', hk.1.instanceId.trans hi⟩

theorem Db.At.later {inst id : ℕ} {flow stepId : String} {task : Option ℕ}
    (h : s.At inst flow stepId task id) (hf : Frame c s t) : t.At inst flow stepId task id := by
  obtain ⟨e, he, h1, h2, h3, h4⟩ := h
  obtain ⟨f, hf', hk⟩ := hf.execution? he
  exact ⟨f, hf', hk.1.instanceId.trans h1, hk.1.flowName.trans h2, hk.1.stepId.trans h3,
    hk.1.taskId.trans h4⟩

theorem Db.At.belongs {inst id : ℕ} {flow stepId : String} {task : Option ℕ}
    (h : s.At inst flow stepId task id) : s.Belongs inst id := by
  obtain ⟨e, he, h1, -⟩ := h
  exact ⟨e, he, h1⟩

theorem Db.At.top {inst id : ℕ} {flow stepId : String} {task : Option ℕ} {d : Definition}
    (h : s.At inst flow stepId task id) (hr : s.Runs inst d)
    (htop : (d.stepIndex flow stepId).isSome) : s.TopExec inst id := by
  obtain ⟨e, he, h1, h2, h3, -⟩ := h
  exact ⟨e, d, he, h1, hr, by rw [h2, h3]; exact htop⟩

theorem Db.ParentExec.later {inst id : ℕ} {ty : StepType} (h : s.ParentExec inst ty id)
    (hf : Frame c s t) : t.ParentExec inst ty id := by
  obtain ⟨d, flow, stepId, step, hat, hr, hfind⟩ := h
  exact ⟨d, flow, stepId, step, hat.later hf, hr.later hf, hfind⟩

theorem Db.ParentExec.belongs {inst id : ℕ} {ty : StepType} (h : s.ParentExec inst ty id) :
    s.Belongs inst id := by
  obtain ⟨d, flow, stepId, step, hat, -⟩ := h
  exact hat.belongs

theorem Db.Gated.later {id : ℕ} (h : s.Gated id) (hf : Frame c s t) : t.Gated id := by
  obtain ⟨e, d, he, hr, h⟩ := h
  obtain ⟨f, hf', hk⟩ := hf.execution? he
  refine ⟨f, d, hf', ?_, fun step hfind hty => ?_⟩
  · rw [hk.1.instanceId]
    exact hr.later hf
  · rw [hk.1.flowName, hk.1.stepId] at hfind
    obtain ⟨r, hr, hsucc⟩ := h step hfind hty
    exact ⟨r, hk.1.commandResult r hr, hsucc⟩

theorem Db.At.gated {inst id : ℕ} {flow stepId : String} {task : Option ℕ} {d : Definition}
    {step : Step} (h : s.At inst flow stepId task id) (hr : s.Runs inst d)
    (hfind : d.findStep flow stepId = some step) (hty : step.stepType ≠ .command) :
    s.Gated id := by
  obtain ⟨e, he, h1, h2, h3, -⟩ := h
  refine ⟨e, d, he, h1 ▸ hr, fun st hst hcmd => ?_⟩
  rw [h2, h3, hfind, Option.some.injEq] at hst
  exact absurd (hst ▸ hcmd) hty

theorem Db.ParentExec.gated {inst id : ℕ} {ty : StepType} (h : s.ParentExec inst ty id)
    (hty : ty ≠ .command) : s.Gated id := by
  obtain ⟨d, flow, stepId, step, hat, hr, hfind, rfl⟩ := h
  exact hat.gated hr hfind hty

theorem Db.TopExec.later {inst id : ℕ} (h : s.TopExec inst id) (hf : Frame c s t) :
    t.TopExec inst id := by
  obtain ⟨e, d, he, hi, hr, htop⟩ := h
  obtain ⟨f, hf', hk⟩ := hf.execution? he
  refine ⟨f, d, hf', hk.1.instanceId.trans hi, hr.later hf, ?_⟩
  rw [hk.1.flowName, hk.1.stepId]
  exact htop

theorem Db.TopExec.belongs {inst id : ℕ} (h : s.TopExec inst id) : s.Belongs inst id := by
  obtain ⟨e, d, he, hi, -⟩ := h
  exact ⟨e, he, hi⟩

theorem LoopOk.later {inst : ℕ} {d : Definition} {ls : LoopState} (h : LoopOk s inst d ls)
    (hf : Frame c s t) : LoopOk t inst d ls :=
  ⟨h.step, h.flow, h.named, h.parent.later hf, fun a ha => (h.active a ha).later hf⟩

theorem InstanceOk.later {i : Instance} (h : InstanceOk s i) (hf : Frame c s t) :
    InstanceOk t i := by
  obtain ⟨d, hd, hw, hl, he, hv⟩ := h
  exact ⟨d, hd, hw, fun ls h => (hl ls h).later hf, fun e h => (he e h).later hf, hv⟩

theorem ExecutionOk.later {e : Execution} (h : ExecutionOk s e) (hf : Frame c s t) :
    ExecutionOk t e := by
  obtain ⟨d, hr, hp, hpar⟩ := h
  exact ⟨d, hr.later hf, hp, fun p h => ⟨(hpar p h).1.later hf, (hpar p h).2.later hf⟩⟩

/-- What an execution stands at depends on columns that never change, and on its
status. -/
theorem ExecutionOk.congr {t : Db} {e f : Execution} (h : ExecutionOk t e)
    (hsame : SameExecution e f) (hstatus : f.status = e.status) : ExecutionOk t f := by
  obtain ⟨d, hr, hp, hpar⟩ := h
  refine ⟨d, by rwa [hsame.instanceId], ⟨?_, ?_, ?_, ?_, ?_⟩, ?_⟩
  · rw [hsame.flowName]
    exact hp.flow
  · rw [hsame.flowName, hsame.stepId]
    exact hp.stands
  · rw [hstatus, hsame.flowName, hsame.stepId]
    exact hp.top
  · rw [hstatus, hsame.flowName, hsame.stepId]
    exact hp.idle
  · rw [hstatus, hsame.flowName, hsame.stepId]
    intro hdone step hfind hty
    obtain ⟨r, hr, hsucc⟩ := hp.command hdone step hfind hty
    exact ⟨r, hsame.commandResult r hr, hsucc⟩
  · rw [hsame.parentExecutionId, hsame.instanceId]
    exact hpar

theorem WellFormed.wellTargeted (h : WellFormed s) {inst : ℕ} {d : Definition}
    (hr : s.Runs inst d) : d.WellTargeted := by
  obtain ⟨i, hi, hd⟩ := hr
  obtain ⟨d', hd', hw, -⟩ := h.instances i (Table.mem_of_get hi)
  rw [hd, Option.some.injEq] at hd'
  exact hd' ▸ hw

/-- To keep the invariant it is enough to look at the rows that are not as before. -/
theorem WellFormed.step (hs : WellFormed s) (hf : Frame c s t)
    (hw : ∀ w ∈ t.workflows, w.definition.WellTargeted)
    (hi : ∀ j ∈ t.instances, j ∈ s.instances ∨ InstanceOk t j)
    (he : ∀ f ∈ t.executions, f ∈ s.executions ∨ ExecutionOk t f)
    (hl : ∀ ev ∈ t.log, ev ∈ s.log ∨ ev.Resolved)
    (hni : (t.instances.map Instance.id).Nodup) (hne : (t.executions.map Execution.id).Nodup) :
    WellFormed t where
  workflows := hw
  instances := fun j hj => (hi j hj).elim (fun h => (hs.instances j h).later hf) id
  executions := fun f hf' => (he f hf').elim (fun h => (hs.executions f h).later hf) id
  instanceIds := by
    intro j hj
    rcases hf.instances.mem_cases hj with ⟨i, hi, hk⟩ | hnew
    · have := hs.instanceIds i hi
      have := hf.nextId
      have := hk.1.id
      omega
    · exact hnew.2
  executionIds := by
    intro f hf'
    rcases hf.executions.mem_cases hf' with ⟨e, he, hk⟩ | hnew
    · have := hs.executionIds e he
      have := hf.nextId
      have := hk.1.id
      omega
    · exact hnew.2.1
  instancesNodup := hni
  executionsNodup := hne
  log := fun ev hev => (hl ev hev).elim (hs.log ev) id

theorem WellFormed.instance?_of_mem (h : WellFormed s) {i : Instance} (hi : i ∈ s.instances) :
    s.instance? i.id = some i :=
  Table.get_eq_some_of_mem h.instancesNodup hi

theorem WellFormed.execution?_of_mem (h : WellFormed s) {e : Execution} (he : e ∈ s.executions) :
    s.execution? e.id = some e :=
  Table.get_eq_some_of_mem h.executionsNodup he

end Monotone
end XpressClaw
