import XpressClaw.Workflow.Rules

/-!
# The instance manager keeps the invariant

One lemma for each function of `instance.rs`, of the task board and of the task queue
that the engine calls: within which scope it writes, and that it keeps `WellFormed`.
-/

namespace XpressClaw

open Lib InstanceManager

variable {ρ : Rules} {s : Db}

/-! ## Rows that were read -/

/-- An instance row that was read at some earlier moment. -/
def SawInstance (t : Db) (i : Instance) : Prop :=
  InstanceOk t i ∧ ∃ d, i.definition = some d ∧ t.Runs i.id d

/-- An execution row that was read at some earlier moment. -/
def SawExecution (t : Db) (e : Execution) : Prop :=
  ExecutionOk t e ∧ ∃ f, t.execution? e.id = some f ∧ SameExecution e f

theorem SawInstance.later {c : Scope} {t : Db} {i : Instance} (h : SawInstance s i)
    (hf : Frame c s t) : SawInstance t i := by
  obtain ⟨hok, d, hd, hr⟩ := h
  exact ⟨hok.later hf, d, hd, hr.later hf⟩

theorem SawExecution.later {c : Scope} {t : Db} {e : Execution} (h : SawExecution s e)
    (hf : Frame c s t) : SawExecution t e := by
  obtain ⟨hok, f, hf', hsame⟩ := h
  obtain ⟨g, hg, hk⟩ := hf.execution? hf'
  exact ⟨hok.later hf, g, hg, hsame.trans hk.1⟩

theorem SawExecution.belongs {e : Execution} (h : SawExecution s e) :
    s.Belongs e.instanceId e.id := by
  obtain ⟨-, f, hf, hsame⟩ := h
  exact ⟨f, hf, hsame.instanceId⟩

theorem SawExecution.gated {e : Execution} {d : Definition} (h : SawExecution s e)
    (hr : s.Runs e.instanceId d)
    (hg : ∀ step, d.findStep e.flowName e.stepId = some step → step.stepType = .command →
      ∃ f r, s.execution? e.id = some f ∧ f.commandResult = some r ∧
        r.succeeds step.allowFailure = true) : s.Gated e.id := by
  obtain ⟨-, f, hf, hsame⟩ := h
  refine ⟨f, d, hf, hsame.instanceId ▸ hr, fun step hfind hty => ?_⟩
  rw [hsame.flowName, hsame.stepId] at hfind
  obtain ⟨g, r, hg, hr, hsucc⟩ := hg step hfind hty
  rw [hf, Option.some.injEq] at hg
  exact ⟨r, hg ▸ hr, hsucc⟩

theorem sawInstance_of_instance? (hs : WellFormed s) {inst : ℕ} {i : Instance}
    (h : s.instance? inst = some i) : SawInstance s i := by
  have hid : i.id = inst := Table.key_of_get h
  have hok := hs.instances i (Table.mem_of_get h)
  obtain ⟨d, hd, -⟩ := hs.instances i (Table.mem_of_get h)
  exact ⟨hok, d, hd, i, hid ▸ h, hd⟩

theorem sawExecution_of_execution? (hs : WellFormed s) {id : ℕ} {e : Execution}
    (h : s.execution? id = some e) : SawExecution s e := by
  have hid : e.id = id := Table.key_of_get h
  exact ⟨hs.executions e (Table.mem_of_get h), e, hid ▸ h, .refl e⟩

theorem SawInstance.runs {i : Instance} {d : Definition} (h : SawInstance s i)
    (hd : i.definition = some d) : s.Runs i.id d := by
  obtain ⟨-, d', hd', hr⟩ := h
  rw [hd, Option.some.injEq] at hd'
  exact hd' ▸ hr

theorem SawInstance.loopOk {i : Instance} {d : Definition} {ls : LoopState} (h : SawInstance s i)
    (hd : i.definition = some d) (hls : i.loopState = some ls) : LoopOk s i.id d ls := by
  obtain ⟨⟨d', hd', -, hl, -⟩, -⟩ := h
  rw [hd, Option.some.injEq] at hd'
  exact hd' ▸ hl ls hls

theorem SawExecution.placed {e : Execution} {d : Definition} (h : SawExecution s e)
    (hr : s.Runs e.instanceId d) : PlacedIn d e := by
  obtain ⟨⟨d', hr', hp, -⟩, -⟩ := h
  exact hr.unique hr' ▸ hp

theorem SawExecution.mem_names {e : Execution} {d : Definition} (h : SawExecution s e)
    (hr : s.Runs e.instanceId d) : e.stepId ∈ d.names :=
  Definition.mem_names_of_stands (h.placed hr).stands

theorem getInstance_keeps {inst : ℕ} (hs : ρ.Inv s) :
    Keeps ρ s (getInstance inst) fun i t => i.id = inst ∧ SawInstance t i := by
  refine Keeps.fetch hs ?_
  intro t _ hi i h u htu _
  exact ⟨Table.key_of_get h, (sawInstance_of_instance? hi.wf h).later htu⟩

theorem getStepExecution_keeps {id : ℕ} (hs : ρ.Inv s) :
    Keeps ρ s (getStepExecution id) fun e t => e.id = id ∧ SawExecution t e := by
  refine Keeps.fetch hs ?_
  intro t _ hi e h u htu _
  exact ⟨Table.key_of_get h, (sawExecution_of_execution? hi.wf h).later htu⟩

theorem definition_of_runs {t : Db} (ht : WellFormed t) {inst : ℕ} {d : Definition} {i : Instance}
    (hr : t.Runs inst d) (hi : i ∈ t.instances) (hid : i.id = inst) : i.definition = some d := by
  obtain ⟨j, hj, hd⟩ := hr
  rw [← hid, ht.instance?_of_mem hi, Option.some.injEq] at hj
  exact hj ▸ hd

theorem WellFormed.allows {t : Db} (ht : WellFormed t) {i : Instance} {d : Definition}
    (hi : i ∈ t.instances) (hd : i.definition = some d) : d.Allows i.variableStore := by
  obtain ⟨d', hd', -, -, -, hv⟩ := ht.instances i hi
  rw [hd, Option.some.injEq] at hd'
  exact hd' ▸ hv

theorem loadVariableStore_keeps {inst : ℕ} {d : Definition} (hs : ρ.Inv s) (hr : s.Runs inst d) :
    Keeps ρ s (loadVariableStore inst) fun vars _ => d.Allows vars := by
  refine Keeps.fetch hs ?_
  intro t hst hi vars hvars _ _ _
  obtain ⟨i, hget, rfl⟩ := Option.map_eq_some_iff.1 hvars
  have hmem := Table.mem_of_get hget
  exact hi.wf.allows hmem (definition_of_runs hi.wf (hr.later hst) hmem (Table.key_of_get hget))

theorem mem_listStepExecutions {db : Db} {inst : ℕ} {e : Execution} :
    e ∈ db.listStepExecutions inst ↔ e ∈ db.executions ∧ e.instanceId = inst := by
  rw [Db.listStepExecutions, List.mem_insertionSort, List.mem_filter, decide_eq_true_eq]

theorem listStepExecutions_keeps {inst : ℕ} :
    Keeps ρ s (listStepExecutions inst) fun es t =>
      ∀ e ∈ es, e.instanceId = inst ∧ SawExecution t e := by
  refine Keeps.read ?_
  intro t _ hi u htu _ e he
  obtain ⟨he, hinst⟩ := mem_listStepExecutions.1 he
  exact ⟨hinst, (sawExecution_of_execution? hi.wf (hi.wf.execution?_of_mem he)).later htu⟩

/-! ## Writes to instances and executions -/

theorem updateStatus_keeps {inst : ℕ} {status : InstanceStatus} {m : Option String}
    (hV : ρ.own.inst inst) : Keeps ρ s (updateStatus inst status m) anything := by
  refine Keeps.update fun t _ hi w hw => ?_
  obtain ⟨-, -, hw⟩ := bind_ok hw
  cases hw
  exact Moves.setInstance hi.wf hV (fun i => ⟨rfl, rfl, rfl, rfl, rfl⟩) fun i _ _ h => h

theorem setActiveStatus_keeps {inst : ℕ} {status : InstanceStatus} (hV : ρ.own.inst inst) :
    Keeps ρ s (setActiveStatus inst status) anything := by
  refine Keeps.update fun t _ hi w hw => ?_
  obtain ⟨-, -, hw⟩ := bind_ok hw
  cases hw
  exact Moves.setInstance hi.wf hV (fun i => ⟨rfl, rfl, rfl, rfl, rfl⟩) fun i _ _ h => h

theorem setCurrentPosition_keeps {inst : ℕ} {flow : String} {index : ℕ} (hV : ρ.own.inst inst) :
    Keeps ρ s (setCurrentPosition inst flow index) anything := by
  refine Keeps.write fun t _ hi => ?_
  refine Moves.setInstance hi.wf hV (fun i => ⟨rfl, rfl, rfl, rfl, rfl⟩) ?_
  rintro i - - ⟨d, hd, hw, hl, -, hv⟩
  exact ⟨d, hd, hw, hl, by simp, hv⟩

theorem Moves.setVariables {c : Scope} {t : Db} (ht : WellFormed t) {inst : ℕ} {d : Definition}
    {vars : Vars} (hV : c.inst inst) (hr : t.Runs inst d) (hv : d.Allows vars) :
    Moves c t (t.setInstance inst fun i => { i with variableStore := vars }) := by
  refine Moves.setInstance ht hV (fun i => ⟨rfl, rfl, rfl, rfl, rfl⟩) ?_
  rintro i hmem hid ⟨d', hd', hw, hl, hc, -⟩
  have hd := definition_of_runs ht hr hmem hid
  rw [hd, Option.some.injEq] at hd'
  subst hd'
  exact ⟨d, hd, hw, hl, hc, hv⟩

theorem saveVariableStore_keeps {inst : ℕ} {d : Definition} {vars : Vars} (hV : ρ.own.inst inst)
    (hr : s.Runs inst d) (hv : d.Allows vars) :
    Keeps ρ s (saveVariableStore inst vars) anything :=
  Keeps.write fun _ hst hi => Moves.setVariables hi.wf hV (hr.later hst) hv

theorem clearLoopState_keeps {inst : ℕ} (hV : ρ.own.inst inst) :
    Keeps ρ s (updateLoopState inst none) anything := by
  refine Keeps.write fun t _ hi => ?_
  refine Moves.setInstance hi.wf hV (fun i => ⟨rfl, rfl, rfl, rfl, rfl⟩) ?_
  rintro i - - ⟨d, hd, hw, -, hc⟩
  exact ⟨d, hd, hw, by simp, hc⟩

theorem updateLoopState_keeps {inst : ℕ} {d : Definition} {ls : LoopState} (hV : ρ.own.inst inst)
    (hr : s.Runs inst d) (hls : LoopOk s inst d ls) :
    Keeps ρ s (updateLoopState inst (some ls)) anything := by
  refine Keeps.write fun t hst hi => ?_
  refine Moves.setInstance hi.wf hV (fun i => ⟨rfl, rfl, rfl, rfl, rfl⟩) ?_
  rintro i hmem hid ⟨d', hd', hw, -, hc⟩
  have hd := definition_of_runs hi.wf (hr.later hst) hmem hid
  rw [hd, Option.some.injEq] at hd'
  subst hd'
  refine ⟨d, hd, hw, ?_, hc⟩
  rintro l ⟨⟩
  exact hid ▸ hls.later hst

theorem eq_of_execution? {t : Db} (ht : WellFormed t) {id : ℕ} {e f : Execution}
    (he : t.execution? id = some e) (hf : f ∈ t.executions) (hid : f.id = id) : f = e := by
  have h := ht.execution?_of_mem hf
  rw [hid, he, Option.some.injEq] at h
  exact h.symm

theorem ExecutionOk.finish {t : Db} {e : Execution} {status : ExecStatus} {output : Option String}
    (ht : WellFormed t) (he : e ∈ t.executions) (h : ExecutionOk t e) (hst : status.terminal)
    (hg : status = .completed → t.Gated e.id) : ExecutionOk t { e with status, output } := by
  obtain ⟨d, hr, hp, hpar⟩ := h
  refine ⟨d, hr, ⟨hp.flow, hp.stands, ?_, ?_, fun hdone => ?_⟩, hpar⟩
  · rintro (rfl | rfl) <;> cases hst
  · rintro rfl
    cases hst
  · obtain ⟨f, d', hf, hr', hgate⟩ := hg hdone
    obtain rfl := eq_of_execution? ht hf he rfl
    obtain rfl := hr.unique hr'
    exact hgate

theorem updateStepStatus_keeps {id : ℕ} {status : ExecStatus} {output : Option String}
    (hW : ρ.own.exec id) (hst : status.terminal) (hg : status = .completed → s.Gated id) :
    Keeps ρ s (updateStepStatus id status output) anything := by
  refine Keeps.write fun t hst' hi => ?_
  have hm : Moves ρ.own t (t.setExecution id fun e => { e with status, output }) :=
    Moves.setExecution hi.wf (.inl hW)
      (fun e => ⟨rfl, rfl, rfl, rfl, rfl, rfl, rfl, rfl, fun _ h => h⟩) fun e he hid h =>
        h.finish hi.wf he hst fun hdone => hid ▸ (hg hdone).later hst'
  exact hm.trans (Moves.note hm.2 hW trivial)

theorem markStepRunning_keeps {id : ℕ} (hW : ρ.own.exec id) :
    Keeps ρ s (markStepRunning id) anything := by
  refine Keeps.update fun t _ hi w hw => ?_
  obtain ⟨-, -, hw⟩ := bind_ok hw
  cases hw
  refine Moves.setExecution hi.wf (.inl hW)
    (fun e => ⟨rfl, rfl, rfl, rfl, rfl, rfl, rfl, rfl, fun _ h => h⟩) ?_
  rintro e - - ⟨d, hr, hp, hpar⟩
  exact ⟨d, hr, ⟨hp.flow, hp.stands, by simp, by simp, by simp⟩, hpar⟩

/-! ## New executions -/

theorem Db.Belongs.unique {inst inst' id : ℕ} (h : s.Belongs inst id) (h' : s.Belongs inst' id) :
    inst = inst' := by
  obtain ⟨e, he, rfl⟩ := h
  obtain ⟨f, hf, rfl⟩ := h'
  rw [he, Option.some.injEq] at hf
  rw [hf]

/-- A transaction that creates an execution, and the read of the new row. -/
theorem created_keeps {inst : ℕ} {flow stepId : String} {task : Option ℕ}
    {f : Db → Except Err (ℕ × Db)} (hs : ρ.Inv s)
    (h : ∀ t, Frame ρ.others s t → ρ.Inv t → ∀ id w, f t = .ok (id, w) →
      Moves ρ.own t w ∧ ρ.own.exec id ∧ w.At inst flow stepId task id) :
    Keeps ρ s ((Prog.tx f).bind getStepExecution) fun e t =>
      ρ.own.exec e.id ∧ t.At inst flow stepId task e.id := by
  refine Keeps.bind hs (Q := fun id t => ρ.own.exec id ∧ t.At inst flow stepId task id)
    (Keeps.tx ?_) ?_
  · intro t hst hi id w hw
    obtain ⟨hm, hW, hb⟩ := h t hst hi id w hw
    exact ⟨hm, fun u hwu _ => ⟨hW, hb.later hwu⟩⟩
  · rintro id t - hi ⟨hW, hb⟩
    refine (getStepExecution_keeps hi).mono ?_
    rintro e u htu - ⟨rfl, -⟩
    exact ⟨hW, hb.later htu⟩

/-- A new execution of an instance, not yet waiting for anything. -/
theorem Moves.newExecution {c : Scope} {t : Db} (ht : WellFormed t) {inst : ℕ} {d : Definition}
    (row : ℕ → ℕ → Execution) (hV : c.inst inst) (hr : t.Runs inst d)
    (hid : (row t.nextId t.clock).id = t.nextId)
    (hinst : (row t.nextId t.clock).instanceId = inst)
    (hpar : (row t.nextId t.clock).parentExecutionId = none)
    (hplaced : PlacedIn d (row t.nextId t.clock)) :
    Moves c t (t.insertExecution row) ∧
      (t.insertExecution row).execution? t.nextId = some (row t.nextId t.clock) := by
  refine ⟨Moves.insertExecution ht hid (hinst ▸ hV) hpar ⟨d, hinst ▸ hr, hplaced, ?_⟩, ?_⟩
  · intro p hp
    rw [hpar] at hp
    cases hp
  · exact execution?_insertExecution ht hid

theorem createStepExecution_keeps {inst : ℕ} {flow stepId : String} {d : Definition}
    (hs : ρ.Inv s) (hV : ρ.own.inst inst) (hr : s.Runs inst d) (hf : (d.flow? flow).isSome)
    (hstands : d.Stands flow stepId) :
    Keeps ρ s (createStepExecution inst flow stepId) fun e t =>
      ρ.own.exec e.id ∧ t.At inst flow stepId none e.id := by
  refine created_keeps hs fun t hst hi id w hw => ?_
  obtain ⟨-, -, hw⟩ := bind_ok hw
  cases hw
  obtain ⟨hm, hb⟩ := Moves.newExecution hi.wf
    (fun id startedAt => { id, instanceId := inst, flowName := flow, stepId, status := .pending
                           startedAt }) hV (hr.later hst) rfl rfl rfl
    ⟨hf, hstands, by simp, by simp, by simp⟩
  exact ⟨hm, ρ.own.exec_fresh _ hi.base, _, hb, rfl, rfl, rfl, rfl⟩

theorem createTaskExecutionInTransaction_ok {t w : Db} {inst task id : ℕ} {flow stepId : String}
    (h : createTaskExecutionInTransaction t inst flow stepId task = .ok (id, w)) :
    id = t.nextId ∧ w = t.insertExecution fun id startedAt =>
      { id, instanceId := inst, flowName := flow, stepId, taskId := some task, status := .running
        startedAt } := by
  obtain ⟨-, -, h⟩ := bind_ok h
  cases h
  exact ⟨rfl, rfl⟩

theorem createTaskExecutionInTransaction_moves {c : Scope} {t w : Db} {inst task id : ℕ}
    {flow stepId : String} {d : Definition} (ht : WellFormed t) (hV : c.inst inst)
    (hr : t.Runs inst d) (hf : (d.flow? flow).isSome) (hstands : d.Stands flow stepId)
    (h : createTaskExecutionInTransaction t inst flow stepId task = .ok (id, w)) :
    id = t.nextId ∧ Moves c t w ∧ w.At inst flow stepId (some task) id := by
  obtain ⟨rfl, rfl⟩ := createTaskExecutionInTransaction_ok h
  obtain ⟨hm, hb⟩ := Moves.newExecution ht
    (fun id startedAt => { id, instanceId := inst, flowName := flow, stepId, taskId := some task
                           status := .running, startedAt }) hV hr rfl rfl rfl
    ⟨hf, hstands, by simp, by simp, by simp⟩
  exact ⟨rfl, hm, _, hb, rfl, rfl, rfl, rfl⟩

theorem Moves.setCurrentExecution {c : Scope} {t : Db} (ht : WellFormed t) {inst id : ℕ}
    (hV : c.inst inst) (htop : t.TopExec inst id) :
    Moves c t (t.setInstance inst fun i => { i with currentExecutionId := some id }) := by
  refine Moves.setInstance ht hV (fun i => ⟨rfl, rfl, rfl, rfl, rfl⟩) ?_
  rintro i - hid ⟨d, hd, hw, hl, -, hv⟩
  refine ⟨d, hd, hw, hl, ?_, hv⟩
  rintro e ⟨⟩
  exact hid ▸ htop

theorem createTaskExecution_keeps {inst task : ℕ} {flow stepId : String} {d : Definition}
    (hs : ρ.Inv s) (hV : ρ.own.inst inst) (hr : s.Runs inst d) (hf : (d.flow? flow).isSome)
    (hstands : d.Stands flow stepId) (htop : (d.stepIndex flow stepId).isSome) :
    Keeps ρ s (createTaskExecution inst flow stepId task) fun e t =>
      ρ.own.exec e.id ∧ t.At inst flow stepId (some task) e.id := by
  refine created_keeps hs fun t hst hi id w hw => ?_
  obtain ⟨⟨id', w'⟩, hw', hw⟩ := bind_ok hw
  cases hw
  obtain ⟨hid, hm, hat⟩ :=
    createTaskExecutionInTransaction_moves hi.wf hV (hr.later hst) hf hstands hw'
  have hcur : Moves ρ.own w' (w'.setInstance inst fun i =>
    { i with currentExecutionId := some id }) :=
    Moves.setCurrentExecution hm.2 hV (hat.top ((hr.later hst).later hm.1) htop)
  refine ⟨hm.trans hcur, ρ.own.exec_fresh _ (hid ▸ hi.base), ?_⟩
  exact hat.later hcur.1

theorem createLoopTaskExecution_keeps {inst task : ℕ} {flow stepId : String} {d : Definition}
    {ls : LoopState} (hs : ρ.Inv s) (hV : ρ.own.inst inst) (hr : s.Runs inst d)
    (hf : (d.flow? flow).isSome) (hstands : d.Stands flow stepId) (hls : LoopOk s inst d ls) :
    Keeps ρ s (createLoopTaskExecution inst flow stepId task ls) fun e t =>
      ρ.own.exec e.id ∧ t.At inst flow stepId (some task) e.id := by
  refine created_keeps hs fun t hst hi id w hw => ?_
  obtain ⟨⟨id', w'⟩, hw', hw⟩ := bind_ok hw
  cases hw
  obtain ⟨hid, hm, hat⟩ :=
    createTaskExecutionInTransaction_moves hi.wf hV (hr.later hst) hf hstands hw'
  have hcur : Moves ρ.own w' (w'.setInstance inst fun i =>
      { i with loopState := some { ls with activeExecutionId := some id } }) := by
    refine Moves.setInstance hm.2 hV (fun i => ⟨rfl, rfl, rfl, rfl, rfl⟩) ?_
    rintro i hmem hi' ⟨d', hd', hw, -, hc⟩
    have hd := definition_of_runs hm.2 ((hr.later hst).later hm.1) hmem hi'
    rw [hd, Option.some.injEq] at hd'
    subst hd'
    refine ⟨d, hd, hw, ?_, hc⟩
    rintro l ⟨⟩
    have hls' := (hls.later hst).later hm.1
    refine hi' ▸ ⟨hls'.step, hls'.flow, hls'.named, hls'.parent, ?_⟩
    rintro a ⟨⟩
    exact hat.belongs
  refine ⟨hm.trans hcur, ρ.own.exec_fresh _ (hid ▸ hi.base), ?_⟩
  exact hat.later hcur.1

/-! ## Continuations -/

theorem Moves.setColumns {c : Scope} {t : Db} (ht : WellFormed t) {id : ℕ}
    {g : Execution → Execution} (hg : ∀ e, SameExecution e (g e))
    (hq : ∀ e, (g e).status = e.status ∧ (g e).output = e.output) :
    Moves c t (t.setExecution id g) :=
  Moves.setExecution ht (.inr hq) hg fun e _ _ h => h.congr (hg e) (hq e).1

theorem Moves.hold {c : Scope} {t : Db} (ht : WellFormed t) {inst id : ℕ} {d : Definition}
    {e : Execution} (hW : c.exec id) (hr : t.Runs inst d) (he : t.execution? id = some e)
    (hinst : e.instanceId = inst)
    (hc : (d.findStep e.flowName e.stepId).any fun s => s.stepType = .continue_) :
    Moves c t (t.setExecution id fun e => { e with status := .waitingForIdle }) := by
  refine Moves.setExecution ht (.inl hW)
    (fun e => ⟨rfl, rfl, rfl, rfl, rfl, rfl, rfl, rfl, fun _ h => h⟩) ?_
  rintro f hf hid ⟨d', hr', hp, hpar⟩
  obtain rfl := eq_of_execution? ht he hf hid
  subst hinst
  obtain rfl := hr.unique hr'
  exact ⟨d, hr, ⟨hp.flow, hp.stands, by simp, fun _ => hc, by simp⟩, hpar⟩

/-- The transaction that publishes a continuation. -/
theorem createContinuationExecution_keeps {host : Host} {inst task : ℕ}
    {flow stepId prompt : String}
    {d : Definition} (hs : ρ.Inv s) (hV : ρ.own.inst inst) (hr : s.Runs inst d)
    (hf : (d.flow? flow).isSome) (hstands : d.Stands flow stepId)
    (hc : (d.findStep flow stepId).any fun s => s.stepType = .continue_) :
    Keeps ρ s (createContinuationExecution host inst flow stepId task prompt) anything := by
  refine Keeps.bind (Q := anything) hs (Keeps.tx fun t hst hi id w hw => ?_)
    fun _ _ _ hi _ => (getStepExecution_keeps hi).weaken
  refine ⟨?_, fun _ _ _ => trivial⟩
  obtain ⟨-, -, hw⟩ := bind_ok hw
  split at hw
  · cases hw
    exact Moves.refl hi.wf
  · split at hw
    · cases hw
    · split at hw
      · cases hw
      · obtain ⟨⟨id', w'⟩, hw', hw⟩ := bind_ok hw
        obtain ⟨hid, hm, e, he, h1, h2, h3, -⟩ :=
          createTaskExecutionInTransaction_moves (c := ρ.own) hi.wf hV (hr.later hst) hf hstands
            hw'
        have hW : ρ.own.exec id' := ρ.own.exec_fresh _ (hid ▸ hi.base)
        dsimp only at hw
        split at hw
        · cases hw
          exact hm.trans (Moves.hold hm.2 hW ((hr.later hst).later hm.1) he h1 (by rwa [h2, h3]))
        · obtain ⟨⟨⟨attempt, message⟩, v⟩, hv, hw⟩ := bind_ok hw
          cases hw
          refine hm.trans (Moves.aside hm.2 ((dispatchContinuation_aside hv).trans ?_))
          exact .setExecution fun e =>
            ⟨⟨rfl, rfl, rfl, rfl, rfl, rfl, rfl, rfl, fun _ h => h⟩, rfl, rfl, rfl, rfl⟩

/-- What a held continuation becomes when its response is reserved. -/
def resumed (attempt message : ℕ) (e : Execution) : Execution :=
  if e.status = .waitingForIdle then
    { e with
      status := .running
      continuationAttemptId := some attempt
      continuationPromptMessageId := some message }
  else e

theorem resumed_same (attempt message : ℕ) (e : Execution) :
    SameExecution e (resumed attempt message e) := by
  unfold resumed
  split
  · exact ⟨rfl, rfl, rfl, rfl, rfl, rfl, rfl, rfl, fun _ h => h⟩
  · exact .refl e

/-- What the transaction can do: nothing, or reserve a response for the
continuation. -/
theorem dispatchWaiting_cases {t w : Db} {host : Host} {exec task : ℕ} {prompt : String}
    (h : dispatchWaiting host exec task prompt t = .ok w) :
    w = t ∨ ∃ agent attempt message v,
      dispatchContinuation host t task agent prompt = .ok ((attempt, message), v) ∧
        w = v.setExecution exec (resumed attempt message) := by
  obtain ⟨-, -, h⟩ := bind_ok h
  split at h
  · split at h
    · cases h
      exact .inl rfl
    · split at h
      · cases h
      · split at h
        · cases h
          exact .inl rfl
        · split at h
          · cases h
          · obtain ⟨⟨⟨attempt, message⟩, v⟩, hv, h⟩ := bind_ok h
            cases h
            exact .inr ⟨_, attempt, message, v, hv, rfl⟩
  · cases h

theorem dispatchWaiting_moves {c : Scope} {t w : Db} {host : Host} {exec task : ℕ} {prompt : String}
    (ht : WellFormed t) (hW : c.exec exec) (h : dispatchWaiting host exec task prompt t = .ok w) :
    Moves c t w := by
  rcases dispatchWaiting_cases h with rfl | ⟨agent, attempt, message, v, hv, rfl⟩
  · exact Moves.refl ht
  · have hm : Moves c t v := Moves.aside ht (dispatchContinuation_aside hv)
    refine hm.trans (Moves.setExecution hm.2 (.inl hW) (resumed_same attempt message) ?_)
    rintro e - - hok
    unfold resumed
    split
    · obtain ⟨d, hr, hp, hpar⟩ := hok
      exact ⟨d, hr, ⟨hp.flow, hp.stands, by simp, by simp, by simp⟩, hpar⟩
    · exact hok

theorem dispatchWaitingContinuation_keeps {host : Host} {exec task : ℕ} {prompt : String}
    (hs : ρ.Inv s) (hW : ρ.own.exec exec) :
    Keeps ρ s (dispatchWaitingContinuation host exec task prompt) anything :=
  Keeps.bind (Q := anything) hs (Keeps.update fun _ _ hi _ hw => dispatchWaiting_moves hi.wf hW hw)
    fun _ _ _ hi _ => (getStepExecution_keeps hi).weaken

theorem createAgentWaitExecution_keeps {inst : ℕ} {flow stepId : String} {state : WaitState}
    {d : Definition} (hs : ρ.Inv s) (hV : ρ.own.inst inst) (hr : s.Runs inst d)
    (hf : (d.flow? flow).isSome) (hstands : d.Stands flow stepId)
    (htop : (d.stepIndex flow stepId).isSome) :
    Keeps ρ s (createAgentWaitExecution inst flow stepId state) anything := by
  refine Keeps.bind (Q := anything) hs (Keeps.tx fun t hst hi id w hw => ?_)
    fun _ _ _ hi _ => (getStepExecution_keeps hi).weaken
  refine ⟨?_, fun _ _ _ => trivial⟩
  obtain ⟨-, -, hw⟩ := bind_ok hw
  obtain ⟨v, hv, hw⟩ := bind_ok hw
  cases hw
  have hm : Moves ρ.own t v := Moves.aside hi.wf (bindInstanceToAgentProject_aside hv)
  obtain ⟨hm', -⟩ := Moves.newExecution hm.2
    (fun id startedAt => { id, instanceId := inst, flowName := flow, stepId, status := .waiting
                           waitState := some state, startedAt })
    hV ((hr.later hst).later hm.1) rfl rfl rfl
    ⟨hf, hstands, fun _ => htop, by simp, by simp⟩
  refine (hm.trans hm').trans (Moves.setInstance hm'.2 hV (fun i => ⟨rfl, rfl, rfl, rfl, rfl⟩) ?_)
  exact fun _ _ _ h => h

end XpressClaw
