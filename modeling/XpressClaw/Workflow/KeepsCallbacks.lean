import XpressClaw.Workflow.KeepsEngine

/-!
# Callbacks and recovery keep the invariant

One lemma for each function of the callback part of `engine.rs`, of `parallel.rs` and
of the workflow manager, and at the end `Op.prog_keeps`: every call the rest of the
program can make keeps `WellFormed`, whatever other calls commit in between.
-/

namespace XpressClaw

open Lib InstanceManager

/-- With the instances of its scope a callback may write their loop parents, and with
a branch the parent of its group. -/
structure Rules.Covers (ρ : Rules) : Prop where
  loop : ∀ t inst id, ρ.Inv t → ρ.own.inst inst → t.ParentExec inst .loop id → ρ.own.exec id
  join : ∀ t e p, ρ.Inv t → SawExecution t e → ρ.own.exec e.id → e.parentExecutionId = some p →
    ρ.own.exec p

/-- The scope has every execution of its instances, and every instance in which
something is running. -/
structure Rules.Owns (ρ : Rules) : Prop where
  exec : ∀ t inst id, ρ.Inv t → ρ.own.inst inst → t.Belongs inst id → ρ.own.exec id
  inst : ∀ t id, ρ.Inv t → ρ.own.exec id → ∀ inst, t.Belongs inst id → ρ.own.inst inst
  live : ∀ t, ρ.Inv t → ∀ e ∈ t.executions, e.status = .running ∨ e.status = .waitingForIdle →
    ρ.own.inst e.instanceId

theorem Rules.Owns.covers {ρ : Rules} (h : ρ.Owns) : ρ.Covers where
  loop := fun t inst id ht hV hp => h.exec t inst id ht hV hp.belongs
  join := by
    intro t e p ht hsaw hW hp
    obtain ⟨⟨_, -, -, hpar⟩, -⟩ := id hsaw
    have hV := h.inst t e.id ht hW e.instanceId hsaw.belongs
    exact h.exec t e.instanceId p ht hV (hpar p hp).2.belongs

variable {ρ : Rules} {s : Db} {next : StepFn} {start : ℕ → Json → Run Unit}

theorem definitionForInstance_keeps {i : Instance} (h : SawInstance s i) :
    Keeps ρ s (definitionForInstance i) fun d _ => i.definition = some d := by
  obtain ⟨-, d, hd, -⟩ := h
  unfold definitionForInstance
  rw [hd]
  exact Keeps.pure fun _ _ _ => rfl

/-! ## Parallel groups -/

/-- The parallel join may be claimed, and the branch's result recorded. -/
theorem recordBranch_moves {c : Scope} {t : Db} {exec : Execution} {parent : ℕ}
    {status : ExecStatus} {output : String} (ht : WellFormed t) (hst : status.terminal)
    (hW : c.exec exec.id) (hWp : c.exec parent) (htop : t.TopExec exec.instanceId parent)
    (hg : status = .completed → t.Gated exec.id) :
    Moves c t (recordBranch exec parent status output t).2 := by
  have hmark : ∀ u, Moves c t u → Moves c t
      ((u.setExecution parent fun e => { e with status := .resuming }).note (.claimed parent)) := by
    intro u hu
    have htop' := htop.later hu.1
    have hm : Moves c u (u.setExecution parent fun e => { e with status := .resuming }) := by
      refine Moves.setExecution hu.2 (.inl hWp)
        (fun e => ⟨rfl, rfl, rfl, rfl, rfl, rfl, rfl, rfl, fun _ h => h⟩) ?_
      rintro e he hid ⟨d, hr, hp, hpar⟩
      obtain ⟨f, d', hf, hinst, hr', hidx⟩ := htop'
      obtain rfl := eq_of_execution? hu.2 hf he hid
      obtain rfl := (hinst ▸ hr).unique hr'
      exact ⟨d, hr, ⟨hp.flow, hp.stands, fun _ => hidx, by simp, by simp⟩, hpar⟩
    exact hu.trans (hm.trans (Moves.note hm.2 hWp trivial))
  have hrec : Moves c t ((t.setExecution exec.id fun e =>
    { e with status, output := some output }).note
      (.recorded exec.id status output)) := by
    have hm : Moves c t (t.setExecution exec.id fun e =>
      { e with status, output := some output }) :=
      Moves.setExecution ht (.inl hW) (fun e =>
        ⟨rfl, rfl, rfl, rfl, rfl, rfl, rfl, rfl, fun _ h => h⟩)
        fun e he hid h => h.finish ht he hst (hid ▸ hg)
    exact hm.trans (Moves.note hm.2 hW trivial)
  unfold recordBranch
  dsimp only
  split
  · split
    · exact hmark _ hrec
    · exact hrec
  · split
    · exact hmark _ (Moves.refl ht)
    · exact Moves.refl ht

theorem joinedVariables_allows {env : Env} {d : Definition} {vars : Vars}
    {branches : List Execution} (hv : d.Allows vars) (hb : ∀ b ∈ branches, b.stepId ∈ d.names) :
    d.Allows (joinedVariables env d vars branches) := by
  unfold joinedVariables
  induction branches generalizing vars with
  | nil => exact hv
  | cons b bs ih =>
    exact ih (hv.insert (hb b (List.mem_cons_self ..)))
      fun b' hb' => hb b' (List.mem_cons_of_mem _ hb')

theorem joinParallel_keeps {env : Env} {parent : Execution} {row : Instance} {d : Definition}
    {index : ℕ} {branches : List Execution} (hnext : NextKeeps ρ next) (hs : ρ.Inv s)
    (hV : ρ.own.inst row.id) (hW : ρ.own.exec parent.id) (hr : s.Runs row.id d)
    (hf : (d.flow? parent.flowName).isSome) (hg : s.Gated parent.id)
    (hb : ∀ b ∈ branches, b.stepId ∈ d.names) :
    Keeps ρ s (joinParallel env next parent row d index branches) anything := by
  refine Keeps.bind hs (loadVariableStore_keeps hs hr) fun stored t hst ht hstored => ?_
  have hvars : d.Allows (joinedVariables env d stored branches) := joinedVariables_allows hstored hb
  refine Keeps.bind ht (Keeps.write fun u htu hu => ?_) fun _ u htu hu _ => ?_
  · have hm := Moves.setVariables hu.wf hV ((hr.later hst).later htu) hvars
    exact hm.trans (Moves.note hm.2 hW trivial)
  have hgate : u.Gated parent.id := (hg.later hst).later htu
  refine Keeps.bind hu (updateStepStatus_keeps hW ?_ fun _ => hgate) fun _ v huv hv _ => ?_
  · split <;> rfl
  have hr' := ((hr.later hst).later htu).later huv
  split
  · refine Keeps.bind hv (Keeps.record hW trivial) fun _ x hvx hx _ => ?_
    exact hnext x row.id parent.flowName (index + 1) d row.triggerData _ hx hV (hr'.later hvx) hf
      hvars
  · split
    · rename_i herr
      refine Keeps.bind hv (Keeps.record hW trivial) fun _ x hvx hx _ => ?_
      exact hnext x row.id "on_error" 0 d row.triggerData _ hx hV (hr'.later hvx) herr hvars
    · exact Keeps.bind hv (Keeps.record hW trivial) fun _ _ _ _ _ => updateStatus_keeps hV

theorem finishParallel_keeps {env : Env} {inst parent : ℕ} (hnext : NextKeeps ρ next) (hs : ρ.Inv s)
    (hV : ρ.own.inst inst) (hW : ρ.own.exec parent) (htop : s.TopExec inst parent) :
    Keeps ρ s (finishParallel env next parent) anything := by
  refine Keeps.bind hs (getStepExecution_keeps hs) ?_
  rintro e t hst ht ⟨hid, hsaw⟩
  have htop' := htop.later hst
  obtain ⟨f, d, hf, hinst, hr, hidx⟩ := htop'
  obtain ⟨hok, g, hg, hsame⟩ := hsaw
  rw [hid, hf, Option.some.injEq] at hg
  subst hg
  have heinst : e.instanceId = inst := hsame.instanceId.symm.trans hinst
  rw [hsame.flowName, hsame.stepId] at hidx
  refine Keeps.bind ht (getInstance_keeps ht) ?_
  rintro row u htu hu ⟨hrow, hrsaw⟩
  have hrow' : row.id = inst := hrow.trans heinst
  split
  · refine Keeps.bind hu (definitionForInstance_keeps hrsaw) fun d' v huv hv hd => ?_
    have hr' : v.Runs row.id d' := (hrsaw.runs hd).later huv
    obtain rfl : d = d' := ((hrow' ▸ hr).later (htu.trans huv)).unique hr'
    refine Keeps.bind (Q := anything) hv (Keeps.lookup hidx fun _ _ _ _ _ => trivial)
      fun index x hvx hx _ => ?_
    split
    · refine Keeps.bind hx listStepExecutions_keeps fun execs y hxy hy hexecs => ?_
      dsimp only
      split
      · exact Keeps.pure fun _ _ _ => trivial
      · rename_i hbranches
        -- the parent has a branch, so its step is a parallel one
        have hne : execs.filter (fun e => e.parentExecutionId = some parent) ≠ [] :=
          fun h => hbranches (.inl (List.isEmpty_iff.2 h))
        obtain ⟨b, hb⟩ := List.exists_mem_of_ne_nil _ hne
        obtain ⟨hb, hparent⟩ := List.mem_filter.1 hb
        obtain ⟨⟨_, -, -, hpar⟩, -⟩ := (hexecs b hb).2
        have hgate := (hpar parent (of_decide_eq_true hparent)).2.gated (by simp)
        have hry := (hr'.later hvx).later hxy
        refine joinParallel_keeps hnext hy (hrow' ▸ hV) (hid ▸ hW) hry
          (flow?_of_stepIndex hidx) (hid ▸ hgate) fun b hb => ?_
        obtain ⟨hinst, hsaw⟩ := hexecs b (List.mem_filter.1 hb).1
        exact hsaw.mem_names (hinst ▸ hry)
    · exact Keeps.pure fun _ _ _ => trivial
  · exact Keeps.pure fun _ _ _ => trivial

theorem completeParallelBranch_keeps {env : Env} {exec : Execution} {parent : ℕ}
    {status : ExecStatus} {output : String} (hnext : NextKeeps ρ next) (hs : ρ.Inv s)
    (hst : status.terminal) (hV : ρ.own.inst exec.instanceId) (hW : ρ.own.exec exec.id)
    (hWp : ρ.own.exec parent) (htop : s.TopExec exec.instanceId parent)
    (hg : status = .completed → s.Gated exec.id) :
    Keeps ρ s (completeParallelBranch env next exec parent status output) anything := by
  refine Keeps.bind (Q := anything) hs (Keeps.tx ?_) ?_
  · intro t hst' ht claimed w h
    have hw : (recordBranch exec parent status output t).2 = w := by rw [Except.ok.inj h]
    have hm : Moves ρ.own t (recordBranch exec parent status output t).2 :=
      recordBranch_moves ht.wf hst hW hWp (htop.later hst') fun hdone => (hg hdone).later hst'
    exact ⟨hw ▸ hm, fun _ _ _ => trivial⟩
  · intro claimed t hst' ht _
    split
    · exact finishParallel_keeps hnext ht hV hWp (htop.later hst')
    · exact Keeps.pure fun _ _ _ => trivial

/-! ## Task completion -/

/-- What a completion callback has read: the execution, its instance, the definition
that the instance runs and its variables. -/
structure Completion.Ready (t : Db) (exec : Execution) (c : Completion) : Prop where
  row : SawInstance t c.row
  id : c.row.id = exec.instanceId
  definition : c.row.definition = some c.d
  vars : c.d.Allows c.vars
  gate : c.stepStatus = .completed → t.Gated exec.id
  exec : SawExecution t exec

namespace Completion.Ready

variable {exec : Execution} {c : Completion} {t : Db} {k : Scope}

theorem later (h : c.Ready s exec) (hf : Frame k s t) : c.Ready t exec :=
  ⟨h.row.later hf, h.id, h.definition, h.vars, fun hdone => (h.gate hdone).later hf,
    h.exec.later hf⟩

theorem runs (h : c.Ready s exec) : s.Runs c.row.id c.d := h.row.runs h.definition

theorem flow (h : c.Ready s exec) : (c.d.flow? exec.flowName).isSome :=
  (h.exec.placed (h.id ▸ h.runs)).flow

theorem mem_names (h : c.Ready s exec) : exec.stepId ∈ c.d.names := h.exec.mem_names (h.id ▸ h.runs)

theorem inst (h : c.Ready s exec) (hV : ρ.own.inst exec.instanceId) : ρ.own.inst c.row.id :=
  h.id ▸ hV

theorem loopParent (h : c.Ready s exec) (hcov : ρ.Covers) (hs : ρ.Inv s)
    (hV : ρ.own.inst exec.instanceId) {ls : LoopState} (hls : c.row.loopState = some ls) :
    ρ.own.exec ls.parentExecutionId :=
  hcov.loop s c.row.id _ hs (h.inst hV) (h.row.loopOk h.definition hls).parent

theorem continueStep (h : c.Ready s exec) (hidle : exec.status = .waitingForIdle) :
    ((c.d.findStep exec.flowName exec.stepId).filter fun s => s.stepType = .continue_).isSome := by
  have hcont := (h.exec.placed (h.id ▸ h.runs)).idle hidle
  cases hfs : c.d.findStep exec.flowName exec.stepId with
  | none => simp [hfs] at hcont
  | some st =>
    rw [hfs, Option.any_some] at hcont
    simp [Option.filter, hcont]

end Completion.Ready

section Completion

variable {exec : Execution} {c : Completion} {task : ℕ}

theorem Completion.persisted_terminal (c : Completion) (task : ℕ) :
    (c.persisted task).terminal := by
  unfold Completion.persisted Completion.stepStatus
  split
  · rfl
  · split <;> rfl

theorem Completion.Ready.persisted (h : c.Ready s exec) (task : ℕ)
    (hdone : c.persisted task = .completed) : s.Gated exec.id := by
  unfold Completion.persisted at hdone
  split at hdone
  · cases hdone
  · exact h.gate hdone

theorem Completion.stepStatus_terminal (c : Completion) : c.stepStatus.terminal := by
  unfold Completion.stepStatus
  split <;> rfl

theorem cancelSourceTaskInstance_keeps {output : String} (hcov : ρ.Covers) (hs : ρ.Inv s)
    (hV : ρ.own.inst exec.instanceId) (h : c.Ready s exec) :
    Keeps ρ s (cancelSourceTaskInstance c.row output) anything := by
  unfold cancelSourceTaskInstance
  split
  · rename_i ls hls
    refine Keeps.bind hs (updateStepStatus_keeps (h.loopParent hcov hs hV hls) rfl nofun)
      fun _ t _ ht _ => ?_
    refine Keeps.bind ht (clearLoopState_keeps (h.inst hV)) fun _ _ _ _ _ => ?_
    exact updateStatus_keeps (h.inst hV)
  · exact updateStatus_keeps (h.inst hV)

theorem failStep_keeps {vars : Vars} {message : String} (hnext : NextKeeps ρ next) (hs : ρ.Inv s)
    (hV : ρ.own.inst exec.instanceId) (hW : ρ.own.exec exec.id) (h : c.Ready s exec)
    (hvars : c.d.Allows vars) :
    Keeps ρ s (failStep next exec.id c vars message) anything := by
  unfold failStep
  split
  · rename_i herr
    refine Keeps.bind hs (Keeps.record hW trivial) fun _ t hst ht _ => ?_
    exact hnext t c.row.id "on_error" 0 c.d c.row.triggerData vars ht (h.inst hV)
      (h.runs.later hst) herr hvars
  · exact Keeps.bind hs (Keeps.record hW trivial) fun _ _ _ _ _ => updateStatus_keeps (h.inst hV)

theorem completeSourceGate_keeps {env : Env} (hnext : NextKeeps ρ next) (hcov : ρ.Covers)
    (hs : ρ.Inv s) (hV : ρ.own.inst exec.instanceId) (hW : ρ.own.exec exec.id)
    (h : c.Ready s exec) :
    Keeps ρ s (completeSourceGate env next exec task c) anything := by
  refine Keeps.bind (Q := anything) hs (Keeps.read fun _ _ _ _ _ _ => trivial)
    fun active t hst ht _ => ?_
  split
  · exact Keeps.pure fun _ _ _ => trivial
  have hsource : "source_task" ∈ c.d.names := by simp [Definition.names]
  refine Keeps.bind ht (saveVariableStore_keeps (h.inst hV) (h.runs.later hst)
    (h.vars.insert hsource)) fun _ u htu hu _ => ?_
  have hgate := (h.later (hst.trans htu)).persisted task
  refine Keeps.bind hu (updateStepStatus_keeps hW (c.persisted_terminal task) hgate)
    fun _ v huv hv _ => ?_
  have hv' := h.later ((hst.trans htu).trans huv)
  split
  · refine Keeps.bind hv (Keeps.record hW trivial) fun _ x hvx hx _ => ?_
    exact cancelSourceTaskInstance_keeps hcov hx hV (hv'.later hvx)
  · split
    · exact failStep_keeps hnext hv hV hW hv' (h.vars.insert hsource)
    · refine Keeps.bind hv (Keeps.record hW trivial) fun _ x hvx hx _ => ?_
      exact hnext x c.row.id exec.flowName 0 c.d c.row.triggerData _ hx (h.inst hV)
        (hv'.runs.later hvx) h.flow (h.vars.insert hsource)

theorem completeIdleContinuation_keeps {host : Host} (hnext : NextKeeps ρ next) (hcov : ρ.Covers)
    (hs : ρ.Inv s) (hV : ρ.own.inst exec.instanceId) (hW : ρ.own.exec exec.id) (h : c.Ready s exec)
    (hidle : exec.status = .waitingForIdle) :
    Keeps ρ s (completeIdleContinuation host next exec task c) anything := by
  unfold completeIdleContinuation
  split
  · refine Keeps.bind hs (updateStepStatus_keeps hW (c.persisted_terminal task) (h.persisted task))
      fun _ t hst ht _ => ?_
    refine Keeps.bind ht (Keeps.record hW trivial) fun _ u htu hu _ => ?_
    exact cancelSourceTaskInstance_keeps hcov hu hV (h.later (hst.trans htu))
  split
  · refine Keeps.bind hs (updateStepStatus_keeps hW rfl nofun) fun _ t hst ht _ => ?_
    exact failStep_keeps hnext ht hV hW (h.later hst) h.vars
  refine Keeps.bind (Q := anything) hs (Keeps.lookup (h.continueStep hidle)
    fun _ _ _ _ _ => trivial)
    fun step t _ ht _ => ?_
  dsimp only
  split
  · refine Keeps.bind ht (updateStepStatus_keeps hW rfl nofun) fun _ u _ hu _ => ?_
    exact Keeps.bind hu (updateStatus_keeps (h.inst hV)) fun _ _ _ _ _ => Keeps.fail
  · refine Keeps.bind ht (dispatchWaitingContinuation_keeps ht hW) fun _ _ _ _ _ => ?_
    exact Keeps.pure fun _ _ _ => trivial

theorem LoopOk.advance {t : Db} {inst : ℕ} {d : Definition} {ls : LoopState}
    (h : LoopOk t inst d ls) :
    LoopOk t inst d { ls with bodyIndex := ls.bodyIndex + 1, activeExecutionId := none } :=
  ⟨h.step, h.flow, h.named, h.parent, by simp⟩

theorem completeStep_keeps {env : Env} (hnext : NextKeeps ρ next) (hcov : ρ.Covers)
    (hs : ρ.Inv s) (hV : ρ.own.inst exec.instanceId) (hW : ρ.own.exec exec.id)
    (h : c.Ready s exec) :
    Keeps ρ s (completeStep env next exec task c) anything := by
  refine Keeps.bind hs (updateStepStatus_keeps hW (c.persisted_terminal task) (h.persisted task))
    fun _ t hst ht _ => ?_
  have ht' := h.later hst
  split
  · refine Keeps.bind ht (Keeps.record hW trivial) fun _ u htu hu _ => ?_
    exact cancelSourceTaskInstance_keeps hcov hu hV (ht'.later htu)
  have hvars := h.vars.insert (v := stepValue (c.d.findStep exec.flowName exec.stepId)
    (parseTaskOutput env c.output)) h.mem_names
  refine Keeps.bind ht (saveVariableStore_keeps (h.inst hV) ht'.runs hvars) fun _ u htu hu _ => ?_
  have hu' := ht'.later htu
  split
  · split
    · rename_i ls hls
      refine Keeps.bind hu (updateStepStatus_keeps (h.loopParent hcov hs hV hls) rfl nofun)
        fun _ v huv hv _ => ?_
      refine Keeps.bind hv (clearLoopState_keeps (h.inst hV)) fun _ x hvx hx _ => ?_
      exact failStep_keeps hnext hx hV hW (hu'.later (huv.trans hvx)) hvars
    · exact failStep_keeps hnext hu hV hW hu' hvars
  split
  · rename_i ls hls
    have hls' : c.row.loopState = some ls := (Option.filter_eq_some_iff.1 hls).1
    have hok := (hu'.row.loopOk h.definition hls').advance
    have hWl : ρ.own.exec ls.parentExecutionId := h.loopParent hcov hs hV hls'
    refine Keeps.bind hu (updateLoopState_keeps (h.inst hV) hu'.runs hok) fun _ v huv hv _ => ?_
    refine Keeps.bind hv (Keeps.record hW trivial) fun _ x hvx hx _ => ?_
    exact continueLoop_keeps hnext hx (h.inst hV) hWl
      (hu'.runs.later (huv.trans hvx)) (hok.later (huv.trans hvx)) hvars
  · refine Keeps.bind hu (Keeps.record hW trivial) fun _ v huv hv _ => ?_
    exact hnext v c.row.id exec.flowName _ c.d c.row.triggerData _ hv (h.inst hV)
      (hu'.runs.later huv) h.flow hvars

theorem Completion.stepStatus_completed (h : c.stepStatus = .completed) :
    c.status = "completed" := by
  unfold Completion.stepStatus at h
  split at h
  · assumption
  · cases h

theorem SawExecution.gated_of_filter {d : Definition} (h : SawExecution s exec)
    (hr : s.Runs exec.instanceId d)
    (hnone : (d.findStep exec.flowName exec.stepId).filter
      (fun st => st.stepType = .command) = none) :
    s.Gated exec.id := by
  refine h.gated hr fun step hfind hty => ?_
  rw [hfind] at hnone
  simp [Option.filter, hty] at hnone

/-- What is reported of a command whose row was read. -/
theorem SawExecution.gated_of_result {env : Env} {d : Definition} {step : Step} {row : Execution}
    (h : SawExecution s exec) (hr : s.Runs exec.instanceId d)
    (hfind : d.findStep exec.flowName exec.stepId = some step)
    (hrow : s.execution? exec.id = some row)
    (hdone : (match row.commandResult with
      | some r => (if r.succeeds step.allowFailure then "completed" else "failed", r.jsonOutput env)
      | none => ("failed", "Command has no recorded execution result")).1 = "completed") :
    s.Gated exec.id := by
  refine h.gated hr fun st hst _ => ?_
  rw [hfind, Option.some.injEq] at hst
  subst hst
  split at hdone
  · rename_i r hres
    refine ⟨row, r, hrow, hres, ?_⟩
    by_contra hfail
    simp [hfail] at hdone
  · simp at hdone

/-- A command is reported as completed only with a saved result that succeeds. -/
theorem commandCompletion_keeps {env : Env} {d : Definition} {status output : String}
    (hs : ρ.Inv s) (hr : s.Runs exec.instanceId d) (hsaw : SawExecution s exec) :
    Keeps ρ s (commandCompletion env d exec status output) fun r t =>
      r.1 = "completed" → t.Gated exec.id := by
  unfold commandCompletion
  split
  · rename_i step hstep
    obtain ⟨hfind, -⟩ := Option.filter_eq_some_iff.1 hstep
    split
    · refine Keeps.bind (Q := fun row t => (match row.commandResult with
          | some r => (if r.succeeds step.allowFailure then "completed" else "failed",
              r.jsonOutput env)
          | none => ("failed", "Command has no recorded execution result")).1 = "completed" →
            t.Gated exec.id) hs
        (Keeps.fetch hs ?_) fun row t _ _ hrow => Keeps.pure fun u htu _ hdone =>
          (hrow hdone).later htu
      intro t hst _ row hrow u htu _ hdone
      exact ((hsaw.later hst).gated_of_result (hr.later hst) hfind hrow hdone).later htu
    · exact Keeps.pure fun _ _ _ hdone => absurd hdone ‹_›
  · rename_i hnone
    exact Keeps.pure fun t hst _ _ => (hsaw.later hst).gated_of_filter (hr.later hst) hnone

theorem completeContinue_keeps {host : Host} {again : String → String → ℕ → Run Unit}
    {attempt : Option ℕ} (hnext : NextKeeps ρ next) (hcov : ρ.Covers) (hs : ρ.Inv s)
    (hV : ρ.own.inst exec.instanceId) (hW : ρ.own.exec exec.id) (h : c.Ready s exec)
    (hagain : ∀ status output owned t, ρ.Inv t → SawExecution t exec →
      Keeps ρ t (again status output owned) anything) :
    Keeps ρ s (completeContinue host next again exec task c attempt) anything := by
  unfold completeContinue
  split
  · exact Keeps.fail
  split
  · split
    · exact Keeps.pure fun _ _ _ => trivial
    · exact completeStep_keeps hnext hcov hs hV hW h
  split
  · exact Keeps.pure fun _ _ _ => trivial
  refine Keeps.bind hs (Keeps.aside terminalAttemptCompletion_aside) fun r t hst ht _ => ?_
  cases r with
  | none => exact Keeps.pure fun _ _ _ => trivial
  | some r =>
    dsimp only
    split
    · exact hagain _ _ _ t ht (h.exec.later hst)
    · exact completeStep_keeps hnext hcov ht hV hW (h.later hst)

theorem completeWith_keeps {host : Host} {again : String → String → ℕ → Run Unit}
    {status output : String} {attempt : Option ℕ} (hnext : NextKeeps ρ next) (hcov : ρ.Covers)
    (hs : ρ.Inv s) (hV : ρ.own.inst exec.instanceId) (hW : ρ.own.exec exec.id)
    (hsaw : SawExecution s exec)
    (hagain : ∀ status output owned t, ρ.Inv t → SawExecution t exec →
      Keeps ρ t (again status output owned) anything) :
    Keeps ρ s (completeWith host next again exec task status output attempt) anything := by
  refine Keeps.bind hs (getInstance_keeps hs) ?_
  rintro row t hst ht ⟨hid, hrow⟩
  split
  swap
  · exact Keeps.pure fun _ _ _ => trivial
  refine Keeps.bind ht (definitionForInstance_keeps hrow) fun d u htu hu hd => ?_
  refine Keeps.bind hu (loadVariableStore_keeps hu ((hrow.later htu).runs hd))
    fun vars v huv hv hvars => ?_
  have htv := htu.trans huv
  refine Keeps.bind hv (commandCompletion_keeps hv (hid ▸ (hrow.later htv).runs hd)
    (hsaw.later (hst.trans htv))) ?_
  rintro ⟨status, output⟩ x hvx hx hgate
  have htx := (htu.trans huv).trans hvx
  have h : Completion.Ready x exec ⟨row, d, vars, status, output⟩ :=
    ⟨hrow.later htx, hid, hd, hvars, fun hdone => hgate (Completion.stepStatus_completed hdone),
      hsaw.later (hst.trans htx)⟩
  dsimp only
  split
  · rename_i parent hparent
    obtain ⟨⟨_, -, -, htop⟩, -⟩ := h.exec
    exact completeParallelBranch_keeps hnext hx (Completion.stepStatus_terminal _) hV hW
      (hcov.join x exec parent hx h.exec hW hparent) (htop parent hparent).1 h.gate
  split
  · exact completeSourceGate_keeps hnext hcov hx hV hW h
  split
  · rename_i hidle
    exact completeIdleContinuation_keeps hnext hcov hx hV hW h hidle
  split
  · exact completeContinue_keeps hnext hcov hx hV hW h hagain
  · exact completeStep_keeps hnext hcov hx hV hW h

theorem onExecutionTaskCompleted_keeps {host : Host} {status output : String} {attempt : Option ℕ}
    (hnext : NextKeeps ρ next) (hcov : ρ.Covers) (hs : ρ.Inv s)
    (hV : ρ.own.inst exec.instanceId) (hW : ρ.own.exec exec.id) (hsaw : SawExecution s exec) :
    Keeps ρ s (onExecutionTaskCompleted host next exec task status output attempt) anything := by
  refine completeWith_keeps hnext hcov hs hV hW hsaw fun _ _ _ t ht ht' => ?_
  exact completeWith_keeps hnext hcov ht hV hW ht' fun _ _ _ _ _ _ => Keeps.stall

end Completion

theorem completed_keeps {host : Host} {exec : Execution} {task : ℕ} {status output : String}
    {attempt : Option ℕ} (hnext : NextKeeps ρ next) (hown : ρ.Owns) (hs : ρ.Inv s)
    (hV : ρ.own.inst exec.instanceId) (hsaw : SawExecution s exec) :
    Keeps ρ s (onExecutionTaskCompleted host next exec task status output attempt) anything :=
  onExecutionTaskCompleted_keeps hnext hown.covers hs hV
    (hown.exec s _ _ hs hV hsaw.belongs) hsaw

theorem completeEach_keeps {p : Execution → Run Unit} {es : List Execution} (hs : ρ.Inv s)
    (h : ∀ e ∈ es, ∀ t, Frame ρ.others s t → ρ.Inv t → Keeps ρ t (p e) anything) :
    Keeps ρ s (completeEach p es) anything := by
  induction es generalizing s with
  | nil => exact Keeps.pure fun _ _ _ => trivial
  | cons e es ih =>
    refine Keeps.bind hs (h e (List.mem_cons_self ..) s (Frame.refl s) hs).attempt
      fun r t hst ht _ => ?_
    refine Keeps.bind ht (ih ht fun f hf u htu hu =>
      h f (List.mem_cons_of_mem _ hf) u (hst.trans htu) hu) fun _ _ _ _ _ => ?_
    exact Keeps.pure fun _ _ _ => trivial

theorem mem_runningByTask {db : Db} {task : ℕ} {e : Execution} :
    e ∈ db.runningByTask task ↔ e ∈ db.executions ∧ e.taskId = some task ∧
      (e.status = .running ∨ e.status = .waitingForIdle) ∧
      (db.instance? e.instanceId).any fun i => i.status = .running := by
  simp only [Db.runningByTask, List.mem_append, List.mem_filter, List.mem_insertionSort,
    Bool.and_eq_true, Bool.or_eq_true, decide_eq_true_eq]
  tauto

theorem runningByTask_nodup {t : Db} (ht : WellFormed t) (task : ℕ) :
    ((t.runningByTask task).map Execution.id).Nodup := by
  have hsorted : ∀ (l : List Execution) (r : Execution → Execution → Prop) [DecidableRel r],
      (l.map Execution.id).Nodup → ((l.insertionSort r).map Execution.id).Nodup :=
    fun l r _ h => ((List.perm_insertionSort r l).map Execution.id).nodup_iff.2 h
  rw [Db.runningByTask, List.map_append]
  have hfound := hsorted _ (fun a b => a.startedAt ≤ b.startedAt)
    (ht.executionsNodup.sublist ((List.filter_sublist (l := t.executions)
      (p := fun e => e.taskId = some task && (e.status = .running || e.status = .waitingForIdle) &&
        (t.instance? e.instanceId).any fun i => i.status = .running)).map _))
  refine List.nodup_append.2 ⟨hfound.sublist (List.filter_sublist.map _),
    hfound.sublist (List.filter_sublist.map _), ?_⟩
  intro a ha b hb hab
  obtain ⟨e, he, rfl⟩ := List.mem_map.1 ha
  obtain ⟨f, hf, rfl⟩ := List.mem_map.1 hb
  rw [List.mem_filter] at he hf
  -- one id, one row
  have heq := List.inj_on_of_nodup_map hfound he.1 hf.1 hab
  simp_all

/-- What `on_task_completed` does once it has looked the executions up. -/
def completeFound (host : Host) (next : StepFn) (task : ℕ) (status output : String)
    (es : List Execution) : Run Unit := do
  let errors ← completeEach
    (fun e => onExecutionTaskCompleted host next e task status output none) es
  if errors.isEmpty then pure ()
  else Prog.fail (.workflow s!"workflow completion failed: {joinErrors errors}")

theorem onTaskCompleted_eq (host : Host) (next : StepFn) (task : ℕ) (status output : String) :
    onTaskCompleted host next task status output =
      Prog.act id fun t => completeFound host next task status output (t.runningByTask task) :=
  rfl

theorem completeFound_keeps {host : Host} {task : ℕ} {status output : String} {es : List Execution}
    (hnext : NextKeeps ρ next) (hcov : ρ.Covers) (hs : ρ.Inv s)
    (hes : ∀ e ∈ es, SawExecution s e ∧ ρ.own.inst e.instanceId ∧ ρ.own.exec e.id) :
    Keeps ρ s (completeFound host next task status output es) anything := by
  refine Keeps.bind hs (completeEach_keeps hs fun e he t hst ht => ?_) fun errors _ _ _ _ => ?_
  · obtain ⟨hsaw, hV, hW⟩ := hes e he
    exact onExecutionTaskCompleted_keeps hnext hcov ht hV hW (hsaw.later hst)
  · split
    · exact Keeps.pure fun _ _ _ => trivial
    · exact Keeps.fail

theorem sawExecution_of_mem_runningByTask {t : Db} (ht : WellFormed t) {task : ℕ} {e : Execution}
    (he : e ∈ t.runningByTask task) : SawExecution t e :=
  sawExecution_of_execution? ht (ht.execution?_of_mem (mem_runningByTask.1 he).1)

theorem findRunningExecutionsByTask_keeps {task : ℕ} (hown : ρ.Owns) :
    Keeps ρ s (findRunningExecutionsByTask task) fun es t =>
      ∀ e ∈ es, SawExecution t e ∧ ρ.own.inst e.instanceId := by
  refine Keeps.read fun t _ ht u htu _ e he => ?_
  obtain ⟨hmem, -, hlive, -⟩ := mem_runningByTask.1 he
  exact ⟨(sawExecution_of_mem_runningByTask ht.wf he).later htu, hown.live t ht e hmem hlive⟩

theorem onTaskCompleted_keeps {host : Host} {task : ℕ} {status output : String}
    (hnext : NextKeeps ρ next) (hown : ρ.Owns) (hs : ρ.Inv s) :
    Keeps ρ s (onTaskCompleted host next task status output) anything := by
  refine Keeps.bind hs (findRunningExecutionsByTask_keeps hown) fun es t _ ht hes => ?_
  refine completeFound_keeps hnext hown.covers ht fun e he => ?_
  obtain ⟨hsaw, hV⟩ := hes e he
  exact ⟨hsaw, hV, hown.exec t _ _ ht hV hsaw.belongs⟩

theorem onAttemptCompleted_keeps {host : Host} {task attempt : ℕ} {status output : String}
    (hnext : NextKeeps ρ next) (hown : ρ.Owns) (hs : ρ.Inv s) :
    Keeps ρ s (onAttemptCompleted host next task attempt status output) anything := by
  refine Keeps.bind hs (findRunningExecutionsByTask_keeps hown) fun es t _ ht hes => ?_
  refine Keeps.bind ht (completeEach_keeps ht fun e he u htu hu => ?_) fun errors _ _ _ _ => ?_
  · obtain ⟨hsaw, hV⟩ := hes e (List.mem_filter.1 he).1
    exact completed_keeps hnext hown hu hV (hsaw.later htu)
  · split
    · exact Keeps.pure fun _ _ _ => trivial
    · exact Keeps.fail

/-! ## Waits -/

/-- A top-level step is what its id is looked up as. -/
theorem Definition.WellTargeted.findStep_of_stepIndex {d : Definition} (hw : d.WellTargeted)
    {flow stepId : String} (h : (d.stepIndex flow stepId).isSome) :
    ∃ f step, d.flow? flow = some f ∧ step ∈ f.steps ∧ step.id = stepId ∧
      d.findStep flow stepId = some step := by
  obtain ⟨k, hk⟩ := Option.isSome_iff_exists.1 h
  rw [Definition.stepIndex, Option.bind_eq_some_iff] at hk
  obtain ⟨f, hf, hk⟩ := hk
  obtain ⟨hlt, hid, -⟩ := List.findIdx?_eq_some_iff_getElem.1 hk
  have hid : f.steps[k].id = stepId := by simpa using hid
  have hmem : f.steps[k] ∈ f.steps := List.getElem_mem hlt
  refine ⟨f, f.steps[k], hf, hmem, hid, ?_⟩
  rw [Definition.findStep, hf, Option.bind_some, ← hid]
  exact findStepInList_of_mem (hw.ids_nodup flow f hf) hmem

section Wait

variable {env : Env} {exec : Execution} {d : Definition}

theorem advanceCompletedWait_keeps {step : Step} {trigger : Json} {vars : Vars}
    (hnext : NextKeeps ρ next) (hstart : StartKeeps ρ start) (hs : ρ.Inv s)
    (hV : ρ.own.inst exec.instanceId) (hW : ρ.own.exec exec.id) (hr : s.Runs exec.instanceId d)
    (htop : (d.stepIndex exec.flowName exec.stepId).isSome)
    (hfind : d.findStep exec.flowName exec.stepId = some step) (hty : step.stepType = .wait)
    (hvars : d.Allows vars) :
    Keeps ρ s (advanceCompletedWait env next start exec step d trigger vars) anything := by
  unfold advanceCompletedWait
  split
  · split
    · exact Keeps.fail
    · rename_i target htarget
      refine Keeps.bind hs (Keeps.record hW trivial) fun _ t hst ht _ => ?_
      refine resolveGoto_keeps hnext hstart ht hV (hr.later hst) ?_ hvars
      have hw := hs.wf.wellTargeted hr
      obtain ⟨f, step', hf, hmem, -, hfind'⟩ := hw.findStep_of_stepIndex htop
      rw [hfind, Option.some.injEq] at hfind'
      subst hfind'
      refine hw.resolves _ f hf step hmem target ?_
      rw [Definition.targets, hty, htarget]
      exact List.mem_singleton_self _
  · refine Keeps.bind (Q := anything) hs (Keeps.lookup htop fun _ _ _ _ _ => trivial)
      fun index t hst ht _ => ?_
    refine Keeps.bind ht (Keeps.record hW trivial) fun _ u htu hu _ => ?_
    exact hnext u exec.instanceId exec.flowName (index + 1) d trigger vars hu hV
      ((hr.later hst).later htu) (flow?_of_stepIndex htop) hvars

theorem finishWaitExecution_keeps {inst id : ℕ} (hnext : NextKeeps ρ next)
    (hstart : StartKeeps ρ start) (hown : ρ.Owns) (hs : ρ.Inv s) (hV : ρ.own.inst inst)
    (hb : s.Belongs inst id) : Keeps ρ s (finishWaitExecution env next start id) anything := by
  refine Keeps.bind hs (getStepExecution_keeps hs) ?_
  rintro exec t hst ht ⟨rfl, hsaw⟩
  have hinst : exec.instanceId = inst := hsaw.belongs.unique (hb.later hst)
  subst hinst
  have hW := hown.exec t _ _ ht hV hsaw.belongs
  split
  swap
  · exact Keeps.pure fun _ _ _ => trivial
  rename_i hres
  refine Keeps.bind ht (getInstance_keeps ht) ?_
  rintro row u htu hu ⟨hrow, hrsaw⟩
  split
  swap
  · exact Keeps.pure fun _ _ _ => trivial
  refine Keeps.bind hu (setActiveStatus_keeps hV) fun _ v huv hv _ => ?_
  refine Keeps.bind hv (definitionForInstance_keeps (hrsaw.later huv)) fun d x hvx hx hd => ?_
  have hr : x.Runs exec.instanceId d := by
    have := (hrsaw.later (huv.trans hvx)).runs hd
    rwa [hrow] at this
  have htop := ((hsaw.later ((htu.trans huv).trans hvx)).placed hr).top (.inr hres)
  obtain ⟨f, step, hf, hmem, hsid, hfind⟩ := (hx.wf.wellTargeted hr).findStep_of_stepIndex htop
  refine Keeps.bind (Q := fun st _ => d.findStep exec.flowName exec.stepId = some st) hx
    (Keeps.lookup (by rw [hfind]; rfl) fun st hst' _ _ _ => hst') fun st y hxy hy hst' => ?_
  split
  swap
  · exact Keeps.fail
  rename_i hty
  have hkey := (hsaw.later ((htu.trans huv).trans hvx)).mem_names hr
  refine Keeps.bind hy (loadVariableStore_keeps hy (hr.later hxy)) fun stored z hyz hz hstored => ?_
  refine Keeps.bind hz (saveVariableStore_keeps hV ((hr.later hxy).later hyz)
    (hstored.insert hkey)) fun _ a hza ha _ => ?_
  split
  · exact Keeps.bind ha (updateStepStatus_keeps hW rfl nofun) fun _ _ _ _ _ => updateStatus_keeps hV
  · have hgate : a.Gated exec.id := by
      have hsaw' := hsaw.later ((htu.trans huv).trans hvx)
      refine Db.Gated.later (hsaw'.gated hr fun st' hst'' hcmd => ?_) ((hxy.trans hyz).trans hza)
      rw [hst', Option.some.injEq] at hst''
      rw [← hst'', hty] at hcmd
      cases hcmd
    refine Keeps.bind ha (updateStepStatus_keeps hW rfl fun _ => hgate) fun _ b hab hb' _ => ?_
    exact advanceCompletedWait_keeps hnext hstart hb' hV hW
      (hr.later (((hxy.trans hyz).trans hza).trans hab)) htop hst' hty (hstored.insert hkey)

theorem claimWait_keeps {id : ℕ} {output : String} (hW : ρ.own.exec id) :
    Keeps ρ s (claimWait id output) fun claimed t => claimed = true →
    ∃ inst, t.Belongs inst id := by
  refine Keeps.tx fun t _ ht claimed w h => ?_
  obtain ⟨-, -, h⟩ := bind_ok h
  split at h
  · rename_i e he
    split at h
    · rename_i hwait
      cases h
      have hm : Moves ρ.own t (t.setExecution id fun e =>
          { e with status := .resuming, output := some output }) := by
        refine Moves.setExecution ht.wf (.inl hW)
          (fun e => ⟨rfl, rfl, rfl, rfl, rfl, rfl, rfl, rfl, fun _ h => h⟩) ?_
        rintro f hf hid ⟨d, hr, hp, hpar⟩
        obtain rfl := eq_of_execution? ht.wf he hf hid
        exact ⟨d, hr, ⟨hp.flow, hp.stands, fun _ => hp.top (.inl hwait), by simp, by simp⟩, hpar⟩
      exact ⟨hm, fun u hu _ _ => ⟨e.instanceId, (Db.Belongs.later ⟨e, he, rfl⟩ hm.1).later hu⟩⟩
    · cases h
      exact ⟨Moves.refl ht.wf, by simp⟩
  · cases h
    exact ⟨Moves.refl ht.wf, by simp⟩

theorem resumeWaitExecution_keeps {id : ℕ} {payload : Json} (hnext : NextKeeps ρ next)
    (hstart : StartKeeps ρ start) (hown : ρ.Owns) (hs : ρ.Inv s) (hW : ρ.own.exec id)
    (hV : ∀ inst, ρ.own.inst inst) :
    Keeps ρ s (resumeWaitExecution env next start id payload) anything := by
  refine Keeps.bind hs (claimWait_keeps hW) fun claimed t _ ht hclaimed => ?_
  split
  · rename_i hc
    obtain ⟨inst, hb⟩ := hclaimed hc
    exact finishWaitExecution_keeps hnext hstart hown ht (hV inst) hb
  · exact Keeps.pure fun _ _ _ => trivial

end Wait

/-! ## Recovery -/

section Recovery

variable {host : Host} {fuel : ℕ}

theorem rollUp_keeps {task : Option ℕ} (hnext : NextKeeps ρ next) (hown : ρ.Owns) (hs : ρ.Inv s) :
    Keeps ρ s (rollUp host next fuel task) anything := by
  induction fuel generalizing s task with
  | zero =>
    cases task with
    | none => exact Keeps.pure fun _ _ _ => trivial
    | some task => exact Keeps.stall
  | succ fuel ih =>
    cases task with
    | none => exact Keeps.pure fun _ _ _ => trivial
    | some task =>
      refine Keeps.bind (Q := anything) hs (Keeps.tx fun t _ ht r w h => ?_)
        fun done t _ ht _ => ?_
      · split at h
        · cases h
        · cases h
          exact ⟨Moves.aside ht.wf (.setWork _ _), fun _ _ _ => trivial⟩
      cases done with
      | none => exact Keeps.pure fun _ _ _ => trivial
      | some row =>
        refine Keeps.bind (Q := anything) ht (Keeps.read fun _ _ _ _ _ _ => trivial)
          fun output u _ hu _ => ?_
        refine Keeps.bind hu (Keeps.ignore hu (onTaskCompleted_keeps hnext hown hu))
          fun _ v _ hv _ => ?_
        refine Keeps.bind hv (Keeps.aside TaskBoard.get_aside) fun now x _ hx _ => ?_
        split
        · refine Keeps.bind hx (ih hx) fun _ _ _ _ _ => ?_
          exact Keeps.pure fun _ _ _ => trivial
        · exact Keeps.pure fun _ _ _ => trivial

theorem recoverableTaskStatus_keeps {task : ℕ} {ts : TaskStatus} {es : ExecStatus}
    (hnext : NextKeeps ρ next) (hown : ρ.Owns) (hs : ρ.Inv s) :
    Keeps ρ s (recoverableTaskStatus host next fuel task ts es) anything := by
  have done : ∀ (t : Db) (r : Option String), Keeps ρ t (pure r : Run (Option String)) anything :=
    fun _ _ => Keeps.pure fun _ _ _ => trivial
  rcases recoverableTaskStatus_cases host next fuel task ts es with ⟨status, h⟩ | h
  · rw [h]
    exact done _ _
  rw [h, recoverUnsettled]
  refine Keeps.bind (Q := anything) hs (Keeps.read fun _ _ _ _ _ _ => trivial)
    fun active t _ ht _ => ?_
  split
  · refine Keeps.bind (Q := anything) ht (Keeps.read fun _ _ _ _ _ _ => trivial)
      fun latest u _ hu _ => ?_
    split
    · refine Keeps.bind (Q := anything) hu (Keeps.read fun _ _ _ _ _ _ => trivial)
        fun output v _ hv _ => ?_
      split
      · exact Keeps.bind hv (Keeps.aside TaskBoard.updateStatus_aside) fun _ _ _ _ _ => done _ _
      · refine Keeps.bind hv (rollUp_keeps hnext hown hv) fun completed x _ hx _ => ?_
        split
        · exact Keeps.bind hx (Keeps.aside TaskBoard.get_aside) fun _ _ _ _ _ => done _ _
        · exact done _ _
    · exact done _ _
  · split
    · refine Keeps.bind (Q := anything) ht (Keeps.read fun _ _ _ _ _ _ => trivial) ?_
      exact fun _ _ _ _ _ => done _ _
    · exact done _ _

theorem stepAt_of_currentStep {d : Definition} {i : Instance} {step : Step}
    (h : currentStep d i = some step) :
    d.stepAt i.currentFlow i.currentStepIndex.toNat = some step := by
  unfold currentStep at h
  split at h
  · exact h
  · cases h

theorem executePosition_keeps {d : Definition} {i : Instance} {p : Step → Bool}
    (hnext : NextKeeps ρ next) (hs : ρ.Inv s) (hV : ρ.own.inst i.id) (hr : s.Runs i.id d)
    (h : (currentStep d i).any p) : Keeps ρ s (executePosition next d i) anything := by
  obtain ⟨step, hstep⟩ : ∃ step, currentStep d i = some step := by
    cases hc : currentStep d i with
    | none => simp [hc] at h
    | some step => exact ⟨step, rfl⟩
  refine Keeps.bind hs (loadVariableStore_keeps hs hr) fun vars t hst ht hvars => ?_
  exact hnext t i.id i.currentFlow _ d i.triggerData vars ht hV (hr.later hst)
    (stepAt_top (stepAt_of_currentStep hstep)).1 hvars

theorem recoverBranch_keeps {child : Execution} (hnext : NextKeeps ρ next) (hown : ρ.Owns)
    (hs : ρ.Inv s) (hV : ρ.own.inst child.instanceId) (hsaw : SawExecution s child) :
    Keeps ρ s (recoverBranch host next fuel child) anything := by
  unfold recoverBranch
  split
  · exact Keeps.fail
  refine Keeps.bind hs (Keeps.aside TaskBoard.get_aside) fun row t hst ht _ => ?_
  refine Keeps.bind ht (recoverableTaskStatus_keeps hnext hown ht) fun status u htu hu _ => ?_
  cases status with
  | some status =>
    refine Keeps.bind (Q := anything) hu (Keeps.read fun _ _ _ _ _ _ => trivial)
      fun output v huv hv _ => ?_
    exact completed_keeps hnext hown hv hV
      (hsaw.later ((hst.trans htu).trans huv))
  | none =>
    dsimp only
    split
    · exact Keeps.aside TaskQueue.ensureEnqueued_aside
    · exact Keeps.pure fun _ _ _ => trivial

theorem recoverParallel_keeps {i : Instance} (hnext : NextKeeps ρ next) (hown : ρ.Owns)
    (hs : ρ.Inv s) (hV : ρ.own.inst i.id) (hi : SawInstance s i) :
    Keeps ρ s (recoverParallel host next fuel i) anything := by
  refine Keeps.bind hs (definitionForInstance_keeps hi) fun d t hst ht hd => ?_
  have hr : t.Runs i.id d := (hi.runs hd).later hst
  split
  swap
  · exact Keeps.pure fun _ _ _ => trivial
  rename_i hpos
  refine Keeps.bind ht listStepExecutions_keeps fun execs u htu hu hexecs => ?_
  split
  · refine Keeps.bind hu (executePosition_keeps hnext hu hV (hr.later htu) hpos) ?_
    exact fun _ _ _ _ _ => Keeps.pure fun _ _ _ => trivial
  rename_i parent hparent
  have hcur : i.currentExecutionId = some parent.id := by simpa using List.find?_some hparent
  refine Keeps.bind hu (Keeps.forEach hu fun child hchild v huv hv => ?_) fun _ v huv hv _ => ?_
  · obtain ⟨hinst, hsaw⟩ := hexecs child (List.mem_filter.1 hchild).1
    exact recoverBranch_keeps hnext hown hv (hinst ▸ hV) (hsaw.later huv)
  · obtain ⟨⟨_, -, -, -, htop, -⟩, -⟩ := hi.later (hst.trans (htu.trans huv))
    have htop := htop _ hcur
    refine Keeps.bind hv (finishParallel_keeps hnext hv hV
      (hown.exec v _ _ hv hV htop.belongs) htop) fun _ _ _ _ _ => ?_
    exact Keeps.pure fun _ _ _ => trivial

theorem recoverCommandExecution_keeps {i : Instance} (hnext : NextKeeps ρ next) (hown : ρ.Owns)
    (hs : ρ.Inv s) (hV : ρ.own.inst i.id) (hi : SawInstance s i) :
    Keeps ρ s (recoverCommandExecution host next i) anything := by
  refine Keeps.bind hs (definitionForInstance_keeps hi) fun d t hst ht hd => ?_
  split
  swap
  · exact Keeps.pure fun _ _ _ => trivial
  rename_i hpos
  split
  · refine Keeps.bind ht (executePosition_keeps hnext ht hV ((hi.runs hd).later hst) hpos) ?_
    exact fun _ _ _ _ _ => Keeps.pure fun _ _ _ => trivial
  rename_i id hcur
  refine Keeps.bind ht (getStepExecution_keeps ht) ?_
  rintro exec u htu hu ⟨rfl, hsaw⟩
  obtain ⟨⟨_, -, -, -, htop, -⟩, -⟩ := hi.later (hst.trans htu)
  have hinst : exec.instanceId = i.id := hsaw.belongs.unique (htop _ hcur).belongs
  split
  · split
    · refine Keeps.bind hu (completed_keeps hnext hown hu (hinst ▸ hV) hsaw) ?_
      exact fun _ _ _ _ _ => Keeps.pure fun _ _ _ => trivial
    · exact Keeps.pure fun _ _ _ => trivial
  · exact Keeps.pure fun _ _ _ => trivial

theorem recoverTask_keeps {exec : Execution} {task : ℕ} (hnext : NextKeeps ρ next)
    (hown : ρ.Owns) (hs : ρ.Inv s) : Keeps ρ s (recoverTask host next fuel exec task) anything := by
  refine Keeps.bind (Q := anything) hs (Keeps.read fun _ _ _ _ _ _ => trivial)
    fun row t _ ht _ => ?_
  cases row with
  | none => exact Keeps.pure fun _ _ _ => trivial
  | some row =>
    refine Keeps.bind ht (recoverableTaskStatus_keeps hnext hown ht) fun status u _ hu _ => ?_
    cases status with
    | some status =>
      refine Keeps.bind (Q := anything) hu (Keeps.read fun _ _ _ _ _ _ => trivial)
        fun output v _ hv _ => ?_
      exact Keeps.ignore hv (onTaskCompleted_keeps hnext hown hv)
    | none =>
      dsimp only
      split
      · exact Keeps.ignore hu (Keeps.aside TaskQueue.ensureEnqueued_aside)
      · exact Keeps.pure fun _ _ _ => trivial

theorem recoverContinuation_keeps {exec : Execution} {task attempt : ℕ} (hnext : NextKeeps ρ next)
    (hown : ρ.Owns) (hs : ρ.Inv s) (hV : ρ.own.inst exec.instanceId) (hsaw : SawExecution s exec) :
    Keeps ρ s (recoverContinuation host next fuel exec task attempt) anything := by
  refine Keeps.bind (Q := anything) hs (Keeps.read fun _ _ _ _ _ _ => trivial)
    fun found t hst ht _ => ?_
  refine Keeps.bind (Q := anything) ht (Keeps.read fun _ _ _ _ _ _ => trivial)
    fun output u htu hu _ => ?_
  have hsaw' := hsaw.later (hst.trans htu)
  split
  · exact Keeps.ignore hu (completed_keeps hnext hown hu hV hsaw')
  · exact Keeps.ignore hu (completed_keeps hnext hown hu hV hsaw')
  refine Keeps.bind hu (Keeps.aside terminalAttemptCompletion_aside).attempt fun r v huv hv _ => ?_
  split
  · split
    · exact recoverTask_keeps hnext hown hv
    · exact Keeps.ignore hv (completed_keeps hnext hown hv hV (hsaw'.later huv))
  · exact Keeps.pure fun _ _ _ => trivial
  · exact Keeps.pure fun _ _ _ => trivial

theorem recoverLoop_keeps {i : Instance} {ls : LoopState} (hnext : NextKeeps ρ next)
    (hown : ρ.Owns) (hs : ρ.Inv s) (hV : ρ.own.inst i.id) (hi : SawInstance s i)
    (hls : i.loopState = some ls) : Keeps ρ s (recoverLoop host next i ls) anything := by
  unfold recoverLoop
  split
  · rename_i active hactive
    refine Keeps.bind (Q := fun o t => ∀ e, o = some e → e.id = active ∧ SawExecution t e) hs
      (Keeps.read ?_) fun o t hst ht ho => ?_
    · intro t _ ht u htu _ e he
      exact ⟨Table.key_of_get he, (sawExecution_of_execution? ht.wf he).later htu⟩
    cases o with
    | none => exact Keeps.pure fun _ _ _ => trivial
    | some body =>
      obtain ⟨rfl, hsaw⟩ := ho body rfl
      obtain ⟨d, hd, -⟩ := hi.2
      have hb := (hi.loopOk hd hls).active _ hactive
      have hinst : body.instanceId = i.id := hsaw.belongs.unique (hb.later hst)
      dsimp only
      split
      · exact Keeps.pure fun _ _ _ => trivial
      split
      · refine Keeps.bind (Q := anything) ht (Keeps.read fun _ _ _ _ _ _ => trivial)
          fun spoken u htu hu _ => ?_
        exact Keeps.ignore hu
          (completed_keeps hnext hown hu (hinst ▸ hV) (hsaw.later htu))
      · exact Keeps.pure fun _ _ _ => trivial
  · refine Keeps.bind hs (definitionForInstance_keeps hi) fun d t hst ht hd => ?_
    refine Keeps.bind ht (loadVariableStore_keeps ht ((hi.later hst).runs hd))
      fun vars u htu hu hvars => ?_
    have hi' := hi.later (hst.trans htu)
    have hok := hi'.loopOk hd hls
    exact Keeps.ignore hu (continueLoop_keeps hnext hu hV
      (hown.exec u _ _ hu hV hok.parent.belongs) (hi'.runs hd) hok hvars)

theorem recoverCurrent_keeps {i : Instance} {exec : Execution} (hnext : NextKeeps ρ next)
    (hown : ρ.Owns) (hs : ρ.Inv s) (hV : ρ.own.inst i.id) (hi : SawInstance s i)
    (hinst : exec.instanceId = i.id) (hsaw : SawExecution s exec) :
    Keeps ρ s (recoverCurrent host next fuel i exec) anything := by
  unfold recoverCurrent
  split
  · split
    · exact recoverContinuation_keeps hnext hown hs (hinst ▸ hV) hsaw
    · exact recoverTask_keeps hnext hown hs
  · split
    · rename_i ls hls
      exact recoverLoop_keeps hnext hown hs hV hi (Option.filter_eq_some_iff.1 hls).1
    · exact Keeps.pure fun _ _ _ => trivial

theorem recoverWait_keeps {i : Instance} {d : Definition} {execs : List Execution}
    (hnext : NextKeeps ρ next) (hstart : StartKeeps ρ start) (hown : ρ.Owns) (hs : ρ.Inv s)
    (hV : ρ.own.inst i.id) (hr : s.Runs i.id d)
    (hexecs : ∀ e ∈ execs, e.instanceId = i.id ∧ SawExecution s e) :
    Keeps ρ s (recoverWait host next start i d execs) anything := by
  unfold recoverWait
  split
  · exact Keeps.pure fun _ _ _ => trivial
  rename_i step hstep
  obtain ⟨hcur, hty⟩ := Option.filter_eq_some_iff.1 hstep
  have hat := stepAt_of_currentStep hcur
  split
  · exact Keeps.pure fun _ _ _ => trivial
  rename_i exec hexec
  obtain ⟨hinst, hsaw⟩ := hexecs exec (List.mem_reverse.1 (List.mem_of_find?_eq_some hexec))
  have hplace := List.find?_some hexec
  simp only [Bool.and_eq_true, decide_eq_true_eq] at hplace
  obtain ⟨⟨hflow, hid⟩, -⟩ := hplace
  refine Keeps.bind hs (loadVariableStore_keeps hs hr) fun vars t hst ht hvars => ?_
  refine Keeps.ignore ht (advanceCompletedWait_keeps hnext hstart ht (hinst ▸ hV)
    (hown.exec s _ _ hs hV (hinst ▸ hsaw.belongs)) (hinst ▸ hr.later hst) ?_ ?_ ?_ hvars)
  · rw [hflow, hid]
    exact (stepAt_top hat).2.1
  · rw [hflow, hid]
    exact (hs.wf.wellTargeted hr).findStep_of_stepAt hat
  · simpa using hty

theorem recoverSettled_keeps {i : Instance} {execs : List Execution} (hnext : NextKeeps ρ next)
    (hstart : StartKeeps ρ start) (hown : ρ.Owns) (hs : ρ.Inv s) (hV : ρ.own.inst i.id)
    (hi : SawInstance s i) (hexecs : ∀ e ∈ execs, e.instanceId = i.id ∧ SawExecution s e) :
    Keeps ρ s (recoverSettled host next start fuel i execs) anything := by
  refine Keeps.bind hs (definitionForInstance_keeps hi) fun d t hst ht hd => ?_
  have hwait : ∀ u, Frame ρ.others t u → ρ.Inv u →
      Keeps ρ u (recoverWait host next start i d execs) anything := fun u htu hu =>
    recoverWait_keeps hnext hstart hown hu hV ((hi.runs hd).later (hst.trans htu)) fun e he =>
      ⟨(hexecs e he).1, (hexecs e he).2.later (hst.trans htu)⟩
  split
  · exact hwait t (Frame.refl t) ht
  rename_i exec hexec
  have hmem : exec ∈ execs := List.mem_of_getLast? (Option.filter_eq_some_iff.1 hexec).1
  obtain ⟨hinst, hsaw⟩ := hexecs exec hmem
  split
  · exact hwait t (Frame.refl t) ht
  refine Keeps.bind (Q := anything) ht (Keeps.read fun _ _ _ _ _ _ => trivial)
    fun row u htu hu _ => ?_
  cases row with
  | none => exact hwait u htu hu
  | some row =>
    refine Keeps.bind hu (recoverableTaskStatus_keeps hnext hown hu) fun status v huv hv _ => ?_
    cases status with
    | none => exact hwait v (htu.trans huv) hv
    | some status =>
      refine Keeps.bind (Q := anything) hv (Keeps.read fun _ _ _ _ _ _ => trivial)
        fun spoken x hvx hx _ => ?_
      exact Keeps.ignore hx (completed_keeps hnext hown hx (hinst ▸ hV)
        (hsaw.later (hst.trans (htu.trans (huv.trans hvx)))))

theorem recoverPosition_keeps {i : Instance} {execs : List Execution} (hnext : NextKeeps ρ next)
    (hown : ρ.Owns) (hs : ρ.Inv s) (hV : ρ.own.inst i.id) (hi : SawInstance s i) :
    Keeps ρ s (recoverPosition host next fuel i execs) anything := by
  unfold recoverPosition
  split
  · refine Keeps.bind hs (recoverParallel_keeps hnext hown hs hV hi) fun r t hst ht _ => ?_
    split
    · exact Keeps.pure fun _ _ _ => trivial
    · exact recoverCommandExecution_keeps hnext hown ht hV (hi.later hst)
  · exact Keeps.pure fun _ _ _ => trivial

theorem recoverInstance_keeps {i : Instance} (hnext : NextKeeps ρ next)
    (hstart : StartKeeps ρ start)
    (hown : ρ.Owns) (hs : ρ.Inv s) (hV : ρ.own.inst i.id) (hi : SawInstance s i) :
    Keeps ρ s (recoverInstance host next start fuel i) anything := by
  refine Keeps.bind hs listStepExecutions_keeps fun execs t hst ht hexecs => ?_
  refine Keeps.bind ht (recoverPosition_keeps hnext hown ht hV (hi.later hst))
    fun handled u htu hu _ => ?_
  have hexecs' : ∀ e ∈ execs, e.instanceId = i.id ∧ SawExecution u e := fun e he =>
    ⟨(hexecs e he).1, (hexecs e he).2.later htu⟩
  have hi' := hi.later (hst.trans htu)
  split
  · exact Keeps.pure fun _ _ _ => trivial
  split
  · rename_i exec hexec
    obtain ⟨hinst, hsaw⟩ := hexecs' exec (List.mem_reverse.1 (List.mem_of_find?_eq_some hexec))
    exact Keeps.ignore hu
      (finishWaitExecution_keeps hnext hstart hown hu hV (hinst ▸ hsaw.belongs))
  split
  · rename_i exec hexec
    obtain ⟨hinst, hsaw⟩ := hexecs' exec (List.mem_reverse.1 (List.mem_of_find?_eq_some hexec))
    exact recoverCurrent_keeps hnext hown hu hV hi' hinst hsaw
  · exact recoverSettled_keeps hnext hstart hown hu hV hi' hexecs'

theorem listRunningInstances_keeps : Keeps ρ s listRunningInstances fun is t =>
    ∀ i ∈ is, SawInstance t i := by
  refine Keeps.read fun t _ ht u htu _ i hi => ?_
  have hmem : i ∈ t.instances := (List.mem_filter.1 ((List.mem_insertionSort _).1 hi)).1
  exact (sawInstance_of_instance? ht.wf (ht.wf.instance?_of_mem hmem)).later htu

end Recovery

/-! ## Everything that can happen -/

theorem attachDefaultWorkflows_keeps {env : Env} {task : ℕ} (hnext : NextKeeps ρ next)
    (hs : ρ.Inv s) : Keeps ρ s (attachDefaultWorkflows env next task) anything := by
  refine Keeps.bind hs (Keeps.aside TaskBoard.get_aside) fun row t _ ht _ => ?_
  split
  · exact Keeps.pure fun _ _ _ => trivial
  refine Keeps.bind (Q := anything) ht (Keeps.read fun _ _ _ _ _ _ => trivial)
    fun defaults u _ hu _ => ?_
  refine Keeps.forEach hu fun w _ v _ hv => Keeps.ignore (Q := anything) hv ?_
  refine Keeps.bind (Q := anything) hv (Keeps.read fun _ _ _ _ _ _ => trivial)
    fun found x _ hx _ => ?_
  cases found with
  | some _ => exact Keeps.pure fun _ _ _ => trivial
  | none =>
    refine Keeps.bind hx (startInstanceInContext_keeps hnext hx) fun _ _ _ _ _ => ?_
    exact Keeps.pure fun _ _ _ => trivial

theorem createWorkflow_keeps {env : Env} {name yaml : String} {description : Option String}
    {d : Definition} (hs : ρ.Inv s) :
    Keeps ρ s (createWorkflow env name description yaml d) anything := by
  refine Keeps.bind (Q := fun _ _ => d.WellTargeted) hs
    (Keeps.ret fun _ h _ _ _ => Definition.wellTargeted_of_validate h) fun _ t _ ht hd => ?_
  refine Keeps.write fun u _ hu => Moves.setWorkflows hu.wf (Nat.le_succ _) fun w hw => ?_
  rcases List.mem_append.1 hw with hw | hw
  · exact hu.wf.workflows w hw
  · rw [List.mem_singleton.1 hw]
    exact hd

theorem editRow_moves {c : Scope} {t w : Db} {id : ℕ} {g : Db → WorkflowRecord → WorkflowRecord}
    (ht : WellFormed t)
    (hg : ∀ r ∈ t.workflows, r.definition.WellTargeted → (g t r).definition.WellTargeted)
    (h : editRow id g t = .ok w) : Moves c t w := by
  unfold editRow at h
  split at h
  · cases h
  · cases h
    refine Moves.setWorkflows ht le_rfl fun w hw => ?_
    rcases Table.mem_modify hw with ⟨hw, -⟩ | ⟨w₀, hw₀, -, rfl⟩
    · exact ht.workflows w hw
    · exact hg w₀ hw₀ (ht.workflows w₀ hw₀)

theorem updateWorkflow_keeps {env : Env} {id : ℕ} {yaml : String} {d : Definition}
    (hs : ρ.Inv s) : Keeps ρ s (updateWorkflow env id yaml d) anything := by
  refine Keeps.bind (Q := fun _ _ => d.WellTargeted) hs
    (Keeps.ret fun _ h _ _ _ => Definition.wellTargeted_of_validate h) fun _ t _ ht hd => ?_
  refine Keeps.bind (Q := anything) ht (Keeps.fetch ht fun _ _ _ _ _ _ _ _ => trivial)
    fun previous u _ hu _ => ?_
  refine Keeps.bind (Q := anything) hu (Keeps.ret fun _ _ _ _ _ => trivial) fun _ v _ hv _ => ?_
  exact Keeps.update fun x _ hx w h => editRow_moves hx.wf (fun _ _ _ => hd) h

theorem setEnabled_keeps {env : Env} {id : ℕ} {enabled : Bool} :
    Keeps ρ s (setEnabled env id enabled) anything :=
  Keeps.update fun _ _ ht _ h => editRow_moves ht.wf (fun _ _ h => h) h

theorem setDefaultForTasks_keeps {env : Env} {id : ℕ} {b : Bool} (hs : ρ.Inv s) :
    Keeps ρ s (setDefaultForTasks env id b) anything := by
  refine Keeps.bind (Q := anything) hs (Keeps.read fun _ _ _ _ _ _ => trivial)
    fun record t _ ht _ => ?_
  refine Keeps.bind (Q := anything) ht (Keeps.ret fun _ _ _ _ _ => trivial) fun _ u _ hu _ => ?_
  exact Keeps.update fun _ _ ht _ h => editRow_moves ht.wf (fun _ _ h => h) h

theorem checkEdit_wellTargeted {env : Env} {db : Db} {project : String} {w : WorkflowRecord}
    {yaml : Option (String × Definition)} {enabled : Option Bool}
    (hw : w.definition.WellTargeted)
    (h : checkEdit env db project w (yaml.getD (w.yamlContent, w.definition)).2 yaml.isSome
      enabled = .ok ()) :
    (yaml.getD (w.yamlContent, w.definition)).2.WellTargeted := by
  cases yaml with
  | none => exact hw
  | some y =>
    rw [checkEdit, if_pos (Or.inl (Option.isSome_some ..))] at h
    obtain ⟨⟨⟩, h, -⟩ := bind_ok h
    obtain ⟨⟨⟩, h, -⟩ := bind_ok h
    exact Definition.wellTargeted_of_validate h

theorem updateForAgent_keeps {env : Env} {id : ℕ} {agent : String} {revision : ℕ}
    {yaml : Option (String × Definition)} {enabled : Option Bool} :
    Keeps ρ s (updateForAgent env id agent revision yaml enabled) anything := by
  refine Keeps.update fun t _ ht w h => ?_
  obtain ⟨project, -, h⟩ := bind_ok h
  split at h
  · cases h
  · rename_i previous hprev
    obtain ⟨-, -, h⟩ := bind_ok h
    dsimp only at h
    obtain ⟨⟨⟩, hcheck, h⟩ := bind_ok h
    have hd := checkEdit_wellTargeted (ht.wf.workflows previous (Table.mem_of_get hprev)) hcheck
    exact editRow_moves ht.wf (fun _ _ _ => hd) h

theorem importWorkflow_moves {c : Scope} {t : Db} {project : String} {p : PortableWorkflow}
    (ht : WellFormed t) (hp : p.definition.WellTargeted) :
    Moves c t (importWorkflow project t p) := by
  unfold importWorkflow
  split
  · refine Moves.setWorkflows ht (le_max_left _ _) fun w hw => ?_
    rcases List.mem_append.1 hw with hw | hw
    · exact ht.workflows w hw
    · rw [List.mem_singleton.1 hw]
      exact hp
  · split
    · refine Moves.setWorkflows ht le_rfl fun w hw => ?_
      rcases Table.mem_modify hw with ⟨hw, -⟩ | ⟨w₀, -, -, rfl⟩
      · exact ht.workflows w hw
      · exact hp
    · exact Moves.refl ht

theorem importWorkflows_moves {c : Scope} {project : String} {ps : List PortableWorkflow}
    (hps : ∀ p ∈ ps, p.definition.WellTargeted) {t : Db} (ht : WellFormed t) :
    Moves c t (ps.foldl (importWorkflow project) t) := by
  induction ps generalizing t with
  | nil => exact Moves.refl ht
  | cons p ps ih =>
    have hm : Moves c t (importWorkflow project t p) :=
      importWorkflow_moves ht (hps p (List.mem_cons_self ..))
    exact hm.trans (ih (fun q hq => hps q (List.mem_cons_of_mem _ hq)) hm.2)

theorem importWorkflows_keeps {env : Env} {project : String} {ps : List PortableWorkflow}
    (hs : ρ.Inv s) : Keeps ρ s (importWorkflows env project ps) anything := by
  refine Keeps.bind (Q := fun _ _ => ∀ p ∈ ps, p.definition.WellTargeted) hs
    (Keeps.ret fun _ h _ _ _ p hp => ?_) fun _ t _ ht hps => ?_
  · obtain ⟨⟨⟩, h, -⟩ := bind_ok (Definition.checkAll_ok h p hp)
    exact Definition.wellTargeted_of_validate h
  · exact Keeps.write fun u _ hu => importWorkflows_moves hps hu.wf

theorem startScheduledInstance_keeps {env : Env} {seen : WorkflowRecord} {at_ : String}
    (hnext : NextKeeps ρ next) (hs : ρ.Inv s) :
    Keeps ρ s (startScheduledInstance env next seen at_) anything := by
  unfold startScheduledInstance
  split
  · exact Keeps.fail
  · refine Keeps.bind hs (startInstanceInContext_keeps hnext hs) fun _ _ _ _ _ => ?_
    exact Keeps.pure fun _ _ _ => trivial

theorem checkScheduledWorkflows_keeps {env : Env} {now : ℕ} (hnext : NextKeeps ρ next)
    (hs : ρ.Inv s) : Keeps ρ s (checkScheduledWorkflows env next now) anything := by
  refine Keeps.bind (Q := anything) hs (Keeps.read fun _ _ _ _ _ _ => trivial)
    fun ws t _ ht _ => ?_
  refine Keeps.forEach ht fun w _ u _ hu => ?_
  unfold checkScheduledWorkflow
  split
  · exact Keeps.pure fun _ _ _ => trivial
  · split
    · exact Keeps.pure fun _ _ _ => trivial
    · split
      · exact Keeps.ignore hu (startScheduledInstance_keeps hnext hu)
      · exact Keeps.pure fun _ _ _ => trivial

theorem beginCommand_keeps {exec : ℕ} : Keeps ρ s (beginCommand exec) anything := by
  refine Keeps.tx fun t _ ht r w h => ⟨?_, fun _ _ _ => trivial⟩
  split at h
  · cases h
  · split at h
    · cases h
      exact Moves.refl ht.wf
    · split at h
      · cases h
      · cases h
        have hm : Moves ρ.own t (t.setExecution exec fun e =>
            { e with commandStartedAt := some t.clock }) :=
          Moves.setColumns ht.wf (fun e => ⟨rfl, rfl, rfl, rfl, rfl, rfl, rfl, rfl, fun _ h => h⟩)
            fun e => ⟨rfl, rfl⟩
        exact hm.trans (Moves.note hm.2 trivial trivial)

theorem saveResult_keeps {exec : ℕ} {result : CommandResult} :
    Keeps ρ s (saveResult exec result) anything := by
  refine Keeps.write fun _ _ ht => Moves.setColumns ht.wf
    (fun _ => ⟨rfl, rfl, rfl, rfl, rfl, rfl, rfl, rfl, fun r hr => ?_⟩) fun _ => ⟨rfl, rfl⟩
  dsimp only
  rw [hr, Option.some_or]

theorem cancelRow_same (i : Instance) (e : Execution) : SameExecution e (cancelRow i e) := by
  unfold cancelRow
  split
  · split <;> exact ⟨rfl, rfl, rfl, rfl, rfl, rfl, rfl, rfl, fun _ h => h⟩
  · exact .refl e

theorem cancelRow_ok {t : Db} {i : Instance} {e : Execution} (h : ExecutionOk t e) :
    ExecutionOk t (cancelRow i e) := by
  by_cases hst : (cancelRow i e).status = e.status
  · exact h.congr (cancelRow_same i e) hst
  · unfold cancelRow at hst ⊢
    split at hst
    · split at hst
      · rename_i h1 h2
        rw [if_pos h1, if_pos h2]
        obtain ⟨d, hr, hp, hpar⟩ := h
        exact ⟨d, hr, ⟨hp.flow, hp.stands, by simp, by simp, by simp⟩, hpar⟩
      · exact absurd rfl hst
    · exact absurd rfl hst

/-- Cancelling an instance writes its executions only. -/
theorem Moves.cancelRows {c : Scope} {t : Db} (ht : WellFormed t) {i : Instance}
    (hW : ∀ e ∈ t.executions, e.instanceId = i.id → c.exec e.id) :
    Moves c t { t with executions := t.executions.map (cancelRow i) } := by
  have hf : Frame c t { t with executions := t.executions.map (cancelRow i) } := by
    refine ⟨le_rfl, .refl KeepsInstance.refl _, ⟨cancelRow i, [], by simp, ?_, by simp⟩, [],
      by simp, by simp⟩
    intro e he
    refine ⟨cancelRow_same i e, fun hn => ?_⟩
    have hne : e.instanceId ≠ i.id := fun h => hn (hW e he h)
    rw [cancelRow, if_neg hne]
    exact ⟨rfl, rfl⟩
  refine ⟨hf, ht.step hf ht.workflows (fun j hj => .inl hj) ?_ (fun ev hev => .inl hev)
    ht.instancesNodup ?_⟩
  · intro f hf'
    obtain ⟨e, he, rfl⟩ := List.mem_map.1 hf'
    exact .inr ((cancelRow_ok (ht.executions e he)).later hf)
  · have : Execution.id ∘ cancelRow i = Execution.id := funext fun e => (cancelRow_same i e).id
    rw [List.map_map, this]
    exact ht.executionsNodup

theorem cancelInstance_keeps {host : Host} {inst : ℕ} (hown : ρ.Owns) (hV : ρ.own.inst inst) :
    Keeps ρ s (cancelInstance host inst) anything := by
  refine Keeps.update fun t _ ht w h => ?_
  split at h
  · cases h
  · rename_i i hi
    have hid : i.id = inst := Table.key_of_get hi
    obtain ⟨-, -, h⟩ := bind_ok h
    cases h
    have h1 : Moves ρ.own t (t.setWork (host.cancelAttempts
        ((runningContinuation t i).bind Execution.continuationAttemptId)
        ((t.executions.filter fun e => e.instanceId = inst && e.status = .running &&
          e.taskId.isSome && e.taskId ≠ i.sourceTaskId).filterMap Execution.taskId) t.work)) :=
      Moves.aside ht.wf (.setWork _ _)
    have h2 := h1.trans (Moves.cancelRows (i := i) h1.2 fun e he hinst => ?_)
    · refine h2.trans (Moves.setInstance h2.2 hV (fun j => ⟨rfl, rfl, rfl, rfl, rfl⟩) ?_)
      exact fun _ _ _ h => h
    · refine hown.exec t inst e.id ht hV ⟨e, ht.wf.execution?_of_mem he, hinst.trans hid⟩

theorem External.apply_moves {x : External} {t : Db} (ht : WellFormed t) :
    Moves Scope.all t (x.apply t) := by
  cases x with
  | work f => exact Moves.aside ht (.setWork _ _)
  | clock now => exact Moves.aside ht (.rest rfl rfl rfl rfl le_rfl)
  | adopt exec attempt =>
    exact Moves.setColumns ht (fun e => ⟨rfl, rfl, rfl, rfl, rfl, rfl, rfl, rfl, fun _ h => h⟩)
      fun e => ⟨rfl, rfl⟩
  | context inst project conversation =>
    exact Moves.setInstance ht trivial (fun i => ⟨rfl, rfl, rfl, rfl, rfl⟩) fun _ _ _ h => h

/-- Every thread may write everything. -/
def Rules.all : Rules where
  own := Scope.all
  others := Scope.all
  inst_sub := fun _ h => h
  exec_sub := fun _ h => h
  also := fun _ => True
  also_keep := fun _ _ => trivial

theorem Rules.all_owns : Rules.all.Owns :=
  ⟨fun _ _ _ _ _ _ => trivial, fun _ _ _ _ _ _ => trivial, fun _ _ _ _ _ => trivial⟩

/-- **Every call keeps the invariant**, whatever other calls commit in between. -/
theorem Op.prog_keeps (host : Host) (fuel : ℕ) (op : Op) (hs : Rules.all.Inv s) :
    Keeps Rules.all s (op.prog host fuel) anything := by
  have hnext : NextKeeps Rules.all (executeStep host fuel) := executeStep_keeps host fuel
  have hstart : StartKeeps Rules.all (startInstance host.toEnv (executeStep host fuel)) :=
    startInstance_keeps hnext
  have hown := Rules.all_owns
  cases op with
  | createWorkflow name description yaml d => exact createWorkflow_keeps hs
  | updateWorkflow id yaml d => exact updateWorkflow_keeps hs
  | setEnabled id enabled => exact setEnabled_keeps
  | setDefaultForTasks id b => exact setDefaultForTasks_keeps hs
  | updateForAgent id agent revision yaml enabled => exact updateForAgent_keeps
  | importWorkflows project ps => exact importWorkflows_keeps hs
  | checkScheduled now => exact checkScheduledWorkflows_keeps hnext hs
  | start workflow trigger context creator =>
    refine Keeps.bind hs (startInstanceInContext_keeps hnext hs) fun _ _ _ _ _ => ?_
    exact Keeps.pure fun _ _ _ => trivial
  | attachDefaults task => exact attachDefaultWorkflows_keeps hnext hs
  | taskCompleted task status output => exact onTaskCompleted_keeps hnext hown hs
  | attemptCompleted task attempt status output => exact onAttemptCompleted_keeps hnext hown hs
  | resumeWait exec payload =>
    exact resumeWaitExecution_keeps hnext hstart hown hs trivial fun _ => trivial
  | timeoutWait exec =>
    exact resumeWaitExecution_keeps hnext hstart hown hs trivial fun _ => trivial
  | recover =>
    refine Keeps.bind hs listRunningInstances_keeps fun is t _ ht his => ?_
    refine Keeps.forEach ht fun i hi u htu hu => ?_
    exact recoverInstance_keeps hnext hstart hown hu trivial ((his i hi).later htu)
  | cancel inst => exact cancelInstance_keeps hown trivial
  | beginCommand exec =>
    exact Keeps.bind hs beginCommand_keeps fun _ _ _ _ _ => Keeps.pure fun _ _ _ => trivial
  | saveResult exec result => exact saveResult_keeps
  | external x => exact Keeps.write fun _ _ ht => External.apply_moves ht.wf

end XpressClaw
