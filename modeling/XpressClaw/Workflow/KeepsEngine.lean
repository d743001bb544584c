import XpressClaw.Workflow.KeepsManager

/-!
# Executing steps keeps the invariant

One lemma for each function of the step part of `engine.rs`.  The last of them,
`executeStep_keeps`, is by induction on the depth of the recursion: executing a
position of an instance writes that instance, what it creates, and nothing else, and
no lookup of the control flow fails.
-/

namespace XpressClaw

open Lib InstanceManager

variable {ρ : Rules} {s : Db}

/-- A step function that keeps the rules at every position of a definition that the
instance runs, when it is given variables of the definition. -/
def NextKeeps (ρ : Rules) (next : StepFn) : Prop :=
  ∀ (t : Db) (inst : ℕ) (flow : String) (index : ℕ) (d : Definition) (trigger : Json) (vars : Vars),
    ρ.Inv t → ρ.own.inst inst → t.Runs inst d → (d.flow? flow).isSome → d.Allows vars →
      Keeps ρ t (next inst flow index d trigger vars) anything

/-- A way of starting workflows that keeps the rules. -/
def StartKeeps (ρ : Rules) (start : ℕ → Json → Run Unit) : Prop :=
  ∀ (t : Db) (workflow : ℕ) (trigger : Json), ρ.Inv t → Keeps ρ t (start workflow trigger) anything

/-! ## Task-backed steps -/

theorem dispatchTaskStep_keeps {step : Step} {prepared : PreparedTask} {exec : Execution}
    (hs : ρ.Inv s) (hW : ρ.own.exec exec.id) :
    Keeps ρ s (dispatchTaskStep step prepared exec) anything := by
  refine Keeps.bind hs (Keeps.aside TaskQueue.ensureEnqueued_aside).attempt fun r t _ ht _ => ?_
  cases r with
  | ok _ => exact Keeps.pure fun _ _ _ => trivial
  | error e =>
    refine Keeps.bind ht (Keeps.ignore ht (Keeps.aside TaskBoard.updateStatus_aside))
      fun _ u _ hu _ => ?_
    refine Keeps.bind hu (Keeps.ignore hu (updateStepStatus_keeps hW rfl nofun))
      fun _ _ _ _ _ => ?_
    exact Keeps.fail

theorem executeTaskStep_keeps {env : Env} {inst : ℕ} {flow : String} {step : Step} {ctx : Json}
    {d : Definition} (hs : ρ.Inv s) (hV : ρ.own.inst inst) (hr : s.Runs inst d)
    (hf : (d.flow? flow).isSome) (hstands : d.Stands flow step.id)
    (htop : (d.stepIndex flow step.id).isSome) :
    Keeps ρ s (executeTaskStep env inst flow step ctx) anything := by
  refine Keeps.bind hs (Keeps.aside prepareTaskStep_aside) fun prepared t hst ht _ => ?_
  refine Keeps.bind ht (createTaskExecution_keeps ht hV (hr.later hst) hf hstands htop) ?_
  rintro exec u - hu ⟨hW, -⟩
  exact dispatchTaskStep_keeps hu hW

theorem executeContinueStep_keeps {host : Host} {inst : ℕ} {flow : String} {step : Step}
    {ctx : Json} {d : Definition} (hs : ρ.Inv s) (hV : ρ.own.inst inst) (hr : s.Runs inst d)
    (hf : (d.flow? flow).isSome) (hstands : d.Stands flow step.id)
    (hc : (d.findStep flow step.id).any fun s => s.stepType = .continue_) :
    Keeps ρ s (executeContinueStep host inst flow step ctx) anything := by
  refine Keeps.bind hs (getInstance_keeps hs) fun row t hst ht _ => ?_
  split
  · exact Keeps.fail
  · dsimp only
    split
    · exact Keeps.bind ht (updateStatus_keeps hV) fun _ _ _ _ _ => Keeps.fail
    · refine Keeps.bind ht (createContinuationExecution_keeps ht hV (hr.later hst) hf hstands hc) ?_
      exact fun _ _ _ _ _ => Keeps.pure fun _ _ _ => trivial

/-! ## Parallel steps -/

/-- The rows of the branches of a parallel step, from the id `id` on. -/
def branchRows (inst : ℕ) (flow : String) (parent startedAt : ℕ) :
    List (Step × PreparedTask) → ℕ → List Execution
  | [], _ => []
  | (branch, prepared) :: rest, id =>
      { id, instanceId := inst, flowName := flow, stepId := branch.id
        taskId := some prepared.taskId, parentExecutionId := some parent, status := .running
        startedAt } :: branchRows inst flow parent startedAt rest (id + 1)

/-- What holds of every branch row. -/
theorem mem_branchRows {inst parent startedAt id : ℕ} {flow : String}
    {bs : List (Step × PreparedTask)} {e : Execution}
    (h : e ∈ branchRows inst flow parent startedAt bs id) :
    id ≤ e.id ∧ e.id < id + bs.length ∧ e.instanceId = inst ∧ e.flowName = flow ∧
      e.parentExecutionId = some parent ∧ e.status = .running ∧ ∃ b ∈ bs, e.stepId = b.1.id := by
  induction bs generalizing id with
  | nil => cases h
  | cons b bs ih =>
    obtain ⟨b, p⟩ := b
    rcases List.mem_cons.1 h with rfl | h
    · exact ⟨le_rfl, by simp, rfl, rfl, rfl, rfl, (b, p), List.mem_cons_self .., rfl⟩
    · obtain ⟨h1, h2, h3, h4, h5, h6, b', hb', h7⟩ := ih h
      refine ⟨by omega, ?_, h3, h4, h5, h6, b', List.mem_cons_of_mem _ hb', h7⟩
      simp only [List.length_cons]
      omega

theorem branchRows_ids {inst parent startedAt id : ℕ} {flow : String}
    {bs : List (Step × PreparedTask)} :
    (branchRows inst flow parent startedAt bs id).map Execution.id = List.range' id bs.length := by
  induction bs generalizing id with
  | nil => rfl
  | cons b bs ih => rw [branchRows, List.map_cons, ih, List.length_cons, List.range'_succ]

/-- A new row can be changed in place before it is inserted. -/
theorem setExecution_insertExecution {t : Db} (ht : ∀ e ∈ t.executions, e.id < t.nextId)
    {row : ℕ → ℕ → Execution} {g : Execution → Execution}
    (hid : (row t.nextId t.clock).id = t.nextId) :
    (t.insertExecution row).setExecution t.nextId g =
      t.insertExecution fun id startedAt => g (row id startedAt) := by
  have hold : Table.modify Execution.id t.nextId g t.executions = t.executions := by
    rw [Table.modify]
    conv_rhs => rw [← List.map_id t.executions]
    refine List.map_congr_left fun e he => ?_
    have := ht e he
    simp [show e.id ≠ t.nextId by omega]
  rw [Db.setExecution, Db.insertExecution, Db.insertExecution]
  congr 1
  rw [Table.modify, List.map_append]
  congr 1
  simp [hid]

/-- What `insertBranches` leaves. -/
theorem insertBranches_ok {inst parent : ℕ} {flow : String} {bs : List (Step × PreparedTask)}
    {t w : Db} {ids : List ℕ} (ht : ∀ e ∈ t.executions, e.id < t.nextId)
    (h : insertBranches inst flow parent bs t = .ok (ids, w)) :
    ids = List.range' t.nextId bs.length ∧
      w = { t with
        executions := t.executions ++ branchRows inst flow parent t.clock bs t.nextId
        nextId := t.nextId + bs.length } := by
  induction bs generalizing t ids w with
  | nil =>
    cases h
    simp [branchRows]
  | cons b bs ih =>
    obtain ⟨b, p⟩ := b
    obtain ⟨⟨id, t'⟩, h1, h⟩ := bind_ok h
    obtain ⟨⟨ids', w'⟩, h2, h⟩ := bind_ok h
    cases h
    obtain ⟨rfl, rfl⟩ := createTaskExecutionInTransaction_ok h1
    rw [setExecution_insertExecution ht rfl] at h2
    have hlt : ∀ e ∈ (t.insertExecution fun id startedAt =>
        { id, instanceId := inst, flowName := flow, stepId := b.id, taskId := some p.taskId
          parentExecutionId := some parent, status := .running, startedAt }).executions,
        e.id < t.nextId + 1 := by
      intro e he
      rcases List.mem_append.1 he with he | he
      · exact (ht e he).trans (Nat.lt_succ_self _)
      · obtain rfl := List.mem_singleton.1 he
        exact Nat.lt_succ_self _
    obtain ⟨rfl, rfl⟩ := ih hlt h2
    refine ⟨by rw [List.length_cons, List.range'_succ]; rfl, ?_⟩
    simp [Db.insertExecution, branchRows, Nat.add_comm 1, Nat.add_assoc]

/-- The rows of a published group: the parent, then the branches. -/
def groupRows (inst : ℕ) (flow stepId : String) (bs : List (Step × PreparedTask))
    (id startedAt : ℕ) :
    List Execution :=
  { id, instanceId := inst, flowName := flow, stepId, status := .running, startedAt } ::
    branchRows inst flow id startedAt bs (id + 1)

/-- What `publishGroup` leaves. -/
theorem publishGroup_ok {inst : ℕ} {flow stepId : String} {bs : List (Step × PreparedTask)}
    {t w : Db} {ids : List ℕ} (ht : WellFormed t)
    (h : publishGroup inst flow stepId bs t = .ok (ids, w)) :
    ids = List.range' (t.nextId + 1) bs.length ∧
      w = Db.setInstance
        { t with
          executions := t.executions ++ groupRows inst flow stepId bs t.nextId t.clock
          nextId := t.nextId + 1 + bs.length }
        inst fun i => { i with currentExecutionId := some t.nextId } := by
  obtain ⟨-, -, h⟩ := bind_ok h
  have hlt : ∀ e ∈ t.executions ++ [({ id := t.nextId, instanceId := inst, flowName := flow, stepId
                                       status := .running, startedAt := t.clock } : Execution)],
      e.id < t.nextId + 1 := by
    intro e he
    rcases List.mem_append.1 he with he | he
    · exact (ht.executionIds e he).trans (Nat.lt_succ_self _)
    · obtain rfl := List.mem_singleton.1 he
      exact Nat.lt_succ_self _
  obtain ⟨rfl, rfl⟩ := insertBranches_ok hlt h
  refine ⟨rfl, ?_⟩
  simp [Db.insertExecution, Db.setInstance, groupRows]

theorem publishGroup_moves {c : Scope} {inst : ℕ} {flow : String} {step : Step}
    {bs : List (Step × PreparedTask)} {t w : Db} {ids : List ℕ} {d : Definition} (ht : WellFormed t)
    (hV : c.inst inst) (hr : t.Runs inst d) (hf : (d.flow? flow).isSome)
    (hstands : d.Stands flow step.id) (hbody : ∀ b ∈ bs, d.Stands flow b.1.id)
    (htop : (d.stepIndex flow step.id).isSome) (hfind : d.findStep flow step.id = some step)
    (hty : step.stepType = .parallel)
    (h : publishGroup inst flow step.id bs t = .ok (ids, w)) :
    Moves c t w ∧ ∀ id ∈ ids, t.nextId ≤ id := by
  obtain ⟨rfl, rfl⟩ := publishGroup_ok ht h
  refine ⟨?_, fun id hid => by rw [List.mem_range'_1] at hid; omega⟩
  have hfresh : Table.get Execution.id t.executions t.nextId = none := by
    rw [Table.get, List.find?_eq_none]
    intro e he
    have := ht.executionIds e he
    simp only [decide_eq_true_eq]
    omega
  have hget : Table.get Execution.id
      (t.executions ++ groupRows inst flow step.id bs t.nextId t.clock) t.nextId =
      some { id := t.nextId, instanceId := inst, flowName := flow, stepId := step.id
             status := .running, startedAt := t.clock } := by
    rw [Table.get_append, hfresh]
    simp [groupRows, Table.get]
  have hat : Db.At { t with
      executions := t.executions ++ groupRows inst flow step.id bs t.nextId t.clock
      nextId := t.nextId + 1 + bs.length } inst flow step.id none t.nextId :=
    ⟨_, hget, rfl, rfl, rfl, rfl⟩
  have hm : Moves c t { t with
      executions := t.executions ++ groupRows inst flow step.id bs t.nextId t.clock
      nextId := t.nextId + 1 + bs.length } := by
    refine Moves.appendExecutions ht (by omega) ?_ ?_ ?_
    · intro e he
      rcases List.mem_cons.1 he with rfl | he
      · exact ⟨le_rfl, by dsimp only; omega, hV, by simp⟩
      · obtain ⟨h1, h2, h3, -, h5, -⟩ := mem_branchRows he
        refine ⟨by omega, by omega, h3 ▸ hV, ?_⟩
        rw [h5]
        rintro p ⟨⟩
        exact le_rfl
    · rw [groupRows, List.map_cons, branchRows_ids]
      refine List.nodup_cons.2 ⟨?_, List.nodup_range' ..⟩
      rw [List.mem_range'_1]
      dsimp only
      omega
    · intro e he
      rcases List.mem_cons.1 he with rfl | he
      · exact ⟨d, hr, ⟨hf, hstands, by simp, by simp, by simp⟩, by simp⟩
      · obtain ⟨-, -, h3, h4, h5, h6, b, hb, h7⟩ := mem_branchRows he
        have hplaced : PlacedIn d e :=
          ⟨by rwa [h4], by rw [h4, h7]; exact hbody b hb, by simp [h6], by simp [h6], by simp [h6]⟩
        refine ⟨d, by rw [h3]; exact hr, hplaced, ?_⟩
        rw [h5, h3]
        rintro p ⟨⟩
        exact ⟨hat.top hr htop, d, flow, step.id, step, hat, hr, hfind, hty⟩
  exact hm.trans (Moves.setCurrentExecution hm.2 hV (hat.top (hr.later hm.1) htop))

theorem executeParallelStep_keeps {env : Env} {inst : ℕ} {flow : String} {step : Step} {ctx : Json}
    {d : Definition} (hs : ρ.Inv s) (hV : ρ.own.inst inst) (hr : s.Runs inst d)
    (hf : (d.flow? flow).isSome) (hstands : d.Stands flow step.id)
    (hbody : ∀ b ∈ step.body, d.Stands flow b.id) (htop : (d.stepIndex flow step.id).isSome)
    (hfind : d.findStep flow step.id = some step) (hty : step.stepType = .parallel) :
    Keeps ρ s (executeParallelStep env inst flow step ctx) anything := by
  refine Keeps.bind hs (Keeps.collect hs fun _ _ _ _ ht => Keeps.aside prepareTaskStep_aside)
    fun prepared t hst ht _ => ?_
  refine Keeps.bind (Q := fun ids _ => ∀ id ∈ ids, ρ.own.base ≤ id) ht (Keeps.tx ?_) ?_
  · intro u htu hu ids w hw
    obtain ⟨hm, hids⟩ := publishGroup_moves hu.wf hV ((hr.later hst).later htu) hf hstands
      (fun b hb => hbody b.1 (List.of_mem_zip hb).1) htop hfind hty hw
    exact ⟨hm, fun _ _ _ id hid => hu.base.trans (hids id hid)⟩
  · intro ids u _ hu hids
    refine Keeps.forEach hu fun b hb v _ hv => ?_
    refine Keeps.bind hv (getStepExecution_keeps hv) ?_
    rintro exec x - hx ⟨hid, -⟩
    refine dispatchTaskStep_keeps hx (ρ.own.exec_fresh _ ?_)
    rw [hid]
    exact hids b.2 (List.of_mem_zip hb).2

/-! ## Waits -/

theorem executeWaitStep_keeps {env : Env} {inst : ℕ} {flow : String} {step : Step} {ctx : Json}
    {d : Definition} (hs : ρ.Inv s) (hV : ρ.own.inst inst) (hr : s.Runs inst d)
    (hf : (d.flow? flow).isSome) (hstands : d.Stands flow step.id)
    (htop : (d.stepIndex flow step.id).isSome) :
    Keeps ρ s (executeWaitStep env inst flow step ctx) anything := by
  refine Keeps.bind hs (Keeps.aside resolveStepAgent_aside) fun agent t hst ht _ => ?_
  refine Keeps.bind (Q := anything) ht (Keeps.ret fun _ _ _ _ _ => trivial) fun _ u htu hu _ => ?_
  refine Keeps.bind hu (Keeps.aside waitBoundary_aside) fun _ v huv hv _ => ?_
  refine Keeps.bind (Q := anything) hv (Keeps.ret fun _ _ _ _ _ => trivial) fun _ x hvx hx _ => ?_
  refine Keeps.bind hx (createAgentWaitExecution_keeps hx hV
    ((((hr.later hst).later htu).later huv).later hvx) hf hstands htop) fun _ _ _ _ _ => ?_
  exact Keeps.pure fun _ _ _ => trivial

/-! ## Steps that go on at once -/

section Next

variable {next : StepFn} {start : ℕ → Json → Run Unit} {inst : ℕ} {d : Definition} {trigger : Json}
variable {flow : String}

theorem flow?_of_stepIndex {stepId : String} (h : (d.stepIndex flow stepId).isSome) :
    (d.flow? flow).isSome := by
  rw [Definition.stepIndex] at h
  cases hf : d.flow? flow with
  | none => simp [hf] at h
  | some f => rfl

/-- Following a target that resolves. -/
theorem resolveGoto_keeps {target : String} {vars : Vars} (hnext : NextKeeps ρ next)
    (hstart : StartKeeps ρ start) (hs : ρ.Inv s) (hV : ρ.own.inst inst) (hr : s.Runs inst d)
    (htarget : d.Resolves flow target) (hv : d.Allows vars) :
    Keeps ρ s (resolveGoto next start inst target flow d trigger vars) anything := by
  refine Keeps.bind hs (Keeps.record trivial htarget) fun _ t hst ht _ => ?_
  have hr' := hr.later hst
  unfold Definition.Resolves at htarget
  split at htarget <;> rename_i hparts <;> try simp only [hparts]
  · refine Keeps.bind (Q := anything) ht (Keeps.lookup htarget fun _ _ _ _ _ => trivial)
      fun index u htu hu _ => ?_
    exact hnext u inst flow index d trigger vars hu hV (hr'.later htu)
      (flow?_of_stepIndex htarget) hv
  · refine Keeps.bind ht (setCurrentPosition_keeps hV) fun _ u htu hu _ => ?_
    exact hnext u inst _ 0 d trigger vars hu hV (hr'.later htu) htarget hv
  · refine Keeps.bind (Q := anything) ht (Keeps.lookup htarget fun _ _ _ _ _ => trivial)
      fun index u htu hu _ => ?_
    exact hnext u inst _ index d trigger vars hu hV (hr'.later htu) (flow?_of_stepIndex htarget) hv
  · refine Keeps.bind (Q := anything) ht (Keeps.read fun _ _ _ _ _ _ => trivial)
      fun found u _ hu _ => ?_
    split
    · exact Keeps.bind hu (hstart u _ trigger hu) fun _ _ _ _ _ => updateStatus_keeps hV
    · exact updateStatus_keeps hV
  · cases htarget

theorem instantStep_keeps {step : Step} {output : String} {p : Run Unit} (hs : ρ.Inv s)
    (hV : ρ.own.inst inst) (hr : s.Runs inst d) (hf : (d.flow? flow).isSome)
    (hstands : d.Stands flow step.id) (hfind : d.findStep flow step.id = some step)
    (hty : step.stepType ≠ .command)
    (hp : ∀ t, Frame ρ.others s t → ρ.Inv t → Keeps ρ t p anything) :
    Keeps ρ s ((createStepExecution inst flow step.id).bind fun exec =>
      (updateStepStatus exec.id .completed (some output)).bind fun _ => p) anything := by
  refine Keeps.bind hs (createStepExecution_keeps hs hV hr hf hstands) ?_
  rintro exec t hst ht ⟨hW, hat⟩
  have hgate : t.Gated exec.id := hat.gated (hr.later hst) hfind hty
  refine Keeps.bind ht (updateStepStatus_keeps hW rfl fun _ => hgate) fun _ u htu hu _ => ?_
  exact hp u (hst.trans htu) hu

theorem mem_of_matchingArm {value : String} {arms : List WhenArm} {dflt : Option WhenArm}
    {arm : WhenArm} (h : matchingArm value arms dflt = some arm) : arm ∈ arms ∨
    dflt = some arm := by
  induction arms generalizing dflt with
  | nil => exact .inr h
  | cons a arms ih =>
    rw [matchingArm] at h
    split at h
    · rcases ih h with h | h
      · exact .inl (List.mem_cons_of_mem _ h)
      · cases h
        exact .inl (List.mem_cons_self ..)
    · split at h
      · cases h
        exact .inl (List.mem_cons_self ..)
      · exact (ih h).imp_left (List.mem_cons_of_mem _)

theorem executeWhenStep_keeps {env : Env} {index : ℕ} {step : Step} {vars : Vars} {ctx : Json}
    (hnext : NextKeeps ρ next) (hstart : StartKeeps ρ start) (hs : ρ.Inv s) (hV : ρ.own.inst inst)
    (hr : s.Runs inst d) (hf : (d.flow? flow).isSome) (hstands : d.Stands flow step.id)
    (hfind : d.findStep flow step.id = some step) (hty : step.stepType = .when) (hv : d.Allows vars)
    (htargets : ∀ a ∈ step.arms.getD [], ∀ t, a.goto = some t → d.Resolves flow t) :
    Keeps ρ s (executeWhenStep env next start inst flow index step d trigger vars ctx)
    anything := by
  refine Keeps.bind (Q := anything) hs (Keeps.ret fun _ _ _ _ _ => trivial)
    fun resolved t hst ht _ => ?_
  refine instantStep_keeps ht hV (hr.later hst) hf hstands hfind (by simp [hty]) fun u htu hu => ?_
  have hr' := (hr.later hst).later htu
  have hadv : Keeps ρ u (advanceToNext next inst flow index d trigger vars) anything :=
    hnext u inst flow (index + 1) d trigger vars hu hV hr' hf hv
  split
  · rename_i target harm
    split
    · exact hadv
    · have hmem := (mem_of_matchingArm harm).resolve_right (by simp)
      exact resolveGoto_keeps hnext hstart hu hV hr' (htargets _ hmem _ rfl) hv
  · exact hadv

theorem executeSinkStep_keeps {index : ℕ} {step : Step} {vars : Vars} (hnext : NextKeeps ρ next)
    (hs : ρ.Inv s) (hV : ρ.own.inst inst) (hr : s.Runs inst d) (hf : (d.flow? flow).isSome)
    (hstands : d.Stands flow step.id) (hfind : d.findStep flow step.id = some step)
    (hty : step.stepType = .sink) (hv : d.Allows vars) :
    Keeps ρ s (executeSinkStep next inst flow index step d trigger vars) anything :=
  instantStep_keeps hs hV hr hf hstands hfind (by simp [hty]) fun t hst ht =>
    hnext t inst flow (index + 1) d trigger vars ht hV (hr.later hst) hf hv

theorem executeJumpStep_keeps {step : Step} {vars : Vars} (hnext : NextKeeps ρ next)
    (hstart : StartKeeps ρ start) (hs : ρ.Inv s) (hV : ρ.own.inst inst) (hr : s.Runs inst d)
    (hf : (d.flow? flow).isSome) (hstands : d.Stands flow step.id)
    (hfind : d.findStep flow step.id = some step) (hty : step.stepType = .jump)
    (htarget : d.Resolves flow (step.target.getD "")) (hv : d.Allows vars) :
    Keeps ρ s (executeJumpStep next start inst flow step d trigger vars) anything :=
  instantStep_keeps hs hV hr hf hstands hfind (by simp [hty]) fun _ hst ht =>
    resolveGoto_keeps hnext hstart ht hV (hr.later hst) htarget hv

/-! ## Loops -/

theorem completeLoop_keeps {env : Env} {ls : LoopState} {vars : Vars} (hnext : NextKeeps ρ next)
    (hs : ρ.Inv s) (hV : ρ.own.inst inst) (hW : ρ.own.exec ls.parentExecutionId)
    (hr : s.Runs inst d) (hls : LoopOk s inst d ls) (hvars : d.Allows vars) :
    Keeps ρ s (completeLoop env next inst ls d trigger vars) anything := by
  refine Keeps.bind hs (saveVariableStore_keeps hV hr hvars) fun _ t hst ht _ => ?_
  refine Keeps.bind ht (clearLoopState_keeps hV) fun _ u htu hu _ => ?_
  have hgate : u.Gated ls.parentExecutionId :=
    ((hls.parent.later hst).later htu).gated (by simp)
  refine Keeps.bind hu (updateStepStatus_keeps hW rfl fun _ => hgate) fun _ v huv hv _ => ?_
  exact hnext v inst ls.flowName (ls.stepIndex + 1) d trigger vars hv hV
    (((hr.later hst).later htu).later huv) hls.flow hvars

theorem runLoopBody_keeps {env : Env} {ls : LoopState} {bodyStep : Step} {item : Json} {vars : Vars}
    (hs : ρ.Inv s) (hV : ρ.own.inst inst) (hr : s.Runs inst d) (hls : LoopOk s inst d ls)
    (hvars : d.Allows vars) (hstands : d.Stands ls.flowName bodyStep.id) :
    Keeps ρ s (runLoopBody env inst ls bodyStep item d trigger vars) anything := by
  refine Keeps.bind hs (saveVariableStore_keeps hV hr (hvars.insert hls.named))
    fun _ t hst ht _ => ?_
  refine Keeps.bind ht (updateLoopState_keeps hV (hr.later hst) (hls.later hst))
    fun _ u htu hu _ => ?_
  refine Keeps.bind hu (Keeps.aside prepareTaskStep_aside) fun prepared v huv hv _ => ?_
  have hsv := (hst.trans htu).trans huv
  refine Keeps.bind hv (createLoopTaskExecution_keeps hv hV (hr.later hsv) hls.flow hstands
    (hls.later hsv)) ?_
  rintro exec x - hx ⟨hW, -⟩
  exact dispatchTaskStep_keeps hx hW

theorem LoopOk.normalize {t : Db} {ls : LoopState} (h : LoopOk t inst d ls) (n : ℕ) :
    LoopOk t inst d (ls.normalize n) := by
  unfold LoopState.normalize
  split
  · exact ⟨h.step, h.flow, h.named, h.parent, h.active⟩
  · exact h

theorem LoopState.normalize_same (ls : LoopState) (n : ℕ) :
    (ls.normalize n).parentExecutionId = ls.parentExecutionId ∧
      (ls.normalize n).flowName = ls.flowName := by
  unfold LoopState.normalize
  split <;> exact ⟨rfl, rfl⟩

theorem continueLoop_keeps {env : Env} {ls : LoopState} {vars : Vars} (hnext : NextKeeps ρ next)
    (hs : ρ.Inv s) (hV : ρ.own.inst inst) (hW : ρ.own.exec ls.parentExecutionId)
    (hr : s.Runs inst d) (hls : LoopOk s inst d ls) (hvars : d.Allows vars) :
    Keeps ρ s (continueLoop env next inst ls d trigger vars) anything := by
  refine Keeps.bind (Q := fun step _ => d.findStep ls.flowName ls.stepId = some step) hs
    (Keeps.lookup hls.step fun step h _ _ _ => h) fun step t hst ht hfind => ?_
  have hr' := hr.later hst
  have hls' := hls.later hst
  split
  · exact completeLoop_keeps hnext ht hV hW hr' hls' hvars
  · obtain ⟨hparent, hflow⟩ := ls.normalize_same step.body.length
    dsimp only
    split
    · rename_i item bodyStep _ hbody
      refine runLoopBody_keeps ht hV hr' (hls'.normalize _) hvars ?_
      rw [hflow]
      exact Definition.stands_of_findStep hfind (List.mem_of_getElem? hbody)
    · refine completeLoop_keeps hnext ht hV ?_ hr' (hls'.normalize _) (hvars.erase _)
      rwa [hparent]

theorem executeLoopStep_keeps {env : Env} {index : ℕ} {step : Step} {vars : Vars} {ctx : Json}
    (hnext : NextKeeps ρ next) (hs : ρ.Inv s) (hV : ρ.own.inst inst) (hr : s.Runs inst d)
    (hf : (d.flow? flow).isSome) (hstands : d.Stands flow step.id)
    (hfind : d.findStep flow step.id = some step) (hty : step.stepType = .loop)
    (has : step.asVar.getD "item" ∈ d.names) (hvars : d.Allows vars) :
    Keeps ρ s (executeLoopStep env next inst flow index step d trigger vars ctx) anything := by
  refine Keeps.bind hs (createStepExecution_keeps hs hV hr hf hstands) ?_
  rintro exec t hst ht ⟨hW, hat⟩
  refine Keeps.bind ht (markStepRunning_keeps hW) fun _ u htu hu _ => ?_
  have hr' := (hr.later hst).later htu
  refine continueLoop_keeps hnext hu hV hW hr' ⟨by rw [hfind]; rfl, hf, has, ?_, by simp⟩ hvars
  exact ⟨d, flow, step.id, step, hat.later htu, hr', hfind, hty⟩

/-! ## Executing a position -/

theorem stepAt_top {index : ℕ} {step : Step} (h : d.stepAt flow index = some step) :
    (d.flow? flow).isSome ∧ (d.stepIndex flow step.id).isSome ∧
      ∃ f, d.flow? flow = some f ∧ step ∈ f.steps := by
  rw [Definition.stepAt, Option.bind_eq_some_iff] at h
  obtain ⟨f, hf, hs⟩ := h
  have hmem := List.mem_of_getElem? hs
  exact ⟨by rw [hf]; rfl, Definition.stepIndex_isSome hf (List.mem_map_of_mem hmem), f, hf, hmem⟩

theorem executeKind_keeps {host : Host} {index : ℕ} {step : Step} {vars : Vars}
    (hnext : NextKeeps ρ next) (hstart : StartKeeps ρ start) (hs : ρ.Inv s) (hV : ρ.own.inst inst)
    (hr : s.Runs inst d) (hstep : d.stepAt flow index = some step) (hvars : d.Allows vars) :
    Keeps ρ s (executeKind host next start inst flow index step d trigger vars) anything := by
  have hw := hs.wf.wellTargeted hr
  have hfind := hw.findStep_of_stepAt hstep
  obtain ⟨hf, htop, f, hfl, hmem⟩ := stepAt_top hstep
  have htargets := hw.resolves flow f hfl step hmem
  have hstands := Definition.stands_of_stepAt hstep
  unfold executeKind
  dsimp only
  split
  · rename_i hty
    exact executeParallelStep_keeps hs hV hr hf hstands
      (fun b hb => Definition.stands_of_body hstep hb) htop hfind hty
  · rename_i hty
    exact executeContinueStep_keeps hs hV hr hf hstands (by simp [hfind, hty])
  · exact executeWaitStep_keeps hs hV hr hf hstands htop
  · rename_i hty
    exact executeSinkStep_keeps hnext hs hV hr hf hstands hfind hty hvars
  · rename_i hty
    refine executeWhenStep_keeps hnext hstart hs hV hr hf hstands hfind hty hvars
      fun a ha t hat => htargets t ?_
    rw [Definition.targets, hty]
    exact List.mem_filterMap.2 ⟨a, ha, hat⟩
  · rename_i hty
    exact executeLoopStep_keeps hnext hs hV hr hf hstands hfind hty
      (Definition.mem_names_of_stepAt hstep hty) hvars
  · rename_i hty
    refine executeJumpStep_keeps hnext hstart hs hV hr hf hstands hfind hty (htargets _ ?_) hvars
    rw [Definition.targets, hty]
    exact List.mem_singleton_self _
  all_goals exact executeTaskStep_keeps hs hV hr hf hstands htop

theorem executeStepInner_keeps {host : Host} {index : ℕ} {vars : Vars} (hnext : NextKeeps ρ next)
    (hstart : StartKeeps ρ start) (hs : ρ.Inv s) (hV : ρ.own.inst inst) (hr : s.Runs inst d)
    (hf : (d.flow? flow).isSome) (hvars : d.Allows vars) :
    Keeps ρ s (executeStepInner host next start inst flow index d trigger vars) anything := by
  refine Keeps.bind (Q := fun f _ => d.flow? flow = some f) hs
    (Keeps.lookup hf fun f h _ _ _ => h) fun f t hst ht hfl => ?_
  split
  · exact updateStatus_keeps hV
  · rename_i step hstep
    refine Keeps.bind (Q := anything) ht (Keeps.read fun _ _ _ _ _ _ => trivial)
      fun attempts u htu hu _ => ?_
    split
    · exact Keeps.bind hu (updateStatus_keeps hV) fun _ _ _ _ _ => Keeps.fail
    · refine Keeps.bind hu (setCurrentPosition_keeps hV) fun _ v huv hv _ => ?_
      refine executeKind_keeps hnext hstart hv hV (((hr.later hst).later htu).later huv) ?_ hvars
      rw [Definition.stepAt, hfl]
      exact hstep

theorem failOnError_keeps {p : Run Unit} (hs : ρ.Inv s) (hV : ρ.own.inst inst)
    (hp : Keeps ρ s p anything) : Keeps ρ s (failOnError inst p) anything := by
  refine Keeps.bind hs hp.attempt fun r t _ ht _ => ?_
  cases r with
  | ok _ => exact Keeps.pure fun _ _ _ => trivial
  | error e =>
    refine Keeps.bind (Q := anything) ht (Keeps.read fun _ _ _ _ _ _ => trivial)
      fun row u _ hu _ => ?_
    cases row with
    | none => exact Keeps.fail
    | some i =>
      dsimp only
      split
      · exact Keeps.bind hu (Keeps.ignore hu (updateStatus_keeps hV))
          fun _ _ _ _ _ => Keeps.fail
      · exact Keeps.fail

/-! ## Starting an instance -/

/-- What a claim does: the row is as it was seen, and it is written. -/
theorem claimOccurrence_ok {t w : Db} {inst : ℕ} {seen : WorkflowRecord} {at_ : String}
    (h : claimOccurrence t inst seen at_ = .ok w) :
    ∃ row, t.workflow? seen.id = some row ∧ row.enabled = true ∧ row.revision = seen.revision ∧
      row.lastTriggeredAt = seen.lastTriggeredAt ∧
      w = (t.trigger seen at_).note
        (.scheduled seen.id seen.revision seen.lastTriggeredAt inst) := by
  unfold claimOccurrence at h
  split at h
  · rename_i row hrow
    split at h
    · rename_i hseen
      cases h
      exact ⟨row, hrow, hseen.1, hseen.2.1, hseen.2.2, rfl⟩
    · cases h
  · cases h

theorem claimOccurrence_moves {c : Scope} {t w : Db} {inst : ℕ} {seen : WorkflowRecord}
    {at_ : String} (ht : WellFormed t) (h : claimOccurrence t inst seen at_ = .ok w) :
    Moves c t w := by
  obtain ⟨row, -, -, -, -, rfl⟩ := claimOccurrence_ok h
  have hm : Moves c t (t.trigger seen at_) := by
    refine Moves.setWorkflows ht le_rfl fun w hw => ?_
    rcases Table.mem_modify hw with ⟨hw, -⟩ | ⟨w₀, hw₀, -, rfl⟩
    · exact ht.workflows w hw
    · exact ht.workflows w₀ hw₀
  exact hm.trans (Moves.note hm.2 trivial trivial)

theorem insertGate_moves {c : Scope} {t w : Db} {source : Option Task} (ht : WellFormed t)
    (hV : c.inst inst) (hr : t.Runs inst d) (hf : (d.flow? flow).isSome)
    (h : insertGate t inst flow source = .ok w) : Moves c t w := by
  cases source with
  | none =>
    cases h
    exact Moves.refl ht
  | some task =>
    obtain ⟨⟨id, w'⟩, h', h⟩ := bind_ok h
    cases h
    exact (createTaskExecutionInTransaction_moves ht hV hr hf (.inl rfl) h').2.1

theorem NewInstance.insert_moves {c : Scope} {t : Db} {n : NewInstance} (project : Option String)
    (bindings : List (String × String)) (ht : WellFormed t) (hw : n.definition.WellTargeted)
    (hn : n.definition.Allows n.vars) :
    Moves c t (n.insert project bindings t) ∧
      (n.insert project bindings t).Runs t.nextId n.definition := by
  refine ⟨Moves.insertInstance ht rfl ⟨n.definition, rfl, hw, ?_, ?_, hn⟩, ?_⟩
  · exact fun ls hls => by cases hls
  · exact fun e he => by cases he
  · exact ⟨n.row project t.nextId t.clock, instance?_append ht rfl, rfl⟩

theorem afterInsert_moves {c : Scope} {t w : Db} {inst : ℕ}
    {o : Option (WorkflowRecord × String)} (ht : WellFormed t) (h : afterInsert t inst o = .ok w) :
    Moves c t w := by
  cases o with
  | none =>
    cases h
    exact Moves.refl ht
  | some o => exact claimOccurrence_moves ht h

theorem createInstance_keeps {n : NewInstance} (hn : n.definition.Allows n.vars)
    (hw : n.definition.WellTargeted) (hf : (n.definition.flow? n.startFlow).isSome) :
    Keeps ρ s (createInstance n) fun id t => ρ.own.inst id ∧ t.Runs id n.definition := by
  refine Keeps.tx fun t _ hi id w h => ?_
  obtain ⟨project, -, h⟩ := bind_ok h
  obtain ⟨-, -, h⟩ := bind_ok h
  obtain ⟨-, -, h⟩ := bind_ok h
  obtain ⟨bindings, -, h⟩ := bind_ok h
  split at h
  · cases h
  · obtain ⟨u, hu, h⟩ := bind_ok h
    obtain ⟨v, hv, h⟩ := bind_ok h
    cases h
    have hV : ρ.own.inst t.nextId := ρ.own.inst_fresh _ hi.base
    obtain ⟨h1, hr⟩ := NewInstance.insert_moves (c := ρ.own) project bindings hi.wf hw hn
    have h2 := insertGate_moves (c := ρ.own) h1.2 hV hr hf hu
    have h3 := afterInsert_moves (c := ρ.own) h2.2 hv
    exact ⟨(h1.trans h2).trans h3, fun x hx _ => ⟨hV, ((hr.later h2.1).later h3.1).later hx⟩⟩

theorem startFlow_flow? {d : Definition} {flow : String} (h : startFlow d = some flow) :
    (d.flow? flow).isSome := by
  rw [startFlow] at h
  split at h
  · cases h
    assumption
  · rw [Definition.flow?_isSome_iff]
    exact List.mem_of_mem_head? h

theorem startInstanceInContext_keeps {env : Env} {workflowId : ℕ} {context : WorkflowContext}
    {creator : Option String} {source : Option Task}
    {occurrence : Option (WorkflowRecord × String)} (hnext : NextKeeps ρ next) (hs : ρ.Inv s) :
    Keeps ρ s (startInstanceInContext env next workflowId trigger context creator source
      occurrence) anything := by
  refine Keeps.bind (Q := fun w _ => w.definition.WellTargeted) hs
    (Keeps.fetch hs fun t _ ht w hw _ _ _ => ht.wf.workflows w (Table.mem_of_get hw))
    fun w t _ ht hw => ?_
  refine Keeps.bind (Q := anything) ht (Keeps.ret fun _ _ _ _ _ => trivial) fun ctx t _ ht _ => ?_
  split
  · exact Keeps.fail
  refine Keeps.bind (Q := anything) ht (Keeps.ret fun _ _ _ _ _ => trivial) fun trigger
    t _ ht _ => ?_
  refine Keeps.bind (Q := anything) ht (Keeps.bind (Q := anything) ht
    (Keeps.read fun _ _ _ _ _ _ => trivial) fun _ _ _ _ _ => Keeps.ret fun _ _ _ _ _ => trivial)
    fun project t _ ht _ => ?_
  refine Keeps.bind ht (Keeps.aside ensureProject_aside) fun _ t _ ht _ => ?_
  refine Keeps.bind (Q := fun r _ => r.1.WellTargeted) ht (Keeps.ret fun r hr _ _ _ =>
    hw.of_skeleton (Definition.resolveAgentBindings_skeleton hr)) ?_
  rintro ⟨d, frozen, unresolved⟩ t - ht hd
  refine Keeps.bind ht (Keeps.aside checkAgents_aside) fun _ t _ ht _ => ?_
  refine Keeps.bind (Q := fun flow _ => (d.flow? flow).isSome) ht ?_ fun flow t _ ht hf => ?_
  · cases hflow : startFlow d with
    | none => exact Keeps.fail
    | some flow => exact Keeps.pure fun _ _ _ => startFlow_flow? hflow
  refine Keeps.bind ht (createInstance_keeps (initialVariables_allows d source) hd hf) ?_
  rintro id t - ht ⟨hV, hr⟩
  refine Keeps.bind (Q := fun row u => row.id = id ∧ u.Runs id d) ht
    ((getInstance_keeps ht).mono fun row u htu _ h => ⟨h.1, hr.later htu⟩) ?_
  rintro row t - ht ⟨rfl, hruns⟩
  cases source with
  | some task => exact Keeps.pure fun _ _ _ => trivial
  | none =>
    refine Keeps.bind ht (loadVariableStore_keeps ht hruns) fun vars u htu hu hv => ?_
    refine Keeps.bind hu (hnext u row.id flow 0 d trigger vars hu hV (hruns.later htu) hf hv) ?_
    exact fun _ _ _ _ _ => Keeps.pure fun _ _ _ => trivial

theorem startInstance_keeps {env : Env} (hnext : NextKeeps ρ next) :
    StartKeeps ρ (startInstance env next) := by
  intro t workflow trigger ht
  refine Keeps.bind ht (startInstanceInContext_keeps hnext ht) fun _ _ _ _ _ => ?_
  exact Keeps.pure fun _ _ _ => trivial

end Next

/-- **Executing a position keeps the rules**, at every depth of the recursion. -/
theorem executeStep_keeps (host : Host) (fuel : ℕ) : NextKeeps ρ (executeStep host fuel) := by
  induction fuel with
  | zero => exact fun t inst flow index d trigger vars ht hV hr hf hv => Keeps.stall
  | succ fuel ih =>
    intro t inst flow index d trigger vars ht hV hr hf hv
    exact failOnError_keeps ht hV
      (executeStepInner_keeps ih (startInstance_keeps ih) ht hV hr hf hv)

end XpressClaw
