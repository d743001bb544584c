import XpressClaw.Workflow.Planning

/-!
# The workflow engine: callbacks and recovery

What moves an instance on after a step has waited for the outside world: the
completion of a task or of one attempt, the join of a parallel group, the resumption
or timeout of a wait, cancellation, and `recover` after a restart.  The step function
is a parameter (`next`), as in the module before; `Op` at the end lists the calls the
rest of the program can make.
-/

namespace XpressClaw

open Lib InstanceManager

/-- `definition_for_instance`. -/
def definitionForInstance (i : Instance) : Run Definition :=
  match i.definition with
  | some d => pure d
  | none => do
      let w ← fetch (fun db => db.workflow? i.workflowId) (.workflowNotFound i.workflowId)
      pure w.definition

/-! ## Command steps

What the runner of a command step reads, the permission to run it and the result it saves.
Both are columns of the execution, so that a restart cannot run a command a second time. -/

/-- The agent a command step must run on, in the context saved with its execution. -/
def commandAgent (env : Env) (step : Step) (input : Json) : String :=
  Context.renderTemplate env (step.agent.getD "") input

/-- `begin`: a saved result, or the permission to run (`none`), which is given once. -/
def beginCommand (exec : ℕ) : Run (Option CommandResult) :=
  Prog.tx fun db =>
    match (db.execution? exec).filter fun e => e.status = .running &&
        (db.instance? e.instanceId).any fun i => i.status = .running with
    | none => .error (.workflow "command step is no longer active")
    | some e => match e.commandResult with
        | some result => .ok (some result, db)
        | none =>
            if e.commandStartedAt.isSome then .error (.workflow
              "command was interrupted before its result was saved; start a new workflow run to execute it again")
            else .ok (none, (db.setExecution exec fun e =>
              { e with commandStartedAt := some db.clock }).note (.granted exec))

/-- `save_result`: only the first result is kept. -/
def saveResult (exec : ℕ) (result : CommandResult) : Run Unit :=
  Prog.write fun db => db.setExecution exec fun e =>
    { e with commandResult := e.commandResult.or (some result) }

/-! ## Parallel groups -/

/-- The transaction of `complete_parallel_branch`: record the branch's result while
it, its parent and the instance are running, then claim the join if every branch is
terminal. -/
def recordBranch (exec : Execution) (parent : ℕ) (status : ExecStatus) (output : String)
    (db : Db) : Bool × Db :=
  let live := (db.instance? exec.instanceId).any fun i => i.status = .running
  let db :=
    if (db.execution? exec.id).any (fun e => e.status = .running) && live &&
        (db.execution? parent).any fun e => e.status = .running then
      (db.setExecution exec.id fun e => { e with status, output := some output }).note
        (.recorded exec.id status output)
    else db
  if (db.execution? parent).any (fun e => e.status = .running) && live &&
      db.executions.all fun e => e.parentExecutionId != some parent || e.status.terminal then
    (true, (db.setExecution parent fun e => { e with status := .resuming }).note (.claimed parent))
  else (false, db)

/-- The variables after a join: one entry for each branch. -/
def joinedVariables (env : Env) (d : Definition) (vars : Vars) (branches : List Execution) : Vars :=
  branches.foldl (fun acc b => Vars.insert acc b.stepId
    (stepValue (d.findStep b.flowName b.stepId) (parseTaskOutput env (b.output.getD "")))) vars

/-- The error of an instance whose parallel step failed. -/
def joinFailure (stepId : String) (failed : List String) : String :=
  s!"parallel step '{stepId}' failed: " ++ ", ".intercalate failed

/-- The end of `finish_parallel`: the results of the branches are saved, the parent
gets its status, and the instance goes on. -/
def joinParallel (env : Env) (next : StepFn) (parent : Execution) (row : Instance)
    (d : Definition) (index : ℕ) (branches : List Execution) : Run Unit := do
  let stored ← loadVariableStore row.id
  let vars := joinedVariables env d stored branches
  Prog.write fun db =>
    (db.setInstance row.id fun i => { i with variableStore := vars }).note
      (.joined parent.id branches vars)
  let failed := (branches.filter fun b => b.status ≠ .completed).map Execution.stepId
  let summary := env.renderJson (.obj
    [("branches", .num branches.length), ("failed", .arr (failed.map .str))])
  updateStepStatus parent.id (if failed.isEmpty then .completed else .failed) (some summary)
  if failed.isEmpty then do
    record (.advanced parent.id (.step parent.flowName (index + 1)))
    advanceToNext next row.id parent.flowName index d row.triggerData vars
  else if (d.flow? "on_error").isSome then do
    record (.advanced parent.id (.step "on_error" 0))
    next row.id "on_error" 0 d row.triggerData vars
  else do
    record (.advanced parent.id .failed)
    updateStatus row.id .failed (some (joinFailure parent.stepId failed))

/-- `finish_parallel`. -/
def finishParallel (env : Env) (next : StepFn) (parentId : ℕ) : Run Unit := do
  let parent ← getStepExecution parentId
  let row ← getInstance parent.instanceId
  if row.status = .running then do
    let d ← definitionForInstance row
    let index ← lookup (d.stepIndex parent.flowName parent.stepId)
      "parallel parent is not a top-level step"
    if row.currentFlow = parent.flowName ∧ row.currentStepIndex = index ∧
        row.currentExecutionId = some parentId then do
      let execs ← listStepExecutions row.id
      let branches := execs.filter fun e => e.parentExecutionId = some parentId
      if branches.isEmpty ∨ branches.any fun b => !b.status.terminal then pure ()
      else joinParallel env next parent row d index branches
    else pure ()
  else pure ()

/-- `complete_parallel_branch`. -/
def completeParallelBranch (env : Env) (next : StepFn) (exec : Execution) (parent : ℕ)
    (status : ExecStatus) (output : String) : Run Unit := do
  let claimed ← Prog.tx fun db => .ok (recordBranch exec parent status output db)
  if claimed then finishParallel env next parent else pure ()

/-! ## Task completion -/

/-- What a completion callback has read before it branches. -/
structure Completion where
  row : Instance
  d : Definition
  vars : Vars
  /-- The status and output of the task, after the check on command results. -/
  status : String
  output : String

namespace Completion

/-- The status of the step. -/
def stepStatus (c : Completion) : ExecStatus := if c.status = "completed" then .completed else .failed

/-- The user cancelled the source task of the instance. -/
def sourceCancelled (c : Completion) (task : ℕ) : Bool :=
  c.status = "cancelled" && c.row.sourceTaskId = some task

/-- The status written to the execution. -/
def persisted (c : Completion) (task : ℕ) : ExecStatus :=
  if c.sourceCancelled task then .cancelled else c.stepStatus

end Completion

/-- `cancel_source_task_instance`. -/
def cancelSourceTaskInstance (row : Instance) (output : String) : Run Unit := do
  match row.loopState with
  | some state => do
      updateStepStatus state.parentExecutionId .failed (some output)
      updateLoopState row.id none
      updateStatus row.id .cancelled (some s!"source task cancelled: {output}")
  | none => updateStatus row.id .cancelled (some s!"source task cancelled: {output}")

/-- Leave a failed execution: to the `on_error` flow, or else the instance fails. -/
def failStep (next : StepFn) (exec : ℕ) (c : Completion) (vars : Vars) (message : String) :
    Run Unit :=
  if (c.d.flow? "on_error").isSome then do
    record (.advanced exec (.step "on_error" 0))
    next c.row.id "on_error" 0 c.d c.row.triggerData vars
  else do
    record (.advanced exec .failed)
    updateStatus c.row.id .failed (some message)

/-- The completion of a source gate. -/
def completeSourceGate (env : Env) (next : StepFn) (exec : Execution) (task : ℕ)
    (c : Completion) : Run Unit := do
  let active ← Prog.read fun db => db.work.hasActiveResponse task
  if c.stepStatus = .completed ∧ active then pure ()
  else do
    let source := ((Vars.get? c.vars "source_task").bind Json.asObject).getD []
    let source := Vars.insert source "status" (.str c.status)
    let source := Vars.insert source "output" (parseTaskOutput env c.output)
    let vars := Vars.insert c.vars "source_task" (.obj source)
    saveVariableStore c.row.id vars
    updateStepStatus exec.id (c.persisted task) (some c.output)
    if c.sourceCancelled task then do
      record (.advanced exec.id .cancelled)
      cancelSourceTaskInstance c.row c.output
    else if c.stepStatus = .failed then
      failStep next exec.id c vars s!"source task failed: {c.output}"
    else do
      record (.advanced exec.id (.step exec.flowName 0))
      next c.row.id exec.flowName 0 c.d c.row.triggerData vars

/-- The completion of the response a held continuation was waiting for. -/
def completeIdleContinuation (host : Host) (next : StepFn) (exec : Execution) (task : ℕ)
    (c : Completion) : Run Unit := do
  if c.sourceCancelled task then do
    updateStepStatus exec.id (c.persisted task) (some c.output)
    record (.advanced exec.id .cancelled)
    cancelSourceTaskInstance c.row c.output
  else if c.stepStatus = .failed then do
    updateStepStatus exec.id .failed (some c.output)
    failStep next exec.id c c.vars
      s!"source task failed while continue step '{exec.stepId}' waited for idle: {c.output}"
  else do
    let step ← lookup ((c.d.findStep exec.flowName exec.stepId).filter
        fun s => s.stepType = .continue_)
      s!"idle continuation execution '{exec.id}' no longer resolves to a continue step"
    let ctx := Context.buildContext c.row.triggerData c.d.globals c.vars
    let prompt := Context.renderTemplate host.toEnv (step.prompt.getD "") ctx
    if Text.isBlank prompt then do
      let message := s!"continue step '{exec.stepId}' rendered an empty prompt"
      updateStepStatus exec.id .failed (some message)
      updateStatus c.row.id .failed (some message)
      Prog.fail (.workflow message)
    else do
      let _ ← dispatchWaitingContinuation host exec.id task prompt
      pure ()

/-- The loop cursor that a finished body execution moves, if it owns it. -/
def ownedLoop (d : Definition) (row : Instance) (exec : Execution) : Option LoopState :=
  row.loopState.filter fun state =>
    (((d.findStep state.flowName state.stepId).map Step.body).bind
      fun body => body[state.bodyIndex]?).any (fun s => s.id = exec.stepId) &&
    state.activeExecutionId.all (· = exec.id)

/-- The tail of `on_execution_task_completed`: finish the execution and leave it. -/
def completeStep (env : Env) (next : StepFn) (exec : Execution) (task : ℕ) (c : Completion) :
    Run Unit := do
  updateStepStatus exec.id (c.persisted task) (some c.output)
  if c.sourceCancelled task then do
    record (.advanced exec.id .cancelled)
    cancelSourceTaskInstance c.row c.output
  else do
    let value := stepValue (c.d.findStep exec.flowName exec.stepId) (parseTaskOutput env c.output)
    let vars := Vars.insert c.vars exec.stepId value
    saveVariableStore c.row.id vars
    if c.stepStatus = .failed then do
      match c.row.loopState with
      | some state => do
          updateStepStatus state.parentExecutionId .failed (some c.output)
          updateLoopState c.row.id none
          failStep next exec.id c vars s!"step '{exec.stepId}' failed: {c.output}"
      | none => failStep next exec.id c vars s!"step '{exec.stepId}' failed: {c.output}"
    else match ownedLoop c.d c.row exec with
      | some state => do
          let state := { state with bodyIndex := state.bodyIndex + 1, activeExecutionId := none }
          updateLoopState c.row.id (some state)
          record (.advanced exec.id .loop)
          continueLoop env next c.row.id state c.d c.row.triggerData vars
      | none => do
          let index := (c.d.stepIndex exec.flowName exec.stepId).getD 0
          record (.advanced exec.id (.step exec.flowName (index + 1)))
          advanceToNext next c.row.id exec.flowName index c.d c.row.triggerData vars

/-- `terminal_attempt_completion`. -/
def terminalAttemptCompletion (attempt : ℕ) : Run (Option (String × String)) := do
  let a ← fetch (fun db => Table.get Attempt.id db.work.attempts attempt)
    (.task s!"attempt {attempt} not found")
  let output := ((a.result.or a.errorMessage).filter fun o => !Text.isBlank o).getD
    s!"work attempt {a.status.name}"
  pure (match a.status with
    | .completed => some ("completed", output)
    | .failed | .interrupted => some ("failed", output)
    | .cancelled => some ("cancelled", output)
    | _ => none)

/-- The status and output of a completed command come from the saved result. -/
def commandCompletion (env : Env) (d : Definition) (exec : Execution) (status output : String) :
    Run (String × String) :=
  match (d.findStep exec.flowName exec.stepId).filter fun s => s.stepType = .command with
  | some step =>
      if status = "completed" then do
        let row ← fetch (fun db => db.execution? exec.id) (.database "no rows")
        pure (match row.commandResult with
          | some r => (if r.succeeds step.allowFailure then "completed" else "failed",
              r.jsonOutput env)
          | none => ("failed", "Command has no recorded execution result"))
      else pure (status, output)
  | none => pure (status, output)

/-- The part of `on_execution_task_completed` that decides for a running continue
step whether this callback may finish it; `again` is the call with the step's own
attempt. -/
def completeContinue (host : Host) (next : StepFn)
    (again : String → String → ℕ → Run Unit) (exec : Execution) (task : ℕ) (c : Completion)
    (attempt : Option ℕ) : Run Unit :=
  match exec.continuationAttemptId with
  | none => Prog.fail (.workflow
      s!"running continue step '{exec.stepId}' has no owned response attempt")
  | some owned =>
      if attempt = some owned then
        if c.stepStatus = .completed ∧ host.needsUserInput c.output then pure ()
        else completeStep host.toEnv next exec task c
      else if attempt.isSome then pure ()
      else do
        match ← terminalAttemptCompletion owned with
        | none => pure ()
        | some (status, output) =>
            if status ≠ "completed" ∨ !host.needsUserInput output then again status output owned
            else completeStep host.toEnv next exec task c

/-- `on_execution_task_completed`, with the call of itself as an argument. -/
def completeWith (host : Host) (next : StepFn) (again : String → String → ℕ → Run Unit)
    (exec : Execution) (task : ℕ) (status output : String) (attempt : Option ℕ) :
    Run Unit := do
  let row ← getInstance exec.instanceId
  if row.status = .running then do
    let d ← definitionForInstance row
    let vars ← loadVariableStore row.id
    let (status, output) ← commandCompletion host.toEnv d exec status output
    let c : Completion := ⟨row, d, vars, status, output⟩
    match exec.parentExecutionId with
    | some parent => completeParallelBranch host.toEnv next exec parent c.stepStatus c.output
    | none =>
        if exec.stepId = sourceTaskStepId then completeSourceGate host.toEnv next exec task c
        else if exec.status = .waitingForIdle then completeIdleContinuation host next exec task c
        else if !c.sourceCancelled task && (d.findStep exec.flowName exec.stepId).any
            (fun s => s.stepType = .continue_) then
          completeContinue host next again exec task c attempt
        else completeStep host.toEnv next exec task c
  else pure ()

/-- `on_execution_task_completed`.  The source calls itself at most once, with the
attempt that the execution owns, and that call does not call itself. -/
def onExecutionTaskCompleted (host : Host) (next : StepFn) (exec : Execution) (task : ℕ)
    (status output : String) (attempt : Option ℕ) : Run Unit :=
  completeWith host next
    (fun status output owned =>
      completeWith host next (fun _ _ _ => Prog.stall) exec task status output (some owned))
    exec task status output attempt

/-- Call back every execution; the errors are collected. -/
def completeEach (p : Execution → Run Unit) : List Execution → Run (List String)
  | [] => pure []
  | e :: es => do
      let r ← (p e).attempt
      let rest ← completeEach p es
      pure (match r with
        | .ok _ => rest
        | .error x => s!"{e.instanceId}: {x.text}" :: rest)

/-- Several errors in one message. -/
def joinErrors (errors : List String) : String := "; ".intercalate errors

/-- `on_task_completed`. -/
def onTaskCompleted (host : Host) (next : StepFn) (task : ℕ) (status output : String) :
    Run Unit := do
  let execs ← findRunningExecutionsByTask task
  let errors ← completeEach
    (fun e => onExecutionTaskCompleted host next e task status output none) execs
  if errors.isEmpty then pure ()
  else Prog.fail (.workflow s!"workflow completion failed: {joinErrors errors}")

/-- `on_attempt_completed`. -/
def onAttemptCompleted (host : Host) (next : StepFn) (task attempt : ℕ) (status output : String) :
    Run Unit := do
  let execs ← findRunningExecutionsByTask task
  let status := if status = "completed" ∨ status = "cancelled" then status else "failed"
  let errors ← completeEach
    (fun e => onExecutionTaskCompleted host next e task status output (some attempt))
    (execs.filter fun e => e.continuationAttemptId = some attempt)
  if errors.isEmpty then pure ()
  else Prog.fail (.workflow s!"workflow attempt completion failed: {joinErrors errors}")

/-! ## Waits -/

/-- Whether an event payload is the timeout marker. -/
def isTimeout (payload : Json) : Bool := (payload.get? "kind").bind Json.asStr = some "timeout"

/-- The payload a wait execution was resumed with. -/
def waitPayload (env : Env) (exec : Execution) : Json := (exec.output.bind env.parseJson).getD .null

/-- `advance_completed_wait`. -/
def advanceCompletedWait (env : Env) (next : StepFn) (start : ℕ → Json → Run Unit)
    (exec : Execution) (step : Step) (d : Definition) (trigger : Json) (vars : Vars) :
    Run Unit :=
  if isTimeout (waitPayload env exec) then
    match step.onTimeout with
    | none => Prog.fail (.workflow
        s!"wait step '{exec.stepId}' timed out without a timeout target")
    | some target => do
        record (.advanced exec.id (.goto target))
        resolveGoto next start exec.instanceId target exec.flowName d trigger vars
  else do
    let index ← lookup (d.stepIndex exec.flowName exec.stepId)
      s!"wait step '{exec.stepId}' must be a top-level flow step"
    record (.advanced exec.id (.step exec.flowName (index + 1)))
    advanceToNext next exec.instanceId exec.flowName index d trigger vars

/-- `finish_wait_execution`. -/
def finishWaitExecution (env : Env) (next : StepFn) (start : ℕ → Json → Run Unit) (id : ℕ) :
    Run Unit := do
  let exec ← getStepExecution id
  if exec.status = .resuming then do
    let row ← getInstance exec.instanceId
    if row.status.active then do
      setActiveStatus exec.instanceId .running
      let d ← definitionForInstance row
      let step ← lookup (d.findStep exec.flowName exec.stepId)
        s!"wait step '{exec.stepId}' no longer exists in workflow"
      if step.stepType = .wait then do
        let payload := waitPayload env exec
        let stored ← loadVariableStore exec.instanceId
        let vars := Vars.insert stored exec.stepId payload
        saveVariableStore exec.instanceId vars
        if isTimeout payload ∧ step.onTimeout.isNone then do
          updateStepStatus id .failed exec.output
          updateStatus exec.instanceId .failed (some s!"wait step '{exec.stepId}' timed out")
        else do
          updateStepStatus id .completed exec.output
          advanceCompletedWait env next start exec step d row.triggerData vars
      else Prog.fail (.workflow s!"execution '{exec.id}' is not a wait step")
    else pure ()
  else pure ()

/-- `resume_wait_execution`. -/
def resumeWaitExecution (env : Env) (next : StepFn) (start : ℕ → Json → Run Unit) (id : ℕ)
    (payload : Json) : Run Unit := do
  if ← claimWait id (env.renderJson payload) then finishWaitExecution env next start id
  else pure ()

/-- `timeout_wait_execution`. -/
def timeoutWaitExecution (env : Env) (next : StepFn) (start : ℕ → Json → Run Unit) (id : ℕ) :
    Run Unit :=
  resumeWaitExecution env next start id (.obj [("kind", .str "timeout")])

/-! ## Recovery -/

/-- `complete_and_roll_up_with`, with `on_task_completed` as the callback: the tasks
that were completed, from the task upwards. -/
def rollUp (host : Host) (next : StepFn) : ℕ → Option ℕ → Run (List ℕ)
  | _, none => pure []
  | 0, some _ => Prog.stall
  | fuel + 1, some task => do
      let done ← Prog.tx fun db => match db.work.task? task with
        | none => .error (.database "no rows")
        | some _ =>
            let (ready, work) := host.completeIfReady task db.work
            .ok (if ready then work.task? task else none, db.setWork work)
      match done with
      | none => pure []
      | some t => do
          let output ← Prog.read fun db => db.work.completedTaskOutput task
          ignore (onTaskCompleted host next task "completed" output)
          let now ← TaskBoard.get task
          if now.status = .completed then do
            let more ← rollUp host next fuel t.parentTaskId
            pure (task :: more)
          else pure [task]

/-- `recoverable_task_status` when neither the task nor the execution has settled. -/
def recoverUnsettled (host : Host) (next : StepFn) (fuel : ℕ) (task : ℕ)
    (taskStatus : TaskStatus) : Run (Option String) := do
  let active ← Prog.read fun db => db.work.hasActiveResponse task
  if taskStatus = .inProgress ∧ !active then do
    let latest ← Prog.read fun db => db.work.latestAttemptStatus task
    if latest = some .completed then do
      let output ← Prog.read fun db => db.work.completedTaskOutput task
      if host.needsUserInput output then do
        TaskBoard.updateStatus task .waitingForInput
        pure none
      else do
        let completed ← rollUp host next fuel (some task)
        if completed.contains task then do
          let now ← TaskBoard.get task
          pure (if now.status = .completed then some "completed" else none)
        else pure none
    else pure none
  else if taskStatus = .blocked ∧ !active then do
    let latest ← Prog.read fun db => db.work.latestAttemptStatus task
    pure (if latest = some .failed ∨ latest = some .interrupted then some "failed" else none)
  else pure none

/-- `recoverable_task_status`. -/
def recoverableTaskStatus (host : Host) (next : StepFn) (fuel : ℕ) (task : ℕ)
    (taskStatus : TaskStatus) (execStatus : ExecStatus) : Run (Option String) :=
  if taskStatus = .completed then pure (some "completed")
  else if taskStatus = .cancelled then pure (some "cancelled")
  else if execStatus = .failed then pure (some "failed")
  else if execStatus = .cancelled then pure (some "cancelled")
  else recoverUnsettled host next fuel task taskStatus

/-- Either the two statuses decide, or the attempts are looked at. -/
theorem recoverableTaskStatus_cases (host : Host) (next : StepFn) (fuel task : ℕ)
    (taskStatus : TaskStatus) (execStatus : ExecStatus) :
    (∃ status, recoverableTaskStatus host next fuel task taskStatus execStatus =
      pure (some status)) ∨
    recoverableTaskStatus host next fuel task taskStatus execStatus =
      recoverUnsettled host next fuel task taskStatus := by
  by_cases hcompleted : taskStatus = .completed
  · exact Or.inl ⟨_, if_pos hcompleted⟩
  by_cases hcancelled : taskStatus = .cancelled
  · exact Or.inl ⟨_, (if_neg hcompleted).trans (if_pos hcancelled)⟩
  by_cases hfailed : execStatus = .failed
  · exact Or.inl ⟨_, (if_neg hcompleted).trans ((if_neg hcancelled).trans (if_pos hfailed))⟩
  by_cases hstopped : execStatus = .cancelled
  · exact Or.inl ⟨_, (if_neg hcompleted).trans ((if_neg hcancelled).trans
      ((if_neg hfailed).trans (if_pos hstopped)))⟩
  · exact Or.inr ((if_neg hcompleted).trans ((if_neg hcancelled).trans
      ((if_neg hfailed).trans (if_neg hstopped))))

/-- The step at the instance's position. -/
def currentStep (d : Definition) (i : Instance) : Option Step :=
  if 0 ≤ i.currentStepIndex then d.stepAt i.currentFlow i.currentStepIndex.toNat else none

/-- Execute the instance's position again. -/
def executePosition (next : StepFn) (d : Definition) (i : Instance) : Run Unit := do
  let vars ← loadVariableStore i.id
  next i.id i.currentFlow i.currentStepIndex.toNat d i.triggerData vars

/-- One running branch of a group during recovery. -/
def recoverBranch (host : Host) (next : StepFn) (fuel : ℕ) (child : Execution) : Run Unit := do
  match child.taskId with
  | none => Prog.fail (.workflow "parallel branch has no task")
  | some task => do
      let t ← TaskBoard.get task
      match ← recoverableTaskStatus host next fuel task t.status child.status with
      | some status => do
          let output ← Prog.read fun db => db.work.completedTaskOutput task
          onExecutionTaskCompleted host next child task
            (if status = "completed" then "completed" else "failed") output none
      | none => match t.status, t.agentId with
          | .pending, some agent => TaskQueue.ensureEnqueued task agent
          | _, _ => pure ()

/-- `recover_parallel`: whether the instance stands at a parallel step. -/
def recoverParallel (host : Host) (next : StepFn) (fuel : ℕ) (i : Instance) : Run Bool := do
  let d ← definitionForInstance i
  if (currentStep d i).any fun s => s.stepType = .parallel then do
    let execs ← listStepExecutions i.id
    match execs.find? fun e => i.currentExecutionId = some e.id with
    | none => do
        executePosition next d i
        pure true
    | some parent => do
        Prog.forEach (execs.filter fun e =>
            e.parentExecutionId = some parent.id ∧ e.status = .running)
          (recoverBranch host next fuel)
        finishParallel host.toEnv next parent.id
        pure true
  else pure false

/-- `recover_command_execution`. -/
def recoverCommandExecution (host : Host) (next : StepFn) (i : Instance) : Run Bool := do
  let d ← definitionForInstance i
  if (currentStep d i).any fun s => s.stepType = .command then
    match i.currentExecutionId with
    | none => do
        executePosition next d i
        pure true
    | some id => do
        let exec ← getStepExecution id
        if exec.status = .completed ∨ exec.status = .failed then
          match exec.taskId with
          | some task => do
              onExecutionTaskCompleted host next exec task exec.status.name
                (exec.output.getD "") none
              pure true
          | none => pure true
        else pure false
  else pure false

/-- A task-backed execution without an attempt of its own: replay its task's
completion, or queue the task again. -/
def recoverTask (host : Host) (next : StepFn) (fuel : ℕ) (exec : Execution) (task : ℕ) :
    Run Unit := do
  match ← Prog.read fun db => db.work.task? task with
  | none => pure ()
  | some t => do
      match ← recoverableTaskStatus host next fuel task t.status exec.status with
      | some status => do
          let output ← Prog.read fun db => db.work.completedTaskOutput task
          ignore (onTaskCompleted host next task status output)
      | none => match t.status, t.agentId with
          | .pending, some agent => ignore (TaskQueue.ensureEnqueued task agent)
          | _, _ => pure ()

/-- A continuation that owns an attempt. -/
def recoverContinuation (host : Host) (next : StepFn) (fuel : ℕ) (exec : Execution)
    (task attempt : ℕ) : Run Unit := do
  let found ← Prog.read fun db => (db.work.task? task).map Task.status
  let output ← Prog.read fun db => db.work.completedTaskOutput task
  match found with
  | some .completed =>
      ignore (onExecutionTaskCompleted host next exec task "completed" output none)
  | some .cancelled =>
      ignore (onExecutionTaskCompleted host next exec task "cancelled"
        "source task was cancelled" none)
  | _ => do
      match ← (terminalAttemptCompletion attempt).attempt with
      | .ok (some (status, output)) =>
          if status = "completed" ∧ host.needsUserInput output then
            recoverTask host next fuel exec task
          else
            ignore (onExecutionTaskCompleted host next exec task status output (some attempt))
      | .ok none => pure ()
      | .error _ => pure ()

/-- A running loop parent: replay the body execution it owns, or go on from the
cursor. -/
def recoverLoop (host : Host) (next : StepFn) (i : Instance) (state : LoopState) : Run Unit := do
  match state.activeExecutionId with
  | some active => do
      match ← Prog.read fun db => db.execution? active with
      | none => pure ()
      | some body =>
          match body.taskId with
          | none => pure ()
          | some task =>
              if body.status = .completed ∨ body.status = .failed then do
                let spoken ← Prog.read fun db => db.work.completedTaskOutput task
                ignore (onExecutionTaskCompleted host next body task body.status.name
                  (body.output.getD spoken) none)
              else pure ()
  | none => do
      let d ← definitionForInstance i
      let vars ← loadVariableStore i.id
      ignore (continueLoop host.toEnv next i.id state d i.triggerData vars)

/-- The newest running or held execution of the instance. -/
def recoverCurrent (host : Host) (next : StepFn) (fuel : ℕ) (i : Instance) (exec : Execution) :
    Run Unit :=
  match exec.taskId with
  | some task => match exec.continuationAttemptId with
      | some attempt => recoverContinuation host next fuel exec task attempt
      | none => recoverTask host next fuel exec task
  | none => match i.loopState.filter fun s => s.parentExecutionId = exec.id with
      | some state => recoverLoop host next i state
      | none => pure ()

/-- The last execution, if it is a terminal source gate or continue step. -/
def replayable (d : Definition) (execs : List Execution) : Option Execution :=
  execs.getLast?.filter fun e => e.status.terminal &&
    (e.stepId = sourceTaskStepId ||
      (d.findStep e.flowName e.stepId).any fun s => s.stepType = .continue_)

/-- A wait whose event was recorded just before the process stopped. -/
def recoverWait (host : Host) (next : StepFn) (start : ℕ → Json → Run Unit) (i : Instance)
    (d : Definition) (execs : List Execution) : Run Unit :=
  match (currentStep d i).filter fun s => s.stepType = .wait with
  | none => pure ()
  | some step =>
      match execs.reverse.find? fun e => e.flowName = i.currentFlow && e.stepId = step.id &&
          e.status = .completed with
      | none => pure ()
      | some exec => do
          let vars ← loadVariableStore i.id
          ignore (advanceCompletedWait host.toEnv next start exec step d i.triggerData vars)

/-- No execution is live: replay the last gate or continuation, else the wait at the
position. -/
def recoverSettled (host : Host) (next : StepFn) (start : ℕ → Json → Run Unit) (fuel : ℕ)
    (i : Instance) (execs : List Execution) : Run Unit := do
  let d ← definitionForInstance i
  match replayable d execs with
  | none => recoverWait host next start i d execs
  | some exec => match exec.taskId with
      | none => recoverWait host next start i d execs
      | some task => do
          match ← Prog.read fun db => db.work.task? task with
          | none => recoverWait host next start i d execs
          | some t => do
              match ← recoverableTaskStatus host next fuel task t.status exec.status with
              | none => recoverWait host next start i d execs
              | some status => do
                  let spoken ← Prog.read fun db => db.work.completedTaskOutput task
                  ignore (onExecutionTaskCompleted host next exec task status
                    (exec.output.getD spoken) exec.continuationAttemptId)

/-- An instance whose graph has started and stands at a parallel or a command step. -/
def recoverPosition (host : Host) (next : StepFn) (fuel : ℕ) (i : Instance)
    (execs : List Execution) : Run Bool :=
  if i.sourceTaskId.isNone || execs.any (fun e => e.stepId ≠ sourceTaskStepId) then do
    let parallel ← recoverParallel host next fuel i
    if parallel then pure true else recoverCommandExecution host next i
  else pure false

/-- `recover` for one instance. -/
def recoverInstance (host : Host) (next : StepFn) (start : ℕ → Json → Run Unit) (fuel : ℕ)
    (i : Instance) : Run Unit := do
  let execs ← listStepExecutions i.id
  let handled ← recoverPosition host next fuel i execs
  if handled then pure ()
  else match execs.reverse.find? fun e => e.status = .resuming with
    | some exec => ignore (finishWaitExecution host.toEnv next start exec.id)
    | none =>
        match execs.reverse.find? fun e => e.status = .running || e.status = .waitingForIdle with
        | some exec => recoverCurrent host next fuel i exec
        | none => recoverSettled host next start fuel i execs

/-- `recover`. -/
def recover (host : Host) (next : StepFn) (start : ℕ → Json → Run Unit) (fuel : ℕ) : Run Unit := do
  let running ← listRunningInstances
  Prog.forEach running (recoverInstance host next start fuel)

/-! ## Cancelling and attaching -/

/-- The running continuation of an instance that reuses its source task. -/
def runningContinuation (db : Db) (i : Instance) : Option Execution :=
  if i.status.active then
    (((db.executions.filter fun e => e.instanceId = i.id && e.status = .running &&
      e.taskId.isSome && e.taskId = i.sourceTaskId && e.stepId ≠ sourceTaskStepId).insertionSort
        fun a b => a.startedAt ≤ b.startedAt).getLast?)
  else none

/-- The source gate of an instance that owns a continuation is terminal. -/
def checkGate (db : Db) (inst : ℕ) : Except Err Unit :=
  match db.executions.find? fun e => e.instanceId = inst && e.stepId = sourceTaskStepId with
  | none => .error (.workflow
      s!"workflow continuation in instance '{inst}' has no source gate")
  | some gate => require gate.status.terminal
      s!"workflow continuation in instance '{inst}' has non-terminal source gate '{gate.status.name}'"

/-- A cancelled instance stops its running and resuming executions, those of its
source task apart, and gives up its continuations. -/
def cancelRow (i : Instance) (e : Execution) : Execution :=
  if e.instanceId = i.id then
    if (e.status = .running ∨ e.status = .resuming) ∧
        (e.taskId = none ∨ e.taskId ≠ i.sourceTaskId) then
      { e with status := .cancelled, continuationAttemptId := none }
    else { e with continuationAttemptId := none }
  else e

/-- `cancel_instance`, less the recording of events. -/
def cancelInstance (host : Host) (inst : ℕ) : Run Unit :=
  update fun db => match db.instance? inst with
    | none => .error (.instanceNotFound inst)
    | some i => do
        let attempt := (runningContinuation db i).bind Execution.continuationAttemptId
        checkOption (fun _ => checkGate db inst) attempt
        let owned := db.executions.filter fun e => e.instanceId = inst && e.status = .running &&
          e.taskId.isSome && e.taskId ≠ i.sourceTaskId
        let db := db.setWork (host.cancelAttempts attempt
          (owned.filterMap Execution.taskId) db.work)
        let db := { db with executions := db.executions.map (cancelRow i) }
        .ok (db.setInstance inst fun i => { i with status := .cancelled, errorMessage := none })

/-- `attach_default_workflow_to_task`. -/
def attachDefaultWorkflow (env : Env) (next : StepFn) (workflow : ℕ) (task : Task) :
    Run Unit := do
  let found ← Prog.read fun db => db.instances.find? fun i =>
    i.workflowId = workflow && i.sourceTaskId = some task.id
  match found with
  | some _ => pure ()
  | none => do
      let _ ← startInstanceInContext env next workflow (.obj [])
        ⟨task.projectId, task.conversationId⟩ none (some task) none
      pure ()

/-- `attach_default_workflows_to_task`. -/
def attachDefaultWorkflows (env : Env) (next : StepFn) (id : ℕ) : Run Unit := do
  let task ← TaskBoard.get id
  if task.hidden ∨ task.taskType ≠ "normal" ∨ task.nativePlan ∨ task.origin = some "workflow" ∨
      task.origin = some "xpress_ai_connect" ∨ task.agentId.isNone then pure ()
  else do
    let defaults ← Prog.read fun db =>
      (db.workflows.filter fun w => w.enabled && w.defaultForTasks).insertionSort
        fun a b => a.createdAt ≤ b.createdAt
    Prog.forEach (defaults.filter fun w => w.projectId.all fun p => task.projectId = some p)
      fun w => ignore (attachDefaultWorkflow env next w.id task)

/-! ## Everything that can happen -/

/-- A change from outside the engine.  None of these touches the columns the control
flow is read from. -/
inductive External where
  /-- Tasks, queue, attempts, messages, agents, projects and conversations change. -/
  | work (f : Work → Work)
  | clock (now : ℕ)
  /-- `adopt_waiting_workflow_continuation` on behalf of a user's message. -/
  | adopt (exec attempt : ℕ)
  /-- `set_context` of an instance. -/
  | context (inst : ℕ) (project conversation : Option String)

/-- The change as a transaction. -/
def External.apply (x : External) (db : Db) : Db :=
  match x with
  | .work f => db.setWork (f db.work)
  | .clock now => { db with clock := now }
  | .adopt exec attempt => db.setExecution exec fun e =>
      { e with continuationAttemptId := e.continuationAttemptId.map fun _ => attempt }
  | .context inst project conversation => db.setInstance inst fun i =>
      { i with projectId := project, conversationId := conversation }

/-- The calls that the rest of the program makes. -/
inductive Op where
  | createWorkflow (name : String) (description : Option String) (yaml : String) (d : Definition)
  | updateWorkflow (id : ℕ) (yaml : String) (d : Definition)
  | setEnabled (id : ℕ) (enabled : Bool)
  | setDefaultForTasks (id : ℕ) (defaultForTasks : Bool)
  | updateForAgent (id : ℕ) (agent : String) (revision : ℕ) (yaml : Option (String × Definition))
      (enabled : Option Bool)
  | importWorkflows (project : String) (workflows : List PortableWorkflow)
  | checkScheduled (now : ℕ)
  | start (workflow : ℕ) (trigger : Json) (context : WorkflowContext) (creator : Option String)
  | attachDefaults (task : ℕ)
  | taskCompleted (task : ℕ) (status output : String)
  | attemptCompleted (task attempt : ℕ) (status output : String)
  | resumeWait (exec : ℕ) (payload : Json)
  | timeoutWait (exec : ℕ)
  | recover
  | cancel (inst : ℕ)
  | beginCommand (exec : ℕ)
  | saveResult (exec : ℕ) (result : CommandResult)
  | external (x : External)

/-- A call as a program, its recursion cut off at `fuel`. -/
def Op.prog (host : Host) (fuel : ℕ) (op : Op) : Run Unit :=
  let env := host.toEnv
  let next := executeStep host fuel
  let start := startInstance env next
  match op with
  | .createWorkflow name description yaml d =>
      XpressClaw.createWorkflow env name description yaml d
  | .updateWorkflow id yaml d => XpressClaw.updateWorkflow env id yaml d
  | .setEnabled id enabled => XpressClaw.setEnabled env id enabled
  | .setDefaultForTasks id defaultForTasks => XpressClaw.setDefaultForTasks env id defaultForTasks
  | .updateForAgent id agent revision yaml enabled =>
      XpressClaw.updateForAgent env id agent revision yaml enabled
  | .importWorkflows project workflows => XpressClaw.importWorkflows env project workflows
  | .checkScheduled now => checkScheduledWorkflows env next now
  | .start workflow trigger context creator => do
      let _ ← startInstanceInContext env next workflow trigger context creator none none
      pure ()
  | .attachDefaults task => attachDefaultWorkflows env next task
  | .taskCompleted task status output => onTaskCompleted host next task status output
  | .attemptCompleted task attempt status output =>
      onAttemptCompleted host next task attempt status output
  | .resumeWait exec payload => resumeWaitExecution env next start exec payload
  | .timeoutWait exec => timeoutWaitExecution env next start exec
  | .recover => XpressClaw.recover host next start fuel
  | .cancel inst => cancelInstance host inst
  | .beginCommand exec => do
      let _ ← XpressClaw.beginCommand exec
      pure ()
  | .saveResult exec result => XpressClaw.saveResult exec result
  | .external x => Prog.write x.apply

end XpressClaw
