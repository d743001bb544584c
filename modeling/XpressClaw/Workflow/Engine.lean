import XpressClaw.Workflow.Instances

/-!
# The workflow engine: executing steps

`engine.rs` and `parallel.rs` up to the point where a step waits for the outside
world: `execute_step` and the nine kinds of steps it dispatches on, gotos, loops,
and starting an instance.

`execute_step` calls itself through `when`, `sink`, `loop` and `jump` steps, and
starts other workflows.  Each function below takes the recursive call as an argument
(`next`), and `executeStep` closes the knot with fuel: with none left it `stall`s,
which no handler catches, so a statement about every amount of fuel is a statement
about every finite part of the source's execution.
-/

namespace XpressClaw

open Lib InstanceManager

/-- Maximum number of times a single step can be executed within one instance. -/
def maxCycles : ℕ := 10

/-- The type of `execute_step`: instance, flow, index, definition, trigger data and
variables. -/
abbrev StepFn := ℕ → String → ℕ → Definition → Json → Vars → Run Unit

/-! ## Task outputs -/

/-- `str::split` on a string. -/
def splitSub (p : List Char) : ℕ → List Char → List (List Char)
  | 0, cs => [cs]
  | fuel + 1, cs => match Context.findSub p cs with
      | none => [cs]
      | some (before, rest) => before :: splitSub p fuel rest

/-- `step_by(2)`. -/
def everyOther {α : Type} : List α → List α
  | [] => []
  | [a] => [a]
  | a :: _ :: rest => a :: everyOther rest

/-- A fenced block without its language tag. -/
def stripLanguage (block : List Char) : List Char :=
  if "json".toList.isPrefixOf block then block.drop 4
  else if "JSON".toList.isPrefixOf block then block.drop 4
  else block

/-- The text from the first `opening` to the last `closing` character. -/
def bracketed (opening closing : Char) (cs : List Char) : Option (List Char) :=
  let start := (cs.takeWhile (· ≠ opening)).length
  let stop := cs.length - (cs.reverse.takeWhile (· ≠ closing)).length
  if start < cs.length ∧ start + 1 < stop then some ((cs.take stop).drop start) else none

/-- `parse_task_output`. -/
def parseTaskOutput (env : Env) (output : String) : Json :=
  let trimmed := (Text.trim output).toList
  let blocks := everyOther ((splitSub "```".toList (trimmed.length + 1) trimmed).drop 1)
  let candidates := [trimmed] ++
    blocks.map (fun b => (Text.trim (String.ofList (stripLanguage b))).toList) ++
    [('\x7b', '\x7d'), ('[', ']')].filterMap fun p => bracketed p.1 p.2 trimmed
  (candidates.findSome? fun c => env.parseJson (String.ofList c)).getD (.str output)

/-- What a finished step contributes to the variables: the declared outputs of an
object, or the value under `output`. -/
def stepValue (step : Option Step) (value : Json) : Json :=
  match value with
  | .obj fields => match step.bind Step.outputs with
      | some names => .obj (fields.filter fun f => f.1 ∈ names)
      | none => value
  | _ => .obj [("output", value)]

/-! ## Control-flow lookups -/

/-- A lookup of the control flow that fails with the given message. -/
def lookup {α : Type} (found : Option α) (message : String) : Run α :=
  match found with
  | some a => pure a
  | none => do
      record (.notFound message)
      Prog.fail (.workflow message)

/-- `advance_to_next`. -/
def advanceToNext (next : StepFn) : StepFn := fun inst flow index d trigger vars =>
  next inst flow (index + 1) d trigger vars

/-- `resolve_goto`.  `start` starts another workflow. -/
def resolveGoto (next : StepFn) (start : ℕ → Json → Run Unit) (inst : ℕ) (target flow : String)
    (d : Definition) (trigger : Json) (vars : Vars) : Run Unit := do
  record (.goto d flow target)
  match Text.splitWhitespace target with
  | ["step", stepId] => do
      let index ← lookup (d.stepIndex flow stepId)
        s!"goto target step '{stepId}' not found in flow '{flow}'"
      next inst flow index d trigger vars
  | ["flow", fname] => do
      setCurrentPosition inst fname 0
      next inst fname 0 d trigger vars
  | ["flow", fname, "step", stepId] => do
      let index ← lookup (d.stepIndex fname stepId)
        s!"goto target step '{stepId}' not found in flow '{fname}'"
      next inst fname index d trigger vars
  | ["workflow", name] => do
      let found ← Prog.read fun db =>
        ((db.workflows.insertionSort fun a b => b.createdAt ≤ a.createdAt).find?
          fun w => w.name = name).map WorkflowRecord.id
      match found with
      | some id => (start id trigger).bind fun _ => completeInstance inst
      | none => completeInstance inst
  | _ => lookup none s!"invalid goto target: '{target}'"

/-! ## Task steps -/

/-- `resolve_step_agent`. -/
def resolveStepAgent (env : Env) (step : Step) (ctx : Json) : Run String :=
  match (step.agent.map Text.trim).filter fun a => a ≠ "" with
  | none => Prog.fail (.workflow s!"step '{step.id}' has no agent")
  | some configured =>
      let rendered := Context.renderTemplate env configured ctx
      if Text.startsWith rendered "@" ∨ Text.contains rendered "\x7b\x7b" ∨
          Text.isBlank rendered then
        Prog.fail (.workflow
          s!"step '{step.id}' could not resolve agent binding '{configured}'")
      else pure rendered

/-- A task that is not yet visible to the dispatcher. -/
structure PreparedTask where
  taskId : ℕ
  agentId : String

/-- `prepare_task_step`: create the task of a step without dispatching it. -/
def prepareTaskStep (env : Env) (inst : ℕ) (step : Step) (ctx : Json) : Run PreparedTask := do
  let agentId ← resolveStepAgent env step ctx
  let row ← getInstance inst
  let belongs ← Prog.read fun db => row.projectId.all fun p =>
    (db.work.agent? agentId).any fun a => a.projectId = some p
  if belongs then do
    let prompt := match step.prompt with
      | some template => Context.renderTemplate env template ctx
      | none => s!"Execute workflow step: {step.id}"
    let taskId ← TaskBoard.create step.id (some prompt) agentId row.conversationId row.projectId
      (some "workflow")
    pure ⟨taskId, agentId⟩
  else
    let project := row.projectId.getD ""
    Prog.fail (.workflow
      s!"workflow step '{step.id}' uses Agent '{agentId}' outside project '{project}'")

/-- `dispatch_task_step`: a task that cannot be queued fails its execution. -/
def dispatchTaskStep (step : Step) (prepared : PreparedTask) (exec : Execution) : Run Unit := do
  match ← (TaskQueue.ensureEnqueued prepared.taskId prepared.agentId).attempt with
  | .ok _ => pure ()
  | .error e => do
      ignore (TaskBoard.updateStatus prepared.taskId .blocked)
      ignore (updateStepStatus exec.id .failed (some e.text))
      Prog.fail (.workflow
        s!"failed to enqueue workflow step '{step.id}' for agent '{prepared.agentId}': {e.text}")

/-- `execute_task_step`. -/
def executeTaskStep (env : Env) (inst : ℕ) (flow : String) (step : Step) (ctx : Json) :
    Run Unit := do
  let prepared ← prepareTaskStep env inst step ctx
  let exec ← createTaskExecution inst flow step.id prepared.taskId
  dispatchTaskStep step prepared exec

/-- `execute_continue_step`. -/
def executeContinueStep (host : Host) (inst : ℕ) (flow : String) (step : Step) (ctx : Json) :
    Run Unit := do
  let row ← getInstance inst
  match row.sourceTaskId with
  | none => Prog.fail (.workflow
      s!"continue step '{step.id}' requires a default workflow attached to a task")
  | some task =>
      let prompt := Context.renderTemplate host.toEnv (step.prompt.getD "") ctx
      if Text.isBlank prompt then do
        let message := s!"continue step '{step.id}' rendered an empty prompt"
        updateStatus inst .failed (some message)
        Prog.fail (.workflow message)
      else do
        let _ ← createContinuationExecution host inst flow step.id task prompt
        pure ()

/-- Insert the executions of the branches of a parallel step, in order. -/
def insertBranches (inst : ℕ) (flow : String) (parent : ℕ) :
    List (Step × PreparedTask) → Db → Except Err (List ℕ × Db)
  | [], db => .ok ([], db)
  | (branch, prepared) :: rest, db => do
      let (id, db) ← createTaskExecutionInTransaction db inst flow branch.id prepared.taskId
      let db := db.setExecution id fun e => { e with parentExecutionId := some parent }
      let (ids, db) ← insertBranches inst flow parent rest db
      .ok (id :: ids, db)

/-- The transaction that publishes a parallel group: the parent, which becomes the
instance's current execution, and one execution for each branch. -/
def publishGroup (inst : ℕ) (flow stepId : String) (branches : List (Step × PreparedTask))
    (db : Db) : Except Err (List ℕ × Db) := do
  db.instanceAcceptsWork inst
  let parent := db.nextId
  let db := db.insertExecution fun id startedAt =>
    { id, instanceId := inst, flowName := flow, stepId, status := .running, startedAt }
  let db := db.setInstance inst fun i => { i with currentExecutionId := some parent }
  insertBranches inst flow parent branches db

/-- `execute_parallel_step`. -/
def executeParallelStep (env : Env) (inst : ℕ) (flow : String) (step : Step) (ctx : Json) :
    Run Unit := do
  let prepared ← Prog.collect step.body fun branch => prepareTaskStep env inst branch ctx
  let branches := step.body.zip prepared
  let ids ← Prog.tx (publishGroup inst flow step.id branches)
  Prog.forEach (branches.zip ids) fun b => do
    let exec ← getStepExecution b.2
    dispatchTaskStep b.1.1 b.1.2 exec

/-! ## Waits -/

/-- The characters of a text without trailing copies of a word. -/
def trimEndMatches (c : Char) (s : String) : String :=
  String.ofList (s.toList.reverse.dropWhile (· == c)).reverse

/-- `strip_prefix`. -/
def stripPrefix? (p s : String) : Option String :=
  if Text.startsWith s p then some (String.ofList (s.toList.drop p.toList.length)) else none

/-- `str::parse::<u64>` succeeds. -/
def parsesU64 (s : String) : Bool :=
  let digits := match s.toList with
    | '+' :: ds => ds
    | ds => ds
  !digits.isEmpty && digits.all Char.isDigit &&
    digits.foldl (fun acc c => acc * 10 + (c.toNat - '0'.toNat)) 0 < 2 ^ 64

/-- `validate_resource`. -/
def validateResource (event resource : String) : Except Err Unit :=
  if Text.startsWith event "github.pull_request." then
    let value := trimEndMatches '/' (Text.trim resource)
    let path := ((stripPrefix? "https://github.com/" value).or
      (stripPrefix? "http://github.com/" value)).getD value
    match Text.splitChar '/' path with
    | [owner, repo, "pull", number] =>
        if !parsesU64 number then
          .error (.workflow s!"invalid GitHub pull-request URL '{value}'")
        else require (owner ≠ "" ∧ repo ≠ "")
          s!"wait resource must be a GitHub pull-request URL, got '{value}'"
    | _ => .error (.workflow s!"wait resource must be a GitHub pull-request URL, got '{value}'")
  else .ok ()

/-- A number with leading zeros up to twenty digits. -/
def padTwenty (s : String) : String := String.ofList (List.replicate (20 - s.length) '0') ++ s

/-- `activity_cursor_from_parts`. -/
def activityCursorFromParts (env : Env) (kind : String) (id : Json) : String :=
  let text := match id with
    | .num q => if 0 ≤ q ∧ q.den = 1 ∧ q.num < 2 ^ 64 then padTwenty (toString q.num)
        else env.renderJson (.num q)
    | .str s => s
    | .null => "unknown"
    | v => env.renderJson v
  s!"{kind}:{text}"

/-- The time from which a repeated or first wait looks for activity, in
milliseconds: the previous event, else the start of the last completed task step,
else the start of the instance. -/
def waitBoundary (env : Env) (inst : ℕ) (previous : Option Json) : Run ℤ := do
  match ((previous.bind (Json.get? "created_at")).bind Json.asStr).bind env.parseRfc3339 with
  | some time => pure time
  | none => do
      let execs ← listStepExecutions inst
      match execs.reverse.find? fun e => e.taskId.isSome && e.status = .completed with
      | some e => pure (e.startedAt * 1000)
      | none => do
          let row ← Prog.read fun db => db.instance? inst
          pure (match row with
            | some i => i.startedAt * 1000
            | none => (env.now : ℤ) * 1000 - 300000)

/-- The resource a wait step watches, rendered and checked. -/
def waitResource (env : Env) (step : Step) (event : String) (ctx : Json) : Except Err String :=
  let resource := Context.renderTemplate env (Text.trim (step.resource.getD "")) ctx
  if Text.startsWith resource "@" ∨ Text.contains resource "\x7b\x7b" ∨
      Text.isBlank resource then
    let configured := step.resource.getD ""
    .error (.workflow
      s!"wait step '{step.id}' could not resolve resource '{configured}'")
  else do
    validateResource event resource
    .ok resource

/-- The cursor after which a repeated wait looks for activity. -/
def waitCursor (env : Env) (previous : Option Json) : Option String :=
  ((previous.bind (Json.get? "cursor")).bind Json.asStr).or do
    let p ← previous
    let kind ← (p.get? "kind").bind Json.asStr
    let id ← p.get? "id"
    pure (activityCursorFromParts env kind id)

/-- The timeout of a wait step, in seconds. -/
def waitTimeout (env : Env) (step : Step) : Except Err (Option ℤ) :=
  match step.timeout with
  | some t => (parseWaitDuration env t).map some
  | none => .ok none

/-- `execute_wait_step`. -/
def executeWaitStep (env : Env) (inst : ℕ) (flow : String) (step : Step) (ctx : Json) :
    Run Unit := do
  let agentId ← resolveStepAgent env step ctx
  let event := Text.trim (step.event.getD "")
  let resource ← Prog.ret (waitResource env step event ctx)
  let previous := (ctx.get? step.id).filter Json.isObject
  let startedAt ← waitBoundary env inst previous
  let timeout ← Prog.ret (waitTimeout env step)
  let _ ← createAgentWaitExecution inst flow step.id
    { event, resource, agentId, startedAt, afterCursor := waitCursor env previous
      timeoutAt := timeout.map fun s => (env.now + s) * 1000 }
  pure ()

/-! ## Steps that go on at once -/

/-- `execute_sink_step`.  Delivery itself is outside the database. -/
def executeSinkStep (next : StepFn) (inst : ℕ) (flow : String) (index : ℕ) (step : Step)
    (d : Definition) (trigger : Json) (vars : Vars) : Run Unit := do
  let exec ← createStepExecution inst flow step.id
  updateStepStatus exec.id .completed (some "sink delivered")
  advanceToNext next inst flow index d trigger vars

/-- The arm a `when` step takes: the first that matches, else the last default. -/
def matchingArm (value : String) : List WhenArm → Option WhenArm → Option WhenArm
  | [], default_ => default_
  | arm :: arms, default_ =>
      let matchValue := arm.matchValue.getD ""
      if matchValue = "default" then matchingArm value arms (some arm)
      else if Condition.evaluateMatch matchValue value then some arm
      else matchingArm value arms default_

/-- `execute_when_step`. -/
def executeWhenStep (env : Env) (next : StepFn) (start : ℕ → Json → Run Unit) (inst : ℕ)
    (flow : String) (index : ℕ) (step : Step) (d : Definition) (trigger : Json) (vars : Vars)
    (ctx : Json) : Run Unit := do
  let resolved ← Prog.ret (Condition.switchValue env (step.switchVar.getD "") ctx)
  let value := match resolved with
    | some (.str s) => s
    | some v => env.renderJson v
    | none => ""
  let exec ← createStepExecution inst flow step.id
  updateStepStatus exec.id .completed (some value)
  match matchingArm value (step.arms.getD []) none with
  | some ⟨_, continueFlow, some target⟩ =>
      if continueFlow.getD false then advanceToNext next inst flow index d trigger vars
      else resolveGoto next start inst target flow d trigger vars
  | _ => advanceToNext next inst flow index d trigger vars

/-- `execute_jump_step`. -/
def executeJumpStep (next : StepFn) (start : ℕ → Json → Run Unit) (inst : ℕ) (flow : String)
    (step : Step) (d : Definition) (trigger : Json) (vars : Vars) : Run Unit := do
  let target := step.target.getD ""
  let exec ← createStepExecution inst flow step.id
  updateStepStatus exec.id .completed (some target)
  resolveGoto next start inst target flow d trigger vars

/-- `complete_loop`. -/
def completeLoop (env : Env) (next : StepFn) (inst : ℕ) (state : LoopState) (d : Definition)
    (trigger : Json) (vars : Vars) : Run Unit := do
  saveVariableStore inst vars
  updateLoopState inst none
  updateStepStatus state.parentExecutionId .completed
    (some (env.renderJson (.obj [("iterations", .num state.items.length)])))
  advanceToNext next inst state.flowName state.stepIndex d trigger vars

/-- The cursor after a finished body: the next item, at the first body step. -/
def LoopState.normalize (state : LoopState) (bodyLength : ℕ) : LoopState :=
  if bodyLength ≤ state.bodyIndex then
    { state with itemIndex := state.itemIndex + 1, bodyIndex := 0 }
  else state

/-- The body step under the cursor is created, linked to the cursor and
dispatched. -/
def runLoopBody (env : Env) (inst : ℕ) (state : LoopState) (bodyStep : Step) (item : Json)
    (d : Definition) (trigger : Json) (vars : Vars) : Run Unit := do
  let vars := Vars.insert vars state.asVar item
  saveVariableStore inst vars
  updateLoopState inst (some state)
  let ctx := Context.buildContext trigger d.globals vars
  let prepared ← prepareTaskStep env inst bodyStep ctx
  let exec ← createLoopTaskExecution inst state.flowName bodyStep.id prepared.taskId state
  dispatchTaskStep bodyStep prepared exec

/-- `continue_loop`. -/
def continueLoop (env : Env) (next : StepFn) (inst : ℕ) (state : LoopState) (d : Definition)
    (trigger : Json) (vars : Vars) : Run Unit := do
  let loopStep ← lookup (d.findStep state.flowName state.stepId)
    s!"loop step '{state.stepId}' not found"
  if state.items.isEmpty ∨ loopStep.body.isEmpty then
    completeLoop env next inst state d trigger vars
  else
    let state := state.normalize loopStep.body.length
    match state.items[state.itemIndex]?, loopStep.body[state.bodyIndex]? with
    | some item, some bodyStep => runLoopBody env inst state bodyStep item d trigger vars
    | _, _ => completeLoop env next inst state d trigger (Vars.erase vars state.asVar)

/-- `execute_loop_step`. -/
def executeLoopStep (env : Env) (next : StepFn) (inst : ℕ) (flow : String) (index : ℕ)
    (step : Step) (d : Definition) (trigger : Json) (vars : Vars) (ctx : Json) : Run Unit := do
  let items := match Context.resolveVariable (step.overVar.getD "") ctx with
    | some (.arr items) => items
    | some item => [item]
    | none => []
  let exec ← createStepExecution inst flow step.id
  markStepRunning exec.id
  continueLoop env next inst
    { parentExecutionId := exec.id, stepId := step.id, flowName := flow, stepIndex := index
      items, itemIndex := 0, bodyIndex := 0, asVar := step.asVar.getD "item" } d trigger vars

/-! ## Executing a position -/

/-- The step kinds of `execute_step_inner`, once the position is saved. -/
def executeKind (host : Host) (next : StepFn) (start : ℕ → Json → Run Unit) (inst : ℕ)
    (flow : String) (index : ℕ) (step : Step) (d : Definition) (trigger : Json) (vars : Vars) :
    Run Unit :=
  let env := host.toEnv
  let ctx := Context.buildContext trigger d.globals vars
  match step.stepType with
  | .parallel => executeParallelStep env inst flow step ctx
  | .continue_ => executeContinueStep host inst flow step ctx
  | .wait => executeWaitStep env inst flow step ctx
  | .sink => executeSinkStep next inst flow index step d trigger vars
  | .when => executeWhenStep env next start inst flow index step d trigger vars ctx
  | .loop => executeLoopStep env next inst flow index step d trigger vars ctx
  | .jump => executeJumpStep next start inst flow step d trigger vars
  | .step | .command | .other _ => executeTaskStep env inst flow step ctx

/-- `execute_step_inner`. -/
def executeStepInner (host : Host) (next : StepFn) (start : ℕ → Json → Run Unit) : StepFn :=
  fun inst flow index d trigger vars => do
    let f ← lookup (d.flow? flow) s!"flow '{flow}' not found in workflow"
    match f.steps[index]? with
    | none => completeInstance inst
    | some step => do
        let attempts ← getStepAttemptCount inst step.id
        if maxCycles ≤ attempts then do
          let message := s!"step '{step.id}' exceeded max cycles ({maxCycles})"
          updateStatus inst .failed (some message)
          Prog.fail (.workflow message)
        else do
          setCurrentPosition inst flow index
          executeKind host next start inst flow index step d trigger vars

/-- The error handler of `execute_step`: an active instance becomes failed, and the
error goes on to the caller. -/
def failOnError (inst : ℕ) (p : Run Unit) : Run Unit := do
  match ← p.attempt with
  | .ok _ => pure ()
  | .error e => do
      match ← Prog.read fun db => db.instance? inst with
      | some i =>
          if i.status.active then do
            ignore (updateStatus inst .failed (some e.text))
            Prog.fail e
          else Prog.fail e
      | none => Prog.fail e

/-! ## Starting an instance -/

/-- `WorkflowContext`. -/
structure WorkflowContext where
  projectId : Option String := none
  conversationId : Option String := none

/-- Order of agent bindings. -/
abbrev bindingLe (a b : String × String) : Prop := a.1 < b.1 ∨ (a.1 = b.1 ∧ a.2 ≤ b.2)

/-- What a new instance is made of, and how its transaction ends. -/
structure NewInstance where
  workflowId : ℕ
  context : WorkflowContext
  creator : Option String
  bindings : List (String × String)
  source : Option Task
  startFlow : String
  trigger : Json
  vars : Vars
  definition : Definition
  /-- The record and time of a scheduled occurrence. -/
  occurrence : Option (WorkflowRecord × String)

/-- One bound agent of a run: in the run's project, or in a project that accepts
work. -/
def checkBinding (db : Db) (project : Option String) (source agent : String) (row : Agent) :
    Except Err Unit :=
  match project with
  | some p => require (row.projectId = some p)
      s!"workflow {source} references Agent '{agent}' outside project '{p}'"
  | none => checkOption db.workflowProject row.projectId

/-- The checks on the agents a run is bound to, in the transaction that inserts
it: the bindings to keep. -/
def checkBindings (db : Db) (project : Option String) :
    List (String × String) → Except Err (List (String × String))
  | [] => .ok []
  | (source, agent) :: rest =>
      match db.work.agent? agent with
      | none => .error (.workflow s!"workflow {source} references unknown agent '{agent}'")
      | some row => do
          checkBinding db project source agent row
          let more ← checkBindings db project rest
          .ok ((row.projectId.map fun p => (agent, p)).toList ++ more)

/-- Whether a schedule starts only once. -/
def Schedule.once (s : Schedule) : Bool := s.runAt.isSome

/-- The row of a workflow after an occurrence was claimed. -/
def WorkflowRecord.triggered (once : Bool) (triggeredAt : String) (w : WorkflowRecord) :
    WorkflowRecord :=
  { w with
    lastTriggeredAt := some triggeredAt
    revision := w.revision + 1
    enabled := w.enabled && !once }

/-- The `UPDATE` of a claim; a one-shot schedule is switched off. -/
def Db.trigger (db : Db) (seen : WorkflowRecord) (triggeredAt : String) : Db :=
  let once := seen.definition.schedule.any Schedule.once
  { db with
    workflows := Table.modify WorkflowRecord.id seen.id (WorkflowRecord.triggered once triggeredAt)
      db.workflows }

/-- Claim a scheduled occurrence for an instance: the record must not have changed since
it was read. -/
def claimOccurrence (db : Db) (inst : ℕ) (seen : WorkflowRecord) (triggeredAt : String) :
    Except Err Db :=
  match db.workflow? seen.id with
  | some w =>
      if w.enabled ∧ w.revision = seen.revision ∧ w.lastTriggeredAt = seen.lastTriggeredAt then
        .ok ((db.trigger seen triggeredAt).note
          (.scheduled seen.id seen.revision seen.lastTriggeredAt inst))
      else .error .scheduleChanged
  | none => .error .scheduleChanged

/-- The project of a new instance: the one asked for, which must be the
conversation's if that has one. -/
def resolveProject (db : Db) (c : WorkflowContext) : Except Err (Option String) :=
  match c.conversationId with
  | none => .ok c.projectId
  | some conversation => match db.work.conversation? conversation with
      | none => .error (.workflow s!"conversation '{conversation}' not found")
      | some row => match c.projectId, row.projectId with
          | some requested, some actual =>
              if requested = actual then .ok (some requested)
              else .error (.workflow
                s!"conversation '{conversation}' belongs to project '{actual}', not '{requested}'")
          | requested, actual => .ok (requested.or actual)

/-- The row of a new instance. -/
def NewInstance.row (n : NewInstance) (project : Option String) (id startedAt : ℕ) : Instance :=
  { id, workflowId := n.workflowId, projectId := project
    conversationId := n.context.conversationId, sourceTaskId := n.source.map Task.id
    currentStepIndex := if n.source.isSome then -1 else 0, triggerData := n.trigger
    variableStore := n.vars, definition := some n.definition, startedAt }

/-- Insert a new instance and its agent bindings. -/
def NewInstance.insert (n : NewInstance) (project : Option String)
    (bindings : List (String × String)) (db : Db) : Db :=
  { db with
    instances := db.instances ++ [n.row project db.nextId db.clock]
    bindings := db.bindings ++ (bindings.map fun b => (db.nextId, b.1, b.2)).dedup
    nextId := db.nextId + 1 }

/-- The source gate of a new instance, if it has a source task. -/
def insertGate (db : Db) (inst : ℕ) (flow : String) : Option Task → Except Err Db
  | none => .ok db
  | some task => do
      let (_, db) ← createTaskExecutionInTransaction db inst flow sourceTaskStepId task.id
      .ok db

/-- What the caller of `create_instance` does in its transaction. -/
def afterInsert (db : Db) (inst : ℕ) : Option (WorkflowRecord × String) → Except Err Db
  | none => .ok db
  | some (seen, triggeredAt) => claimOccurrence db inst seen triggeredAt

/-- `create_instance_with_definition_in_context_and_then`. -/
def createInstance (n : NewInstance) : Run ℕ :=
  Prog.tx fun db => do
    let project ← resolveProject db n.context
    checkOption db.workflowProject project
    checkOption (fun creator => match n.context.conversationId with
      | none => .error (.conversation "an Agent may only create work from a conversation")
      | some c =>
          if (db.work.conversation? c).any fun row => row.agents.contains creator then .ok ()
          else .error (.conversation
            s!"Agent '{creator}' is not a participant in conversation '{c}'")) n.creator
    let bindings ← checkBindings db project n.bindings
    if n.source.isSome ∧ db.instances.any fun i =>
        i.workflowId = n.workflowId && i.sourceTaskId = n.source.map Task.id then
      .error (.database "UNIQUE constraint failed: workflow_instances.workflow_id, workflow_instances.source_task_id")
    else do
      let id := db.nextId
      let db ← insertGate (n.insert project bindings db) id n.startFlow n.source
      let db ← afterInsert db id n.occurrence
      .ok (id, db)

/-- A workflow of a project runs in that project. -/
def ownerContext (w : WorkflowRecord) (c : WorkflowContext) : Except Err WorkflowContext :=
  match w.projectId with
  | none => .ok c
  | some p =>
      if c.projectId.all (· = p) then .ok { c with projectId := some p }
      else .error (.workflow "Workflow belongs to a different Project")

/-- The project of a run exists. -/
def ensureProject (project : Option String) : Run Unit :=
  match project with
  | none => pure ()
  | some p => do
      let found ← Prog.read fun db => db.work.projects.any fun row => row.id = p
      if found then pure () else Prog.fail (.workflow s!"project '{p}' not found")

/-- The agents named by the agent inputs of a run. -/
def inputBindings (d : Definition) (trigger : Json) : List (String × String) :=
  d.inputs.filterMap fun i =>
    if i.2.inputType = .agent then
      ((trigger.get? i.1).bind Json.asStr).map fun agent => (s!"input '{i.1}'", agent)
    else none

/-- Every bound agent exists, and belongs to the run's project if it has one. -/
def checkAgents (project : Option String) (bindings : List (String × String)) : Run Unit :=
  Prog.forEach bindings fun b => do
    let agent ← fetch (fun db => db.work.agent? b.2)
      (.workflow s!"workflow {b.1} references unknown agent '{b.2}'")
    match project with
    | some p =>
        if agent.projectId = some p then pure ()
        else Prog.fail (.workflow
          s!"workflow {b.1} references Agent '{b.2}' outside project '{p}'")
    | none => pure ()

/-- The variables a run starts with; a default run sees its source task. -/
def initialVariables (d : Definition) (source : Option Task) : Vars :=
  let text := fun (s : Option String) => match s with
    | some t => Json.str t
    | none => Json.null
  match source with
  | none => d.globals
  | some t => Vars.insert d.globals "source_task" (Json.ofFields [
      ("id", .num t.id), ("title", .str t.title), ("description", text t.description),
      ("agent_id", text t.agentId), ("project_id", text t.projectId),
      ("conversation_id", text t.conversationId), ("status", .str "running"), ("output", .null)])

/-- The flow a run starts in. -/
def startFlow (d : Definition) : Option String :=
  if (d.flow? "main").isSome then some "main" else d.flowNames.head?

/-- `start_instance_in_context_inner_with`. -/
def startInstanceInContext (env : Env) (next : StepFn) (workflowId : ℕ) (trigger : Json)
    (context : WorkflowContext) (creator : Option String) (source : Option Task)
    (occurrence : Option (WorkflowRecord × String)) : Run ℕ := do
  let w ← fetch (fun db => db.workflow? workflowId) (.workflowNotFound workflowId)
  let context ← Prog.ret (ownerContext w context)
  if source.isNone ∧ w.definition.continuesSourceTask then
    Prog.fail (.workflow
      "workflows with continue steps can only run when attached to a source task")
  else do
    let trigger ← Prog.ret (match source with
      | some task => w.definition.resolveDefaultTaskInputs task.agentId
      | none => w.definition.resolveInputs trigger)
    let project ← (Prog.read fun db => resolveProject db context).bind Prog.ret
    ensureProject project
    let context := { context with projectId := project }
    let initial := Context.buildContext trigger w.definition.globals []
    let (d, frozen, _) ← Prog.ret (w.definition.resolveAgentBindings env initial project.isNone)
    let bindings := ((frozen ++ inputBindings d trigger).insertionSort bindingLe).dedup
    checkAgents project bindings
    let flow ← Prog.orFail (.workflow "workflow has no flows") (startFlow d)
    let id ← createInstance
      { workflowId, context, creator, bindings, source, startFlow := flow, trigger
        vars := initialVariables d source, definition := d, occurrence }
    let row ← getInstance id
    match source with
    | some _ => pure row.id
    | none => do
        let vars ← loadVariableStore row.id
        next row.id flow 0 d trigger vars
        pure row.id

/-- `start_instance`, as a jump to another workflow calls it. -/
def startInstance (env : Env) (next : StepFn) (workflowId : ℕ) (trigger : Json) : Run Unit := do
  let _ ← startInstanceInContext env next workflowId trigger {} none none none
  pure ()

/-- `execute_step`, cut off at a depth of recursion. -/
def executeStep (host : Host) : ℕ → StepFn
  | 0 => fun _ _ _ _ _ _ => Prog.stall
  | fuel + 1 => fun inst flow index d trigger vars =>
      failOnError inst
        (executeStepInner host (executeStep host fuel)
          (startInstance host.toEnv (executeStep host fuel)) inst flow index d trigger vars)

end XpressClaw
