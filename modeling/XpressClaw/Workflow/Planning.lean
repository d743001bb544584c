import XpressClaw.Workflow.Engine

/-!
# Workflow records and the schedule runner

The transactions of `manager.rs`, `project_planning.rs` and the workflow part of a project
import, which edit a row of `workflows`, and the pass of `scheduler.rs`, which reads all
rows and then starts those that are due.  A pass holds the rows it has read while it works,
so each of them may be out of date by the time its occurrence is claimed.
-/

namespace XpressClaw

open Lib

/-- The texts of two schedules may differ where their values do not: inputs are compared
as maps. -/
def sameInputs (a b : Vars) : Bool :=
  a.length = b.length && a.all fun f => Vars.get? b f.1 = some f.2

/-- `PartialEq` of optional schedules. -/
def sameSchedule : Option Schedule → Option Schedule → Bool
  | none, none => true
  | some a, some b => a.cron = b.cron && a.runAt = b.runAt && sameInputs a.inputs b.inputs
  | _, _ => false

/-- The agent that stands for the agent of any source task. -/
def taskAgentSentinel : String := "__xpressclaw_source_task_agent__"

/-- `validate_default_task_trigger`. -/
def validateDefaultTaskTrigger (env : Env) (d : Definition) : Except Err Unit := do
  require (¬ ((d.input? "source_task").isSome ∨ (Vars.get? d.globals "source_task").isSome ∨
      d.flows.any fun f => (findStepInList "source_task" f.2.steps).isSome))
    "default task workflows reserve 'source_task' for the triggering task metadata"
  let inputs ← d.resolveDefaultTaskInputs (some taskAgentSentinel)
  checkAll (fun i => checkOption (fun agent => require (agent = taskAgentSentinel)
      s!"default task workflow agent input '{i.1}' resolves to Agent '{agent}'; use one primary agent input so it follows each source task's Project")
    (if i.2.inputType = .agent then (inputs.get? i.1).bind Json.asStr else none)) d.inputs
  let (_, bindings, _) ← d.resolveAgentBindings env (Context.buildContext inputs d.globals []) true
  checkOption (fun b => .error (.workflow
      s!"default task workflow {b.1} resolves to Agent '{b.2}'; use a primary agent input so it follows each source task's Project"))
    ((bindings.insertionSort bindingLe).find? fun b => b.2 ≠ taskAgentSentinel)

/-- The extra checks on a workflow that is attached to tasks. -/
def validateDefault (env : Env) (d : Definition) : Except Err Unit := do
  validateDefaultTaskTrigger env d
  require (d.usesConnectorAutomation = false)
    "default task workflows cannot use connector triggers or notification sinks"

/-! ## The manager -/

/-- `WorkflowManager::create`. -/
def createWorkflow (env : Env) (name : String) (description : Option String) (yaml : String)
    (d : Definition) : Run Unit := do
  Prog.ret (d.validate env)
  Prog.write fun db =>
    { db with
      workflows := db.workflows ++
        [{ id := db.nextId, name, description, yamlContent := yaml, definition := d
           version := d.version, createdAt := db.clock, updatedAt := env.dbTimestamp db.clock }]
      nextId := db.nextId + 1 }

/-- A row with a new definition.  A new schedule forgets when the old one last ran. -/
def WorkflowRecord.edited (yaml : String) (d : Definition) (updatedAt : String)
    (scheduleChanged : Bool) (w : WorkflowRecord) : WorkflowRecord :=
  { w with
    yamlContent := yaml
    definition := d
    name := d.name
    description := d.description
    version := d.version
    revision := w.revision + 1
    updatedAt
    lastTriggeredAt := if scheduleChanged then none else w.lastTriggeredAt }

/-- An `UPDATE` of one workflow by its id. -/
def editRow (id : ℕ) (g : Db → WorkflowRecord → WorkflowRecord) (db : Db) : Except Err Db :=
  match db.workflow? id with
  | none => .error (.workflowNotFound id)
  | some _ => .ok { db with workflows := Table.modify WorkflowRecord.id id (g db) db.workflows }

/-- `WorkflowManager::update`.  Whether the schedule changes is decided on a row read
before the write. -/
def updateWorkflow (env : Env) (id : ℕ) (yaml : String) (d : Definition) : Run Unit := do
  Prog.ret (d.validate env)
  let previous ← fetch (fun db => db.workflow? id) (.workflowNotFound id)
  Prog.ret (if previous.defaultForTasks then validateDefault env d else .ok ())
  update (editRow id fun db => WorkflowRecord.edited yaml d (env.dbTimestamp db.clock)
    !sameSchedule previous.definition.schedule d.schedule)

/-- `WorkflowManager::set_enabled`. -/
def setEnabled (env : Env) (id : ℕ) (enabled : Bool) : Run Unit :=
  update (editRow id fun db w =>
    { w with enabled, updatedAt := env.dbTimestamp db.clock, revision := w.revision + 1 })

/-- `WorkflowManager::set_default_for_tasks`. -/
def setDefaultForTasks (env : Env) (id : ℕ) (defaultForTasks : Bool) : Run Unit := do
  let record ← Prog.read fun db => db.workflow? id
  Prog.ret (if defaultForTasks then match record with
    | none => .error (.workflowNotFound id)
    | some w => validateDefault env w.definition
  else .ok ())
  update (editRow id fun db w =>
    { w with
      defaultForTasks
      revision := w.revision + 1
      enabled := defaultForTasks || w.enabled
      updatedAt := env.dbTimestamp db.clock })

/-! ## Editing by an agent -/

/-- `projects::agent_project`. -/
def callerProject (db : Db) (agent : String) : Except Err String :=
  match (db.work.agent? agent).bind Agent.projectId with
  | none => .error (.projectAccess "The calling Agent must belong to an active Project")
  | some project => (db.work.projectAcceptsWork project).map fun _ => project

/-- The inputs a definition is inspected with: those of its schedule, or its defaults. -/
def inspectedInputs (d : Definition) : Except Err Json :=
  match d.schedule with
  | some schedule => d.resolveInputs (Json.ofFields schedule.inputs)
  | none => .ok (Json.ofFields (d.inputs.filterMap fun i => i.2.default_.map fun v => (i.1, v)))

/-- `validate_project_definition`. -/
def validateProjectDefinition (env : Env) (db : Db) (project : String) (d : Definition) :
    Except Err Unit := do
  d.validate env
  require (¬ Text.isBlank d.name) "Workflow name must not be empty"
  require (d.usesConnectorAutomation = false)
    "Connector triggers and notification sinks are unavailable"
  let inputs ← inspectedInputs d
  let (_, bindings, _) ← d.resolveAgentBindings env (Context.buildContext inputs d.globals []) false
  let named := d.inputs.filterMap fun i =>
    if i.2.inputType = .agent then (inputs.get? i.1).bind Json.asStr else none
  checkAll (fun agent =>
    if (db.work.agent? agent).any fun a => a.projectId = some project then .ok ()
    else .error (.projectAccess
      "Workflow Agent was not found in the current Project; use list_project_agents for its ID"))
    (bindings.map Prod.snd ++ named)

/-- The checks of `update_for_agent` on the row it edits. -/
def checkOwned (w : WorkflowRecord) (project : String) (revision : ℕ) : Except Err Unit :=
  if w.projectId ≠ some project then .error (.projectAccess
    "Only workflows owned by the current Project can be edited; schedule a copy of a shared template")
  else require (w.revision = revision) "Workflow changed; reload its revision before editing"

/-- The check of the new definition; an agent may always switch a workflow off. -/
def checkEdit (env : Env) (db : Db) (project : String) (w : WorkflowRecord) (d : Definition)
    (edited : Bool) (enabled : Option Bool) : Except Err Unit :=
  if edited ∨ enabled ≠ some false then do
    validateProjectDefinition env db project d
    if w.defaultForTasks then validateDefaultTaskTrigger env d else .ok ()
  else .ok ()

/-- `update_for_agent`.  `yaml` is the new text with its definition, if one is given. -/
def updateForAgent (env : Env) (id : ℕ) (agent : String) (revision : ℕ)
    (yaml : Option (String × Definition)) (enabled : Option Bool) : Run Unit :=
  update fun db => do
    let project ← callerProject db agent
    match db.workflow? id with
    | none => .error (.workflowNotFound id)
    | some previous => do
        checkOwned previous project revision
        let (text, d) := yaml.getD (previous.yamlContent, previous.definition)
        checkEdit env db project previous d yaml.isSome enabled
        editRow id (fun db w =>
          { WorkflowRecord.edited text d (env.dbTimestamp db.clock)
              (!sameSchedule d.schedule previous.definition.schedule) w with
            enabled := enabled.getD previous.enabled }) db

/-! ## Project import -/

/-- A workflow of a portable snapshot. -/
structure PortableWorkflow where
  id : ℕ
  name : String
  description : Option String := none
  yamlContent : String
  definition : Definition
  version : ℕ
  createdAt : ℕ
  updatedAt : String
  projectOwned : Bool := false

/-- The checks of a snapshot on one workflow. -/
def PortableWorkflow.validate (env : Env) (p : PortableWorkflow) : Except Err Unit := do
  p.definition.validate env
  require (p.definition.name = p.name ∧ p.definition.version = p.version)
    s!"workflow '{p.id}' metadata does not match its YAML definition"

/-- Whether an import would change anything a snapshot carries. -/
def PortableWorkflow.differs (p : PortableWorkflow) (w : WorkflowRecord) : Bool :=
  w.name ≠ p.name || w.description ≠ p.description || w.yamlContent ≠ p.yamlContent ||
    w.version ≠ p.version || w.updatedAt ≠ p.updatedAt

/-- `import_workflows` for one workflow: a new one is inserted and stays switched off. -/
def importWorkflow (project : String) (db : Db) (p : PortableWorkflow) : Db :=
  match db.workflow? p.id with
  | none => { db with
      workflows := db.workflows ++
        [{ id := p.id, name := p.name, description := p.description, yamlContent := p.yamlContent
           definition := p.definition, enabled := false, version := p.version
           createdAt := p.createdAt, updatedAt := p.updatedAt
           projectId := if p.projectOwned then some project else none }]
      nextId := max db.nextId (p.id + 1) }
  | some previous =>
      if p.differs previous then { db with
        workflows := Table.modify WorkflowRecord.id p.id (fun w =>
          { w with
            name := p.name
            description := p.description
            yamlContent := p.yamlContent
            definition := p.definition
            version := p.version
            updatedAt := p.updatedAt
            revision := w.revision + 1
            lastTriggeredAt :=
              if sameSchedule previous.definition.schedule p.definition.schedule then
                w.lastTriggeredAt
              else none }) db.workflows }
      else db

/-- The workflows of an imported snapshot, in the transaction of the import. -/
def importWorkflows (env : Env) (project : String) (ps : List PortableWorkflow) : Run Unit := do
  Prog.ret (checkAll (PortableWorkflow.validate env) ps)
  Prog.write fun db => ps.foldl (importWorkflow project) db

/-! ## The schedule runner -/

/-- The larger of two optional times; none is the smallest. -/
def maxTime : Option ℤ → Option ℤ → Option ℤ
  | some a, some b => some (max a b)
  | some a, none => some a
  | none, b => b

/-- `should_trigger`; `now` is in milliseconds. -/
def shouldTrigger (env : Env) (w : WorkflowRecord) (schedule : Schedule) (now : ℤ) : Bool :=
  match schedule.runAt with
  | some runAt => w.lastTriggeredAt.isNone && (env.parseRfc3339 runAt).any (· ≤ now)
  | none =>
      let cron := Text.trim schedule.cron
      (env.cronError cron).isNone &&
        let checkFrom := maxTime (w.lastTriggeredAt.bind env.parseDbTimestamp)
          (env.parseDbTimestamp w.updatedAt)
        env.cronDue cron (checkFrom.getD (now - 120000)) now

/-- `start_scheduled_instance` with the row the pass holds. -/
def startScheduledInstance (env : Env) (next : StepFn) (seen : WorkflowRecord)
    (triggeredAt : String) : Run Unit :=
  match seen.definition.schedule with
  | none => Prog.fail (.workflow "Workflow has no schedule")
  | some schedule => do
      let _ ← startInstanceInContext env next seen.id (Json.ofFields schedule.inputs)
        ⟨seen.projectId, none⟩ none none (some (seen, triggeredAt))
      pure ()

/-- `check_scheduled_workflows_at` for one row: an error is only written down. -/
def checkScheduledWorkflow (env : Env) (next : StepFn) (now : ℕ) (w : WorkflowRecord) : Run Unit :=
  match w.definition.schedule with
  | none => pure ()
  | some schedule =>
      if w.definition.usesConnectorAutomation then pure ()
      else if shouldTrigger env w schedule (now * 1000) then
        ignore (startScheduledInstance env next w (env.dbTimestamp now))
      else pure ()

/-- `check_scheduled_workflows_at`. -/
def checkScheduledWorkflows (env : Env) (next : StepFn) (now : ℕ) : Run Unit := do
  let ws ← Prog.read fun db => db.workflows.insertionSort fun a b => b.createdAt ≤ a.createdAt
  Prog.forEach (ws.filter WorkflowRecord.enabled) (checkScheduledWorkflow env next now)

end XpressClaw
