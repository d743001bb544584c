import XpressClaw.Budget.Manager
import XpressClaw.Sync.Import

/-!
# The configuration of Agents

The part of `xpressclaw.yaml` that an import writes, with the merge of a snapshot into it, and
how the file is loaded and saved.  An Agent's settings come from the snapshot; its credentials,
its mounts and what it may reach stay local.

What `serde_yaml` does, the catalog of ACP agents and the checks of the other sections come in
through `Yaml`.
-/

namespace XpressClaw.Sync

open Lib Budget

/-! ## Settings -/

structure AgentLlmConfig where
  provider : Option String := none
  model : Option String := none
  apiKey : Option String := none
  baseUrl : Option String := none
  deriving DecidableEq

/-- `ContainerEngineAccess`. -/
inductive ContainerEngineAccess where
  | none
  | host
  deriving DecidableEq

/-- `AgentProxyMode`. -/
inductive AgentProxyMode where
  | inherit
  | direct
  deriving DecidableEq

structure NativeRunnerConfig where
  kind : String := "auto"
  image : String := ""
  workspace : Option String := none
  projectName : Option String := none
  model : Option String := none
  sessionConfig : List (String × Json) := []
  mcpServers : List String := []
  environment : List (String × String) := []
  startupCommands : List String := []
  command : List String := []
  subscriptionAuth : Bool := true
  sshAgentForwarding : Bool := false
  containerEngine : ContainerEngineAccess := .none
  proxy : AgentProxyMode := .inherit
  deriving DecidableEq

structure RateLimitConfig where
  requestsPerMinute : ℕ := 60
  tokensPerMinute : ℕ := 100000
  concurrentRequests : ℕ := 5
  deriving DecidableEq

structure WakeOnConfig where
  schedule : Option String := none
  event : Option String := none
  condition : Option String := none
  deriving DecidableEq

structure HooksConfig where
  beforeMessage : List String := []
  afterMessage : List String := []
  deriving DecidableEq

structure AgentConfig where
  name : String := "default"
  backend : String := "claude-sdk"
  model : Option String := none
  llm : Option AgentLlmConfig := none
  runner : NativeRunnerConfig := {}
  tools : List String := []
  skills : List String := []
  budget : Option BudgetConfig := none
  rateLimit : Option RateLimitConfig := none
  wakeOn : List WakeOnConfig := []
  container : List (String × Json) := []
  hooks : HooksConfig := {}
  volumes : List String := []
  idlePrompt : Option String := none
  deriving DecidableEq

/-- `Config`, with the server definitions of type `κ` and the other sections of type `ρ`. -/
structure Config (κ ρ : Type) where
  agents : List AgentConfig := []
  mcpServers : List (String × κ) := []
  rest : ρ

variable {κ ρ : Type}

/-! ## The merge -/

/-- `portable_budget`. -/
def portableBudget (b : PortableBudgetSettings) : Except Error BudgetConfig := do
  let onExceeded ← match b.onExceeded with
    | "pause" => .ok OnExceeded.pause
    | "alert" => .ok .alert
    | "degrade" => .ok .degrade
    | "stop" => .ok .stop
    | value => .error (.sync s!"Agent budget has invalid on_exceeded value '{value}'")
  .ok
    { daily         := b.daily
      monthly       := b.monthly
      perTask       := b.perTask
      onExceeded    := onExceeded
      fallbackModel := b.fallbackModel
      warnAtPercent := b.warnAtPercent }

/-- The language model of an Agent; its key and its address stay. -/
def mergeLlm (shared : Option PortableLlmSettings) (llm : Option AgentLlmConfig) :
    Option AgentLlmConfig :=
  match shared with
  | some shared => some { llm.getD {} with provider := shared.provider, model := shared.model }
  | none => llm.map fun llm => { llm with provider := none, model := none }

/-- The runner of an Agent; a new one gets a workspace. -/
def mergeRunner (shared : PortableRunnerSettings) (newWorkspace : Option String)
    (runner : NativeRunnerConfig) : NativeRunnerConfig :=
  { runner with
    kind            := shared.kind
    image           := shared.image
    projectName     := shared.projectName
    model           := shared.model
    sessionConfig   := shared.sessionConfig
    startupCommands := shared.startupCommands
    command         := shared.command
    workspace       := newWorkspace.or runner.workspace }

/-- The budget of a snapshot, if it has one. -/
def mergeBudget : Option PortableBudgetSettings → Except Error (Option BudgetConfig)
  | some b => (portableBudget b).map some
  | none => .ok none

/-- `apply_portable_agent`. -/
def applyPortableAgent (p : PortableAgent) (newWorkspace : Option String) (a : AgentConfig) :
    Except Error AgentConfig := do
  let budget ← mergeBudget p.settings.budget
  .ok
    { a with
      name       := p.id
      backend    := p.backend
      model      := none
      llm        := mergeLlm p.settings.llm a.llm
      runner     := mergeRunner p.settings.runner newWorkspace a.runner
      tools      := p.settings.tools
      skills     := p.settings.skills
      budget     := budget
      rateLimit  := p.settings.rateLimit.map fun r =>
        ⟨r.requestsPerMinute, r.tokensPerMinute, r.concurrentRequests⟩
      wakeOn     := p.settings.wakeOn.map fun w => ⟨w.schedule, w.event, w.condition⟩
      idlePrompt := p.settings.idlePrompt }

/-- An Agent that only the snapshot has.  Its subscription is not shared. -/
def newAgentConfig (p : PortableAgent) : AgentConfig :=
  { name := p.id, backend := p.backend, runner := { subscriptionAuth := false } }

/-- The first Agent of that name is written over, or a new one is added. -/
def mergeAgent (workspace : String) (p : PortableAgent) :
    List AgentConfig → Except Error (List AgentConfig)
  | [] => do
      let a ← applyPortableAgent p (some workspace) (newAgentConfig p)
      .ok [a]
  | a :: agents =>
      if a.name = p.id then do
        let a ← applyPortableAgent p none a
        .ok (a :: agents)
      else do
        let agents ← mergeAgent workspace p agents
        .ok (a :: agents)

/-- `merge_agent_config`. -/
def mergeAgentConfig (config : Config κ ρ) (s : PortableSnapshot) (workspace : String) :
    Except Error (Config κ ρ) := do
  let agents ← each (fun agents p => mergeAgent workspace p agents) s.agents config.agents
  .ok { config with agents := agents }

/-! ## Old forms of the file -/

/-- What the code takes from libraries and from the rest of the configuration. -/
structure Yaml (κ ρ : Type) where
  /-- `serde_yaml::from_str`. -/
  parse : String → Option (Config κ ρ)
  /-- `serde_yaml::to_string`. -/
  print : Config κ ρ → Option String
  /-- `Config::validate`, which reads the other sections. -/
  valid : ρ → Bool
  /-- `contains_legacy_profile_fields`. -/
  legacyProfile : String → Bool
  /-- `str::to_lowercase`. -/
  lower : String → String
  /-- `acp::infer_agent_kind_from_backend`. -/
  inferKind : String → Option String
  /-- `acp::canonical_agent_kind`. -/
  canonicalKind : String → Option String
  /-- `default_native_runner_image` without container access. -/
  runnerImage : String → Option String

/-- `migrate_legacy_model`. -/
def migrateLegacyModel (a : AgentConfig) : AgentConfig × Bool :=
  match a.model with
  | none => (a, false)
  | some legacy =>
      let llm := a.llm.getD {}
      ({ a with model := none, llm := some { llm with model := llm.model.or (some legacy) } }, true)

section

variable (y : Yaml κ ρ)

/-- The kind of a runner, from the configured one or from the backend. -/
def runnerKind (a : AgentConfig) : Option String :=
  let configured := y.lower (Text.trim a.runner.kind)
  if configured = "" ∨ configured = "auto" then y.inferKind (y.lower a.backend)
  else some ((y.canonicalKind configured).getD configured)

/-- `migrate_legacy_runner_image`. -/
def migrateLegacyRunnerImage (a : AgentConfig) : AgentConfig × Bool :=
  if a.runner.image = "xpressclaw-native-runner:latest" ∨
      a.runner.image = "ghcr.io/xpressai/xpressclaw-native-runner:latest" then
    match (runnerKind y a).bind fun kind => (y.runnerImage kind).map (kind, ·) with
    | none => (a, false)
    | some (kind, image) =>
        ({ a with runner := { a.runner with kind := kind, image := image } }, true)
  else (a, false)

/-- `migrate_legacy_tool_bundle`. -/
def migrateLegacyToolBundle (a : AgentConfig) : AgentConfig × Bool :=
  if (∀ t ∈ ["filesystem", "shell", "memory"], t ∈ a.tools) ∧
      (∀ k ∈ ["memory-system", "task-management", "build-app"], k ∈ a.skills) then
    ({ a with tools := [], skills := [] }, true)
  else (a, false)

/-- The migrations of one Agent: whether one of the first two or the last one applied. -/
def migrateAgent (a : AgentConfig) : AgentConfig × Bool × Bool :=
  let model := migrateLegacyModel a
  let image := migrateLegacyRunnerImage y model.1
  let bundle := migrateLegacyToolBundle image.1
  (bundle.1, model.2 || image.2, bundle.2)

/-- `migrate_legacy_fields`. -/
def migrateLegacyFields (c : Config κ ρ) : Config κ ρ × Bool :=
  let agents := c.agents.map (migrateAgent y)
  let bundle := agents.any (·.2.2)
  ({ c with
      agents := agents.map (·.1)
      mcpServers :=
        if bundle then c.mcpServers.filter fun m => m.1 ∉ ["xpressclaw", "shell", "filesystem"]
        else c.mcpServers },
    agents.any (·.2.1) || bundle)

/-! ## The file -/

/-- `xpressclaw.yaml` and its backup. -/
structure Files where
  config : Option String
  backup : Option String := none
  deriving DecidableEq

/-- What the file system and the database do, and what somebody else writes meanwhile. -/
structure World where
  /-- Reading the file or its backup succeeds. -/
  reads : Bool := true
  /-- A copy between the file and its backup succeeds. -/
  copies : Bool := true
  /-- A temporary file is written and renamed over the file while it is loaded. -/
  rewrites : Bool := true
  /-- The transaction begins. -/
  begins : Bool := true
  /-- What somebody else leaves in the file before it is saved. -/
  edited : Option (Option String) := none
  /-- The same as `rewrites` for the save of the merged configuration. -/
  saves : Bool := true
  /-- The transaction commits. -/
  commits : Bool := true

/-- Errors of the configuration; their texts are those of the parser and the file system. -/
def configError : Error := .sync "configuration"

/-- `save`: what is written must parse again. -/
def save (written : Bool) (c : Config κ ρ) (files : Files) : Except Error Files :=
  match y.print c with
  | none => .error configError
  | some text =>
      if (y.parse text).isSome && written then .ok { files with config := some text }
      else .error configError

/-- `load` on a text that parses: whether it came from the backup. -/
def loadParsed (w : World) (fromBackup : Bool) (text : String) (parsed : Config κ ρ)
    (files : Files) : Except Error (Config κ ρ) × Files :=
  -- the profile fields are looked for first, and then nothing else is migrated
  let migrated := if y.legacyProfile text then (parsed, true) else migrateLegacyFields y parsed
  if ¬ y.valid migrated.1.rest then (.error configError, files)
  else
    let backedUp := if !fromBackup && w.copies then { files with backup := some text } else files
    if migrated.2 then
      match save y w.rewrites migrated.1 backedUp with
      | .ok files => (.ok migrated.1, files)
      | .error e => (.error e, backedUp)
    else if fromBackup && w.copies then (.ok migrated.1, { files with config := some text })
    else (.ok migrated.1, backedUp)

/-- `Config::load`: the configuration, and the files after it. -/
def load (w : World) (files : Files) : Except Error (Config κ ρ) × Files :=
  match files.config with
  | none => (.error configError, files)
  | some text =>
      if ¬ w.reads then (.error configError, files)
      else match y.parse text with
        | some parsed => loadParsed y w false text parsed files
        | none =>
            match files.backup.bind fun text => (y.parse text).map (text, ·) with
            | none => (.error configError, files)
            | some (text, parsed) => loadParsed y w true text parsed files

/-! ## The import -/

/-- What an import works on: the database, the configuration in memory, and the files. -/
structure State (κ ρ : Type) where
  db : Db
  config : Config κ ρ
  files : Files

/-- The configuration an import starts from: the file-backed one, if there is a file. -/
def startConfig (w : World) (st : State κ ρ) : Except Error (Config κ ρ) × Files :=
  if st.files.config.isSome then load y w st.files else (.ok st.config, st.files)

/-- The transaction of an import, from the merged configuration on: what it returns, the
database and the files. -/
def importIn (texts : Texts) (w : World) (s : PortableSnapshot) (allow : Bool)
    (updated : Config κ ρ) (db : Db) (files : Files) : Except Error (List ℕ) × Db × Files :=
  if ¬ w.begins then (.error .database, db, files)
  else match db.importTransaction texts s allow with
    | .error e => (.error e, db, files)
    | .ok (stopped, db') =>
        let original := files.config
        let found := { files with config := w.edited.getD files.config }
        if found.config ≠ original then
          (.error (.sync
            "xpressclaw.yaml changed during fetch; no synchronized state was imported"), db, found)
        else match save y w.saves updated found with
          | .error e => (.error e, db, found)
          | .ok saved =>
              if w.commits then (.ok stopped, db', saved)
              -- `restore_config`
              else (.error .database, db, { saved with config := original })

/-- `import_snapshot_with_conversations`. -/
def importSnapshot (texts : Texts) (w : World) (s : PortableSnapshot) (allow : Bool)
    (workspace : String) (st : State κ ρ) : Except Error (List ℕ) × State κ ρ :=
  match startConfig y w st with
  | (.error e, files) => (.error e, { st with files := files })
  | (.ok config, files) =>
      match mergeAgentConfig config s workspace with
      | .error e => (.error e, { st with files := files })
      | .ok updated =>
          match importIn y texts w s allow updated st.db files with
          | (.error e, db, files) => (.error e, { st with db := db, files := files })
          | (.ok stopped, db, files) => (.ok stopped, ⟨db, updated, files⟩)

end

end XpressClaw.Sync
