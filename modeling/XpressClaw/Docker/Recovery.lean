import XpressClaw.Docker.Engine

/-!
# Changing an environment's settings

`docker::recovery` and `start_project_with_recovery`, one definition for each function of the
source.  They run under the exclusive boundary of the Agent, so that no other function changes
its containers.

The rules for mounts and the base image decide only whether a change is refused before the
first container is touched; they are one call that may fail.  Forwards, snapshot images and log
lines are left out.
-/

namespace XpressClaw.Docker

open Lib

variable {α : Type}

/-! ## Specifications -/

/-- `str::strip_prefix`. -/
def stripPrefix (p s : String) : Option String :=
  (s.toList.dropPrefix? p.toList).map String.ofList

/-- The image references under which a retained container may have been fingerprinted. -/
def imageReferences (c : Container α) (requested : ContainerSpec) : List String :=
  [requested.image, c.image] ++ c.imageReference.toList ++
    ["docker.io/library/", "docker.io/", "localhost/"].filterMap (stripPrefix · c.image)

/-- `retained_spec_matches`. -/
def retainedSpecMatches (owner : Owner) (c : Container α) (requested : ContainerSpec) :
    Engine α Bool :=
  if c.owned then
    .ret (.ok ((imageReferences c requested).any fun image =>
      c.fingerprint = { requested with image := image }))
  else .fail (.container
    s!"refusing access to Agent {owner.agent}'s environment with mismatched ownership")

/-- `validate_retained_spec`. -/
def validateRetainedSpec (owner : Owner) (c : Container α) (requested : ContainerSpec) :
    Engine α Unit := do
  let fits ← retainedSpecMatches owner c requested
  require fits (.container
    s!"Agent {owner.agent}'s environment needs updated settings. Its installed tools and files have been preserved; retry the work to recover automatically.")

/-! ## Calls with their errors -/

/-- The text of a reference. -/
def Reference.text (owner : Owner) : Reference → String
  | .project => owner.name
  | .recovery => owner.name ++ "-recovery"
  | .id n => toString n

/-- The text of an error that is told inside another. -/
def Error.text : Error → String
  | container message => "container error: " ++ message
  | backend message => "backend error: " ++ message
  | agentNotFound name => "agent not found: " ++ name

/-- `inspect_optional`. -/
def inspectOptional (owner : Owner) (r : Reference) : Engine α (Option (Container α)) :=
  call (inspect r) fun error =>
    .container s!"failed to inspect container {r.text owner}: {error}"

/-- `is_container_running`. -/
def isContainerRunning (r : Reference) : Engine α Bool := do
  let answer ← request (inspectRunning r)
  .ret (.ok (answer.toOption.getD false))

/-- `stop_preserving`. -/
def stopPreserving : Engine α Unit := do
  let running ← isContainerRunning .project
  if running then do
    let answer ← request (stop .project)
    match answer with
    | .ok _ => .ret (.ok ())
    | .error error => do
        let still ← isContainerRunning .project
        require (!still) (.container s!"failed to stop retained Agent container: {error}")
  else .ret (.ok ())

/-- `container_dependents`. -/
def containerDependents (owner : Owner) (r : Reference) : Engine α Helpers := do
  let parent ← inspectOptional owner r
  match parent with
  | none => .ret (.ok {})
  | some _ => call listDependents .container

/-- `ensure_no_container_dependents`. -/
def ensureNoContainerDependents (owner : Owner) (r : Reference) : Engine α Unit := do
  let helpers ← containerDependents owner r
  let names := String.intercalate ", " helpers.dependents
  require helpers.dependents.isEmpty (.container
    s!"Cannot remove environment {r.text owner}: dependent containers {names} still reference it. The environment and dependents have been preserved. Migrate or explicitly remove those containers before deleting this environment. Rebuilding can preserve stopped helpers separately.")

/-- `ensure_dependents_stopped`: the helpers. -/
def ensureDependentsStopped (owner : Owner) (r : Reference) : Engine α (List String) := do
  let helpers ← containerDependents owner r
  let active := String.intercalate ", " helpers.active
  let named := String.intercalate ", " helpers.named
  require helpers.active.isEmpty (.container
    s!"Stop these helper containers before changing the environment: {active}. Their files will be preserved automatically; no tasks need to be completed or deleted.")
  if helpers.dependents.isEmpty then .ret (.ok [])
  else do
    let parent ← inspectOptional owner r
    require parent.isSome (.container "Environment disappeared while checking helpers")
    require helpers.named.isEmpty (.container
      s!"These helper containers refer to the environment by name and need to be recreated using its container ID before replacement: {named}. All files have been preserved.")
    .ret (.ok helpers.dependents)

/-- `remove_container_reference`. -/
def removeContainerReference (owner : Owner) (r : Reference) : Engine α Unit := do
  ensureNoContainerDependents owner r
  let _ ← inspectOptional owner r
  call (remove r) fun error =>
    .container s!"failed to remove owned runtime '{owner.agent}': {error}"

/-- What `remove_or_preserve_environment` does for an environment with stopped helpers. -/
def preserveEnvironment (owner : Owner) (n : ℕ) : Engine α Unit := do
  let container ← inspectOptional owner (.id n)
  require container.isSome
    (.container "Environment disappeared while preserving helper containers")
  call (stop (.id n)) fun error => .container s!"Could not preserve old environment: {error}"
  call (rename n .preserved) fun error =>
    .container s!"Could not preserve old environment as {owner.name}-preserved-{n}: {error}. Its files and helper containers remain intact."

/-- `remove_or_preserve_environment`. -/
def removeOrPreserveEnvironment (owner : Owner) (n : ℕ) : Engine α Unit := do
  let dependents ← ensureDependentsStopped owner (.id n)
  if dependents.isEmpty then removeContainerReference owner (.id n)
  else preserveEnvironment owner n

/-- `create_and_start`: the identifier. -/
def createAndStart (container : ℕ → Container α) : Engine α ℕ := do
  let n ← call (create container) fun error =>
    .container s!"failed to create container: {error}"
  call (start (.id n)) fun error => .container s!"failed to start container: {error}"
  .ret (.ok n)

/-! ## Recovery -/

/-- `validate_recovery_owner`. -/
def validateRecoveryOwner (c : Container α) : Engine α Unit :=
  require c.owned (.container
    "Recovery container ownership could not be verified; environment preserved")

/-- `validate_recovery_pair`. -/
def validateRecoveryPair (backup replacement : Container α) : Engine α Unit := do
  validateRecoveryOwner replacement
  require (replacement.source = some backup.id) (.container
    "Recovery container does not match the original environment; both have been preserved")

/-- `project_configuration_needs_recovery`. -/
def projectConfigurationNeedsRecovery (owner : Owner) (requested : ContainerSpec) :
    Engine α Bool := do
  let backup ← inspectOptional owner .recovery
  match backup with
  | some backup => do
      validateRecoveryOwner backup
      .ret (.ok true)
  | none => do
      let container ← inspectOptional owner .project
      match container with
      | some c => do
          let fits ← retainedSpecMatches owner c requested
          .ret (.ok (!fits))
      | none => .ret (.ok false)

/-- The replacement of a backup is removed. -/
def removeReplacement (owner : Owner) (backup : Container α) : Engine α Unit := do
  let replacement ← inspectOptional owner .project
  match replacement with
  | none => .ret (.ok ())
  | some replacement => do
      validateRecoveryPair backup replacement
      removeContainerReference owner .project

/-- `rollback_project_recovery`. -/
def rollbackProjectRecovery (owner : Owner) : Engine α Unit := do
  let backup ← inspectOptional owner .recovery
  match backup with
  | none => .ret (.ok ())
  | some backup => do
      validateRecoveryOwner backup
      removeReplacement owner backup
      call (rename backup.id .project) fun error =>
        .container s!"Could not restore the original environment name: {error}. Its files remain in {owner.name}-recovery; retry recovery."
      call (start .project) fun error =>
        .container s!"Original environment preserved, but could not restart it: {error}"

/-- `finish_project_recovery`. -/
def finishProjectRecovery (owner : Owner) : Engine α Unit := do
  let backup ← inspectOptional owner .recovery
  match backup with
  | none => .ret (.ok ())
  | some backup => do
      validateRecoveryOwner backup
      let replacement ← inspectOptional owner .project
      match replacement with
      | none => .fail (.container
          "Recovered environment disappeared; original environment preserved")
      | some replacement => do
          validateRecoveryPair backup replacement
          removeOrPreserveEnvironment owner backup.id

/-- The replacement that is made from a snapshot. -/
def replacementOf (requested : ContainerSpec) (source : ℕ) (snapshot : α) (n : ℕ) :
    Container α where
  id := n
  image := "localhost/xpressclaw-recovery"
  fingerprint := requested
  imageReference := some requested.image
  source := some source
  layer := snapshot

/-- The environment is started again, whether it can be or not, and the change has failed. -/
def resumeOriginal (n : ℕ) (error : Error) : Engine α Unit := do
  let _ ← request (start (.id n))
  .fail error

/-- What `recover_project_configuration` does once the replacement could not be started. -/
def undoReplacement (owner : Owner) (error : Error) : Engine α Unit := do
  let rollback ← (rollbackProjectRecovery owner).attempt
  match rollback with
  | .error rollback =>
      .fail (.container s!"Automatic recovery failed: {error.text}. {rollback.text}")
  | .ok _ => .fail (.container
      s!"Automatic recovery failed: {error.text}. The original environment was restored; retry the work after correcting the settings.")

/-- The environment is renamed and replaced. -/
def replaceEnvironment (owner : Owner) (requested : ContainerSpec) (n : ℕ) (snapshot : α) :
    Engine α Unit := do
  let renamed ← request (rename n .recovery)
  match renamed with
  | .error error => resumeOriginal n (.container
      s!"Could not prepare environment recovery: {error}. The original environment has been preserved.")
  | .ok _ => do
      let result ← (createAndStart (replacementOf requested n snapshot)).attempt
      match result with
      | .error error => undoReplacement owner error
      | .ok _ => .ret (.ok ())

/-- The environment is stopped, saved and replaced. -/
def changeEnvironment (owner : Owner) (requested : ContainerSpec) (n : ℕ) : Engine α Unit := do
  let _ ← ensureDependentsStopped owner .project
  call preflight .container
  stopPreserving
  let snapshot ← request (commit n)
  match snapshot with
  | .error error => resumeOriginal n (.container
      s!"Could not save the environment for automatic recovery: {error}. The original environment has been preserved.")
  | .ok snapshot => replaceEnvironment owner requested n snapshot

/-- `recover_project_configuration`. -/
def recoverProjectConfiguration (owner : Owner) (requested : ContainerSpec) : Engine α Unit := do
  rollbackProjectRecovery owner
  let original ← inspectOptional owner .project
  match original with
  | none => .ret (.ok ())
  | some original => do
      let fits ← retainedSpecMatches owner original requested
      if fits then .ret (.ok ()) else changeEnvironment owner requested original.id

/-! ## Starting -/

/-- `validate_project_configuration`: the identifier of the retained container. -/
def validateProjectConfiguration (owner : Owner) (spec : ContainerSpec) :
    Engine α (Option ℕ) := do
  let container ← inspectOptional owner .project
  match container with
  | none => .ret (.ok none)
  | some c => do
      validateRetainedSpec owner c spec
      .ret (.ok (some c.id))

/-- The container of a first start, from the image itself. -/
def freshContainer (baseLayer : String → α) (spec : ContainerSpec) (n : ℕ) : Container α where
  id := n
  image := spec.image
  fingerprint := spec
  imageReference := some spec.image
  layer := baseLayer spec.image

/-- The container `launch_project_attached` attaches to. -/
def launchProject (baseLayer : String → α) (owner : Owner) (spec : ContainerSpec) :
    Engine α ℕ := do
  let existing ← inspectOptional owner .project
  match existing with
  | some existing => do
      validateRetainedSpec owner existing spec
      stopPreserving
      call (start (.id existing.id)) fun error =>
        .container s!"failed to restart Agent container: {error}"
      .ret (.ok existing.id)
  | none => createAndStart (freshContainer baseLayer spec)

/-- A failure after which the environment is stopped, whether it can be or not. -/
def stopAndFail (error : Error) : Engine α ℕ := do
  let _ ← stopPreserving.attempt
  .fail error

/-- The handshake with the process of a container. -/
def shakeHands (n : ℕ) : Engine α ℕ := do
  let shaken ← request (handshake n)
  match shaken with
  | .ok _ => .ret (.ok n)
  | .error error => stopAndFail (.backend error)

/-- The container is attached and its process initialized. -/
def attachProcess (n : ℕ) : Engine α ℕ := do
  let attached ← request (inspect (.id n))
  match attached with
  | .error error => stopAndFail (.container s!"failed to attach container: {error}")
  | .ok _ => shakeHands n

/-- The control plane holds another process, or none. -/
def hold (process : Option Process) : Engine α Unit :=
  .write fun w => { w with process := process }

/-- The process that is held is for the retained container and the settings, and alive. -/
def reusable (spec : ContainerSpec) (retained : Option ℕ) (held : Option Process) :
    Engine α Bool :=
  match held with
  | none => .ret (.ok false)
  | some process => do
      let alive ← request probe
      let running ← isContainerRunning .project
      .ret (.ok (process.settings = spec.settings && alive.toOption.getD false && running &&
        retained = some process.containerId))

/-- A new process. -/
def startProcess (baseLayer : String → α) (owner : Owner) (spec : ContainerSpec) :
    Engine α ℕ := do
  hold none
  stopPreserving
  let n ← launchProject baseLayer owner spec
  let n ← attachProcess n
  hold (some ⟨n, spec.settings⟩)
  .ret (.ok n)

/-- `ProjectAcpProcesses::get_or_start`: the container of the process. -/
def getOrStart (baseLayer : String → α) (owner : Owner) (spec : ContainerSpec) :
    Engine α ℕ := do
  let retained ← validateProjectConfiguration owner spec
  let held ← .read (·.process)
  let reuse ← reusable spec retained held
  match reuse, retained with
  | true, some n => .ret (.ok n)
  | _, _ => startProcess baseLayer owner spec

/-- What happens to a change whose process could not be started. -/
def undoChange (owner : Owner) (error : Error) : Engine α ℕ := do
  let rollback ← (rollbackProjectRecovery owner).attempt
  match rollback with
  | .error rollback => .fail (.container
      s!"Could not start the recovered environment: {error.text}. {rollback.text}")
  | .ok _ => .fail error

/-- The environment is brought up to date, and its process is retired. -/
def bringUpToDate (owner : Owner) (spec : ContainerSpec) (needed : Bool) : Engine α Unit :=
  if needed then do
    recoverProjectConfiguration owner spec
    hold none
  else .ret (.ok ())

/-- The environment is brought up to date and its process started. -/
def recoverAndStart (baseLayer : String → α) (owner : Owner) (spec : ContainerSpec)
    (needed : Bool) : Engine α ℕ := do
  bringUpToDate owner spec needed
  let process ← (getOrStart baseLayer owner spec).attempt
  match process with
  | .error error => undoChange owner error
  | .ok n => do
      finishProjectRecovery owner
      .ret (.ok n)

/-- What the control plane finds once it holds the exclusive boundary. -/
structure Preparation where
  /-- The Agent is still registered. -/
  registered : Bool := true
  /-- The configuration is the one that was prepared. -/
  unchanged : Bool := true

/-- `start_project_with_recovery`: the container of the process, or `none` when the turn has to
be prepared again. -/
def startProjectWithRecovery (baseLayer : String → α) (owner : Owner) (spec : ContainerSpec)
    (found : Preparation) : Engine α (Option ℕ) := do
  let needed ← projectConfigurationNeedsRecovery owner spec
  if needed then do
    require found.registered (.agentNotFound owner.agent)
    if found.unchanged then do
      let needed ← projectConfigurationNeedsRecovery owner spec
      let n ← recoverAndStart baseLayer owner spec needed
      .ret (.ok (some n))
    else .ret (.ok none)
  else do
    let n ← getOrStart baseLayer owner spec
    .ret (.ok (some n))

end XpressClaw.Docker
