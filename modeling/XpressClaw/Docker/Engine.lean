import Mathlib.Data.List.Basic
import XpressClaw.Lib.Prog

/-!
# The container engine

What the recovery of an Agent's environment sees of Docker: the containers under the names
that belong to the Agent, which of them run, and the calls of the engine.  Every call is one
transaction.  A call may fail, and then it may have taken effect or not; what it is answered
with comes from outside.

A container carries the files of its writable layer, and a snapshot is the files that
`commit_container` captured.  Snapshot images are removed only after their last use, which the
engine checks, and are left out with their tags.
-/

namespace XpressClaw.Docker

open Lib

/-! ## Containers -/

/-- `ContainerSpec`: the image, and the settings that are fingerprinted with it. -/
structure ContainerSpec where
  image : String
  settings : String := ""
  deriving DecidableEq

/-- A container, with the labels that are read. -/
structure Container (α : Type) where
  id : ℕ
  /-- `Config.Image`. -/
  image : String
  /-- The lifecycle, installation and Agent labels match. -/
  owned : Bool := true
  /-- `SPEC_FINGERPRINT_LABEL`: the specification it is the digest of. -/
  fingerprint : ContainerSpec
  /-- `IMAGE_REFERENCE_LABEL`. -/
  imageReference : Option String := none
  /-- `RECOVERY_SOURCE_LABEL`. -/
  source : Option ℕ := none
  /-- The files. -/
  layer : α

/-- The containers under the names of an Agent: `name`, `name-recovery`, and
`name-preserved-…`. -/
structure Files (α : Type) where
  project : Option (Container α) := none
  recovery : Option (Container α) := none
  preserved : List (Container α) := []
  nextId : ℕ := 0

/-- What a call refers to a container by. -/
inductive Reference where
  | project
  | recovery
  | id (n : ℕ)
  deriving DecidableEq

/-- The name a container is renamed to. -/
inductive Slot where
  | project
  | recovery
  | preserved
  deriving DecidableEq

namespace Files

variable {α : Type}

/-- The container with an identifier. -/
def byId (f : Files α) (n : ℕ) : Option (Container α) :=
  (f.project.filter (·.id = n)).or <| (f.recovery.filter (·.id = n)).or <|
    f.preserved.find? (·.id = n)

def find (f : Files α) : Reference → Option (Container α)
  | .project => f.project
  | .recovery => f.recovery
  | .id n => f.byId n

/-- The names without the container. -/
def drop (f : Files α) (n : ℕ) : Files α :=
  { f with
    project := f.project.filter (·.id ≠ n)
    recovery := f.recovery.filter (·.id ≠ n)
    preserved := f.preserved.filter (·.id ≠ n) }

/-- A name is given to a container, unless it is taken. -/
def give (f : Files α) (c : Container α) : Slot → Option (Files α)
  | .project => if f.project.isSome then none else some { f with project := some c }
  | .recovery => if f.recovery.isSome then none else some { f with recovery := some c }
  | .preserved => some { f with preserved := f.preserved ++ [c] }

end Files

/-! ## Answers -/

/-- How a call fails. -/
inductive Fault where
  /-- It took no effect. -/
  | lost
  /-- It took effect, but the answer was lost. -/
  | late
  deriving DecidableEq

/-- The containers of the Agent that refer to an environment. -/
structure Helpers where
  dependents : List String := []
  /-- Those that run, are paused or restart. -/
  active : List String := []
  /-- Those that refer to it by name. -/
  named : List String := []
  deriving DecidableEq

/-- What comes from outside in answer to a call. -/
structure Answer where
  fault : Option Fault := none
  /-- The text of the failure. -/
  reason : String := ""
  helpers : Helpers := {}
  /-- An ACP process that was started is still alive. -/
  alive : Bool := true
  deriving DecidableEq

/-- An ACP process that has been initialized. -/
structure Process where
  containerId : ℕ
  /-- `retained_process_fingerprint`: the settings without the image. -/
  settings : String
  deriving DecidableEq

/-- The engine, the process that the control plane holds for the Agent, and what it will be
answered.  `shaken` are the containers whose ACP process has completed its handshake. -/
structure World (α : Type) where
  files : Files α := {}
  running : List ℕ := []
  process : Option Process := none
  shaken : List ℕ := []
  answers : List Answer := []

/-- `Error::Container` and what else the recovery passes on. -/
inductive Error where
  | container (message : String)
  | backend (message : String)
  | agentNotFound (name : String)
  deriving DecidableEq

abbrev Engine (α : Type) := Prog (World α) Error

/-- The Agent and the name of its environment, `owned_project_container_name`. -/
structure Owner where
  agent : String
  name : String

/-! ## Calls -/

variable {α β : Type}

/-- A request of the engine: what it answers and the engine it leaves, or why it refuses. -/
abbrev Request (α β : Type) := Answer → World α → Except String (β × World α)

/-- What is answered, and the engine that is left. -/
def Request.perform (g : Request α β) (w : World α) : Except String β × World α :=
  let answer := w.answers.headD {}
  let rest := { w with answers := w.answers.tail }
  match answer.fault, g answer rest with
  | some .lost, _ => (.error answer.reason, rest)
  | some .late, .ok (_, w') => (.error answer.reason, w')
  | some .late, .error _ => (.error answer.reason, rest)
  | none, .ok (b, w') => (.ok b, w')
  | none, .error reason => (.error reason, rest)

/-- One call of the engine: its answer. -/
def request (g : Request α β) : Engine α (Except String β) :=
  .act (fun w => (g.perform w).2) fun w => .ret (.ok (g.perform w).1)

/-- The answer of a call, or an error that tells why there is none. -/
def orError (error : String → Error) : Except String β → Engine α β
  | .ok b => .ret (.ok b)
  | .error reason => .fail (error reason)

/-- A call whose failure ends the function. -/
def call (g : Request α β) (error : String → Error) : Engine α β :=
  request g >>= orError error

/-- A check that fails with an error. -/
def require (p : Bool) (e : Error) : Engine α Unit := if p then .ret (.ok ()) else .fail e

/-! ### Requests -/

def inspect (r : Reference) : Request α (Option (Container α)) := fun _ w =>
  .ok (w.files.find r, w)

/-- `state.running`; a container that cannot be inspected does not run. -/
def inspectRunning (r : Reference) : Request α Bool := fun _ w =>
  .ok ((w.files.find r).any fun c => c.id ∈ w.running, w)

/-- The containers that refer to an environment. -/
def listDependents : Request α Helpers := fun answer w => .ok (answer.helpers, w)

/-- The mounts and the base image are checked. -/
def preflight : Request α Unit := fun _ w => .ok ((), w)

def stop (r : Reference) : Request α Unit := fun _ w =>
  match w.files.find r with
  | none => .error "No such container"
  | some c => .ok ((), { w with running := w.running.filter (· ≠ c.id) })

def start (r : Reference) : Request α Unit := fun _ w =>
  match w.files.find r with
  | none => .error "No such container"
  | some c => .ok ((), { w with running := c.id :: w.running.filter (· ≠ c.id) })

/-- `commit_container`: the files of the snapshot. -/
def commit (n : ℕ) : Request α α := fun _ w =>
  match w.files.byId n with
  | none => .error "No such container"
  | some c => .ok (c.layer, w)

def rename (n : ℕ) (slot : Slot) : Request α Unit := fun _ w =>
  match w.files.byId n with
  | none => .error "No such container"
  | some c =>
      match (w.files.drop n).give c slot with
      | none => .error "The container name is already in use"
      | some files => .ok ((), { w with files := files })

/-- `create_container` under the normal name: the identifier. -/
def create (container : ℕ → Container α) : Request α ℕ := fun _ w =>
  match w.files.project with
  | some _ => .error "The container name is already in use"
  | none =>
      .ok (w.files.nextId, { w with
        files := { w.files with
          project := some { container w.files.nextId with id := w.files.nextId }
          nextId := w.files.nextId + 1 } })

/-- `remove_container` by force; a container that is gone is no failure. -/
def remove (r : Reference) : Request α Unit := fun _ w =>
  match w.files.find r with
  | none => .ok ((), w)
  | some c => .ok ((), { w with
      files := w.files.drop c.id
      running := w.running.filter (· ≠ c.id) })

/-- `AcpProcess::start`: the handshake over an attached container. -/
def handshake (containerId : ℕ) : Request α Unit := fun _ w =>
  .ok ((), { w with shaken := containerId :: w.shaken })

/-- Whether the process that is held is alive. -/
def probe : Request α Bool := fun answer w => .ok (answer.alive, w)

end XpressClaw.Docker
