import Mathlib.Data.List.ReduceOption
import Mathlib.Data.String.Basic
import XpressClaw.Lib.Prog

/-!
# The repository of an Agent

`AgentRepositoryManager` keeps which repository of its workspace an Agent works in: the user
selects one or clears the choice, the Agent proposes one, and the next boundary of a turn takes
up what is pending.  The model has the row of one Agent and the native sessions of it.

* `StoredSelection` — a row of `agent_repository_selections`, with the checks of the table.
* `Workspace` — what is found below the bootstrap workspace.
* `buildInspection` — the active repository and the desired selection.
* `applyBoundary`, `select`, `clear`, `propose`, … — the calls, each a list of transactions.
-/

namespace XpressClaw.Repositories

open Lib

/-! ## Data -/

/-- `RepositoryCandidate`. -/
structure Candidate where
  relativePath : String
  root : String
  identity : String
deriving DecidableEq

/-- `RepositorySelectionState`. -/
inductive SelectionState where
  | attached
  | pending
  | noRepository
  | ambiguous
  | missing
  | cleared
deriving DecidableEq

inductive SelectionMode where
  | automatic
  | manual
  | cleared
deriving DecidableEq

/-- The relative path, the identity and the mode of a selection. -/
abbrev BoundaryKey := Option String × Option String × SelectionMode

structure DesiredSelection where
  relativePath : Option String
  repositoryIdentity : Option String
  mode : SelectionMode
deriving DecidableEq

def DesiredSelection.boundaryKey (d : DesiredSelection) : BoundaryKey :=
  (d.relativePath, d.repositoryIdentity, d.mode)

/-- The checks of the table on the current selection. -/
def Allowed (relativePath repositoryIdentity : Option String) (mode : SelectionMode) : Prop :=
  (relativePath.isSome ∨ repositoryIdentity = none) ∧ (mode ≠ .cleared ∨ relativePath = none)

/-- The checks of the table on what is pending. -/
def PendingAllowed (path : Option String) (mode : Option SelectionMode) : Prop :=
  mode = none ∧ path = none ∨ mode = some .manual ∧ path.isSome ∨
    mode = some .cleared ∧ path = none

instance (path identity : Option String) (mode : SelectionMode) :
    Decidable (Allowed path identity mode) :=
  inferInstanceAs (Decidable (_ ∧ _))

instance (path : Option String) (mode : Option SelectionMode) :
    Decidable (PendingAllowed path mode) :=
  inferInstanceAs (Decidable (_ ∨ _))

/-- A row of `agent_repository_selections`. -/
structure StoredSelection where
  relativePath : Option String
  repositoryIdentity : Option String
  mode : SelectionMode
  pendingRelativePath : Option String
  pendingMode : Option SelectionMode
  generation : ℤ
  allowed : Allowed relativePath repositoryIdentity mode
  pending_allowed : PendingAllowed pendingRelativePath pendingMode
deriving DecidableEq

def StoredSelection.boundaryKey (s : StoredSelection) : BoundaryKey :=
  (s.relativePath, s.repositoryIdentity, s.mode)

/-- The key of the row, or that of no row. -/
def boundaryKey (stored : Option StoredSelection) : BoundaryKey :=
  (stored.map StoredSelection.boundaryKey).getD (none, none, .automatic)

inductive Error where
  | backend (message : String)
  /-- A check of the table. -/
  | constraint
deriving DecidableEq

/-- What `discover_repositories` finds below the bootstrap workspace, and what
`authorize_candidate` finds at a path. -/
structure Workspace where
  discovered : List Candidate
  truncated : Bool
  authorize : String → Except Error Candidate

/-- `RepositoryInspection`. -/
structure Inspection where
  active : Option Candidate
  candidates : List Candidate
  discoveryTruncated : Bool
  state : SelectionState
  selectedRelativePath : Option String
  pendingRelativePath : Option String
  stored : Option StoredSelection
  desired : DesiredSelection

namespace Inspection

/-- `pending_action`, before it is written as a text. -/
def pendingAction (i : Inspection) : Option SelectionMode := i.stored.bind (·.pendingMode)

def hasPending (i : Inspection) : Bool := i.pendingAction.isSome

def requiresBoundaryChange (i : Inspection) : Bool :=
  boundaryKey i.stored ≠ i.desired.boundaryKey || i.hasPending

def requiresRuntimeRestart (i : Inspection) : Bool :=
  boundaryKey i.stored ≠ i.desired.boundaryKey || i.hasPending && i.state = .pending

end Inspection

/-! ## Inspecting -/

def automaticCandidate (candidates : List Candidate) (truncated : Bool) : Option Candidate :=
  (candidates.find? (·.relativePath = ".")).or
    (if !truncated && candidates.length = 1 then candidates[0]? else none)

def candidate (candidates : List Candidate) (relativePath : String) : Option Candidate :=
  candidates.find? (·.relativePath = relativePath)

/-- A path that discovery did not reach is authorized by itself. -/
def Workspace.addAuthorized (w : Workspace) (candidates : List Candidate) (path : String) :
    List Candidate :=
  if candidates.any (·.relativePath = path) then candidates
  else
    match w.authorize path with
    | .ok c => candidates ++ [c]
    | .error _ => candidates

def sortByPath (candidates : List Candidate) : List Candidate :=
  candidates.mergeSort fun a b => a.relativePath ≤ b.relativePath

/-- The candidates of an inspection. -/
def Workspace.candidates (w : Workspace) (stored : Option StoredSelection) : List Candidate :=
  match stored with
  | none => w.discovered
  | some s =>
      sortByPath
        ([s.relativePath, s.pendingRelativePath].reduceOption.foldl w.addAuthorized w.discovered)

/-- The active repository, the desired selection and the state. -/
def resolve (candidates : List Candidate) (truncated : Bool) (stored : Option StoredSelection) :
    Option Candidate × DesiredSelection × SelectionState :=
  let pendingMode := stored.bind (·.pendingMode)
  let pendingPath := stored.bind (·.pendingRelativePath)
  let pending := pendingPath.bind (candidate candidates)
  let selectedPath := stored.bind (·.relativePath)
  let selected := selectedPath.bind (candidate candidates)
  let mode := (stored.map (·.mode)).getD .automatic
  if pendingMode = some .cleared then (selected, ⟨none, none, .cleared⟩, .pending)
  else
    match pending with
    | some pending =>
        (selected, ⟨some pending.relativePath, some pending.identity, .manual⟩, .pending)
    | none =>
        if pendingPath.isSome then
          (selected, ⟨selectedPath, selected.map (·.identity), mode⟩, .missing)
        else if stored.any (·.mode = .cleared) then (none, ⟨none, none, .cleared⟩, .cleared)
        else
          match selected with
          | some selected =>
              (some selected, ⟨some selected.relativePath, some selected.identity, mode⟩,
                if stored.bind (·.repositoryIdentity) ≠ some selected.identity then .pending
                else .attached)
          | none =>
              let automaticallySelected :=
                if mode = .automatic ∧ selectedPath = none then
                  automaticCandidate candidates truncated
                else none
              match automaticallySelected with
              | some selected =>
                  (none, ⟨some selected.relativePath, some selected.identity, .automatic⟩, .pending)
              | none =>
                  (none, ⟨selectedPath, none, mode⟩,
                    if selectedPath.isSome then .missing
                    else if candidates.isEmpty && !truncated then .noRepository
                    else .ambiguous)

/-- `build_inspection`. -/
def buildInspection (candidates : List Candidate) (truncated : Bool)
    (stored : Option StoredSelection) : Inspection :=
  let (active, desired, state) := resolve candidates truncated stored
  { active, candidates, discoveryTruncated := truncated, state
    selectedRelativePath := stored.bind (·.relativePath)
    pendingRelativePath := stored.bind (·.pendingRelativePath)
    stored, desired }

/-! ## The database -/

/-- The row of the Agent, and the native session of each attempt and each conversation of it. -/
structure Db where
  selection : Option StoredSelection := none
  attempts : List (Option String) := []
  conversations : List (Option String) := []
deriving DecidableEq

inductive GenerationExpectation where
  | any
  | exact (generation : Option ℤ)

/-- `persist_selection`; the result says whether the row is written. -/
def persistSelection (desired : DesiredSelection) (pendingRelativePath : Option String)
    (pendingMode : Option SelectionMode) (invalidateSessions : Bool)
    (expectation : GenerationExpectation) (db : Db) : Except Error (Bool × Db) :=
  let current := db.selection.map (·.generation)
  let isCurrent := match expectation with
    | .any => true
    | .exact expected => current = expected
  if !isCurrent then .ok (false, db)
  else if h : Allowed desired.relativePath desired.repositoryIdentity desired.mode ∧
      PendingAllowed pendingRelativePath pendingMode then
    let row : StoredSelection :=
      { relativePath := desired.relativePath
        repositoryIdentity := desired.repositoryIdentity
        mode := desired.mode
        pendingRelativePath, pendingMode
        generation := (current.map (· + 1)).getD 1
        allowed := h.1
        pending_allowed := h.2 }
    if invalidateSessions then
      .ok (true,
        { selection := some row
          attempts := db.attempts.map fun _ => none
          conversations := db.conversations.map fun _ => none })
    else .ok (true, { db with selection := some row })
  else .error .constraint

/-! ## The calls -/

/-- `RepositoryBoundaryResult`. -/
structure BoundaryResult where
  inspection : Inspection
  changed : Bool

section Calls

variable (w : Workspace)

/-- What `inspect` makes of the row. -/
def Workspace.inspect (stored : Option StoredSelection) : Inspection :=
  buildInspection (w.candidates stored) w.truncated stored

def inspect : Prog Db Error Inspection := Prog.read fun db => w.inspect db.selection

def stored : Prog Db Error (Option StoredSelection) := Prog.read (·.selection)

/-- `apply_boundary`. -/
def applyBoundary : Prog Db Error BoundaryResult := do
  let inspection ← inspect w
  let runtimeChanged := inspection.requiresRuntimeRestart
  if inspection.requiresBoundaryChange then
    let _ ← Prog.tx (persistSelection inspection.desired none none runtimeChanged .any)
    let inspection ← inspect w
    pure ⟨inspection, runtimeChanged⟩
  else
    let inspection ← inspect w
    pure ⟨inspection, runtimeChanged⟩

/-- `select`. -/
def select (relativePath : String) : Prog Db Error BoundaryResult := do
  let candidate ← Prog.ret (w.authorize relativePath)
  let desired : DesiredSelection :=
    ⟨some candidate.relativePath, some candidate.identity, .manual⟩
  let previous ← stored
  let changed := previous.map (·.boundaryKey) ≠ some desired.boundaryKey
  let _ ← Prog.tx (persistSelection desired none none changed .any)
  let inspection ← inspect w
  pure ⟨inspection, changed⟩

/-- `clear`. -/
def clear : Prog Db Error BoundaryResult := do
  let desired : DesiredSelection := ⟨none, none, .cleared⟩
  let previous ← stored
  let changed := (previous.map fun s => decide (s.boundaryKey ≠ desired.boundaryKey)).getD true
  let _ ← Prog.tx (persistSelection desired none none changed .any)
  let inspection ← inspect w
  pure ⟨inspection, changed⟩

/-- The current selection of a row that was read, or of no row. -/
def currentSelection (stored : Option StoredSelection) : DesiredSelection :=
  (stored.map fun s => ⟨s.relativePath, s.repositoryIdentity, s.mode⟩).getD
    ⟨none, none, .automatic⟩

/-- `propose`. -/
def propose (relativePath : String) : Prog Db Error Inspection := do
  let candidate ← Prog.ret (w.authorize relativePath)
  let stored ← stored
  let _ ← Prog.tx (persistSelection (currentSelection stored) (some candidate.relativePath)
    (some .manual) false .any)
  inspect w

/-- `propose_clear`. -/
def proposeClear : Prog Db Error Inspection := do
  let stored ← stored
  let _ ← Prog.tx (persistSelection (currentSelection stored) none (some .cleared) false .any)
  inspect w

end Calls

end XpressClaw.Repositories
