import Mathlib.Data.List.Dedup
import XpressClaw.Projects.Store

/-!
# Importing a Project

`import_transaction`: a snapshot of a Project is validated by itself, its records are written
over the local ones, and the graphs of the merged tasks are validated again.

Everything about a snapshot except its records' ids, references and the flags of its tasks is
left out; `ok` says whether the checks and the writes that concern the rest let the import
pass.
-/

namespace XpressClaw.Projects

open Lib

/-- A task of a snapshot. -/
structure PortableTask where
  id : String
  status : Tasks.TaskStatus := .pending
  agentId : Option String := none
  parentTaskId : Option String := none
  conversationId : Option String := none
  provenance : String := "durable"
  blocksParent : Bool := true
  hidden : Bool := false
  deriving DecidableEq

/-- `PortableSnapshot`. -/
structure Snapshot where
  projectId : String
  agents : List String := []
  conversations : List String := []
  participants : List Conversations.Participant := []
  tasks : List PortableTask := []
  taskDependencies : List Tasks.Dependency := []
  deriving DecidableEq

/-! ## The validation of graphs -/

/-- The inner loop of `validate_parent_cycles`: the path walked, or `none` on a cycle. -/
def walkParents (parents : List (String × Option String)) (resolved : List String) :
    ℕ → List String → Option String → Option (List String)
  | _, path, none => some path
  | 0, _, some _ => none
  | fuel + 1, path, some id =>
      if id ∈ resolved then some path
      else if id ∈ path then none
      else walkParents parents resolved fuel (id :: path) (parents.lookup id).join

/-- The outer loop of `validate_parent_cycles`. -/
def parentCycle (parents : List (String × Option String)) : List String → List String → Bool
  | [], _ => false
  | start :: starts, resolved =>
      if start ∈ resolved then parentCycle parents starts resolved
      else
        match walkParents parents resolved (parents.length + 1) [] (some start) with
        | none => true
        | some path => parentCycle parents starts (path ++ resolved)

/-- `validate_parent_cycles`. -/
def validateParentCycles (label : String) (parents : List (String × Option String)) :
    Except Error Unit :=
  require (¬ parentCycle parents (parents.map Prod.fst) [])
    (.sync s!"{label} parent graph contains a cycle")

/-- `unmet` and `ready` of `validate_dependency_cycles`. -/
structure Kahn where
  unmet : List (String × ℕ)
  ready : List String

/-- One dependency of a dependent is met. -/
def Kahn.release (k : Kahn) (dependent : String) : Kahn :=
  let unmet := Table.modify Prod.fst dependent (fun c => (c.1, c.2 - 1)) k.unmet
  { unmet := unmet
    ready :=
      if (Table.get Prod.fst unmet dependent).any (·.2 = 0) then k.ready ++ [dependent]
      else k.ready }

/-- The loop of `validate_dependency_cycles`; the result is `visited`. -/
def Kahn.drain (dependencies : List (String × String)) : ℕ → ℕ → Kahn → ℕ
  | 0, visited, _ => visited
  | fuel + 1, visited, k =>
      match k.ready with
      | [] => visited
      | id :: ready =>
          let dependents := (dependencies.filter (·.2 = id)).map Prod.fst
          drain dependencies fuel (visited + 1) (dependents.foldl release { k with ready := ready })

/-- The keys of `unmet`: the tasks of the set, and whatever else depends on something. -/
def counted (taskIds : List String) (dependencies : List (String × String)) : List String :=
  taskIds ++ ((dependencies.map Prod.fst).filter (· ∉ taskIds)).dedup

/-- `unmet` and `ready` before the loop. -/
def Kahn.start (taskIds : List String) (dependencies : List (String × String)) : Kahn where
  unmet := (counted taskIds dependencies).map fun id => (id, dependencies.countP (·.1 = id))
  ready := (counted taskIds dependencies).filter fun id => dependencies.countP (·.1 = id) = 0

/-- `validate_dependency_cycles`, on pairs of a task and what it depends on. -/
def validateDependencyCycles (taskIds : List String) (dependencies : List (String × String)) :
    Except Error Unit :=
  let visited := Kahn.drain dependencies ((counted taskIds dependencies).length + 1) 0
    (Kahn.start taskIds dependencies)
  require (visited = taskIds.length) (.sync "task dependency graph contains a cycle")

/-! ## The validation of a snapshot -/

namespace Snapshot

variable (s : Snapshot)

def taskIds : List String := s.tasks.map (·.id)

def parents : List (String × Option String) := s.tasks.map fun t => (t.id, t.parentTaskId)

def dependencies : List (String × String) :=
  s.taskDependencies.map fun d => (d.taskId, d.dependsOnId)

/-- `unique_ids`. -/
def uniqueIds (label : String) (ids : List String) : Except Error Unit :=
  require ids.Nodup (.sync s!"duplicate {label} ID")

/-- `validate_optional_reference`. -/
def validateOptionalReference (label owner : String) (reference : Option String)
    (valid : List String) : Except Error Unit :=
  require (reference.all (· ∈ valid)) (.sync s!"{label} on '{owner}' points outside this Project snapshot")

/-- The checks of `validate` on one task. -/
def validateTask (t : PortableTask) : Except Error Unit := do
  require (¬ t.hidden) (.sync s!"task '{t.id}' is hidden or has non-portable task_type")
  validateOptionalReference "task Agent" t.id t.agentId s.agents
  validateOptionalReference "parent task" t.id t.parentTaskId s.taskIds
  validateOptionalReference "task Conversation" t.id t.conversationId s.conversations

/-- The checks of `validate` on one dependency, apart from duplicates. -/
def validateDependency (d : Tasks.Dependency) : Except Error Unit := do
  require (d.taskId ∈ s.taskIds ∧ d.dependsOnId ∈ s.taskIds)
    (.sync "task dependency references a task outside this Project snapshot")
  require (d.taskId ≠ d.dependsOnId)
    (.sync "task dependencies contain a self-edge or duplicate edge")

/-- The checks of `validate` on one participant. -/
def validateParticipant (p : Conversations.Participant) : Except Error Unit := do
  require (p.conversationId ∈ s.conversations)
    (.sync "Conversation participant references an unknown Conversation")
  require (p.participantType = "agent" ∨ p.participantType = "user")
    (.sync s!"invalid participant type '{p.participantType}'")
  require (¬ (p.participantType = "agent" ∧ p.participantId ∉ s.agents))
    (.sync "Conversation participant references an Agent outside this Project snapshot")

/-- One check for every record of a list. -/
def forAll {ρ : Type} (check : ρ → Except Error Unit) : List ρ → Except Error Unit
  | [] => .ok ()
  | r :: rows => do
      check r
      forAll check rows

/-- `validate`. -/
def validate : Except Error Unit := do
  uniqueIds "Agent" s.agents
  uniqueIds "Conversation" s.conversations
  uniqueIds "task" s.taskIds
  forAll s.validateTask s.tasks
  validateParentCycles "task" s.parents
  forAll s.validateDependency s.taskDependencies
  require s.taskDependencies.Nodup
    (.sync "task dependencies contain a self-edge or duplicate edge")
  validateDependencyCycles s.taskIds s.dependencies
  require s.participants.Nodup (.sync "duplicate Conversation participant")
  forAll s.validateParticipant s.participants

end Snapshot

/-! ## The transaction -/

/-- `reject_foreign_owner`, on the owner of the local row if there is one. -/
def rejectForeignOwner (projectId id : String) : Option (Option String) → Except Error Unit
  | none => .ok ()
  | some owner =>
      require (owner = some projectId)
        (.sync s!"record '{id}' already belongs to another local Project")

namespace Db

variable (db : Db)

/-- `validate_local_scopes`. -/
def validateLocalScopes (s : Snapshot) : Except Error Unit := do
  Snapshot.forAll
    (fun id => rejectForeignOwner s.projectId id ((db.agent? id).map (·.projectId))) s.agents
  Snapshot.forAll
    (fun id => rejectForeignOwner s.projectId id ((db.task? id).map (·.projectId))) s.taskIds
  Snapshot.forAll
    (fun id => rejectForeignOwner s.projectId id ((db.conversation? id).map (·.projectId)))
    s.conversations

/-- The upsert of the project. -/
def upsertProject (projectId : String) : Db :=
  match db.project? projectId with
  | some _ => db
  | none => { db with projects := db.projects ++ [⟨projectId, false⟩] }

/-- The upsert of `import_agents`. -/
def upsertAgent (projectId : String) (db : Db) (id : String) : Db :=
  match db.agent? id with
  | some _ =>
      { db with
        agents := Table.modify (·.id) id
          (fun a => { a with projectId := some projectId }) db.agents }
  | none => { db with agents := db.agents ++ [⟨id, some projectId⟩] }

/-- The upsert of `import_conversations`. -/
def upsertConversation (projectId : String) (db : Db) (id : String) : Db :=
  match db.conversation? id with
  | some _ =>
      { db with
        conversations := Table.modify (·.id) id
          (fun c => { c with projectId := some projectId }) db.conversations }
  | none => { db with conversations := db.conversations ++ [⟨id, some projectId⟩] }

/-- The insert of `import_conversations`. -/
def importParticipant (db : Db) (p : Conversations.Participant) : Db :=
  if p ∈ db.participants then db else { db with participants := db.participants ++ [p] }

/-- `excluded.…` of the upsert of a task: everything but the parent. -/
def overwrite (projectId : String) (p : PortableTask) (t : Task) : Task :=
  { t with
    status := p.status
    agentId := p.agentId
    conversationId := p.conversationId
    projectId := some projectId
    provenance := p.provenance
    blocksParent := p.blocksParent
    hidden := p.hidden }

/-- The upsert of `import_tasks`. -/
def upsertTask (projectId : String) (db : Db) (p : PortableTask) : Db :=
  match db.task? p.id with
  | some _ => db.updateTasks (·.id = p.id) (overwrite projectId p)
  | none => { db with tasks := db.tasks ++ [overwrite projectId p { id := p.id }] }

/-- `UPDATE tasks SET parent_task_id = ? WHERE id = ?`. -/
def setParent (db : Db) (p : PortableTask) : Db :=
  db.updateTasks (·.id = p.id) fun t => { t with parentTaskId := p.parentTaskId }

/-- The insert of `import_tasks`. -/
def importDependency (db : Db) (d : Tasks.Dependency) : Db :=
  if d ∈ db.dependencies then db else { db with dependencies := db.dependencies ++ [d] }

/-- `import_tasks`. -/
def importTasks (s : Snapshot) : Db :=
  let upserted := s.tasks.foldl (upsertTask s.projectId) db
  let linked := s.tasks.foldl setParent upserted
  s.taskDependencies.foldl importDependency linked

/-- `validate_merged_task_graph`. -/
def validateMergedTaskGraph (projectId : String) : Except Error Unit := do
  let tasks := db.tasks.filter (·.projectId = some projectId)
  let taskIds := tasks.map (·.id)
  require (tasks.all fun t => t.parentTaskId.all (· ∈ taskIds))
    (.sync "merged task parent graph crosses the Project boundary")
  validateParentCycles "merged task" (tasks.map fun t => (t.id, t.parentTaskId))
  let dependencies := (db.dependencies.filter fun d =>
      (db.task? d.taskId).isSome && (db.task? d.dependsOnId).isSome &&
        (d.taskId ∈ taskIds || d.dependsOnId ∈ taskIds)).map fun d => (d.taskId, d.dependsOnId)
  require (dependencies.all fun d => d.1 ∈ taskIds && d.2 ∈ taskIds)
    (.sync "merged task dependency graph crosses the Project boundary")
  validateDependencyCycles taskIds dependencies

/-- What `import_transaction` writes before the merged graph is validated. -/
def merge (s : Snapshot) : Db :=
  let agents := s.agents.foldl (upsertAgent s.projectId) (db.upsertProject s.projectId)
  let conversations := s.conversations.foldl (upsertConversation s.projectId) agents
  (s.participants.foldl importParticipant conversations).importTasks s

/-- `import_transaction` on a snapshot that has been read and validated. -/
def importTransaction (s : Snapshot) (ok : Bool) : Except Error Db := do
  s.validate
  checkIf (db.project? s.projectId).isSome (db.ensureProjectAcceptsWork s.projectId)
  require ok .elsewhere
  db.validateLocalScopes s
  let merged := db.merge s
  merged.validateMergedTaskGraph s.projectId
  return merged

end Db

/-! ## The graph an import makes -/

/-- What the completion of the tasks waits on once the snapshot has been merged: everything the
snapshot says, the dependencies there are, and the blocking local tasks that the snapshot does
not mention. -/
def Db.mergedEdges (db : Db) (s : Snapshot) : List (String × String) :=
  s.dependencies ++ s.tasks.filterMap (fun t => childEdge t.id t.parentTaskId t.blocksParent) ++
    db.dependencies.map (fun d => (d.taskId, d.dependsOnId)) ++
    (db.tasks.filter (·.id ∉ s.taskIds)).filterMap fun t =>
      childEdge t.id t.parentTaskId t.blocksParent

end XpressClaw.Projects
