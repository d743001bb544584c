import Mathlib.Data.List.Sort
import XpressClaw.Sync.Import

/-!
# Project memory

`memory/project.rs`: the notes of a Project, their tags, and the row of the vector index that
each note which is not archived has.  A note is written by a creation, an update (an archived
note is one with another state), a move of the memory of a Project, and an import.

What `validate_provenance` decides comes in with a creation: it reads tables that no memory
operation writes.  A new id is whatever the caller draws.
-/

namespace XpressClaw.Memory

open Lib Sync

/-- `NOTE_TYPES`. -/
def noteTypes : List String :=
  ["decision", "convention", "procedure", "fact", "warning", "question"]

/-- `NOTE_STATES`. -/
def noteStates : List String := ["inbox", "evergreen", "archived"]

/-- `NOTE_AUTHORS`. -/
def noteAuthors : List String := ["user", "agent", "upkeep"]

/-- The functions of texts, with the debug format of a text. -/
structure Formats extends Texts where
  debug : String → String

structure CreateProjectMemoryNote where
  title : String
  body : String
  summary : Option String := none
  noteType : String := "fact"
  state : String := "evergreen"
  sourceTaskId : Option String := none
  sourceAttemptId : Option String := none
  createdBy : String := "agent"
  pinned : Bool := false
  tags : List String := []

structure UpdateProjectMemoryNote where
  title : Option String := none
  body : Option String := none
  summary : Option String := none
  noteType : Option String := none
  state : Option String := none
  pinned : Option Bool := none
  tags : Option (List String) := none

/-! ## Checks -/

/-- `searchable_text`. -/
def searchableText (title summary body : String) (tags : List String) : String :=
  let joined := String.intercalate " " tags
  s!"{title}\n{summary}\n{body}\n{joined}"

/-- `required_text`. -/
def requiredText (field value : String) (maxChars : ℕ) : Except Error String := do
  let value := Text.trim value
  require (value ≠ "") (.memory s!"{field} must not be empty")
  require (value.toList.length ≤ maxChars)
    (.memory s!"{field} must be {maxChars} characters or fewer")
  .ok value

/-- `optional_text`. -/
def optionalText (value : Option String) (fallback : String) (maxChars : ℕ) (field : String) :
    Except Error String :=
  match (value.map Text.trim).filter (· ≠ "") with
  | some value => requiredText field value maxChars
  | none => .ok fallback

/-- `required_text` on a new value; without one the old value stays. -/
def replacedText (field : String) (value : Option String) (existing : String) (maxChars : ℕ) :
    Except Error String :=
  match value with
  | some value => requiredText field value maxChars
  | none => .ok existing

section

variable (formats : Formats)

/-- `validate_choice`. -/
def validateChoice (field value : String) (allowed : List String) : Except Error Unit :=
  let expected := String.intercalate ", " allowed
  require (value ∈ allowed)
    (.memory s!"invalid {field} {formats.debug value}; expected one of {expected}")

/-- The loop of `normalize_tags`; `seen` has the keys so far. -/
def normalizeEach : List String → List String → Except Error (List String)
  | [], _ => .ok []
  | tag :: tags, seen => do
      let tag ← requiredText "tag" tag 64
      let rest ← normalizeEach tags (formats.searchKey tag :: seen)
      .ok (if formats.searchKey tag ∈ seen then rest else tag :: rest)

/-- `normalize_tags`. -/
def normalizeTags (tags : List String) : Except Error (List String) := do
  require (tags.length ≤ 32) (.memory "a memory note may have at most 32 tags")
  normalizeEach formats tags []

/-! ## The index -/

/-- The rows of `project_memory_tags` for the tags of a note. -/
def tagRows (noteId : String) (tags : List String) : List MemoryTag :=
  tags.map fun tag => ⟨noteId, tag, formats.searchKey tag⟩

/-- `replace_tags`.  The keys of a note are unique. -/
def replaceTags (noteId : String) (tags : List String) (db : Db) : Except Error Db := do
  require (tags.map formats.searchKey).Nodup .database
  .ok { db with tags := db.tags.filter (·.noteId ≠ noteId) ++ tagRows formats noteId tags }

/-- `DELETE FROM project_memory_embeddings WHERE note_id = …`. -/
def deleteEmbedding (noteId : String) (db : Db) : Db :=
  { db with embeddings := db.embeddings.filter (·.noteId ≠ noteId) }

/-- `insert_embedding`.  The notes in the index are unique. -/
def insertEmbedding (noteId projectId embedding : String) (db : Db) : Except Error Db := do
  require (∀ e ∈ db.embeddings, e.noteId ≠ noteId) .database
  .ok { db with embeddings := db.embeddings ++ [⟨noteId, embedding, projectId⟩] }

/-- `insert_embedding`, unless the note is archived. -/
def embedUnlessArchived (state noteId projectId searchKey : String) (db : Db) :
    Except Error Db :=
  if state = "archived" then .ok db
  else insertEmbedding noteId projectId (formats.embedding searchKey) db

/-! ## Operations -/

/-- The row of a note of a Project, as `get_without_access` finds it. -/
def getNote (db : Db) (projectId noteId : String) : Except Error MemoryNote :=
  match (db.note? noteId).filter (·.projectId = projectId) with
  | some note => .ok note
  | none => .error (.memoryNotFound noteId)

/-- The tags of a note, as `get_without_access` reads them. -/
def tagsOfNote (db : Db) (noteId : String) : List String :=
  ((db.tags.filter (·.noteId = noteId)).insertionSort fun a b => a.tagKey ≤ b.tagKey).map (·.tag)

/-- The row that `create` inserts. -/
def createdNote (projectId id now title body summary : String) (tags : List String)
    (req : CreateProjectMemoryNote) : MemoryNote where
  id              := id
  projectId       := projectId
  title           := title
  body            := body
  summary         := summary
  noteType        := req.noteType
  state           := req.state
  sourceTaskId    := req.sourceTaskId
  sourceAttemptId := req.sourceAttemptId
  createdBy       := req.createdBy
  pinned          := req.pinned
  searchKey       := formats.searchKey (searchableText title summary body tags)
  createdAt       := now
  updatedAt       := now
  lastAccessedAt  := now

/-- `create`. -/
def create (db : Db) (projectId id : String) (provenance : Except Error Unit)
    (req : CreateProjectMemoryNote) : Except Error Db := do
  require (db.project? projectId).isSome (.memory s!"project not found: {projectId}")
  let title ← requiredText "title" req.title 200
  let body ← requiredText "body" req.body 100000
  let summary ← optionalText req.summary title 1000 "summary"
  validateChoice formats "note_type" req.noteType noteTypes
  validateChoice formats "state" req.state noteStates
  validateChoice formats "created_by" req.createdBy noteAuthors
  let tags ← normalizeTags formats req.tags
  provenance
  db.ensureProjectAcceptsWork projectId
  require (db.note? id).isNone .database
  let note := createdNote formats projectId id db.now title body summary tags req
  let db ← replaceTags formats note.id tags { db with notes := db.notes ++ [note] }
  embedUnlessArchived formats note.state note.id note.projectId note.searchKey db

/-- What `update` writes over the row of a note. -/
def updatedNote (now title body summary noteType state : String) (pinned : Bool)
    (tags : List String) (r : MemoryNote) : MemoryNote :=
  { r with
    title     := title
    body      := body
    summary   := summary
    noteType  := noteType
    state     := state
    pinned    := pinned
    searchKey := formats.searchKey (searchableText title summary body tags)
    updatedAt := now }

/-- The tags after an update: the new ones, or those that the note has. -/
def updatedTags (db : Db) (noteId : String) : Option (List String) → Except Error (List String)
  | some tags => normalizeTags formats tags
  | none => .ok (tagsOfNote db noteId)

/-- `update`. -/
def update (db : Db) (projectId noteId : String) (req : UpdateProjectMemoryNote) :
    Except Error Db := do
  let existing ← getNote db projectId noteId
  let title ← replacedText "title" req.title existing.title 200
  let body ← replacedText "body" req.body existing.body 100000
  let summary ← replacedText "summary" req.summary existing.summary 1000
  let noteType := req.noteType.getD existing.noteType
  let state := req.state.getD existing.state
  validateChoice formats "note_type" noteType noteTypes
  validateChoice formats "state" state noteStates
  let pinned := req.pinned.getD existing.pinned
  let tags ← updatedTags formats db noteId req.tags
  db.ensureProjectAcceptsWork projectId
  let write := updatedNote formats db.now title body summary noteType state pinned tags
  let written := db.notes.map fun r =>
    if r.id = noteId ∧ r.projectId = projectId then write r else r
  let db ← replaceTags formats noteId tags { db with notes := written }
  embedUnlessArchived formats (write existing).state noteId projectId (write existing).searchKey
    (deleteEmbedding noteId db)

/-- `archive`. -/
def archive (db : Db) (projectId noteId : String) : Except Error Db :=
  update formats db projectId noteId { state := some "archived" }

/-- `move_project_memory`. -/
def moveProjectMemory (db : Db) (sourceProjectId targetProjectId : String) : Except Error Db := do
  let notes := db.notes.filter (·.projectId = sourceProjectId)
  let cleared := notes.foldl (fun db n => deleteEmbedding n.id db) db
  let moved := { cleared with notes := cleared.notes.map fun r =>
    if r.projectId = sourceProjectId then { r with projectId := targetProjectId } else r }
  each (fun db n => embedUnlessArchived formats n.state n.id targetProjectId n.searchKey db)
    notes moved

/-- The operations that write notes. -/
inductive Op where
  /-- The clock goes on. -/
  | wait (now : String)
  | create (projectId id : String) (provenance : Except Error Unit)
      (req : CreateProjectMemoryNote)
  | update (projectId noteId : String) (req : UpdateProjectMemoryNote)
  | archive (projectId noteId : String)
  | moveProjectMemory (sourceProjectId targetProjectId : String)
  /-- A snapshot is loaded, which validates it, and imported. -/
  | importSnapshot (s : PortableSnapshot) (allowActiveConversations : Bool)

/-- What an operation leaves, if it succeeds. -/
def Op.exec (db : Db) : Op → Except Error Db
  | wait now => .ok { db with now := now }
  | create projectId id provenance req => Memory.create formats db projectId id provenance req
  | update projectId noteId req => Memory.update formats db projectId noteId req
  | archive projectId noteId => Memory.archive formats db projectId noteId
  | moveProjectMemory source target => Memory.moveProjectMemory formats db source target
  | importSnapshot s allow => do
      s.validate formats.toTexts
      let (_, db) ← db.importTransaction formats.toTexts s allow
      .ok db

/-- An operation is one transaction. -/
def step (db : Db) (o : Op) : Db :=
  match o.exec formats db with
  | .ok db' => db'
  | .error _ => db

end

end XpressClaw.Memory
