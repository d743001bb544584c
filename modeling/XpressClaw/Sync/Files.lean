import Mathlib.Data.List.Destutter
import Mathlib.Data.Prod.Lex
import Mathlib.Data.String.Basic
import XpressClaw.Lib.Bytes
import XpressClaw.Lib.Keyed
import XpressClaw.Sync.Secrets
import XpressClaw.Sync.Valid

/-!
# The store of a project

`PortableSnapshot::load` and `PortableSnapshot::write`: a directory with a descriptor, the
project, and a directory for each kind of record, in which each record has a file that is named
by the digest of its key.

A directory is the list of its entries.  What lies deeper than the record directories is only
refused or removed, so it is left out, and so are names that are no UTF-8 and the failures of
the file system itself.
-/

namespace XpressClaw.Sync

open Lib

/-! ## Files -/

/-- What a name stands for; `δ` is what a directory holds. -/
inductive Inode (δ : Type) where
  | file (text : String)
  /-- A file that is no text, with its length. -/
  | binary (length : ℕ)
  | directory (entries : δ)
  | symlink
  | special

/-- `Metadata::is_file`. -/
def Inode.isFile {δ : Type} : Inode δ → Bool
  | .file _ | .binary _ => true
  | _ => false

/-- `Metadata::is_dir`. -/
def Inode.isDir {δ : Type} : Inode δ → Bool
  | .directory _ => true
  | _ => false

/-- A directory of records. -/
abbrev RecordDir : Type := Dir (Inode Unit)

/-- The entries of a store. -/
abbrev StoreDir : Type := Dir (Inode RecordDir)

/-- `serde_yaml` on a type of records. -/
structure RecordYaml (α : Type) where
  toString : α → Except String String
  fromStr : String → Except String α

/-- The functions of libraries that the store calls. -/
structure StoreEnv extends Formats where
  descriptor : RecordYaml StoreDescriptor
  project : RecordYaml PortableProject
  agent : RecordYaml PortableAgent
  task : RecordYaml PortableTask
  dependency : RecordYaml Tasks.Dependency
  taskMessage : RecordYaml PortableTaskMessage
  conversation : RecordYaml PortableConversation
  participant : RecordYaml Participant
  conversationMessage : RecordYaml PortableConversationMessage
  workflow : RecordYaml PortableWorkflow
  memoryNote : RecordYaml PortableMemoryNote
  memoryLink : RecordYaml MemoryLink
  /-- `serde_json::to_string` on a snapshot. -/
  json : StoreSnapshot → String
  /-- `Sha256::digest`. -/
  sha256 : List UInt8 → List UInt8

namespace Store

def descriptorFile : String := ".xpressclaw-store.yml"

def projectFile : String := "project.yml"

def maxRecordBytes : ℕ := 2 * 1024 * 1024

def generatedDirs : List String :=
  ["agents", "tasks", "task-dependencies", "task-messages", "conversations",
    "conversation-participants", "conversation-messages", "workflows", "memory-notes",
    "memory-links"]

variable (env : StoreEnv)

/-! ## Keys and names -/

/-- `dependency_key`. -/
def dependencyKey (d : Tasks.Dependency) : String := d.taskId ++ "\x00" ++ d.dependsOnId

/-- `participant_key`. -/
def participantKey (p : Participant) : String :=
  p.key.conversationId ++ "\x00" ++ p.key.participantType ++ "\x00" ++ p.key.participantId

/-- `memory_link_key`. -/
def memoryLinkKey (l : MemoryLink) : String :=
  l.key.fromNoteId ++ "\x00" ++ l.key.toNoteId ++ "\x00" ++ l.key.linkType

/-- A byte, as `{byte:02x}` shows it. -/
def hexByte (b : UInt8) : List Char := [Nat.digitChar (b.toNat / 16), Nat.digitChar (b.toNat % 16)]

/-- `hex_digest`. -/
def hexDigest (data : List UInt8) : List Char := (env.sha256 data).flatMap hexByte

/-- `record_filename`. -/
def recordFilename (key : String) : String :=
  String.ofList (hexDigest env (bytes key.toList)) ++ ".yml"

/-- `Path::extension` of a file name. -/
def extension (name : String) : Option String :=
  let front := name.toList.reverse.dropWhile (· ≠ '.')
  if name = ".." ∨ front.length ≤ 1 then none
  else some (String.ofList (name.toList.reverse.takeWhile (· ≠ '.')).reverse)

/-! ## Reading -/

/-- `ensure_real_directory`, with what the directory holds. -/
def ensureRealDirectory {δ : Type} (path label : String) : Inode δ → Except Error δ
  | .directory entries => .ok entries
  | _ => .error (.sync s!"{label} {path} must be a real directory, not a symlink")

/-- `validate_store_entries`. -/
def validateStoreEntries (entries : StoreDir) : Except Error Unit :=
  forAll (fun (name, entry) =>
    require ((name ∈ [descriptorFile, projectFile] ∧ entry.isFile) ∨
        (name ∈ generatedDirs ∧ entry.isDir))
      (.sync s!"synchronization store contains unsupported entry '{name}'")) entries

/-- `reject_secret_text`. -/
def rejectSecretText (contents label : String) : Except Error Unit :=
  require (¬ hasSecret contents)
    (.sync s!"{label} appears to contain a credential; remove it before synchronization")

/-- `read_yaml`. -/
def readYaml {α δ : Type} (yaml : RecordYaml α) (path : String) : Option (Inode δ) → Except Error α
  | some (.file contents) => do
      require (Utf8.byteLen contents.toList ≤ maxRecordBytes)
        (.sync s!"{path} exceeds the 2 MiB record limit")
      rejectSecretText contents path
      match yaml.fromStr contents with
      | .ok value => .ok value
      | .error e => .error (.sync s!"invalid {path}: {e}")
  | some (.binary length) => do
      require (length ≤ maxRecordBytes) (.sync s!"{path} exceeds the 2 MiB record limit")
      .error (.sync s!"failed to read {path}: stream did not contain valid UTF-8")
  | some _ => .error (.sync s!"{path} must be a regular file, not a symlink")
  | none => .error (.sync s!"failed to inspect {path}: No such file or directory")

/-- What `read_records` does with an entry of a record directory. -/
def readRecord {α : Type} (yaml : RecordYaml α) (path : String) (entry : String × Inode Unit) :
    Except Error α := do
  require (entry.2.isFile ∧ extension entry.1 = some "yml")
    (.sync s!"{path} may contain only regular .yml record files")
  readYaml yaml (path ++ "/" ++ entry.1) (some entry.2)

/-- `read_records`. -/
def readRecords {α : Type} (root : String) (entries : StoreDir) (directory : String)
    (yaml : RecordYaml α) : Except Error (List α) :=
  let path := root ++ "/" ++ directory
  match Dir.get entries directory with
  | none => .ok []
  | some entry => do
      let files ← ensureRealDirectory path "record directory" entry
      require (files.length ≤ maxRecordsPerKind)
        (.sync s!"{path} contains more than {maxRecordsPerKind} records")
      readEach (readRecord yaml path) (sortBy Prod.fst files)

/-! ## Writing -/

/-- What `prepare_store_root` does with a generated directory. -/
def prepareDirectory (root : String) (entries : StoreDir) (directory : String) :
    Except Error StoreDir := do
  require ((Dir.get entries directory).all (·.isDir))
    (.sync s!"refusing to replace non-directory or symlink {root}/{directory}")
  .ok (Dir.put directory (.directory []) entries)

/-- `prepare_store_root`. -/
def prepareStoreRoot (root : String) : Option (Inode StoreDir) → Except Error StoreDir
  | none => each (prepareDirectory root) generatedDirs []
  | some inode => do
      let entries ← ensureRealDirectory root "synchronization store" inode
      validateStoreEntries entries
      each (prepareDirectory root) generatedDirs entries

/-- What `write_yaml` writes. -/
def yamlText {α : Type} (yaml : RecordYaml α) (path : String) (value : α) : Except Error String :=
  match yaml.toString value with
  | .error e => .error (.sync s!"failed to serialize {path}: {e}")
  | .ok text => do
      require (Utf8.byteLen text.toList ≤ maxRecordBytes)
        (.sync s!"{path} exceeds the 2 MiB record limit")
      rejectSecretText text path
      .ok text

/-- `write_yaml` on a file of the store itself. -/
def writeYaml {α : Type} (root : String) (name : String) (yaml : RecordYaml α) (value : α)
    (entries : StoreDir) : Except Error StoreDir := do
  let text ← yamlText yaml (root ++ "/" ++ name) value
  .ok (Dir.put name (.file text) entries)

/-- What a directory of the store holds. -/
def filesOf (entries : StoreDir) (directory : String) : RecordDir :=
  match Dir.get entries directory with
  | some (.directory files) => files
  | _ => []

/-- `write_yaml` on a file in a directory of the store. -/
def writeRecord {α : Type} (root directory : String) (yaml : RecordYaml α) (key : α → String)
    (entries : StoreDir) (record : α) : Except Error StoreDir := do
  let name := recordFilename env (key record)
  let text ← yamlText yaml (root ++ "/" ++ directory ++ "/" ++ name) record
  .ok (Dir.put directory (.directory (Dir.put name (.file text) (filesOf entries directory)))
    entries)

/-- `write_records`. -/
def writeRecords {α : Type} (root directory : String) (yaml : RecordYaml α) (key : α → String)
    (records : List α) (entries : StoreDir) : Except Error StoreDir := do
  require (records.length ≤ maxRecordsPerKind)
    (.sync s!"{directory} contains more than {maxRecordsPerKind} records")
  each (writeRecord env root directory yaml key) records entries

end Store

/-! ## Snapshots -/

namespace StoreSnapshot

open Store

variable (env : StoreEnv) (s : StoreSnapshot)

/-- What `normalize` does with a memory note: `sort` and `dedup` of its tags. -/
def normalizeNote (note : PortableMemoryNote) : PortableMemoryNote :=
  { note with tags := (sortBy id note.tags).destutter (· ≠ ·) }

/-- `PortableSnapshot::normalize`. -/
def normalize : StoreSnapshot where
  descriptor := s.descriptor
  project := s.project
  agents := sortBy (·.id) s.agents
  tasks := sortBy (·.id) s.tasks
  taskDependencies := sortBy (fun d => toLex (d.taskId, d.dependsOnId)) s.taskDependencies
  taskMessages := sortBy (·.recordId) s.taskMessages
  conversations := sortBy (·.id) s.conversations
  participants :=
    sortBy (fun p => toLex (p.key.conversationId,
      toLex (p.key.participantType, p.key.participantId))) s.participants
  conversationMessages := sortBy (·.recordId) s.conversationMessages
  workflows := sortBy (·.id) s.workflows
  memoryNotes := sortBy (·.id) (s.memoryNotes.map normalizeNote)
  memoryLinks :=
    sortBy (fun l => toLex (l.key.fromNoteId, toLex (l.key.toNoteId, l.key.linkType))) s.memoryLinks

/-- `reject_snapshot_secrets`. -/
def rejectSnapshotSecrets : Except Error Unit :=
  rejectSecretText (env.json s) "portable Project state"

/-- `validate_for_sync`. -/
def validateForSync (projectId : String) : Except Error Unit := do
  s.rejectSnapshotSecrets env
  s.validate env.toFormats projectId

/-- `PortableSnapshot::digest`. -/
def digest : String := String.ofList (hexDigest env (bytes (env.json s.normalize).toList))

/-- The records of a store as they lie there. -/
def read (root : String) (entries : StoreDir) : Except Error StoreSnapshot := do
  let descriptor ← readYaml env.descriptor (root ++ "/" ++ descriptorFile)
    (Dir.get entries descriptorFile)
  let project ← readYaml env.project (root ++ "/" ++ projectFile) (Dir.get entries projectFile)
  let agents ← readRecords root entries "agents" env.agent
  let tasks ← readRecords root entries "tasks" env.task
  let taskDependencies ← readRecords root entries "task-dependencies" env.dependency
  let taskMessages ← readRecords root entries "task-messages" env.taskMessage
  let conversations ← readRecords root entries "conversations" env.conversation
  let participants ← readRecords root entries "conversation-participants" env.participant
  let conversationMessages ← readRecords root entries "conversation-messages"
    env.conversationMessage
  let workflows ← readRecords root entries "workflows" env.workflow
  let memoryNotes ← readRecords root entries "memory-notes" env.memoryNote
  let memoryLinks ← readRecords root entries "memory-links" env.memoryLink
  .ok
    { descriptor, project, agents, tasks, taskDependencies, taskMessages, conversations,
      participants, conversationMessages, workflows, memoryNotes, memoryLinks }

/-- `PortableSnapshot::load`. -/
def load (root : String) (inode : Option (Inode StoreDir)) (expectedProjectId : String) :
    Except Error StoreSnapshot :=
  match inode with
  | none => .error (.sync s!"failed to inspect {root}: No such file or directory")
  | some inode => do
      let entries ← ensureRealDirectory root "synchronization store" inode
      validateStoreEntries entries
      let snapshot ← read env root entries
      let snapshot := snapshot.normalize
      snapshot.validate env.toFormats expectedProjectId
      snapshot.rejectSnapshotSecrets env
      .ok snapshot

/-- The files of a snapshot, in the order in which `write` writes them. -/
def writeAll (root : String) (entries : StoreDir) : Except Error StoreDir := do
  let entries ← writeYaml root descriptorFile env.descriptor s.descriptor entries
  let entries ← writeYaml root projectFile env.project s.project entries
  let entries ← writeRecords env root "agents" env.agent (·.id) s.agents entries
  let entries ← writeRecords env root "tasks" env.task (·.id) s.tasks entries
  let entries ← writeRecords env root "task-dependencies" env.dependency dependencyKey
    s.taskDependencies entries
  let entries ← writeRecords env root "task-messages" env.taskMessage (·.recordId) s.taskMessages
    entries
  let entries ← writeRecords env root "conversations" env.conversation (·.id) s.conversations
    entries
  let entries ← writeRecords env root "conversation-participants" env.participant participantKey
    s.participants entries
  let entries ← writeRecords env root "conversation-messages" env.conversationMessage (·.recordId)
    s.conversationMessages entries
  let entries ← writeRecords env root "workflows" env.workflow (·.id) s.workflows entries
  let entries ← writeRecords env root "memory-notes" env.memoryNote (·.id) s.memoryNotes entries
  writeRecords env root "memory-links" env.memoryLink memoryLinkKey s.memoryLinks entries

/-- `PortableSnapshot::write`: the store afterwards, whatever was there before. -/
def write (root : String) (inode : Option (Inode StoreDir)) : Except Error StoreDir := do
  let snapshot := s.normalize
  snapshot.validateForSync env snapshot.project.id
  let entries ← prepareStoreRoot root inode
  snapshot.writeAll env root entries

end StoreSnapshot

end XpressClaw.Sync
