import XpressClaw.Sync.Accepted
import XpressClaw.Sync.Files

/-!
# The store gives back what was written to it

`write` replaces whatever a store held by the files of a snapshot, and `load` reads the snapshot
back, in the order of its keys.

* `recordFilename_inj` — different keys have different files.
* `Holds` — the files of one kind are those of its records; `readRecords_of_holds` reads them.
* `writeAll_holds` — after `write` this is so for every kind.
* `load_write` — the round trip.
-/

namespace XpressClaw.Sync

open Lib Projects

namespace Store

variable {env : StoreEnv}

/-! ## Names of files -/

theorem digitChar_inj : ∀ a < 16, ∀ b < 16, Nat.digitChar a = Nat.digitChar b → a = b := by decide

theorem hexByte_inj {a b : UInt8} (h : hexByte a = hexByte b) : a = b := by
  simp only [hexByte, List.cons.injEq, and_true] at h
  have ha := a.toNat_lt
  have hb := b.toNat_lt
  have hdiv := digitChar_inj (a.toNat / 16) (by omega) (b.toNat / 16) (by omega) h.1
  have hmod := digitChar_inj (a.toNat % 16) (by omega) (b.toNat % 16) (by omega) h.2
  apply UInt8.toNat_inj.1
  omega

theorem flatMap_hexByte_inj {xs ys : List UInt8} (h : xs.flatMap hexByte = ys.flatMap hexByte) :
    xs = ys := by
  induction xs generalizing ys with
  | nil =>
    cases ys with
    | nil => rfl
    | cons y ys => cases h
  | cons x xs ih =>
    cases ys with
    | nil => cases h
    | cons y ys =>
      rw [List.flatMap_cons, List.flatMap_cons] at h
      obtain ⟨hbyte, hrest⟩ := List.append_inj h rfl
      rw [hexByte_inj hbyte, ih hrest]

theorem recordFilename_inj {k k' : String} (h : recordFilename env k = recordFilename env k') :
    env.sha256 (bytes k.toList) = env.sha256 (bytes k'.toList) := by
  apply flatMap_hexByte_inj
  apply String.ofList_injective
  exact String.append_left_inj ".yml" |>.1 h

theorem extension_recordFilename (hsha : ∀ data, (env.sha256 data).length = 32) (k : String) :
    extension (recordFilename env k) = some "yml" := by
  have hlist : (recordFilename env k).toList.reverse =
      'l' :: 'm' :: 'y' :: '.' :: (hexDigest env (bytes k.toList)).reverse := by
    simp [recordFilename]
  have hlength : (hexDigest env (bytes k.toList)).length = 64 := by
    have hhex : ∀ data : List UInt8, (data.flatMap hexByte).length = 2 * data.length := by
      intro data
      induction data with
      | nil => rfl
      | cons b data ih =>
        rw [List.flatMap_cons, List.length_append, ih]
        simp only [hexByte, List.length_cons, List.length_nil]
        omega
    rw [hexDigest, hhex, hsha]
  have hdots : recordFilename env k ≠ ".." := by
    intro h
    rw [h] at hlist
    simp at hlist
  unfold extension
  rw [hlist]
  simp [hdots, hlength]

/-! ## Keys -/

theorem dependencyKey_inj {d d' : Tasks.Dependency} (hd : '\x00' ∉ d.taskId.toList)
    (hd' : '\x00' ∉ d'.taskId.toList) (h : dependencyKey d = dependencyKey d') : d = d' := by
  have hlist := congrArg String.toList h
  simp only [dependencyKey, String.toList_append, List.append_assoc] at hlist
  obtain ⟨htask, hdepends⟩ := (append_sep_inj hd hd').1 hlist
  obtain ⟨taskId, dependsOnId⟩ := d
  obtain ⟨taskId', dependsOnId'⟩ := d'
  simp only at htask hdepends
  rw [String.toList_injective htask, String.toList_injective hdepends]

theorem triple_inj {a b c a' b' c' : String} (ha : '\x00' ∉ a.toList) (ha' : '\x00' ∉ a'.toList)
    (hb : '\x00' ∉ b.toList) (hb' : '\x00' ∉ b'.toList)
    (h : a ++ "\x00" ++ b ++ "\x00" ++ c = a' ++ "\x00" ++ b' ++ "\x00" ++ c') :
    a = a' ∧ b = b' ∧ c = c' := by
  have hlist := congrArg String.toList h
  simp only [String.toList_append, List.append_assoc] at hlist
  obtain ⟨hfirst, hrest⟩ := (append_sep_inj ha ha').1 hlist
  obtain ⟨hsecond, hthird⟩ := (append_sep_inj hb hb').1 hrest
  exact ⟨String.toList_injective hfirst, String.toList_injective hsecond,
    String.toList_injective hthird⟩

/-! ## Entries of a store -/

/-- The entries that `validate_store_entries` lets pass. -/
def Allowed (entries : StoreDir) : Prop := ∀ e ∈ entries,
  (e.1 ∈ [descriptorFile, projectFile] ∧ e.2.isFile) ∨ (e.1 ∈ generatedDirs ∧ e.2.isDir)

/-- One entry of the store was written, the others are as before. -/
structure Stage (name : String) (x : Inode RecordDir) (entries entries' : StoreDir) : Prop where
  get : ∀ n, Dir.get entries' n = if n = name then some x else Dir.get entries n
  allowed : Allowed entries → Allowed entries'

theorem validateStoreEntries_ok {entries : StoreDir} :
    validateStoreEntries entries = .ok () ↔ Allowed entries := by
  rw [validateStoreEntries, forAll_ok]
  simp only [require_ok]
  rfl

theorem stage_put {name : String} {x : Inode RecordDir} {entries : StoreDir}
    (hname : (name ∈ [descriptorFile, projectFile] ∧ x.isFile) ∨
      (name ∈ generatedDirs ∧ x.isDir)) : Stage name x entries (Dir.put name x entries) where
  get n := by
    by_cases h : n = name
    · subst h
      rw [if_pos rfl, Dir.get_put_self]
    · rw [if_neg h, Dir.get_put_of_ne h]
  allowed hallowed e he := by
    rcases Dir.mem_put he with rfl | ⟨hmem, -⟩
    · exact hname
    · exact hallowed e hmem

/-- Every generated directory is there and empty. -/
theorem prepareStoreRoot_ok {root : String} {inode : Option (Inode StoreDir)} {entries : StoreDir}
    (h : prepareStoreRoot root inode = .ok entries) :
    Allowed entries ∧ ∀ d ∈ generatedDirs, Dir.get entries d = some (.directory []) := by
  have hloop : ∀ {dirs : List String} {before : StoreDir}, (∀ d ∈ dirs, d ∈ generatedDirs) →
      Allowed before → each (prepareDirectory root) dirs before = .ok entries →
      Allowed entries ∧ (∀ d ∈ dirs, Dir.get entries d = some (.directory [])) ∧
        ∀ d, Dir.get before d = some (.directory []) →
          Dir.get entries d = some (.directory []) := by
    intro dirs before hdirs hallowed hrun
    induction dirs generalizing before with
    | nil =>
      cases hrun
      exact ⟨hallowed, by simp, fun d hd => hd⟩
    | cons d dirs ih =>
      obtain ⟨after, hstep, hrun⟩ := bind_ok hrun
      obtain ⟨_, -, hstep⟩ := bind_ok hstep
      cases hstep
      have hstage : Stage d (.directory []) before (Dir.put d (.directory []) before) :=
        stage_put (Or.inr ⟨hdirs d List.mem_cons_self, rfl⟩)
      obtain ⟨hafter, hall, hkept⟩ := ih (fun d' hd' => hdirs d' (List.mem_cons_of_mem _ hd'))
        (hstage.allowed hallowed) hrun
      refine ⟨hafter, fun d' hd' => ?_, fun d' hd' => hkept d' ?_⟩
      · rcases List.mem_cons.1 hd' with rfl | hd'
        · exact hkept d' (by rw [hstage.get, if_pos rfl])
        · exact hall d' hd'
      · rw [hstage.get]
        split
        · rfl
        · exact hd'
  cases inode with
  | none =>
    obtain ⟨h1, h2, -⟩ := hloop (fun _ hd => hd) (by simp [Allowed]) h
    exact ⟨h1, h2⟩
  | some inode =>
    obtain ⟨before, -, h⟩ := bind_ok h
    obtain ⟨_, hvalid, h⟩ := bind_ok h
    obtain ⟨h1, h2, -⟩ := hloop (fun _ hd => hd) (validateStoreEntries_ok.1 hvalid) h
    exact ⟨h1, h2⟩

/-! ## Writing -/

variable {α : Type} {yaml : RecordYaml α} {key : α → String} {root directory : String}
  {records : List α} {entries entries' : StoreDir}

/-- What `write_yaml` makes of a value, if it does not fail. -/
def text (yaml : RecordYaml α) (x : α) : String := (yaml.toString x).toOption.getD ""

/-- A text that may stand in the store. -/
def Storable (contents : String) : Prop :=
  Utf8.byteLen contents.toList ≤ maxRecordBytes ∧ hasSecret contents = false

/-- A value whose text was written. -/
def Written (yaml : RecordYaml α) (x : α) : Prop :=
  yaml.toString x = .ok (text yaml x) ∧ Storable (text yaml x)

theorem yamlText_ok {path contents : String} {x : α} (h : yamlText yaml path x = .ok contents) :
    contents = text yaml x ∧ Written yaml x := by
  unfold yamlText at h
  cases hx : yaml.toString x with
  | error e =>
    rw [hx] at h
    cases h
  | ok t =>
    rw [hx] at h
    obtain ⟨_, hlen, h⟩ := bind_ok h
    obtain ⟨_, hsecret, h⟩ := bind_ok h
    cases h
    have htext : text yaml x = contents := by
      rw [text, hx]
      rfl
    have hstorable : Storable contents :=
      ⟨require_ok.1 hlen, by simpa using require_ok.1 hsecret⟩
    exact ⟨htext.symm, by rw [htext, hx], htext ▸ hstorable⟩

/-- The file of a record. -/
def recordFile (env : StoreEnv) (yaml : RecordYaml α) (key : α → String) (x : α) :
    String × Inode Unit :=
  (recordFilename env (key x), .file (text yaml x))

theorem writeYaml_ok {name : String} {x : α} (hname : name ∈ [descriptorFile, projectFile])
    (h : writeYaml root name yaml x entries = .ok entries') :
    Stage name (.file (text yaml x)) entries entries' ∧ Written yaml x := by
  obtain ⟨contents, htext, h⟩ := bind_ok h
  cases h
  obtain ⟨rfl, hx⟩ := yamlText_ok htext
  exact ⟨stage_put (Or.inl ⟨hname, rfl⟩), hx⟩

/-- The loop of `write_records`. -/
theorem writeEach_ok {files : RecordDir} (hname : directory ∈ generatedDirs)
    (hfiles : Dir.get entries directory = some (.directory files))
    (h : each (writeRecord env root directory yaml key) records entries = .ok entries') :
    Stage directory (.directory (Dir.putAll (records.map (recordFile env yaml key)) files))
      entries entries' ∧ (∀ x ∈ records, Written yaml x) := by
  induction records generalizing entries files with
  | nil =>
    cases h
    refine ⟨⟨fun n => ?_, fun h => h⟩, by simp⟩
    split
    · rename_i hn
      rw [hn, hfiles]
      rfl
    · rfl
  | cons x records ih =>
    obtain ⟨after, hstep, h⟩ := bind_ok h
    obtain ⟨contents, htext, hstep⟩ := bind_ok hstep
    cases hstep
    obtain ⟨rfl, hx⟩ := yamlText_ok htext
    have hof : filesOf entries directory = files := by rw [filesOf, hfiles]
    rw [hof] at h
    obtain ⟨hstage, hrest⟩ := ih Dir.get_put_self h
    have hput : Stage directory (.directory (Dir.put (recordFilename env (key x))
        (.file (text yaml x)) files)) entries _ := stage_put (Or.inr ⟨hname, rfl⟩)
    refine ⟨⟨fun n => ?_, fun hallowed => hstage.allowed (hput.allowed hallowed)⟩,
      List.forall_mem_cons.2 ⟨hx, hrest⟩⟩
    rw [hstage.get, hput.get]
    split <;> rfl

/-- The files of a record directory are those of the records, each with its own name. -/
structure Holds (env : StoreEnv) (yaml : RecordYaml α) (key : α → String) (records : List α)
    (files : RecordDir) : Prop where
  files_eq : files = records.map (recordFile env yaml key)
  written : ∀ x ∈ records, Written yaml x
  names : (files.map Prod.fst).Nodup
  count : records.length ≤ maxRecordsPerKind

theorem writeRecords_ok (hname : directory ∈ generatedDirs)
    (hfiles : Dir.get entries directory = some (.directory []))
    (hkeys : (records.map fun x => recordFilename env (key x)).Nodup)
    (h : writeRecords env root directory yaml key records entries = .ok entries') :
    Stage directory (.directory (records.map (recordFile env yaml key))) entries entries' ∧
      Holds env yaml key records (records.map (recordFile env yaml key)) := by
  obtain ⟨_, hcount, h⟩ := bind_ok h
  obtain ⟨hstage, hwritten⟩ := writeEach_ok hname hfiles h
  have hnames : ((records.map (recordFile env yaml key)).map Prod.fst).Nodup := by
    rw [List.map_map]
    exact hkeys
  rw [Dir.putAll_nil hnames] at hstage
  exact ⟨hstage, rfl, hwritten, hnames, require_ok.1 hcount⟩

/-! ## Reading -/

/-- The YAML of each record is read back. -/
def ReadsBack (yaml : RecordYaml α) (records : List α) : Prop :=
  ∀ x ∈ records, ∀ contents, yaml.toString x = .ok contents → yaml.fromStr contents = .ok x

theorem readYaml_written (δ : Type) (path : String) {x : α} (hx : Written yaml x)
    (hback : yaml.fromStr (text yaml x) = .ok x) :
    readYaml yaml path (some (.file (text yaml x) : Inode δ)) = .ok x := by
  have hlen : require (Utf8.byteLen (text yaml x).toList ≤ maxRecordBytes)
      (.sync s!"{path} exceeds the 2 MiB record limit") = .ok () := require_ok.2 hx.2.1
  have hsecret : rejectSecretText (text yaml x) path = .ok () :=
    require_ok.2 (by simp [hx.2.2])
  rw [readYaml, hlen, hsecret, hback]
  rfl

/-- A directory of the store has the files of the records of a kind. -/
structure Stored (env : StoreEnv) (entries : StoreDir) (directory : String) (yaml : RecordYaml α)
    (key : α → String) (records : List α) : Prop where
  get : Dir.get entries directory = some (.directory (records.map (recordFile env yaml key)))
  holds : Holds env yaml key records (records.map (recordFile env yaml key))

/-- The records of a directory are read in the order of the names of their files. -/
theorem Stored.readRecords (hsha : ∀ data, (env.sha256 data).length = 32)
    (h : Stored env entries directory yaml key records) (hback : ReadsBack yaml records)
    (root : String) :
    Store.readRecords root entries directory yaml =
      .ok (sortBy (fun x => recordFilename env (key x)) records) := by
  have hholds := h.holds
  have hfiles := h.get
  set files := records.map (recordFile env yaml key)
  have hcount (e : Error) : require (files.length ≤ maxRecordsPerKind) e = .ok () := by
    refine require_ok.2 ?_
    rw [hholds.files_eq, List.length_map]
    exact hholds.count
  have hsorted : sortBy Prod.fst files =
      (sortBy (fun x => recordFilename env (key x)) records).map (recordFile env yaml key) := by
    rw [hholds.files_eq, ← map_sortBy]
    rfl
  have hread : readEach (readRecord yaml (root ++ "/" ++ directory)) (sortBy Prod.fst files) =
      .ok (sortBy (fun x => recordFilename env (key x)) records) := by
    rw [hsorted]
    refine readEach_map fun x hx => ?_
    have hmem := mem_sortBy.1 hx
    have hwritten := hholds.written x hmem
    have hregular (e : Error) : require ((recordFile env yaml key x).2.isFile ∧
        extension (recordFile env yaml key x).1 = some "yml") e = .ok () :=
      require_ok.2 ⟨rfl, extension_recordFilename hsha (key x)⟩
    rw [readRecord, hregular]
    exact readYaml_written Unit _ hwritten (hback x hmem _ hwritten.1)
  simp only [Store.readRecords, hfiles, ensureRealDirectory]
  show (require _ _ >>= fun _ => _) = _
  rw [hcount]
  exact hread

end Store

/-! ## Snapshots -/

namespace StoreSnapshot

open Store

variable {env : StoreEnv} {s t u : StoreSnapshot} {root : String} {entries : StoreDir}

theorem normalizeNote_idem (n : PortableMemoryNote) :
    normalizeNote (normalizeNote n) = normalizeNote n := by
  have hsorted : ((sortBy id n.tags).destutter (· ≠ ·)).Pairwise fun x y => id x ≤ id y :=
    (sortBy_sorted id n.tags).sublist (List.destutter_sublist _ _)
  unfold normalizeNote
  simp only [sortBy_of_sorted hsorted, List.destutter_idem]

theorem normalize_normalize (s : StoreSnapshot) : s.normalize.normalize = s.normalize := by
  have hnotes : (sortBy (·.id) (s.memoryNotes.map normalizeNote)).map normalizeNote =
      sortBy (·.id) (s.memoryNotes.map normalizeNote) := by
    rw [List.map_congr_left (g := id) fun n hn => ?_, List.map_id]
    obtain ⟨n, -, rfl⟩ := List.mem_map.1 (mem_sortBy.1 hn)
    exact normalizeNote_idem n
  simp only [normalize, sortBy_sortBy, hnotes]

/-- The same records, each kind in some order. -/
structure Shuffled (t u : StoreSnapshot) : Prop where
  descriptor : t.descriptor = u.descriptor
  project : t.project = u.project
  agents : t.agents.Perm u.agents
  tasks : t.tasks.Perm u.tasks
  taskDependencies : t.taskDependencies.Perm u.taskDependencies
  taskMessages : t.taskMessages.Perm u.taskMessages
  conversations : t.conversations.Perm u.conversations
  participants : t.participants.Perm u.participants
  conversationMessages : t.conversationMessages.Perm u.conversationMessages
  workflows : t.workflows.Perm u.workflows
  memoryNotes : t.memoryNotes.Perm u.memoryNotes
  memoryLinks : t.memoryLinks.Perm u.memoryLinks

theorem nodup_of_inj {α β γ : Type} {xs : List α} {f : α → β} {g : α → γ}
    (h : (xs.map f).Nodup) (hinj : ∀ x ∈ xs, ∀ y ∈ xs, g x = g y → f x = f y) :
    (xs.map g).Nodup := by
  have hnodup : xs.Nodup := List.Nodup.of_map f h
  refine List.Nodup.map_on (fun x hx y hy hxy => ?_) hnodup
  exact List.inj_on_of_nodup_map h hx hy (hinj x hx y hy hxy)

/-- Normalization forgets the order of the records. -/
theorem WellFormed.normalize_eq (hw : t.WellFormed) (h : Shuffled t u) :
    t.normalize = u.normalize := by
  have hdependencies : (t.taskDependencies.map fun d => toLex (d.taskId, d.dependsOnId)).Nodup := by
    refine nodup_of_inj (f := id) (by simpa using hw.dependencies) fun d _ d' _ hdd' => ?_
    have hpair := Prod.mk.inj (toLex.injective hdd')
    obtain ⟨a, b⟩ := d
    obtain ⟨a', b'⟩ := d'
    simp only at hpair
    rw [hpair.1, hpair.2]
  have hparticipants : (t.participants.map fun p => toLex (p.key.conversationId,
      toLex (p.key.participantType, p.key.participantId))).Nodup := by
    refine nodup_of_inj hw.participants fun p _ p' _ hpp' => ?_
    have hpair := Prod.mk.inj (toLex.injective hpp')
    have hrest := Prod.mk.inj (toLex.injective hpair.2)
    obtain ⟨⟨a, b, c⟩, d⟩ := p
    obtain ⟨⟨a', b', c'⟩, d'⟩ := p'
    simp only at hpair hrest ⊢
    rw [hpair.1, hrest.1, hrest.2]
  have hlinks : (t.memoryLinks.map fun l => toLex (l.key.fromNoteId,
      toLex (l.key.toNoteId, l.key.linkType))).Nodup := by
    refine nodup_of_inj hw.links fun l _ l' _ hll' => ?_
    have hpair := Prod.mk.inj (toLex.injective hll')
    have hrest := Prod.mk.inj (toLex.injective hpair.2)
    obtain ⟨⟨a, b, c⟩, d, e⟩ := l
    obtain ⟨⟨a', b', c'⟩, d', e'⟩ := l'
    simp only at hpair hrest ⊢
    rw [hpair.1, hrest.1, hrest.2]
  have hmessages : (t.taskMessages.map (·.recordId)).Nodup := by
    simpa [taskGraph, Function.comp_def] using hw.taskThread.ids.nodup
  have hchat : (t.conversationMessages.map (·.recordId)).Nodup := by
    simpa [chatGraph, Function.comp_def] using hw.chat.ids.nodup
  have hnotes : ((t.memoryNotes.map normalizeNote).map (·.id)).Nodup := by
    rw [List.map_map]
    exact hw.notes.nodup
  unfold normalize
  rw [h.descriptor, h.project, sortBy_eq_of_perm hw.agents.nodup h.agents,
    sortBy_eq_of_perm hw.tasks.nodup h.tasks, sortBy_eq_of_perm hdependencies h.taskDependencies,
    sortBy_eq_of_perm hmessages h.taskMessages,
    sortBy_eq_of_perm hw.conversations.nodup h.conversations,
    sortBy_eq_of_perm hparticipants h.participants, sortBy_eq_of_perm hchat h.conversationMessages,
    sortBy_eq_of_perm hw.workflows.nodup h.workflows,
    sortBy_eq_of_perm hnotes (h.memoryNotes.map _), sortBy_eq_of_perm hlinks h.memoryLinks]

/-- The keys of the records, which name their files. -/
def keys (s : StoreSnapshot) : List String :=
  [s.agents.map (·.id), s.tasks.map (·.id), s.taskDependencies.map dependencyKey,
    s.taskMessages.map (·.recordId), s.conversations.map (·.id),
    s.participants.map participantKey, s.conversationMessages.map (·.recordId),
    s.workflows.map (·.id), s.memoryNotes.map (·.id), s.memoryLinks.map memoryLinkKey].flatten

/-- No two keys of a snapshot have the same digest. -/
def NoCollision (env : StoreEnv) (s : StoreSnapshot) : Prop :=
  ∀ k ∈ s.keys, ∀ k' ∈ s.keys, env.sha256 (bytes k.toList) = env.sha256 (bytes k'.toList) → k = k'

/-- The YAML of every record is read back. -/
structure ReadsBack (env : StoreEnv) (s : StoreSnapshot) : Prop where
  descriptor : Store.ReadsBack env.descriptor [s.descriptor]
  project : Store.ReadsBack env.project [s.project]
  agents : Store.ReadsBack env.agent s.agents
  tasks : Store.ReadsBack env.task s.tasks
  taskDependencies : Store.ReadsBack env.dependency s.taskDependencies
  taskMessages : Store.ReadsBack env.taskMessage s.taskMessages
  conversations : Store.ReadsBack env.conversation s.conversations
  participants : Store.ReadsBack env.participant s.participants
  conversationMessages : Store.ReadsBack env.conversationMessage s.conversationMessages
  workflows : Store.ReadsBack env.workflow s.workflows
  memoryNotes : Store.ReadsBack env.memoryNote s.memoryNotes
  memoryLinks : Store.ReadsBack env.memoryLink s.memoryLinks

/-- The store holds a snapshot: nothing but its files is there, and each record has its own. -/
structure StoredIn (env : StoreEnv) (s : StoreSnapshot) (entries : StoreDir) : Prop where
  allowed : Allowed entries
  descriptor : Dir.get entries descriptorFile = some (.file (text env.descriptor s.descriptor))
  descriptorWritten : Written env.descriptor s.descriptor
  project : Dir.get entries projectFile = some (.file (text env.project s.project))
  projectWritten : Written env.project s.project
  agents : Stored env entries "agents" env.agent (·.id) s.agents
  tasks : Stored env entries "tasks" env.task (·.id) s.tasks
  taskDependencies : Stored env entries "task-dependencies" env.dependency dependencyKey
    s.taskDependencies
  taskMessages : Stored env entries "task-messages" env.taskMessage (·.recordId) s.taskMessages
  conversations : Stored env entries "conversations" env.conversation (·.id) s.conversations
  participants : Stored env entries "conversation-participants" env.participant participantKey
    s.participants
  conversationMessages : Stored env entries "conversation-messages" env.conversationMessage
    (·.recordId) s.conversationMessages
  workflows : Stored env entries "workflows" env.workflow (·.id) s.workflows
  memoryNotes : Stored env entries "memory-notes" env.memoryNote (·.id) s.memoryNotes
  memoryLinks : Stored env entries "memory-links" env.memoryLink memoryLinkKey s.memoryLinks

/-! ### Distinct files -/

theorem NoCollision.names {α : Type} {key : α → String} {xs : List α} (h : s.NoCollision env)
    (hkeys : (xs.map key).Nodup) (hsub : xs.map key ⊆ s.keys) :
    (xs.map fun x => recordFilename env (key x)).Nodup :=
  nodup_of_inj hkeys fun _ hx _ hy hxy =>
    h _ (hsub (List.mem_map_of_mem hx)) _ (hsub (List.mem_map_of_mem hy)) (recordFilename_inj hxy)

/-- The keys of each kind are distinct. -/
structure DistinctKeys (s : StoreSnapshot) : Prop where
  agents : (s.agents.map (·.id)).Nodup
  tasks : (s.tasks.map (·.id)).Nodup
  taskDependencies : (s.taskDependencies.map dependencyKey).Nodup
  taskMessages : (s.taskMessages.map (·.recordId)).Nodup
  conversations : (s.conversations.map (·.id)).Nodup
  participants : (s.participants.map participantKey).Nodup
  conversationMessages : (s.conversationMessages.map (·.recordId)).Nodup
  workflows : (s.workflows.map (·.id)).Nodup
  memoryNotes : (s.memoryNotes.map (·.id)).Nodup
  memoryLinks : (s.memoryLinks.map memoryLinkKey).Nodup

/-- The parts of a key have no NUL, so that it says which they are. -/
theorem WellFormed.distinctKeys {f : Formats} (hw : s.WellFormed) (hc : s.Checked f) :
    s.DistinctKeys := by
  have htask : ∀ t ∈ s.taskIds, '\x00' ∉ t.toList := fun t ht => (hw.tasks.identifier t ht).nul
  have hnote : ∀ n ∈ s.noteIds, '\x00' ∉ n.toList := fun n hn => (hw.notes.identifier n hn).nul
  have hdependencies : (s.taskDependencies.map dependencyKey).Nodup := by
    refine nodup_of_inj (f := id) (by simpa using hw.dependencies) fun d hd d' hd' h => ?_
    have hend := hw.dependencyEnds _ (List.mem_map_of_mem hd)
    have hend' := hw.dependencyEnds _ (List.mem_map_of_mem hd')
    exact dependencyKey_inj (htask _ hend.1) (htask _ hend'.1) h
  have hparticipants : (s.participants.map participantKey).Nodup := by
    have hparts : ∀ p ∈ s.participants, '\x00' ∉ p.key.conversationId.toList ∧
        '\x00' ∉ p.key.participantType.toList := by
      intro p hp
      obtain ⟨hconversation, -, htype, -⟩ := validateParticipant_ok (hc.participants p hp)
      refine ⟨(hw.conversations.identifier _ hconversation).nul, ?_⟩
      rcases List.mem_pair.1 htype with h | h <;> rw [h] <;> decide
    refine nodup_of_inj hw.participants fun p hp p' hp' h => ?_
    obtain ⟨h1, h2, h3⟩ := triple_inj (hparts p hp).1 (hparts p' hp').1 (hparts p hp).2
      (hparts p' hp').2 h
    obtain ⟨⟨a, b, c⟩, d⟩ := p
    obtain ⟨⟨a', b', c'⟩, d'⟩ := p'
    simp only at h1 h2 h3 ⊢
    rw [h1, h2, h3]
  have hlinks : (s.memoryLinks.map memoryLinkKey).Nodup := by
    refine nodup_of_inj hw.links fun l hl l' hl' h => ?_
    obtain ⟨hfrom, hto, -⟩ := hw.linkEnds l hl
    obtain ⟨hfrom', hto', -⟩ := hw.linkEnds l' hl'
    obtain ⟨h1, h2, h3⟩ := triple_inj (hnote _ hfrom) (hnote _ hfrom') (hnote _ hto)
      (hnote _ hto') h
    obtain ⟨⟨a, b, c⟩, d, e⟩ := l
    obtain ⟨⟨a', b', c'⟩, d', e'⟩ := l'
    simp only at h1 h2 h3 ⊢
    rw [h1, h2, h3]
  have hmessages : (s.taskMessages.map (·.recordId)).Nodup := by
    simpa [taskGraph, Function.comp_def] using hw.taskThread.ids.nodup
  have hchat : (s.conversationMessages.map (·.recordId)).Nodup := by
    simpa [chatGraph, Function.comp_def] using hw.chat.ids.nodup
  exact
    { agents := hw.agents.nodup
      tasks := hw.tasks.nodup
      taskDependencies := hdependencies
      taskMessages := hmessages
      conversations := hw.conversations.nodup
      participants := hparticipants
      conversationMessages := hchat
      workflows := hw.workflows.nodup
      memoryNotes := hw.notes.nodup
      memoryLinks := hlinks }

/-! ### Writing and reading -/

/-- After `write` the store holds the snapshot, whatever it held before. -/
theorem writeAll_ok (hkeys : s.DistinctKeys) (hnc : s.NoCollision env) {before : StoreDir}
    (hallowed : Allowed before)
    (hempty : ∀ d ∈ generatedDirs, Dir.get before d = some (.directory []))
    (h : s.writeAll env root before = .ok entries) : s.StoredIn env entries := by
  have hsub : ∀ l ∈ [s.agents.map (·.id), s.tasks.map (·.id), s.taskDependencies.map dependencyKey,
      s.taskMessages.map (·.recordId), s.conversations.map (·.id),
      s.participants.map participantKey, s.conversationMessages.map (·.recordId),
      s.workflows.map (·.id), s.memoryNotes.map (·.id), s.memoryLinks.map memoryLinkKey],
      l ⊆ s.keys := fun l hl _ hx => List.mem_flatten.2 ⟨l, hl, hx⟩
  obtain ⟨e1, h1, h⟩ := bind_ok h
  obtain ⟨e2, h2, h⟩ := bind_ok h
  obtain ⟨e3, h3, h⟩ := bind_ok h
  obtain ⟨e4, h4, h⟩ := bind_ok h
  obtain ⟨e5, h5, h⟩ := bind_ok h
  obtain ⟨e6, h6, h⟩ := bind_ok h
  obtain ⟨e7, h7, h⟩ := bind_ok h
  obtain ⟨e8, h8, h⟩ := bind_ok h
  obtain ⟨e9, h9, h⟩ := bind_ok h
  obtain ⟨e10, h10, h⟩ := bind_ok h
  obtain ⟨e11, h11, h12⟩ := bind_ok h
  obtain ⟨s1, w1⟩ := writeYaml_ok (by decide) h1
  obtain ⟨s2, w2⟩ := writeYaml_ok (by decide) h2
  have hget : ∀ d ∈ generatedDirs, Dir.get e2 d = some (.directory []) := by
    intro d hd
    have hne1 : d ≠ descriptorFile := by rintro rfl; revert hd; decide
    have hne2 : d ≠ projectFile := by rintro rfl; revert hd; decide
    rw [s2.get, if_neg hne2, s1.get, if_neg hne1]
    exact hempty d hd
  obtain ⟨s3, w3⟩ := writeRecords_ok (by decide) (hget "agents" (by decide))
    (hnc.names hkeys.agents (hsub _ (by simp))) h3
  obtain ⟨s4, w4⟩ := writeRecords_ok (by decide)
    (by simpa [s3.get] using hget "tasks" (by decide))
    (hnc.names hkeys.tasks (hsub _ (by simp))) h4
  obtain ⟨s5, w5⟩ := writeRecords_ok (by decide)
    (by simpa [s4.get, s3.get] using hget "task-dependencies" (by decide))
    (hnc.names hkeys.taskDependencies (hsub _ (by simp))) h5
  obtain ⟨s6, w6⟩ := writeRecords_ok (by decide)
    (by simpa [s5.get, s4.get, s3.get] using hget "task-messages" (by decide))
    (hnc.names hkeys.taskMessages (hsub _ (by simp))) h6
  obtain ⟨s7, w7⟩ := writeRecords_ok (by decide)
    (by simpa [s6.get, s5.get, s4.get, s3.get] using hget "conversations" (by decide))
    (hnc.names hkeys.conversations (hsub _ (by simp))) h7
  obtain ⟨s8, w8⟩ := writeRecords_ok (by decide)
    (by simpa [s7.get, s6.get, s5.get, s4.get,
      s3.get] using hget "conversation-participants" (by decide))
    (hnc.names hkeys.participants (hsub _ (by simp))) h8
  obtain ⟨s9, w9⟩ := writeRecords_ok (by decide)
    (by simpa [s8.get, s7.get, s6.get, s5.get, s4.get,
      s3.get] using hget "conversation-messages" (by decide))
    (hnc.names hkeys.conversationMessages (hsub _ (by simp))) h9
  obtain ⟨s10, w10⟩ := writeRecords_ok (by decide)
    (by simpa [s9.get, s8.get, s7.get, s6.get, s5.get, s4.get,
      s3.get] using hget "workflows" (by decide))
    (hnc.names hkeys.workflows (hsub _ (by simp))) h10
  obtain ⟨s11, w11⟩ := writeRecords_ok (by decide)
    (by simpa [s10.get, s9.get, s8.get, s7.get, s6.get, s5.get, s4.get,
      s3.get] using hget "memory-notes" (by decide))
    (hnc.names hkeys.memoryNotes (hsub _ (by simp))) h11
  obtain ⟨s12, w12⟩ := writeRecords_ok (by decide)
    (by simpa [s11.get, s10.get, s9.get, s8.get, s7.get, s6.get, s5.get, s4.get,
      s3.get] using hget "memory-links" (by decide))
    (hnc.names hkeys.memoryLinks (hsub _ (by simp))) h12
  exact
    { allowed := s12.allowed (s11.allowed (s10.allowed (s9.allowed (s8.allowed (s7.allowed
        (s6.allowed (s5.allowed (s4.allowed (s3.allowed (s2.allowed (s1.allowed hallowed)))))))))))
      descriptor := by simp [s12.get, s11.get, s10.get, s9.get, s8.get, s7.get, s6.get, s5.get,
        s4.get, s3.get, s2.get, s1.get, descriptorFile, projectFile]
      descriptorWritten := w1
      project := by simp [s12.get, s11.get, s10.get, s9.get, s8.get, s7.get, s6.get, s5.get, s4.get,
        s3.get, s2.get, projectFile]
      projectWritten := w2
      agents := ⟨by simp [s12.get, s11.get, s10.get, s9.get, s8.get, s7.get, s6.get, s5.get, s4.get,
        s3.get], w3⟩
      tasks := ⟨by simp [s12.get, s11.get, s10.get, s9.get, s8.get, s7.get, s6.get, s5.get,
        s4.get], w4⟩
      taskDependencies := ⟨by simp [s12.get, s11.get, s10.get, s9.get, s8.get, s7.get, s6.get,
        s5.get], w5⟩
      taskMessages := ⟨by simp [s12.get, s11.get, s10.get, s9.get, s8.get, s7.get, s6.get], w6⟩
      conversations := ⟨by simp [s12.get, s11.get, s10.get, s9.get, s8.get, s7.get], w7⟩
      participants := ⟨by simp [s12.get, s11.get, s10.get, s9.get, s8.get], w8⟩
      conversationMessages := ⟨by simp [s12.get, s11.get, s10.get, s9.get], w9⟩
      workflows := ⟨by simp [s12.get, s11.get, s10.get], w10⟩
      memoryNotes := ⟨by simp [s12.get, s11.get], w11⟩
      memoryLinks := ⟨by simp [s12.get], w12⟩ }

/-- The files of a snapshot are read as its records, in some order. -/
theorem StoredIn.read (h : s.StoredIn env entries) (hsha : ∀ data, (env.sha256 data).length = 32)
    (hback : s.ReadsBack env) (root : String) :
    ∃ t, StoreSnapshot.read env root entries = .ok t ∧ Shuffled s t := by
  have hdescriptor := readYaml_written RecordDir (root ++ "/" ++ descriptorFile)
    h.descriptorWritten (hback.descriptor _ (by simp) _ h.descriptorWritten.1)
  have hproject := readYaml_written RecordDir (root ++ "/" ++ projectFile)
    h.projectWritten (hback.project _ (by simp) _ h.projectWritten.1)
  unfold StoreSnapshot.read
  rw [h.descriptor, h.project, hdescriptor, hproject,
    h.agents.readRecords hsha hback.agents, h.tasks.readRecords hsha hback.tasks,
    h.taskDependencies.readRecords hsha hback.taskDependencies,
    h.taskMessages.readRecords hsha hback.taskMessages,
    h.conversations.readRecords hsha hback.conversations,
    h.participants.readRecords hsha hback.participants,
    h.conversationMessages.readRecords hsha hback.conversationMessages,
    h.workflows.readRecords hsha hback.workflows, h.memoryNotes.readRecords hsha hback.memoryNotes,
    h.memoryLinks.readRecords hsha hback.memoryLinks]
  refine ⟨_, rfl, ?_⟩
  exact
    { descriptor := rfl
      project := rfl
      agents := (sortBy_perm _ _).symm
      tasks := (sortBy_perm _ _).symm
      taskDependencies := (sortBy_perm _ _).symm
      taskMessages := (sortBy_perm _ _).symm
      conversations := (sortBy_perm _ _).symm
      participants := (sortBy_perm _ _).symm
      conversationMessages := (sortBy_perm _ _).symm
      workflows := (sortBy_perm _ _).symm
      memoryNotes := (sortBy_perm _ _).symm
      memoryLinks := (sortBy_perm _ _).symm }

theorem validateForSync_ok {projectId : String} :
    s.validateForSync env projectId = .ok () ↔
      s.rejectSnapshotSecrets env = .ok () ∧ s.validate env.toFormats projectId = .ok () :=
  seq_ok

theorem write_ok {inode : Option (Inode StoreDir)} (hnc : s.normalize.NoCollision env)
    (h : s.write env root inode = .ok entries) :
    s.normalize.validateForSync env s.project.id = .ok () ∧ s.normalize.StoredIn env entries := by
  obtain ⟨_, hvalid, h⟩ := bind_ok h
  obtain ⟨before, hprepare, hwrite⟩ := bind_ok h
  obtain ⟨hallowed, hempty⟩ := prepareStoreRoot_ok hprepare
  obtain ⟨-, hw, hc⟩ := validate_ok.1 (validateForSync_ok.1 hvalid).2
  exact ⟨hvalid, writeAll_ok (hw.distinctKeys hc) hnc hallowed hempty hwrite⟩

/-- How many files a directory has, and that no name comes twice. -/
def Filed (entries : StoreDir) (directory : String) (count : ℕ) : Prop :=
  (filesOf entries directory).length = count ∧ ((filesOf entries directory).map Prod.fst).Nodup

theorem filed_of_stored {α : Type} {directory : String} {yaml : RecordYaml α} {key : α → String}
    {records : List α} (h : Stored env entries directory yaml key records) :
    Filed entries directory records.length := by
  have hfiles : filesOf entries directory = records.map (recordFile env yaml key) := by
    rw [filesOf, h.get]
  refine ⟨?_, ?_⟩
  · rw [hfiles, List.length_map]
  · rw [hfiles]
    exact h.holds.names

theorem load_directory (root projectId : String) (entries : StoreDir) :
    load env root (some (.directory entries)) projectId = (do
      validateStoreEntries entries
      let snapshot ← StoreSnapshot.read env root entries
      let snapshot := snapshot.normalize
      snapshot.validate env.toFormats projectId
      snapshot.rejectSnapshotSecrets env
      .ok snapshot) := rfl

/-- What was written is loaded, in the order of the keys, also from another place. -/
theorem load_of_write {inode : Option (Inode StoreDir)}
    (hsha : ∀ data, (env.sha256 data).length = 32) (hnc : s.normalize.NoCollision env)
    (hback : s.normalize.ReadsBack env) (h : s.write env root inode = .ok entries)
    (root' : String) :
    load env root' (some (.directory entries)) s.project.id = .ok s.normalize := by
  obtain ⟨hvalid, hstored⟩ := write_ok hnc h
  obtain ⟨hsecrets, hvalidate⟩ := validateForSync_ok.1 hvalid
  obtain ⟨-, hw, -⟩ := validate_ok.1 hvalidate
  obtain ⟨t, hread, hshuffled⟩ := hstored.read hsha hback root'
  have hnormal : t.normalize = s.normalize := by
    rw [← hw.normalize_eq hshuffled, normalize_normalize]
  have hentries := validateStoreEntries_ok.2 hstored.allowed
  rw [load_directory, hentries]
  show (StoreSnapshot.read env root' entries >>= fun _ => _) = _
  rw [hread]
  show (t.normalize.validate env.toFormats s.project.id >>= fun _ =>
    t.normalize.rejectSnapshotSecrets env >>= fun _ => .ok t.normalize) = _
  rw [hnormal, hvalidate, hsecrets]
  rfl

/-- **The store gives back what was written to it.**  A store that a snapshot was written to,
whatever was in it before, has a file of its own for each record; loading it gives the same
records, in the order of their keys, and the same digest. -/
theorem store_round_trip {inode : Option (Inode StoreDir)}
    (hsha : ∀ data, (env.sha256 data).length = 32) (hnc : s.normalize.NoCollision env)
    (hback : s.normalize.ReadsBack env) (h : s.write env root inode = .ok entries) :
    load env root (some (.directory entries)) s.project.id = .ok s.normalize ∧
      s.normalize.digest env = s.digest env ∧ ∀ c ∈ s.recordCounts, Filed entries c.1 c.2 := by
  obtain ⟨-, hstored⟩ := write_ok hnc h
  refine ⟨load_of_write hsha hnc hback h root, ?_, ?_⟩
  · rw [digest, digest, normalize_normalize]
  · have hcounts : s.normalize.recordCounts = s.recordCounts := by
      simp [recordCounts, normalize]
    rw [← hcounts]
    simp only [recordCounts, List.forall_mem_cons, List.not_mem_nil, false_implies, implies_true,
      and_true]
    exact ⟨filed_of_stored hstored.agents, filed_of_stored hstored.tasks,
      filed_of_stored hstored.taskDependencies, filed_of_stored hstored.taskMessages,
      filed_of_stored hstored.conversations, filed_of_stored hstored.participants,
      filed_of_stored hstored.conversationMessages, filed_of_stored hstored.workflows,
      filed_of_stored hstored.memoryNotes, filed_of_stored hstored.memoryLinks⟩

/-! ### A project with two Conversations -/

def sampleConversation (id : String) : PortableConversation :=
  { id := id, createdAt := "2026-01-01 00:00:00", updatedAt := "2026-01-01 00:00:00" }

def sampleSnapshot : StoreSnapshot where
  descriptor := ⟨1, "one"⟩
  project :=
    { id := "one"
      name := "One"
      createdAt := "2026-01-01 00:00:00"
      updatedAt := "2026-01-01 00:00:00" }
  conversations := [sampleConversation "b", sampleConversation "a"]

/-- The YAML of some values, and back. -/
def tableYaml {α : Type} [DecidableEq α] (table : List (α × String)) : RecordYaml α where
  toString x := (table.lookup x).elim (.error "unknown value") .ok
  fromStr contents :=
    ((table.map Prod.swap).lookup contents).elim (.error "unknown text") .ok

/-- A number of 32 bytes, the most significant one first. -/
def bigEndian (n : ℕ) : List UInt8 := (List.range 32).map fun i => UInt8.ofNat (n / 256 ^ (31 - i))

/-- A JSON string, of a text without quotes and control characters. -/
def jsonString (text : String) : List Char := ['"'] ++ text.toList ++ ['"']

/-- A JSON object with these fields. -/
def jsonObject (fields : List (String × List Char)) : List Char :=
  ['{'] ++ [','].intercalate (fields.map fun f => jsonString f.1 ++ [':'] ++ f.2) ++ ['}']

/-- The JSON of a snapshot that holds nothing but Conversations without titles and messages. -/
def sampleJson (s : StoreSnapshot) : List Char :=
  jsonObject [
    ("descriptor", jsonObject [("version", Nat.toDigits 10 s.descriptor.version),
      ("project_id", jsonString s.descriptor.projectId)]),
    ("project", jsonObject [("id", jsonString s.project.id), ("name", jsonString s.project.name),
      ("created_at", jsonString s.project.createdAt),
      ("updated_at", jsonString s.project.updatedAt)]),
    ("agents", ['[', ']']), ("tasks", ['[', ']']), ("task_dependencies", ['[', ']']),
    ("task_messages", ['[', ']']),
    ("conversations", ['['] ++ [','].intercalate (s.conversations.map fun c =>
      jsonObject [("id", jsonString c.id), ("created_at", jsonString c.createdAt),
        ("updated_at", jsonString c.updatedAt)]) ++ [']']),
    ("participants", ['[', ']']), ("conversation_messages", ['[', ']']),
    ("workflows", ['[', ']']), ("memory_notes", ['[', ']']), ("memory_links", ['[', ']'])]

/-- What the libraries make of the sample. -/
def sampleEnv : StoreEnv where
  env :=
    { parseJson := fun _ => none
      renderJson := fun _ => ""
      toF64 := id
      cronError := fun _ => none
      normalizeStartAfter := .ok
      parseRfc3339 := fun _ => none
      parseDbTimestamp := fun _ => none
      dbTimestamp := fun _ => ""
      cronDue := fun _ _ _ => false
      now := 0 }
  parseWorkflow _ := .error "missing field"
  sqliteTimestamp text := text = "2026-01-01 00:00:00"
  searchKey := id
  descriptor := tableYaml [(⟨1, "one"⟩, "version: 1\nproject_id: one\n")]
  project := tableYaml [(sampleSnapshot.project,
    "id: one\nname: One\ncreated_at: 2026-01-01 00:00:00\nupdated_at: 2026-01-01 00:00:00\n")]
  agent := tableYaml []
  task := tableYaml []
  dependency := tableYaml []
  taskMessage := tableYaml []
  conversation := tableYaml
    [(sampleConversation "a",
        "id: a\ncreated_at: 2026-01-01 00:00:00\nupdated_at: 2026-01-01 00:00:00\n"),
      (sampleConversation "b",
        "id: b\ncreated_at: 2026-01-01 00:00:00\nupdated_at: 2026-01-01 00:00:00\n")]
  participant := tableYaml []
  conversationMessage := tableYaml []
  workflow := tableYaml []
  memoryNote := tableYaml []
  memoryLink := tableYaml []
  json s := String.ofList (sampleJson s)
  sha256 data := bigEndian
    (if data = bytes ['a'] then
      0xca978112ca1bbdcafac231b39a23dc4da786eff8147c4e72b9807785afee48bb
    else if data = bytes ['b'] then
      0x3e23e8160039594a33894f6564e1b1348bbd7a0088d42c4acb73eeaed59c009d
    else if data = bytes (sampleJson sampleSnapshot.normalize) then
      0x3545afc5ddd4f08b8b4670586edb710b3cd2fcfda4447120dc74f7f8f663b850
    else 0)

/-- A snapshot is written in the order of its keys. -/
theorem write_normalize (s : StoreSnapshot) (root : String) (inode : Option (Inode StoreDir)) :
    s.normalize.write env root inode = s.write env root inode := by
  rw [write, write, normalize_normalize]

/-- What `write` does with the sample once it has found no secret in it. -/
theorem sample_write_eq (inode : Option (Inode StoreDir)) :
    sampleSnapshot.normalize.rejectSnapshotSecrets sampleEnv = .ok () ∧
    sampleSnapshot.write sampleEnv "store" inode = (do
      sampleSnapshot.normalize.validate sampleEnv.toFormats "one"
      let entries ← Store.prepareStoreRoot "store" inode
      sampleSnapshot.normalize.writeAll sampleEnv "store" entries) := by
  have hclean : hasSecretLower ((sampleJson sampleSnapshot.normalize).map Char.toLower) = false := by
    decide +kernel
  have hreject : sampleSnapshot.normalize.rejectSnapshotSecrets sampleEnv = .ok () := by
    rw [rejectSnapshotSecrets, rejectSecretText, hasSecret, sampleEnv, String.toList_ofList, hclean]
    rfl
  refine ⟨hreject, ?_⟩
  rw [write, validateForSync, hreject]
  rfl

theorem sample_written : (sampleSnapshot.write sampleEnv "store" none).isOk = true := by
  rw [(sample_write_eq none).2]
  decide +kernel

theorem sample_noCollision : sampleSnapshot.normalize.NoCollision sampleEnv := by
  unfold NoCollision
  decide +kernel

theorem readsBack_nil {α : Type} (yaml : RecordYaml α) : Store.ReadsBack yaml [] :=
  fun _ hx => absurd hx List.not_mem_nil

/-- What a table has no value twice for is read back. -/
theorem readsBack_tableYaml {α : Type} [DecidableEq α] {table : List (α × String)} {xs : List α}
    (h : ∀ x ∈ xs, ∀ contents ∈ table.lookup x,
      (table.map Prod.swap).lookup contents = some x) : Store.ReadsBack (tableYaml table) xs := by
  intro x hx contents hcontents
  simp only [tableYaml] at hcontents ⊢
  cases hlookup : table.lookup x with
  | none =>
    rw [hlookup] at hcontents
    cases hcontents
  | some found =>
    rw [hlookup] at hcontents
    cases hcontents
    rw [h x hx _ hlookup]
    rfl

theorem sample_readsBack : sampleSnapshot.normalize.ReadsBack sampleEnv := by
  refine ⟨?_, ?_, readsBack_nil _, readsBack_nil _, readsBack_nil _, readsBack_nil _, ?_,
    readsBack_nil _, readsBack_nil _, readsBack_nil _, readsBack_nil _, readsBack_nil _⟩
  · exact readsBack_tableYaml (by decide +kernel)
  · exact readsBack_tableYaml (by decide +kernel)
  · exact readsBack_tableYaml (by decide +kernel)

theorem sample_sha256 (data : List UInt8) : (sampleEnv.sha256 data).length = 32 := by
  simp [sampleEnv, bigEndian]

theorem exists_of_isOk {ε α : Type} {x : Except ε α} (h : x.isOk = true) : ∃ a, x = .ok a := by
  cases x with
  | error e => cases h
  | ok a => exact ⟨a, rfl⟩

theorem exists_sample_written :
    ∃ entries, sampleSnapshot.write sampleEnv "store" none = .ok entries :=
  exists_of_isOk sample_written

theorem sample_round_trip : ∃ entries,
    sampleSnapshot.write sampleEnv "store" none = .ok entries ∧
    load sampleEnv "store" (some (.directory entries)) sampleSnapshot.project.id =
      .ok sampleSnapshot.normalize ∧
      sampleSnapshot.normalize.digest sampleEnv = sampleSnapshot.digest sampleEnv ∧
      ∀ c ∈ sampleSnapshot.recordCounts, Filed entries c.1 c.2 := by
  obtain ⟨entries, h⟩ := exists_sample_written
  exact ⟨entries, h, store_round_trip sample_sha256 sample_noCollision sample_readsBack h⟩

end StoreSnapshot

end XpressClaw.Sync
