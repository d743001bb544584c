import XpressClaw.Sync.RoundTrip

/-!
# What a store can hold

A store that `load` accepts has no file with a credential on any of its lines, and what is loaded
is well formed.  It need not have the directories that hold no records: `load_checkout`.
-/

namespace XpressClaw.Sync

open Lib Projects

namespace Store

variable {env : StoreEnv} {root directory : String} {entries entries' : StoreDir}

/-- A text of which no line has a credential that the scan knows. -/
def CleanText (contents : String) : Prop :=
  Utf8.byteLen contents.toList ≤ maxRecordBytes ∧
    ∀ line ∈ Text.splitChar '\n' contents, hasSecret line = false

def CleanFile {δ : Type} : Inode δ → Prop
  | .file contents => CleanText contents
  | _ => False

def CleanEntry : Inode RecordDir → Prop
  | .directory files => ∀ e ∈ files, CleanFile e.2
  | inode => CleanFile inode

/-- Every file of the store is a text without credentials. -/
def CleanStore (entries : StoreDir) : Prop := ∀ e ∈ entries, CleanEntry e.2

theorem Storable.clean {contents : String} (h : Storable contents) : CleanText contents := by
  refine ⟨h.1, fun line hline => ?_⟩
  by_contra hsecret
  have hfound := hasSecret_of_line hline (Bool.eq_true_of_not_eq_false hsecret)
  rw [h.2] at hfound
  cases hfound

variable {α : Type} {yaml : RecordYaml α}

theorem readYaml_clean {δ : Type} {path : String} {inode : Inode δ} {x : α}
    (h : readYaml yaml path (some inode) = .ok x) : CleanFile inode := by
  cases inode with
  | file contents =>
    obtain ⟨_, hlen, h⟩ := bind_ok h
    obtain ⟨_, hsecret, h⟩ := bind_ok h
    exact Storable.clean ⟨require_ok.1 hlen, by simpa using require_ok.1 hsecret⟩
  | binary length =>
    obtain ⟨_, -, h⟩ := bind_ok h
    cases h
  | directory entries => cases h
  | symlink => cases h
  | special => cases h

theorem readRecords_clean {xs : List α} {inode : Inode RecordDir}
    (hread : readRecords root entries directory yaml = .ok xs)
    (hget : Dir.get entries directory = some inode) : CleanEntry inode := by
  unfold readRecords at hread
  rw [hget] at hread
  obtain ⟨files, hfiles, hread⟩ := bind_ok hread
  obtain ⟨_, -, heach⟩ := bind_ok hread
  cases inode with
  | directory listed =>
    cases hfiles
    intro file hfile
    obtain ⟨x, -, hx⟩ := readEach_ok heach (mem_sortBy.2 hfile)
    obtain ⟨_, -, hx⟩ := bind_ok hx
    exact readYaml_clean hx
  | _ => cases hfiles

/-! ## Checkouts -/

/-- What a checkout of a store has: git keeps no directory without files. -/
structure Checkout (entries kept : StoreDir) : Prop where
  subset : kept ⊆ entries
  get : ∀ name, Dir.get kept name = Dir.get entries name ∨
    Dir.get kept name = none ∧ Dir.get entries name = some (.directory [])

/-- The entries of a store that git keeps. -/
def tracked (entries : StoreDir) : StoreDir :=
  entries.filter fun e => match e.2 with
    | .directory [] => false
    | _ => true

theorem mem_tracked {e : String × Inode RecordDir} :
    e ∈ tracked entries ↔ e ∈ entries ∧ e.2 ≠ .directory [] := by
  refine List.mem_filter.trans (and_congr_right fun _ => ?_)
  split
  · rename_i hempty
    simp [hempty]
  · rename_i hne
    exact iff_of_true rfl hne

theorem checkout_tracked (hnames : (entries.map Prod.fst).Nodup) :
    Checkout entries (tracked entries) where
  subset := fun _ he => (mem_tracked.1 he).1
  get name := by
    have hkeyed : ((tracked entries).map Prod.fst).Nodup :=
      hnames.sublist (List.filter_sublist.map Prod.fst)
    cases hget : Dir.get entries name with
    | none =>
      left
      refine Dir.get_eq_none_iff.2 fun inode he => ?_
      exact Dir.get_eq_none_iff.1 hget inode (mem_tracked.1 he).1
    | some inode =>
      have hmem := (Dir.get_eq_some_iff hnames).1 hget
      by_cases hempty : inode = .directory []
      · right
        refine ⟨Dir.get_eq_none_iff.2 fun other he => ?_, by rw [hempty]⟩
        obtain ⟨hother, hfiles⟩ := mem_tracked.1 he
        have hsame := (Dir.get_eq_some_iff hnames).2 hother
        rw [hget, hempty] at hsame
        exact hfiles (Option.some.inj hsame).symm
      · exact Or.inl ((Dir.get_eq_some_iff hkeyed).2 (mem_tracked.2 ⟨hmem, hempty⟩))

/-- No records are read from a directory that is empty, and none from one that is gone. -/
theorem readRecords_checkout {kept : StoreDir} (h : Checkout entries kept) :
    readRecords root kept directory yaml = readRecords root entries directory yaml := by
  rcases h.get directory with hsame | ⟨hgone, hempty⟩
  · rw [readRecords, hsame]
    rfl
  · rw [readRecords, hgone, readRecords, hempty]
    rfl

theorem readYaml_checkout {kept : StoreDir} {path name : String} {x : α}
    (h : Checkout entries kept) (hread : readYaml yaml path (Dir.get entries name) = .ok x) :
    readYaml yaml path (Dir.get kept name) = readYaml yaml path (Dir.get entries name) := by
  rcases h.get name with hsame | ⟨-, hempty⟩
  · rw [hsame]
  · rw [hempty] at hread
    cases hread

end Store

namespace StoreSnapshot

open Store

variable {env : StoreEnv} {s : StoreSnapshot} {root projectId : String}

/-- What `load` accepts is in order, and has passed every check. -/
theorem load_ok {inode : Option (Inode StoreDir)} (h : load env root inode projectId = .ok s) :
    s.normalize = s ∧ s.rejectSnapshotSecrets env = .ok () ∧
      s.validate env.toFormats projectId = .ok () ∧
      ∃ entries t, inode = some (.directory entries) ∧ Allowed entries ∧
        StoreSnapshot.read env root entries = .ok t := by
  cases inode with
  | none => cases h
  | some inode =>
    obtain ⟨entries, hentries, h⟩ := bind_ok h
    obtain ⟨_, hallowed, h⟩ := bind_ok h
    obtain ⟨t, hread, h⟩ := bind_ok h
    obtain ⟨_, hvalid, h⟩ := bind_ok h
    obtain ⟨_, hsecrets, h⟩ := bind_ok h
    cases h
    refine ⟨normalize_normalize t, hsecrets, hvalid, entries, t, ?_,
      validateStoreEntries_ok.1 hallowed, hread⟩
    cases inode <;> cases hentries
    rfl

/-- A checkout loads as the store that was committed. -/
theorem load_checkout {entries kept : StoreDir} (hkept : Checkout entries kept)
    (h : load env root (some (.directory entries)) projectId = .ok s) :
    load env root (some (.directory kept)) projectId = .ok s := by
  obtain ⟨-, -, -, listed, t, hlisted, hallowed, hread⟩ := load_ok h
  cases hlisted
  have hvalid : validateStoreEntries kept = validateStoreEntries entries := by
    rw [validateStoreEntries_ok.2 hallowed]
    exact validateStoreEntries_ok.2 fun e he => hallowed e (hkept.subset he)
  have hsame : StoreSnapshot.read env root kept = StoreSnapshot.read env root entries := by
    obtain ⟨descriptor, hdescriptor, hrest⟩ := bind_ok hread
    obtain ⟨project, hproject, -⟩ := bind_ok hrest
    unfold StoreSnapshot.read
    simp only [readRecords_checkout hkept, readYaml_checkout hkept hdescriptor,
      readYaml_checkout hkept hproject]
  rw [load_directory] at h ⊢
  rw [hvalid, hsame]
  exact h

/-- Every entry that may be in a store is read. -/
theorem read_clean {entries : StoreDir} (hallowed : Allowed entries)
    (hnames : (entries.map Prod.fst).Nodup) (h : StoreSnapshot.read env root entries = .ok s) :
    CleanStore entries := by
  obtain ⟨_, hdescriptor, h⟩ := bind_ok h
  obtain ⟨_, hproject, h⟩ := bind_ok h
  obtain ⟨_, hagents, h⟩ := bind_ok h
  obtain ⟨_, htasks, h⟩ := bind_ok h
  obtain ⟨_, hdependencies, h⟩ := bind_ok h
  obtain ⟨_, htaskMessages, h⟩ := bind_ok h
  obtain ⟨_, hconversations, h⟩ := bind_ok h
  obtain ⟨_, hparticipants, h⟩ := bind_ok h
  obtain ⟨_, hmessages, h⟩ := bind_ok h
  obtain ⟨_, hworkflows, h⟩ := bind_ok h
  obtain ⟨_, hnotes, h⟩ := bind_ok h
  obtain ⟨_, hlinks, -⟩ := bind_ok h
  have hfile : ∀ {i : Inode RecordDir}, CleanFile i → CleanEntry i := by
    intro i hi
    cases i <;> first | exact hi | cases hi
  rintro ⟨name, inode⟩ he
  have hget : Dir.get entries name = some inode := by
    have hrow := Table.get_eq_some_of_mem hnames he
    rw [Dir.get, hrow]
    rfl
  rcases hallowed _ he with ⟨hname, -⟩ | ⟨hname, -⟩
  · simp only [List.mem_cons, List.not_mem_nil, or_false] at hname
    rcases hname with rfl | rfl
    · rw [hget] at hdescriptor
      exact hfile (readYaml_clean hdescriptor)
    · rw [hget] at hproject
      exact hfile (readYaml_clean hproject)
  · simp only [generatedDirs, List.mem_cons, List.not_mem_nil, or_false] at hname
    rcases hname with rfl | rfl | rfl | rfl | rfl | rfl | rfl | rfl | rfl | rfl
    · exact readRecords_clean hagents hget
    · exact readRecords_clean htasks hget
    · exact readRecords_clean hdependencies hget
    · exact readRecords_clean htaskMessages hget
    · exact readRecords_clean hconversations hget
    · exact readRecords_clean hparticipants hget
    · exact readRecords_clean hmessages hget
    · exact readRecords_clean hworkflows hget
    · exact readRecords_clean hnotes hget
    · exact readRecords_clean hlinks hget

/-- **No credential gets out of a store.**  Whoever wrote it, a store that `load` accepts consists of
texts of at most 2 MiB in which no line has a credential that the scan knows, and neither has what
is loaded as a whole. -/
theorem store_has_no_credentials {entries : StoreDir} (hnames : (entries.map Prod.fst).Nodup)
    (h : load env root (some (.directory entries)) projectId = .ok s) :
    CleanStore entries ∧ hasSecret (env.json s) = false := by
  obtain ⟨-, hsecrets, -, listed, t, hlisted, hallowed, hread⟩ := load_ok h
  cases hlisted
  exact ⟨read_clean hallowed hnames hread, by simpa using require_ok.1 hsecrets⟩

theorem sample_names : ∀ entries ∈ (sampleSnapshot.write sampleEnv "store" none).toOption.toList,
    (entries.map Prod.fst).Nodup := by
  rw [(sample_write_eq none).2]
  decide +kernel

theorem sample_has_no_credentials : ∃ entries,
    sampleSnapshot.write sampleEnv "store" none = .ok entries ∧ CleanStore entries ∧
      hasSecret (sampleEnv.json sampleSnapshot.normalize) = false := by
  obtain ⟨entries, h⟩ := exists_sample_written
  have hmem : entries ∈ (sampleSnapshot.write sampleEnv "store" none).toOption.toList := by
    rw [h]
    exact List.mem_singleton_self entries
  have hnames := sample_names entries hmem
  have hload := load_of_write sample_sha256 sample_noCollision sample_readsBack h "store"
  exact ⟨entries, h, store_has_no_credentials hnames hload⟩

/-- **Only well-formed snapshots are accepted, and all of them.**  `validate` accepts a snapshot
exactly when it is one of the project, all references stay inside it, tasks and messages are not
on cycles, ids are distinct identifiers and every record passes its own check; what `load` hands
out is such a snapshot, in the order of its keys. -/
theorem validation_exact (env : StoreEnv) (s : StoreSnapshot) (root projectId : String)
    (inode : Option (Inode StoreDir)) :
    (s.validate env.toFormats projectId = .ok () ↔
      s.project.id = projectId ∧ s.WellFormed ∧ s.Checked env.toFormats) ∧
    (load env root inode projectId = .ok s →
      s.project.id = projectId ∧ s.WellFormed ∧ s.Checked env.toFormats ∧ s.normalize = s) := by
  refine ⟨validate_ok, fun h => ?_⟩
  obtain ⟨hnormal, -, hvalid, -⟩ := load_ok h
  obtain ⟨hproject, hwell, hchecked⟩ := validate_ok.1 hvalid
  exact ⟨hproject, hwell, hchecked, hnormal⟩

theorem sample_validation_exact : ∃ inode,
    load sampleEnv "store" inode sampleSnapshot.project.id = .ok sampleSnapshot.normalize ∧
      sampleSnapshot.normalize.WellFormed := by
  obtain ⟨entries, h⟩ := exists_sample_written
  have hload := load_of_write sample_sha256 sample_noCollision sample_readsBack h "store"
  exact ⟨_, hload, ((validation_exact sampleEnv sampleSnapshot.normalize "store" _ _).2 hload).2.1⟩

end StoreSnapshot

end XpressClaw.Sync
