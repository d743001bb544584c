import XpressClaw.Sync.Config
import XpressClaw.Sync.Idempotence

/-!
# A failed import

An import changes three things: the database, the configuration in memory and `xpressclaw.yaml`.
When it fails, the transaction is rolled back, the configuration in memory was not replaced, and
the file was not written or was put back.  What it does not take back is what loading the file
did, which brings an old form of the file up to date and repairs one that cannot be read.
-/

namespace XpressClaw.Sync

open Lib

variable {κ ρ : Type} {y : Yaml κ ρ} {texts : Texts} {w : World} {s : PortableSnapshot}
  {allow : Bool} {workspace : String} {st : State κ ρ} {files files' : Files}
  {config updated : Config κ ρ} {e : Error}

/-! ## Loading -/

/-- The configuration that is read off a text, brought up to date. -/
def migratedConfig (y : Yaml κ ρ) (text : String) (parsed : Config κ ρ) : Config κ ρ :=
  if y.legacyProfile text then parsed else (migrateLegacyFields y parsed).1

/-- The text is in an old form. -/
def isLegacy (y : Yaml κ ρ) (text : String) (parsed : Config κ ρ) : Bool :=
  y.legacyProfile text || (migrateLegacyFields y parsed).2

/-- What loading may leave in the file. -/
inductive Loaded (y : Yaml κ ρ) (files : Files) : Option String → Prop
  | kept : Loaded y files files.config
  /-- An old form is brought up to date. -/
  | migrated {text written : String} {parsed : Config κ ρ} (config : files.config = some text)
      (parses : y.parse text = some parsed) (legacy : isLegacy y text parsed = true)
      (prints : y.print (migratedConfig y text parsed) = some written) :
      Loaded y files (some written)
  /-- A file that does not parse is replaced from its backup. -/
  | repaired {text backup written : String} {parsed : Config κ ρ}
      (config : files.config = some text) (corrupt : y.parse text = none)
      (backup_eq : files.backup = some backup) (parses : y.parse backup = some parsed)
      (prints : written = backup ∨ isLegacy y backup parsed = true ∧
        y.print (migratedConfig y backup parsed) = some written) :
      Loaded y files (some written)

/-- The file parses in its present form. -/
structure Current (y : Yaml κ ρ) (text : String) : Prop where
  parses : (y.parse text).isSome
  present : ∀ parsed, y.parse text = some parsed → isLegacy y text parsed = false

theorem Loaded.of_current {left : Option String} (h : Loaded y files left)
    (hcurrent : ∀ text ∈ files.config, Current y text) : left = files.config := by
  cases h with
  | kept => rfl
  | migrated hconfig hparses hlegacy _ =>
    exact absurd hlegacy (by simp [(hcurrent _ hconfig).present _ hparses])
  | repaired hconfig hcorrupt _ _ _ =>
    have hparses := (hcurrent _ hconfig).parses
    simp [hcorrupt] at hparses

theorem save_ok {written : Bool} (h : save y written config files = .ok files') :
    ∃ text, y.print config = some text ∧ files' = { files with config := some text } := by
  unfold save at h
  split at h
  · cases h
  · next text htext =>
      split at h
      · cases h
        exact ⟨text, htext, rfl⟩
      · cases h

theorem migrated_eq (y : Yaml κ ρ) (text : String) (parsed : Config κ ρ) :
    (if y.legacyProfile text then (parsed, true) else migrateLegacyFields y parsed) =
      (migratedConfig y text parsed, isLegacy y text parsed) := by
  unfold migratedConfig isLegacy
  cases y.legacyProfile text <;> rfl

/-- What is in the file after a text was loaded that parses. -/
theorem loadParsed_config (fromBackup : Bool) (text : String) (parsed : Config κ ρ)
    (files : Files) :
    (loadParsed y w fromBackup text parsed files).2.config = files.config ∨
      (fromBackup = true ∧
        (loadParsed y w fromBackup text parsed files).2.config = some text) ∨
      ∃ written, isLegacy y text parsed = true ∧
        y.print (migratedConfig y text parsed) = some written ∧
        (loadParsed y w fromBackup text parsed files).2.config = some written := by
  unfold loadParsed
  rw [migrated_eq]
  dsimp only
  split
  · exact Or.inl rfl
  · have hbackedUp : (if !fromBackup && w.copies then { files with backup := some text }
        else files).config = files.config := by
      split <;> rfl
    split
    · next hlegacy =>
        split
        · next saved hsave =>
            obtain ⟨written, hprint, rfl⟩ := save_ok hsave
            exact Or.inr (Or.inr ⟨written, hlegacy, hprint, rfl⟩)
        · exact Or.inl hbackedUp
    · split
      · next hbackup =>
          exact Or.inr (Or.inl ⟨(Bool.and_eq_true _ _ ▸ hbackup).1, rfl⟩)
      · exact Or.inl hbackedUp

theorem load_config (files : Files) : Loaded y files (load y w files).2.config := by
  unfold load
  split
  · exact .kept
  · next text hconfig =>
      split
      · exact .kept
      · split
        · next parsed hparses =>
            rcases loadParsed_config (y := y) (w := w) false text parsed files with
              h | ⟨h, -⟩ | ⟨written, hlegacy, hprint, h⟩
            · rw [h]
              exact .kept
            · cases h
            · rw [h]
              exact .migrated hconfig hparses hlegacy hprint
        · next hcorrupt =>
            split
            · exact .kept
            · next backup parsed hbackup =>
                obtain ⟨text', hbackup, hparsed⟩ := Option.bind_eq_some_iff.1 hbackup
                obtain ⟨parsed', hparses, heq⟩ := Option.map_eq_some_iff.1 hparsed
                cases heq
                rcases loadParsed_config (y := y) (w := w) true backup parsed files with
                  h | ⟨-, h⟩ | ⟨written, hlegacy, hprint, h⟩
                · rw [h]
                  exact .kept
                · rw [h]
                  exact .repaired hconfig hcorrupt hbackup hparses (Or.inl rfl)
                · rw [h]
                  exact .repaired hconfig hcorrupt hbackup hparses (Or.inr ⟨hlegacy, hprint⟩)

theorem startConfig_config (st : State κ ρ) :
    Loaded y st.files (startConfig y w st).2.config := by
  unfold startConfig
  split
  · exact load_config st.files
  · exact .kept

/-! ## The transaction -/

/-- A failed transaction leaves the database, and puts the file back; only what somebody else
wrote meanwhile stays. -/
theorem importIn_error {db db' : Db}
    (h : importIn y texts w s allow updated db files = (.error e, db', files')) :
    db' = db ∧ (files'.config = files.config ∨ w.edited = some files'.config) := by
  unfold importIn at h
  split at h
  · cases h
    exact ⟨rfl, Or.inl rfl⟩
  · split at h
    · cases h
      exact ⟨rfl, Or.inl rfl⟩
    · dsimp only at h
      split at h
      · next hchanged =>
          cases h
          cases hedited : w.edited with
          | none => simp [hedited] at hchanged
          | some other => exact ⟨rfl, Or.inr rfl⟩
      · next hsame =>
          split at h
          · cases h
            exact ⟨rfl, Or.inl (not_not.1 hsame)⟩
          · split at h
            · cases h
            · cases h
              exact ⟨rfl, Or.inl rfl⟩

/-- **A failed import changes nothing but the form of the file.**  The database and the
configuration in memory are as they were.  The file is what loading it left, unless somebody
else wrote it during the import; and loading leaves a file in its present form as it is. -/
theorem importSnapshot_error (y : Yaml κ ρ) (texts : Texts) (w : World) (s : PortableSnapshot)
    (allow : Bool) (workspace : String) (st : State κ ρ) (e : Error)
    (h : (importSnapshot y texts w s allow workspace st).1 = .error e) :
    (importSnapshot y texts w s allow workspace st).2.db = st.db ∧
      (importSnapshot y texts w s allow workspace st).2.config = st.config ∧
      (Loaded y st.files (importSnapshot y texts w s allow workspace st).2.files.config ∨
        w.edited = some (importSnapshot y texts w s allow workspace st).2.files.config) ∧
      ((∀ text ∈ st.files.config, Current y text) → w.edited = none →
        (importSnapshot y texts w s allow workspace st).2.files.config = st.files.config) := by
  have hall : (importSnapshot y texts w s allow workspace st).2.db = st.db ∧
      (importSnapshot y texts w s allow workspace st).2.config = st.config ∧
      (Loaded y st.files (importSnapshot y texts w s allow workspace st).2.files.config ∨
        w.edited = some (importSnapshot y texts w s allow workspace st).2.files.config) := by
    have hloaded := startConfig_config (y := y) (w := w) st
    unfold importSnapshot at h ⊢
    split at h <;> rename_i files hstart <;> rw [hstart] at hloaded
    · exact ⟨rfl, rfl, Or.inl hloaded⟩
    · split at h
      · exact ⟨rfl, rfl, Or.inl hloaded⟩
      · split at h
        · next hin =>
            obtain ⟨hdb, hfiles⟩ := importIn_error hin
            rcases hfiles with hfiles | hfiles
            · dsimp only at hloaded ⊢
              rw [hfiles]
              exact ⟨hdb, rfl, Or.inl hloaded⟩
            · exact ⟨hdb, rfl, Or.inr hfiles⟩
        · cases h
  obtain ⟨hdb, hconfig, hfiles⟩ := hall
  refine ⟨hdb, hconfig, hfiles, fun hcurrent hnone => ?_⟩
  rcases hfiles with hfiles | hfiles
  · exact hfiles.of_current hcurrent
  · rw [hnone] at hfiles
    cases hfiles

/-! An import into a Project that is being deleted, with two forms of the file. -/

def oldForm : String := "agents:\n- name: atlas\n  backend: claude-sdk\n  model: opus\n"

def presentForm : String :=
  "agents:\n- name: atlas\n  backend: claude-sdk\n  llm:\n    model: opus\n"

/-- A parser that knows the two forms. -/
def twoForms : Yaml Unit Unit where
  parse text :=
    if text = oldForm then
      some { agents := [{ name := "atlas", model := some "opus" }], rest := () }
    else if text = presentForm then
      some { agents := [{ name := "atlas", llm := some { model := some "opus" } }], rest := () }
    else none
  print _ := some presentForm
  valid _ := true
  legacyProfile _ := false
  lower text := text
  inferKind _ := none
  canonicalKind _ := none
  runnerImage _ := none

/-- The Project of `oneTask` is being deleted. -/
def deletingGarden (file : String) : State Unit Unit where
  db := { projects := [{ id := "garden", deletionStartedAt := some "2026-01-01 00:00:00" }] }
  config := { rest := () }
  files := { config := some file }

theorem importSnapshot_error_presentForm :
    let st := deletingGarden presentForm
    let st' := (importSnapshot twoForms verbatim {} oneTask false "/home/garden" st).2
    st'.db = st.db ∧ st'.config = st.config ∧
      (Loaded twoForms st.files st'.files.config ∨
        ({} : World).edited = some st'.files.config) ∧
      ((∀ text ∈ st.files.config, Current twoForms text) → ({} : World).edited = none →
        st'.files.config = st.files.config) :=
  importSnapshot_error twoForms verbatim {} oneTask false "/home/garden"
    (deletingGarden presentForm) _ rfl

/-- A file in the old form comes out in the present one, though nothing was imported. -/
theorem importSnapshot_error_oldForm :
    ¬ ∀ (y : Yaml Unit Unit) (texts : Texts) (w : World) (s : PortableSnapshot) (allow : Bool)
      (workspace : String) (st : State Unit Unit) (e : Error),
      (importSnapshot y texts w s allow workspace st).1 = .error e →
      (importSnapshot y texts w s allow workspace st).2.db = st.db ∧
        (importSnapshot y texts w s allow workspace st).2.config = st.config ∧
        (importSnapshot y texts w s allow workspace st).2.files.config = st.files.config := by
  intro h
  obtain ⟨-, -, hfile⟩ :=
    h twoForms verbatim {} oneTask false "/home/garden" (deletingGarden oldForm) _ rfl
  exact absurd hfile (by decide +kernel)

end XpressClaw.Sync
