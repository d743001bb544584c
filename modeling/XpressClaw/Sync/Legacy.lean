import XpressClaw.Sync.Atomic

/-!
# Legacy fields of the configuration

`Config::load` looks for the retired profile fields in the text of the file, migrates the other
legacy fields of the configuration it has parsed, and saves what it changed.

* `Libraries` — what `serde_yaml` does, with the catalog of ACP agents as it is in the code.
* `AgentConfig.Legacy` — an Agent that `migrate_legacy_fields` changes.
* `migrateLegacyFields_again` — a second migration changes nothing.
* `load_settles_iff` — when a loaded configuration is migrated, and loads the same again.
-/

namespace XpressClaw.Sync

open Lib

/-! ## The catalog of ACP agents -/

/-- The kinds of `ACP_AGENTS`. -/
def acpAgentKinds : List String :=
  ["claude", "codex", "deepseek-harness", "github-copilot", "junie", "kimi", "opencode", "pi",
    "qwen", "cline", "cursor", "glm", "grok", "kilo", "mistral-vibe"]

/-- `canonical_agent_kind`. -/
def canonicalAgentKind (value : String) : Option String :=
  let normalized := Text.asciiLower (Text.trim value)
  if normalized ∈ acpAgentKinds then some normalized
  else if normalized = "copilot" then some "github-copilot"
  else if normalized ∈ ["deepseek", "dsh", "dsh-acp", "deepseek-harness-acp",
      "@openma/deepseek-harness-acp"] then some "deepseek-harness"
  else if normalized = "pi-acp" then some "pi"
  else none

/-- `infer_agent_kind_from_backend`. -/
def inferAgentKindFromBackend (value : String) : Option String :=
  let normalized := Text.asciiLower (Text.trim value)
  (canonicalAgentKind value).or <| acpAgentKinds.find? fun kind =>
    (4 ≤ kind.utf8ByteSize && Text.contains normalized kind) ||
      (kind = "github-copilot" && Text.contains normalized "copilot")

/-- `default_runner_image` without container access. -/
def defaultRunnerImage (tag kind : String) : Option String :=
  if kind ∈ acpAgentKinds then some ("ghcr.io/xpressai/xpressclaw-runner-" ++ kind ++ ":" ++ tag)
  else none

/-! ## The source document -/

/-- `serde_yaml::Value`, as far as keys are looked up in it. -/
inductive YamlValue where
  | scalar
  | str (s : String)
  | seq (vs : List YamlValue)
  | map (fs : List (YamlValue × YamlValue))
  | tagged (v : YamlValue)

namespace YamlValue

/-- The value without its tags. -/
def untag : YamlValue → YamlValue
  | tagged v => untag v
  | v => v

/-- `Value::as_mapping`. -/
def asMapping (v : YamlValue) : Option (List (YamlValue × YamlValue)) :=
  match v.untag with
  | map fs => some fs
  | _ => none

/-- `Value::as_sequence`. -/
def asSequence (v : YamlValue) : Option (List YamlValue) :=
  match v.untag with
  | seq vs => some vs
  | _ => none

/-- `key == Value::String(s)`. -/
def isKey (s : String) : YamlValue → Bool
  | str k => k = s
  | _ => false

/-- The elements of the field `agents` of a document. -/
def agents (v : YamlValue) : List YamlValue :=
  ((v.asMapping.bind fun root => (root.find? fun f => f.1.isKey "agents").map Prod.snd).bind
    asSequence).getD []

/-- `mapping.contains_key` with a string. -/
def hasField (s : String) (v : YamlValue) : Bool :=
  (v.asMapping.getD []).any fun f => f.1.isKey s

end YamlValue

/-- `PROFILE_KEYS`. -/
def profileKeys : List String :=
  ["display_name", "role_title", "responsibilities", "avatar", "role"]

/-- `contains_legacy_profile_fields`, on the document of a text, if it is one. -/
def containsLegacyProfileFields (document : Option YamlValue) : Bool :=
  document.any fun v => v.agents.any fun agent => profileKeys.any (agent.hasField ·)

/-- The fields of `AgentConfig`. -/
def agentFields : List String :=
  ["name", "backend", "model", "llm", "runner", "tools", "skills", "budget", "rate_limit",
    "wake_on", "container", "hooks", "volumes", "idle_prompt"]

/-! ## The libraries -/

variable {κ ρ : Type}

/-- What `serde_yaml`, the standard library and the build provide. -/
structure Libraries (κ ρ : Type) where
  /-- `serde_yaml::from_str::<Config>`. -/
  parse : String → Option (Config κ ρ)
  /-- `serde_yaml::to_string`. -/
  print : Config κ ρ → Option String
  /-- `serde_yaml::from_str::<serde_yaml::Value>`. -/
  document : String → Option YamlValue
  /-- `Config::validate`, which reads the other sections. -/
  valid : ρ → Bool
  /-- `str::to_lowercase`. -/
  lower : String → String
  /-- `RUNNER_IMAGE_TAG`. -/
  tag : String

namespace Libraries

variable (l : Libraries κ ρ)

/-- The parameters of loading and saving, with the code's own functions for them. -/
def yaml : Yaml κ ρ where
  parse := l.parse
  print := l.print
  valid := l.valid
  legacyProfile text := containsLegacyProfileFields (l.document text)
  lower := l.lower
  inferKind := inferAgentKindFromBackend
  canonicalKind := canonicalAgentKind
  runnerImage := defaultRunnerImage l.tag

/-- `serde_yaml` reads back what it writes, and writes the fields of the structures. -/
structure RoundTrips : Prop where
  parse_print : ∀ c text, l.print c = some text → l.parse text = some c
  fields : ∀ c text v, l.print c = some text → l.document text = some v →
    ∀ agent ∈ v.agents, ∀ s, agent.hasField s = true → s ∈ agentFields

end Libraries

/-! ## The statement -/

/-- The retired all-in-one image. -/
def AgentConfig.RetiredImage (a : AgentConfig) : Prop :=
  a.runner.image = "xpressclaw-native-runner:latest" ∨
    a.runner.image = "ghcr.io/xpressai/xpressclaw-native-runner:latest"

/-- The tools and skills that the old setup wizard injected. -/
def AgentConfig.InjectedBundle (a : AgentConfig) : Prop :=
  (∀ t ∈ ["filesystem", "shell", "memory"], t ∈ a.tools) ∧
    ∀ k ∈ ["memory-system", "task-management", "build-app"], k ∈ a.skills

/-- An Agent with a field that is migrated: the model at the top level, the retired image when
there is one for its kind, or the injected bundle. -/
def AgentConfig.Legacy (y : Yaml κ ρ) (a : AgentConfig) : Prop :=
  a.model.isSome ∨ (a.RetiredImage ∧ ∃ kind ∈ runnerKind y a, (y.runnerImage kind).isSome) ∨
    a.InjectedBundle

/-- The text that is loaded, and what it parses to: the file, or its backup if the file does not
parse. -/
def Reads (l : Libraries κ ρ) (files : Files) (text : String) (parsed : Config κ ρ) : Prop :=
  (files.config = some text ∧ l.parse text = some parsed) ∨
    (∃ corrupt, files.config = some corrupt ∧ l.parse corrupt = none) ∧
      files.backup = some text ∧ l.parse text = some parsed

/-- The text that is loaded has a profile field, and its configuration another legacy field. -/
def Shadowed (l : Libraries κ ρ) (files : Files) : Prop :=
  ∃ text parsed, Reads l files text parsed ∧
    containsLegacyProfileFields (l.document text) = true ∧
    ∃ a ∈ parsed.agents, a.Legacy l.yaml

/-! ## The catalog -/

/-- No image of the catalog is the retired one. -/
def Replaces (runnerImage : String → Option String) : Prop :=
  ∀ kind image, runnerImage kind = some image → image ≠ "xpressclaw-native-runner:latest" ∧
    image ≠ "ghcr.io/xpressai/xpressclaw-native-runner:latest"

theorem defaultRunnerImage_ne (tag : String) : Replaces (defaultRunnerImage tag) := by
  intro kind image h
  unfold defaultRunnerImage at h
  split at h
  · cases h
    constructor
    · intro heq
      have hchar := congrArg (fun s : String => s.toList[0]?) heq
      simp at hchar
    · intro heq
      have hchar := congrArg (fun s : String => s.toList[28]?) heq
      simp at hchar
  · cases h

theorem Libraries.RoundTrips.noProfile {l : Libraries κ ρ} (hl : l.RoundTrips)
    {c : Config κ ρ} {text : String} (h : l.print c = some text) :
    containsLegacyProfileFields (l.document text) = false := by
  cases hdocument : l.document text with
  | none => rfl
  | some v =>
    rw [containsLegacyProfileFields, Option.any_some, List.any_eq_false]
    intro agent hagent
    rw [Bool.not_eq_true, List.any_eq_false]
    intro s hs hfield
    have hdisjoint : ∀ s ∈ profileKeys, s ∉ agentFields := by decide
    exact hdisjoint s hs (hl.fields c text v h hdocument agent hagent s hfield)

/-! ## One Agent -/

section Agent

variable {y : Yaml κ ρ} {a : AgentConfig}

theorem migrateLegacyModel_eq (a : AgentConfig) :
    (migrateLegacyModel a).1.model = none ∧ (migrateLegacyModel a).1.runner = a.runner ∧
      (migrateLegacyModel a).1.backend = a.backend ∧ (migrateLegacyModel a).1.tools = a.tools ∧
      (migrateLegacyModel a).1.skills = a.skills ∧ (migrateLegacyModel a).2 = a.model.isSome := by
  unfold migrateLegacyModel
  cases h : a.model <;> simp [h]

theorem migrateLegacyModel_of_none (h : a.model = none) : migrateLegacyModel a = (a, false) := by
  simp [migrateLegacyModel, h]

theorem migrateLegacyRunnerImage_eq (y : Yaml κ ρ) (a : AgentConfig) :
    (migrateLegacyRunnerImage y a).1.model = a.model ∧
      (migrateLegacyRunnerImage y a).1.tools = a.tools ∧
      (migrateLegacyRunnerImage y a).1.skills = a.skills := by
  unfold migrateLegacyRunnerImage
  split
  · split <;> exact ⟨rfl, rfl, rfl⟩
  · exact ⟨rfl, rfl, rfl⟩

/-- The image is replaced exactly when it is the retired one and there is one for the kind. -/
theorem migrateLegacyRunnerImage_iff : (migrateLegacyRunnerImage y a).2 = true ↔
    a.RetiredImage ∧ ∃ kind ∈ runnerKind y a, (y.runnerImage kind).isSome := by
  unfold migrateLegacyRunnerImage AgentConfig.RetiredImage
  split
  · rename_i hretired
    split
    · rename_i hnone
      simp only [Bool.false_eq_true, hretired, true_and, false_iff, not_exists, not_and]
      intro kind hkind himage
      obtain ⟨image, himage⟩ := Option.isSome_iff_exists.1 himage
      rw [Option.mem_def.1 hkind, Option.bind_some, himage] at hnone
      cases hnone
    · rename_i kind image hsome
      obtain ⟨kind', hkind, himage⟩ := Option.bind_eq_some_iff.1 hsome
      obtain ⟨image', himage, -⟩ := Option.map_eq_some_iff.1 himage
      simp only [true_iff]
      exact ⟨hretired, kind', hkind, by rw [himage]; rfl⟩
  · rename_i hretired
    simp [hretired]

theorem migrateLegacyRunnerImage_of_not (h : (migrateLegacyRunnerImage y a).2 = false) :
    migrateLegacyRunnerImage y a = (a, false) := by
  unfold migrateLegacyRunnerImage at h ⊢
  split at h
  · rename_i hretired
    rw [if_pos hretired]
    split at h
    · rfl
    · cases h
  · rename_i hretired
    rw [if_neg hretired]

theorem image_migrateLegacyRunnerImage (h : (migrateLegacyRunnerImage y a).2 = true) :
    ∃ kind, y.runnerImage kind = some (migrateLegacyRunnerImage y a).1.runner.image := by
  unfold migrateLegacyRunnerImage at h ⊢
  split at h
  · rename_i hretired
    rw [if_pos hretired]
    split at h
    · cases h
    · rename_i kind image hsome
      obtain ⟨kind', -, hmap⟩ := Option.bind_eq_some_iff.1 hsome
      obtain ⟨image', himage, heq⟩ := Option.map_eq_some_iff.1 hmap
      cases heq
      exact ⟨kind, himage⟩
  · cases h

theorem migrateLegacyToolBundle_iff : (migrateLegacyToolBundle a).2 = true ↔ a.InjectedBundle := by
  unfold migrateLegacyToolBundle AgentConfig.InjectedBundle
  split
  · rename_i hbundle
    simp only [true_iff]
    exact hbundle
  · rename_i hbundle
    simp only [Bool.false_eq_true, false_iff]
    exact hbundle

theorem migrateLegacyToolBundle_of_not (h : ¬ a.InjectedBundle) :
    migrateLegacyToolBundle a = (a, false) := if_neg h

theorem not_injected_migrateLegacyToolBundle (a : AgentConfig) :
    ¬ (migrateLegacyToolBundle a).1.InjectedBundle := by
  unfold migrateLegacyToolBundle
  split
  · rintro ⟨htools, -⟩
    exact absurd (htools "shell" (by decide)) (by simp)
  · rename_i hbundle
    exact hbundle

theorem migrateLegacyToolBundle_eq (a : AgentConfig) :
    (migrateLegacyToolBundle a).1.model = a.model ∧
      (migrateLegacyToolBundle a).1.runner = a.runner ∧
      (migrateLegacyToolBundle a).1.backend = a.backend := by
  unfold migrateLegacyToolBundle
  split <;> exact ⟨rfl, rfl, rfl⟩

theorem runnerKind_congr {b : AgentConfig} (hrunner : b.runner = a.runner)
    (hbackend : b.backend = a.backend) : runnerKind y b = runnerKind y a := by
  rw [runnerKind, runnerKind, hrunner, hbackend]

theorem migrateAgent_iff :
    ((migrateAgent y a).2.1 || (migrateAgent y a).2.2) = true ↔ a.Legacy y := by
  obtain ⟨-, hrunner, hbackend, htools, hskills, hmodel⟩ := migrateLegacyModel_eq a
  obtain ⟨-, htools', hskills'⟩ := migrateLegacyRunnerImage_eq y (migrateLegacyModel a).1
  have hbundle : (migrateLegacyRunnerImage y (migrateLegacyModel a).1).1.InjectedBundle ↔
      a.InjectedBundle := by
    rw [AgentConfig.InjectedBundle, AgentConfig.InjectedBundle, htools', hskills', htools, hskills]
  rw [migrateAgent, Bool.or_eq_true, Bool.or_eq_true, hmodel, migrateLegacyRunnerImage_iff,
    migrateLegacyToolBundle_iff, hbundle, runnerKind_congr hrunner hbackend,
    AgentConfig.RetiredImage, hrunner, or_assoc]
  rfl

theorem migrateAgent_of_not (h : ¬ a.Legacy y) : migrateAgent y a = (a, false, false) := by
  have hmodel : migrateLegacyModel a = (a, false) :=
    migrateLegacyModel_of_none (by simpa using mt Or.inl h)
  have himage : migrateLegacyRunnerImage y a = (a, false) :=
    migrateLegacyRunnerImage_of_not
      (by simpa using mt migrateLegacyRunnerImage_iff.1 fun hi => h (Or.inr (Or.inl hi)))
  have hbundle : migrateLegacyToolBundle a = (a, false) :=
    migrateLegacyToolBundle_of_not fun hi => h (Or.inr (Or.inr hi))
  simp only [migrateAgent, hmodel, himage, hbundle, Bool.or_self]

/-- An Agent that was migrated has nothing left to migrate. -/
theorem not_legacy_migrateAgent (hy : Replaces y.runnerImage) (a : AgentConfig) :
    ¬ (migrateAgent y a).1.Legacy y := by
  obtain ⟨hmodel, -⟩ := migrateLegacyModel_eq a
  obtain ⟨hmodel', -⟩ := migrateLegacyRunnerImage_eq y (migrateLegacyModel a).1
  obtain ⟨hmodel'', hrunner, hbackend⟩ :=
    migrateLegacyToolBundle_eq (migrateLegacyRunnerImage y (migrateLegacyModel a).1).1
  set b := (migrateLegacyModel a).1 with hb
  set c := (migrateLegacyRunnerImage y b).1 with hc
  have hfinal : (migrateAgent y a).1 = (migrateLegacyToolBundle c).1 := rfl
  rintro (hlegacy | ⟨hretired, hkind⟩ | hbundle)
  · rw [hfinal, hmodel'', hmodel', hmodel] at hlegacy
    cases hlegacy
  · rw [hfinal, runnerKind_congr hrunner hbackend] at hkind
    rw [hfinal, AgentConfig.RetiredImage, hrunner] at hretired
    have himage : (migrateLegacyRunnerImage y c).2 = true :=
      migrateLegacyRunnerImage_iff.2 ⟨hretired, hkind⟩
    -- the image was replaced by one of the catalog, or there was none for the kind
    cases hreplaced : (migrateLegacyRunnerImage y b).2 with
    | true =>
      obtain ⟨kind, hcatalog⟩ := image_migrateLegacyRunnerImage hreplaced
      obtain ⟨hne, hne'⟩ := hy kind _ hcatalog
      exact hretired.elim hne hne'
    | false =>
      rw [hc, migrateLegacyRunnerImage_of_not hreplaced, hreplaced] at himage
      cases himage
  · exact not_injected_migrateLegacyToolBundle c (hfinal ▸ hbundle)

end Agent

/-! ## The configuration -/

section Fields

variable {y : Yaml κ ρ} {c : Config κ ρ}

theorem migrateLegacyFields_iff :
    (migrateLegacyFields y c).2 = true ↔ ∃ a ∈ c.agents, a.Legacy y := by
  simp only [migrateLegacyFields, Bool.or_eq_true, List.any_map, List.any_eq_true,
    ← exists_or, ← and_or_left, Function.comp]
  exact exists_congr fun a => and_congr_right fun _ => by rw [← Bool.or_eq_true, migrateAgent_iff]

theorem migrateLegacyFields_of_not (h : ∀ a ∈ c.agents, ¬ a.Legacy y) :
    migrateLegacyFields y c = (c, false) := by
  have hagents : c.agents.map (migrateAgent y) = c.agents.map fun a => (a, false, false) :=
    List.map_congr_left fun a ha => migrateAgent_of_not (h a ha)
  have hnone (p : AgentConfig × Bool × Bool → Bool) (hp : ∀ a, p (a, false, false) = false) :
      (c.agents.map fun a => (a, false, false)).any p = false := by
    simp [hp]
  simp only [migrateLegacyFields, hagents, List.map_map]
  rw [hnone _ fun _ => rfl, hnone _ fun _ => rfl]
  cases c
  simp [Function.comp_def]

/-- **A migration leaves nothing to migrate.** -/
theorem migrateLegacyFields_again (hy : Replaces y.runnerImage) (c : Config κ ρ) :
    migrateLegacyFields y (migrateLegacyFields y c).1 = ((migrateLegacyFields y c).1, false) := by
  refine migrateLegacyFields_of_not fun a ha => ?_
  simp only [migrateLegacyFields, List.map_map, List.mem_map] at ha
  obtain ⟨b, -, rfl⟩ := ha
  exact not_legacy_migrateAgent hy b

end Fields

/-! ## Loading -/

section Load

variable {l : Libraries κ ρ} {w : World} {files files' : Files} {c : Config κ ρ}

/-- What a load of a text that parses returns, and what it leaves in the file. -/
theorem loadParsed_leaves {fromBackup : Bool} {text : String} {parsed : Config κ ρ}
    (h : loadParsed l.yaml w fromBackup text parsed files = (.ok c, files')) :
    c = migratedConfig l.yaml text parsed ∧ l.valid c.rest = true ∧
      (isLegacy l.yaml text parsed = true ∧
          (∃ written, l.print c = some written ∧ files'.config = some written) ∨
        isLegacy l.yaml text parsed = false ∧
          (files'.config = files.config ∧ (fromBackup = true → files'.backup = files.backup) ∨
            fromBackup = true ∧ files'.config = some text)) := by
  unfold loadParsed at h
  rw [migrated_eq] at h
  dsimp only at h
  split at h
  · cases h
  · rename_i hvalid
    have hvalid : l.valid (migratedConfig l.yaml text parsed).rest = true := not_not.1 hvalid
    split at h
    · rename_i hlegacy
      split at h
      · rename_i hsave
        obtain ⟨written, hprint, rfl⟩ := save_ok hsave
        cases h
        exact ⟨rfl, hvalid, Or.inl ⟨hlegacy, written, hprint, rfl⟩⟩
      · cases h
    · rename_i hlegacy
      rw [Bool.not_eq_true] at hlegacy
      split at h
      · rename_i hcopied
        cases h
        exact ⟨rfl, hvalid, Or.inr ⟨hlegacy, Or.inr ⟨(Bool.and_eq_true _ _ ▸ hcopied).1, rfl⟩⟩⟩
      · cases h
        refine ⟨rfl, hvalid, Or.inr ⟨hlegacy, Or.inl ⟨by split <;> rfl, ?_⟩⟩⟩
        rintro rfl
        rfl

/-- What a load that succeeds read, and what it leaves. -/
theorem load_ok (h : load l.yaml w files = (.ok c, files')) :
    ∃ text parsed, Reads l files text parsed ∧ c = migratedConfig l.yaml text parsed ∧
      l.valid c.rest = true ∧
      (isLegacy l.yaml text parsed = true ∧
          (∃ written, l.print c = some written ∧ files'.config = some written) ∨
        isLegacy l.yaml text parsed = false ∧ Reads l files' text parsed) := by
  unfold load at h
  split at h
  · cases h
  · rename_i text hconfig
    split at h
    · cases h
    · split at h
      · rename_i parsed hparse
        obtain ⟨hc, hvalid, hleft⟩ := loadParsed_leaves h
        refine ⟨text, parsed, Or.inl ⟨hconfig, hparse⟩, hc, hvalid, hleft.imp_right ?_⟩
        rintro ⟨hlegacy, ⟨hsame, -⟩ | ⟨hfalse, -⟩⟩
        · exact ⟨hlegacy, Or.inl ⟨hsame.trans hconfig, hparse⟩⟩
        · cases hfalse
      · rename_i hcorrupt
        split at h
        · cases h
        · rename_i backup parsed hbackup
          obtain ⟨text', hbackup, hmap⟩ := Option.bind_eq_some_iff.1 hbackup
          obtain ⟨parsed', hparse, heq⟩ := Option.map_eq_some_iff.1 hmap
          cases heq
          obtain ⟨hc, hvalid, hleft⟩ := loadParsed_leaves h
          refine ⟨_, _, Or.inr ⟨⟨text, hconfig, hcorrupt⟩, hbackup, hparse⟩, hc, hvalid,
            hleft.imp_right ?_⟩
          rintro ⟨hlegacy, ⟨hsame, hkept⟩ | ⟨-, hrestored⟩⟩
          · exact ⟨hlegacy, Or.inr ⟨⟨text, hsame.trans hconfig, hcorrupt⟩,
              (hkept rfl).trans hbackup, hparse⟩⟩
          · exact ⟨hlegacy, Or.inl ⟨hrestored, hparse⟩⟩

theorem migratedConfig_present {text : String} (h : isLegacy l.yaml text c = false) :
    migratedConfig l.yaml text c = c := by
  obtain ⟨hprofile, hfields⟩ := Bool.or_eq_false_iff.1 h
  have hnone : ∀ a ∈ c.agents, ¬ a.Legacy l.yaml := fun a ha hlegacy => by
    rw [migrateLegacyFields_iff.2 ⟨a, ha, hlegacy⟩] at hfields
    cases hfields
  rw [migratedConfig, hprofile, if_neg Bool.false_ne_true, migrateLegacyFields_of_not hnone]

/-- The text that is loaded is one. -/
theorem Reads.unique {text text' : String} {parsed parsed' : Config κ ρ}
    (h : Reads l files text parsed) (h' : Reads l files text' parsed') :
    text = text' ∧ parsed = parsed' := by
  rcases h with ⟨hconfig, hparse⟩ | ⟨⟨corrupt, hconfig, hcorrupt⟩, hbackup, hparse⟩ <;>
    rcases h' with ⟨hconfig', hparse'⟩ | ⟨⟨corrupt', hconfig', hcorrupt'⟩, hbackup', hparse'⟩
  · rw [hconfig] at hconfig'
    cases hconfig'
    rw [hparse] at hparse'
    exact ⟨rfl, Option.some.inj hparse'⟩
  · rw [hconfig] at hconfig'
    cases hconfig'
    rw [hparse] at hcorrupt'
    cases hcorrupt'
  · rw [hconfig] at hconfig'
    cases hconfig'
    rw [hcorrupt] at hparse'
    cases hparse'
  · rw [hbackup] at hbackup'
    cases hbackup'
    rw [hparse] at hparse'
    exact ⟨rfl, Option.some.inj hparse'⟩

/-- A text in its present form loads as what it parses to. -/
theorem load_present {text : String} (hreads : Reads l files text c) (hw : w.reads = true)
    (hvalid : l.valid c.rest = true) (hpresent : isLegacy l.yaml text c = false) :
    (load l.yaml w files).1 = .ok c := by
  have hsame := migratedConfig_present hpresent
  have hvalid' : ¬ ¬ l.yaml.valid c.rest = true := not_not.2 hvalid
  have hparsed (fromBackup : Bool) : (loadParsed l.yaml w fromBackup text c files).1 = .ok c := by
    unfold loadParsed
    rw [migrated_eq, hpresent, hsame]
    dsimp only
    rw [if_neg hvalid', if_neg Bool.false_ne_true]
    split <;> rfl
  rcases hreads with ⟨hconfig, hparse⟩ | ⟨⟨corrupt, hconfig, hcorrupt⟩, hbackup, hparse⟩
  · have hparse' : l.yaml.parse text = some c := hparse
    simp only [load, hconfig, hw, hparse', not_true_eq_false, if_false]
    exact hparsed false
  · have hparse' : l.yaml.parse text = some c := hparse
    have hcorrupt' : l.yaml.parse corrupt = none := hcorrupt
    simp only [load, hconfig, hw, hcorrupt', hbackup, Option.bind_some, hparse', Option.map_some,
      not_true_eq_false, if_false]
    exact hparsed true

/-- **When a load migrates completely**: its configuration has no legacy field left, and the file
it leaves loads as the same configuration, exactly when no profile field hides another one. -/
theorem load_settles_iff (hl : l.RoundTrips) (h : load l.yaml w files = (.ok c, files')) :
    (migrateLegacyFields l.yaml c = (c, false) ∧
      ∀ w' : World, w'.reads → (load l.yaml w' files').1 = .ok c) ↔ ¬ Shadowed l files := by
  obtain ⟨text, parsed, hreads, hc, hvalid, hleft⟩ := load_ok h
  constructor
  · rintro ⟨hnone, -⟩ ⟨text', parsed', hreads', hprofile, hlegacy⟩
    obtain ⟨rfl, rfl⟩ := hreads.unique hreads'
    have hprofile' : l.yaml.legacyProfile text = true := hprofile
    rw [migratedConfig, if_pos hprofile'] at hc
    rw [hc] at hnone
    have hflag := migrateLegacyFields_iff.2 hlegacy
    rw [hnone] at hflag
    cases hflag
  · intro hshadow
    have hfields : migrateLegacyFields l.yaml c = (c, false) := by
      cases hprofile : l.yaml.legacyProfile text with
      | true =>
          rw [migratedConfig, if_pos hprofile] at hc
          rw [hc]
          exact migrateLegacyFields_of_not fun a ha hlegacy =>
            hshadow ⟨text, parsed, hreads, hprofile, a, ha, hlegacy⟩
      | false =>
          rw [migratedConfig, hprofile, if_neg Bool.false_ne_true] at hc
          rw [hc]
          exact migrateLegacyFields_again (defaultRunnerImage_ne l.tag) parsed
    refine ⟨hfields, fun w' hw' => ?_⟩
    rcases hleft with ⟨-, written, hprint, hconfig⟩ | ⟨hpresent, hreads'⟩
    · have hnoProfile : l.yaml.legacyProfile written = false := hl.noProfile hprint
      refine load_present (Or.inl ⟨hconfig, hl.parse_print c written hprint⟩) hw' hvalid ?_
      rw [isLegacy, hnoProfile, hfields, Bool.or_self]
    · rw [migratedConfig_present hpresent] at hc
      rw [hc] at hvalid ⊢
      exact load_present hreads' hw' hvalid hpresent

end Load

/-! A file with a profile field and a model at the top level. -/

def profileForm : String :=
  "agents:\n- name: atlas\n  backend: claude-sdk\n  role: engineer\n  model: opus\n"

/-- An Agent of the old form. -/
def oldConfig : Config Unit Unit where
  agents := [{ name := "atlas", model := some "opus" }]
  rest := ()

/-- The same Agent in the present form. -/
def presentConfig : Config Unit Unit where
  agents := [{ name := "atlas", llm := some { model := some "opus" } }]
  rest := ()

/-- The document of one Agent. -/
def agentDocument (fields : List String) : YamlValue :=
  .map [(.str "agents", .seq [.map (fields.map fun s => (.str s, .scalar))])]

/-- A parser and a printer that know the three forms; fields at their defaults are left out. -/
def threeForms : Libraries Unit Unit where
  parse text :=
    if text = profileForm ∨ text = oldForm then some oldConfig
    else if text = presentForm then some presentConfig
    else none
  print c :=
    if c.agents = oldConfig.agents ∧ c.mcpServers = [] then some oldForm
    else if c.agents = presentConfig.agents ∧ c.mcpServers = [] then some presentForm
    else none
  document text :=
    if text = profileForm then some (agentDocument ["name", "backend", "role", "model"])
    else if text = oldForm then some (agentDocument ["name", "backend", "model"])
    else if text = presentForm then some (agentDocument ["name", "backend", "llm"])
    else none
  valid _ := true
  lower := Text.asciiLower
  tag := "latest"

theorem threeForms_print {c : Config Unit Unit} {text : String}
    (h : threeForms.print c = some text) :
    c = oldConfig ∧ text = oldForm ∨ c = presentConfig ∧ text = presentForm := by
  obtain ⟨agents, mcpServers, ⟨⟩⟩ := c
  simp only [threeForms] at h
  split at h
  · rename_i hc
    obtain ⟨rfl, rfl⟩ := hc
    exact Or.inl ⟨rfl, (Option.some.inj h).symm⟩
  · split at h
    · rename_i hc
      obtain ⟨rfl, rfl⟩ := hc
      exact Or.inr ⟨rfl, (Option.some.inj h).symm⟩
    · cases h

theorem hasField_agentDocument {fields : List String} {s : String} {agent : YamlValue}
    (hagent : agent ∈ (agentDocument fields).agents) (h : agent.hasField s = true) :
    s ∈ fields := by
  have hagents : (agentDocument fields).agents =
      [.map (fields.map fun s => (.str s, .scalar))] := by
    simp [agentDocument, YamlValue.agents, YamlValue.asMapping, YamlValue.untag, YamlValue.isKey,
      YamlValue.asSequence]
  rw [hagents, List.mem_singleton] at hagent
  rw [hagent] at h
  simpa [YamlValue.hasField, YamlValue.asMapping, YamlValue.untag, YamlValue.isKey] using h

theorem threeForms_roundTrips : threeForms.RoundTrips := by
  have hold : oldForm ≠ profileForm := by decide
  have hpresent : presentForm ≠ profileForm ∧ presentForm ≠ oldForm := by decide
  constructor
  · intro c text h
    rcases threeForms_print h with ⟨rfl, rfl⟩ | ⟨rfl, rfl⟩
    · simp [threeForms]
    · simp [threeForms, hpresent]
  · intro c text v h hdocument agent hagent s hs
    rcases threeForms_print h with ⟨rfl, rfl⟩ | ⟨rfl, rfl⟩
    · simp only [threeForms, if_neg hold, if_true, Option.some.injEq] at hdocument
      subst hdocument
      have hmem := hasField_agentDocument hagent hs
      have hfields : ∀ s ∈ ["name", "backend", "model"], s ∈ agentFields := by decide
      exact hfields s hmem
    · simp only [threeForms, if_neg hpresent.1, if_neg hpresent.2, if_true,
        Option.some.injEq] at hdocument
      subst hdocument
      have hmem := hasField_agentDocument hagent hs
      have hfields : ∀ s ∈ ["name", "backend", "llm"], s ∈ agentFields := by decide
      exact hfields s hmem

/-- A file in the old form, without a profile field, is migrated. -/
theorem load_oldForm_settles :
    load threeForms.yaml {} ⟨some oldForm, none⟩ =
      (.ok presentConfig, ⟨some presentForm, some oldForm⟩) ∧
    ((migrateLegacyFields threeForms.yaml presentConfig = (presentConfig, false) ∧
      ∀ w' : World, w'.reads →
        (load threeForms.yaml w' ⟨some presentForm, some oldForm⟩).1 = .ok presentConfig) ↔
      ¬ Shadowed threeForms ⟨some oldForm, none⟩) := by
  have hload : load threeForms.yaml {} ⟨some oldForm, none⟩ =
      (.ok presentConfig, ⟨some presentForm, some oldForm⟩) := by
    rfl
  exact ⟨hload, load_settles_iff threeForms_roundTrips hload⟩

/-- A profile field hides the model at the top level: the loaded configuration still has it, and
the file that was saved loads as another one. -/
theorem load_profileForm_unmigrated :
    load threeForms.yaml {} ⟨some profileForm, none⟩ =
      (.ok oldConfig, ⟨some oldForm, some profileForm⟩) ∧
    migrateLegacyFields threeForms.yaml oldConfig = (presentConfig, true) ∧
    (load threeForms.yaml {} ⟨some oldForm, some profileForm⟩).1 = .ok presentConfig ∧
    presentConfig.agents ≠ oldConfig.agents :=
  ⟨rfl, rfl, rfl, by decide⟩

end XpressClaw.Sync
