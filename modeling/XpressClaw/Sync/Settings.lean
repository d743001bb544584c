import XpressClaw.Sync.Atomic
import XpressClaw.Sync.Outside

/-!
# Local settings after an import

What an Agent may reach stays local: its credentials, its environment, its mounts and its
servers.  An import writes the other settings of the Agents in its snapshot, adds those that
were missing, and saves the configuration.

* `AgentConfig.own` — the settings that stay.
* `Merged` — the Agents before and after a merge, place by place.
* `import_leaves_local` — the result, with the tables of `Outside`.
-/

namespace XpressClaw.Sync

open Lib

variable {κ ρ : Type} {y : Yaml κ ρ} {texts : Texts} {w : World} {s : PortableSnapshot}
  {allow : Bool} {workspace : String} {st st' : State κ ρ} {files files' : Files}
  {config updated : Config κ ρ}

/-! ## The settings that stay -/

structure OwnSettings where
  apiKey : Option String
  baseUrl : Option String
  workspace : Option String
  environment : List (String × String)
  mcpServers : List String
  subscriptionAuth : Bool
  sshAgentForwarding : Bool
  containerEngine : ContainerEngineAccess
  proxy : AgentProxyMode
  container : List (String × Json)
  hooks : HooksConfig
  volumes : List String
  deriving DecidableEq

def AgentConfig.own (a : AgentConfig) : OwnSettings where
  apiKey := a.llm.bind (·.apiKey)
  baseUrl := a.llm.bind (·.baseUrl)
  workspace := a.runner.workspace
  environment := a.runner.environment
  mcpServers := a.runner.mcpServers
  subscriptionAuth := a.runner.subscriptionAuth
  sshAgentForwarding := a.runner.sshAgentForwarding
  containerEngine := a.runner.containerEngine
  proxy := a.runner.proxy
  container := a.container
  hooks := a.hooks
  volumes := a.volumes

theorem mergeLlm_apiKey (shared : Option PortableLlmSettings) (llm : Option AgentLlmConfig) :
    (mergeLlm shared llm).bind (·.apiKey) = llm.bind (·.apiKey) ∧
      (mergeLlm shared llm).bind (·.baseUrl) = llm.bind (·.baseUrl) := by
  cases shared <;> cases llm <;> exact ⟨rfl, rfl⟩

theorem own_applyPortableAgent {p : PortableAgent} {a a' : AgentConfig}
    (h : applyPortableAgent p none a = .ok a') : a'.name = p.id ∧ a'.own = a.own := by
  obtain ⟨budget, -, h⟩ := bind_ok h
  cases h
  obtain ⟨hkey, hurl⟩ := mergeLlm_apiKey p.settings.llm a.llm
  refine ⟨rfl, ?_⟩
  simp only [AgentConfig.own, hkey, hurl]
  rfl

theorem name_applyPortableAgent {p : PortableAgent} {new : Option String} {a a' : AgentConfig}
    (h : applyPortableAgent p new a = .ok a') : a'.name = p.id := by
  obtain ⟨budget, -, h⟩ := bind_ok h
  cases h
  rfl

theorem own_migrateLegacyModel (a : AgentConfig) :
    (migrateLegacyModel a).1.name = a.name ∧ (migrateLegacyModel a).1.own = a.own := by
  unfold migrateLegacyModel
  split
  · exact ⟨rfl, rfl⟩
  · refine ⟨rfl, ?_⟩
    cases hllm : a.llm <;> simp [AgentConfig.own, hllm]

theorem own_migrateLegacyRunnerImage (y : Yaml κ ρ) (a : AgentConfig) :
    (migrateLegacyRunnerImage y a).1.name = a.name ∧
      (migrateLegacyRunnerImage y a).1.own = a.own := by
  unfold migrateLegacyRunnerImage
  split
  · split <;> exact ⟨rfl, rfl⟩
  · exact ⟨rfl, rfl⟩

theorem own_migrateLegacyToolBundle (a : AgentConfig) :
    (migrateLegacyToolBundle a).1.name = a.name ∧ (migrateLegacyToolBundle a).1.own = a.own := by
  unfold migrateLegacyToolBundle
  split <;> exact ⟨rfl, rfl⟩

theorem own_migrateAgent (y : Yaml κ ρ) (a : AgentConfig) :
    (migrateAgent y a).1.name = a.name ∧ (migrateAgent y a).1.own = a.own := by
  have hmodel := own_migrateLegacyModel a
  have himage := own_migrateLegacyRunnerImage y (migrateLegacyModel a).1
  have hbundle := own_migrateLegacyToolBundle
    (migrateLegacyRunnerImage y (migrateLegacyModel a).1).1
  exact ⟨hbundle.1.trans (himage.1.trans hmodel.1), hbundle.2.trans (himage.2.trans hmodel.2)⟩

/-! ## The merge -/

/-- The Agents of a list are written over where they are, or added behind the others. -/
structure Merged (ids : List String) (agents agents' : List AgentConfig) : Prop where
  kept : ∀ (i : ℕ) (a : AgentConfig), agents[i]? = some a → ∃ a' : AgentConfig,
    agents'[i]? = some a' ∧ a'.name = a.name ∧ a'.own = a.own ∧ (a.name ∉ ids → a' = a)
  added : ∀ (i : ℕ) (a' : AgentConfig), agents'[i]? = some a' → agents.length ≤ i → a'.name ∈ ids

namespace Merged

variable {ids : List String} {agents agents' agents'' : List AgentConfig}

theorem refl (ids : List String) (agents : List AgentConfig) : Merged ids agents agents := by
  refine ⟨fun i a ha => ⟨a, ha, rfl, rfl, fun _ => rfl⟩, fun i a ha hle => ?_⟩
  rw [List.getElem?_eq_none hle] at ha
  cases ha

theorem trans (h : Merged ids agents agents') (h' : Merged ids agents' agents'') :
    Merged ids agents agents'' := by
  refine ⟨fun i a ha => ?_, fun i a'' ha'' hle => ?_⟩
  · obtain ⟨a', ha', hname, hown, hsame⟩ := h.kept i a ha
    obtain ⟨a'', ha'', hname', hown', hsame'⟩ := h'.kept i a' ha'
    refine ⟨a'', ha'', hname'.trans hname, hown'.trans hown, fun hnot => ?_⟩
    rw [hsame' (hname ▸ hnot), hsame hnot]
  · cases ha' : agents'[i]? with
    | none => exact h'.added i a'' ha'' (List.getElem?_eq_none_iff.1 ha')
    | some a' =>
      obtain ⟨b, hb, hname, -⟩ := h'.kept i a' ha'
      rw [ha''] at hb
      cases hb
      rw [hname]
      exact h.added i a' ha' hle

theorem cons (a : AgentConfig) (h : Merged ids agents agents') :
    Merged ids (a :: agents) (a :: agents') := by
  refine ⟨fun i b hb => ?_, fun i b hb hle => ?_⟩
  · cases i with
    | zero => exact ⟨b, hb, rfl, rfl, fun _ => rfl⟩
    | succ i => exact h.kept i b hb
  · cases i with
    | zero => simp at hle
    | succ i => exact h.added i b hb (by simpa using hle)

end Merged

theorem mergeAgent_merged {ids : List String} {p : PortableAgent}
    {agents agents' : List AgentConfig} (hp : p.id ∈ ids)
    (h : mergeAgent workspace p agents = .ok agents') : Merged ids agents agents' := by
  induction agents generalizing agents' with
  | nil =>
    obtain ⟨a, ha, h⟩ := bind_ok h
    cases h
    refine ⟨fun i b hb => by simp at hb, fun i b hb _ => ?_⟩
    have hmem : b ∈ [a] := List.mem_of_getElem? hb
    rw [List.mem_singleton.1 hmem, name_applyPortableAgent ha]
    exact hp
  | cons a agents ih =>
    rw [mergeAgent] at h
    split at h
    · next hname =>
        obtain ⟨a', ha', h⟩ := bind_ok h
        cases h
        obtain ⟨hname', hown⟩ := own_applyPortableAgent ha'
        refine ⟨fun i b hb => ?_, fun i b hb hle => ?_⟩
        · cases i with
          | zero =>
            obtain rfl : a = b := by simpa using hb
            exact ⟨a', rfl, hname'.trans hname.symm, hown, fun hnot => absurd (hname ▸ hp) hnot⟩
          | succ i => exact ⟨b, hb, rfl, rfl, fun _ => rfl⟩
        · rw [List.getElem?_eq_none (by simpa using hle)] at hb
          cases hb
    · obtain ⟨rest, hrest, h⟩ := bind_ok h
      cases h
      exact (ih hrest).cons a

theorem mergeAgentConfig_merged (h : mergeAgentConfig config s workspace = .ok updated) :
    updated = { config with agents := updated.agents } ∧
      Merged (s.agents.map (·.id)) config.agents updated.agents := by
  obtain ⟨agents, hagents, h⟩ := bind_ok h
  cases h
  refine ⟨rfl, each_invariant (I := fun agents' =>
    Merged (s.agents.map (·.id)) config.agents agents') (fun d p d' hp hd hstep => ?_)
    (.refl _ _) hagents⟩
  exact hd.trans (mergeAgent_merged (List.mem_map_of_mem hp) hstep)

/-! ## The import -/

/-- The Agents an import finds: those of the file, of its backup if the file does not parse, and
those in memory if there is no file. -/
def localAgents (y : Yaml κ ρ) (st : State κ ρ) : Option (List AgentConfig) :=
  match st.files.config with
  | none => some st.config.agents
  | some text => ((y.parse text).or (st.files.backup.bind y.parse)).map (·.agents)

theorem loadParsed_ok {fromBackup : Bool} {text : String} {parsed : Config κ ρ}
    (h : loadParsed y w fromBackup text parsed files = (.ok config, files')) :
    config = migratedConfig y text parsed := by
  unfold loadParsed at h
  rw [migrated_eq] at h
  dsimp only at h
  split at h
  · cases h
  · split at h
    · split at h <;> cases h
      rfl
    · split at h <;> cases h <;> rfl

theorem migratedConfig_agents (y : Yaml κ ρ) (text : String) (parsed : Config κ ρ) :
    (migratedConfig y text parsed).agents = parsed.agents ∨
      (migratedConfig y text parsed).agents = parsed.agents.map fun a => (migrateAgent y a).1 := by
  unfold migratedConfig
  split
  · exact Or.inl rfl
  · exact Or.inr (by simp [migrateLegacyFields])

/-- The configuration an import starts from has the local Agents, or their present forms. -/
theorem startConfig_agents (h : startConfig y w st = (.ok config, files')) :
    ∃ agents, localAgents y st = some agents ∧
      (config.agents = agents ∨ config.agents = agents.map fun a => (migrateAgent y a).1) := by
  unfold startConfig at h
  split at h
  · next hsome =>
      obtain ⟨text, htext⟩ := Option.isSome_iff_exists.1 hsome
      unfold load at h
      unfold localAgents
      rw [htext] at h ⊢
      dsimp only at h ⊢
      split at h
      · cases h
      · split at h
        · next parsed hparses =>
            rw [hparses, loadParsed_ok h]
            exact ⟨_, rfl, migratedConfig_agents y text parsed⟩
        · next hcorrupt =>
            split at h
            · cases h
            · next backup parsed hbackup =>
                obtain ⟨text', hbackup, hparsed⟩ := Option.bind_eq_some_iff.1 hbackup
                obtain ⟨parsed', hparses, heq⟩ := Option.map_eq_some_iff.1 hparsed
                cases heq
                rw [hcorrupt, hbackup, Option.none_or, Option.bind_some, hparses, loadParsed_ok h]
                exact ⟨_, rfl, migratedConfig_agents y backup parsed⟩
  · next hnone =>
      cases h
      have hconfig : st.files.config = none := by simpa using hnone
      unfold localAgents
      rw [hconfig]
      exact ⟨_, rfl, Or.inl rfl⟩

/-- What an import that succeeds has done. -/
theorem importIn_ok {db db' : Db} {stopped : List ℕ}
    (h : importIn y texts w s allow updated db files = (.ok stopped, db', files')) :
    db.importTransaction texts s allow = .ok (stopped, db') ∧
      ∃ text, y.print updated = some text ∧ files'.config = some text := by
  unfold importIn at h
  split at h
  · cases h
  · split at h
    · cases h
    · next himport =>
        dsimp only at h
        split at h
        · cases h
        · split at h
          · cases h
          · next hsave =>
              obtain ⟨text, hprint, rfl⟩ := save_ok hsave
              split at h
              · cases h
                exact ⟨himport, text, hprint, rfl⟩
              · cases h

/-- Every local Agent keeps its place, its name and its own settings; one that is not in the
snapshot is as it was, or in its present form. -/
structure SettingsKept (y : Yaml κ ρ) (s : PortableSnapshot) (agents agents' : List AgentConfig) :
    Prop where
  kept : ∀ (i : ℕ) (a : AgentConfig), agents[i]? = some a → ∃ a' : AgentConfig,
    agents'[i]? = some a' ∧ a'.name = a.name ∧ a'.own = a.own ∧
      (a.name ∉ s.agents.map (·.id) → a' = a ∨ a' = (migrateAgent y a).1)
  added : ∀ (i : ℕ) (a' : AgentConfig), agents'[i]? = some a' → agents.length ≤ i →
    a'.name ∈ s.agents.map (·.id)

theorem settingsKept_of_merged {agents agents' agents'' : List AgentConfig}
    (hstart : agents' = agents ∨ agents' = agents.map fun a => (migrateAgent y a).1)
    (h : Merged (s.agents.map (·.id)) agents' agents'') : SettingsKept y s agents agents'' := by
  rcases hstart with rfl | rfl
  · refine ⟨fun i a ha => ?_, h.added⟩
    obtain ⟨a', ha', hname, hown, hsame⟩ := h.kept i a ha
    exact ⟨a', ha', hname, hown, fun hnot => Or.inl (hsame hnot)⟩
  · refine ⟨fun i a ha => ?_, fun i a' ha' hle => h.added i a' ha' (by simpa using hle)⟩
    obtain ⟨hmigrated, hown₀⟩ := own_migrateAgent y a
    obtain ⟨a', ha', hname, hown, hsame⟩ := h.kept i (migrateAgent y a).1 (by simp [ha])
    refine ⟨a', ha', hname.trans hmigrated, hown.trans hown₀, fun hnot => Or.inr (hsame ?_)⟩
    rw [hmigrated]
    exact hnot

/-- **An import leaves what is local alone.**  Rows that are no rows of the snapshot's records
are as they were, up to what hangs on a deleted message.  Every local Agent keeps its own
settings; the other sections are as they were loaded, and this is what the file says. -/
theorem import_leaves_local (y : Yaml κ ρ) (texts : Texts) (w : World) (s : PortableSnapshot)
    (allow : Bool) (workspace : String) (st st' : State κ ρ) (stopped : List ℕ)
    (hs : st.db.Schema) (hturns : st.db.lanes.Schema) (hvalid : s.validate texts = .ok ())
    (h : importSnapshot y texts w s allow workspace st = (.ok stopped, st')) :
    Outside s st.db st'.db ∧
      (∃ agents, localAgents y st = some agents ∧ SettingsKept y s agents st'.config.agents) ∧
      (∃ config, (startConfig y w st).1 = .ok config ∧
        st'.config = { config with agents := st'.config.agents }) ∧
      ∃ text, y.print st'.config = some text ∧ st'.files.config = some text := by
  unfold importSnapshot at h
  split at h
  · cases h
  · next config files hstart =>
      split at h
      · cases h
      · next updated hmerge =>
          split at h
          · cases h
          · next db files' hin =>
              cases h
              obtain ⟨himport, hsaved⟩ := importIn_ok hin
              obtain ⟨hsame, hmerged⟩ := mergeAgentConfig_merged hmerge
              obtain ⟨agents, hagents, hform⟩ := startConfig_agents hstart
              exact ⟨importTransaction_outside hs hturns
                  (PortableSnapshot.valid_of_validate hvalid) himport,
                ⟨agents, hagents, settingsKept_of_merged hform hmerged⟩,
                ⟨config, by rw [hstart], hsame⟩, hsaved⟩

/-! The message of `oneMessage` is here with an attachment, and an Agent is about to read it. -/

/-- The Agent has a file-backed configuration with a key. -/
def attachedMessage : State Unit Unit where
  db :=
    { projects := [{ id := "project-one" }]
      agents := [{ id := "atlas", projectId := some "project-one" }]
      conversations := [{ id := "conversation-one", projectId := some "project-one" }]
      participants := [{ key := ⟨"conversation-one", "agent", "atlas"⟩ }]
      chatThread :=
        { messages := [
            { id := 1
              conversationId := "conversation-one"
              senderType := "user"
              senderId := "local-user"
              content := "one"
              messageType := "message"
              metadata := .obj []
              createdAt := "2026-01-01 00:00:00" }]
          sync := [⟨"message-one", 1, none⟩]
          nextId := 2 }
      attachments := [1]
      turns := [
        { id := 0
          conversationId := "conversation-one"
          agentId := "atlas"
          triggerMessageId := some 1 }]
      nextTurnId := 1 }
  config := { rest := () }
  files := { config := some presentForm }

theorem schema_attachedMessage : attachedMessage.db.Schema where
  taskThread := ⟨by simp [attachedMessage], by simp [attachedMessage], by simp [attachedMessage]⟩
  chatThread := ⟨by decide, by decide, by decide⟩
  attempts := by simp [attachedMessage]
  turns := by decide

theorem lanes_attachedMessage : attachedMessage.db.lanes.Schema :=
  ⟨List.pairwise_singleton _ _, by decide⟩

theorem import_leaves_local_attachedMessage :
    ∃ st', importSnapshot twoForms verbatim {} (oneMessage none) true "/home/garden"
        attachedMessage = (.ok [], st') ∧
      Outside (oneMessage none) attachedMessage.db st'.db ∧
      (∃ agents, localAgents twoForms attachedMessage = some agents ∧
        SettingsKept twoForms (oneMessage none) agents st'.config.agents) ∧
      (∃ config, (startConfig twoForms {} attachedMessage).1 = .ok config ∧
        st'.config = { config with agents := st'.config.agents }) ∧
      ∃ text, twoForms.print st'.config = some text ∧ st'.files.config = some text :=
  ⟨_, rfl, import_leaves_local twoForms verbatim {} (oneMessage none) true "/home/garden"
    attachedMessage _ [] schema_attachedMessage lanes_attachedMessage rfl rfl⟩

/-- A snapshot in which the message is deleted takes the attachment along and cancels the turn,
though neither is part of a snapshot. -/
theorem import_strikes_attachedMessage :
    ∃ st', importSnapshot twoForms verbatim {} (oneMessage (some "2026-01-02 00:00:00")) true
        "/home/garden" attachedMessage = (.ok [], st') ∧
      attachedMessage.db.Schema ∧ attachedMessage.db.lanes.Schema ∧
      (oneMessage (some "2026-01-02 00:00:00")).validate verbatim = .ok () ∧
      attachedMessage.db.attachments = [1] ∧ st'.db.attachments = [] ∧
      attachedMessage.db.turns.map (·.status) = [.queued] ∧
      st'.db.turns.map (·.status) = [.cancelled] :=
  ⟨_, rfl, schema_attachedMessage, lanes_attachedMessage, rfl, rfl, rfl, rfl, by decide +kernel⟩

end XpressClaw.Sync
