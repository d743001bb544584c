import Mathlib.Logic.Relation
import XpressClaw.Sync.Loaded
import XpressClaw.Sync.Merge

/-!
# Installations that share a project

Any number of installations export a project, and import what any of them has exported: at any
time, in any order and any number of times.  Whether and when `publish` and `fetch` do so is left
open, so what holds here holds however they interleave, and wherever they are cut off.

* `no_item_is_lost` — what nobody deletes stays where it is.
* `exports_arrive` — and an installation has it, once it has imported an export that had it.
-/

namespace XpressClaw.Sync

open Lib

/-! ## What is shared -/

namespace StoreSnapshot

variable {s : StoreSnapshot} {share : ShareConfig} {k : Item}

theorem has_normalize : s.normalize.Has k ↔ s.Has k := by
  cases k with
  | agent id => exact ((sortBy_perm _ _).map _).mem_iff
  | task id => exact ((sortBy_perm _ _).map _).mem_iff
  | dependency d => exact mem_sortBy
  | taskMessage recordId taskId => exact ((sortBy_perm _ _).map _).mem_iff
  | conversation id => exact ((sortBy_perm _ _).map _).mem_iff
  | participant key => exact ((sortBy_perm _ _).map _).mem_iff
  | conversationMessage recordId conversationId => exact ((sortBy_perm _ _).map _).mem_iff
  | workflow id => exact ((sortBy_perm _ _).map _).mem_iff
  | memoryNote id =>
    refine ((sortBy_perm _ _).map _).mem_iff.trans ?_
    rw [List.map_map]
    exact Iff.rfl
  | memoryLink key => exact ((sortBy_perm _ _).map _).mem_iff

theorem has_applySharePolicy (hk : share.projectMemory = true ∨ k.isMemory = false) :
    (s.applySharePolicy share).Has k ↔ s.Has k := by
  unfold applySharePolicy
  rcases hk with hshare | hk
  · rw [if_pos hshare]
  · split
    · exact Iff.rfl
    · cases k <;> first | exact Iff.rfl | cases hk

theorem project_applySharePolicy : (s.applySharePolicy share).project = s.project := by
  unfold applySharePolicy
  split <;> rfl

theorem WellFormed.applySharePolicy (h : s.WellFormed) : (s.applySharePolicy share).WellFormed := by
  unfold StoreSnapshot.applySharePolicy
  split
  · exact h
  · have hcounts := h.counts
    simp only [recordCounts, List.forall_mem_cons, List.not_mem_nil, false_implies, implies_true,
      and_true] at hcounts
    exact
      { h with
        counts := by
          simp only [recordCounts, List.forall_mem_cons, List.not_mem_nil, false_implies,
            implies_true, and_true, List.length_nil, Nat.zero_le]
          tauto
        notes := ⟨by simp [noteIds], by simp [noteIds]⟩
        sourceTask := by simp
        links := by simp
        linkEnds := by simp }

theorem Checked.applySharePolicy {f : Formats} (h : s.Checked f) :
    (s.applySharePolicy share).Checked f := by
  unfold StoreSnapshot.applySharePolicy
  split
  · exact h
  · exact { h with memoryNotes := by simp, memoryLinks := by simp }

theorem Durable.applySharePolicy (h : s.Durable) : (s.applySharePolicy share).Durable := by
  unfold StoreSnapshot.applySharePolicy
  split <;> exact h

theorem Durable.normalize (h : s.Durable) : s.normalize.Durable :=
  fun r hr => h r (mem_sortBy.1 hr)

end StoreSnapshot

section Export

variable {κ ρ : Type} {config : Config κ ρ} {manifest : ProjectSyncManifest} {uuid : ℕ → String}
  {db db' : Db} {s : StoreSnapshot}

theorem Exported.durable (h : Exported config manifest uuid db s db') : s.Durable := by
  intro r hr
  rw [h.tasks] at hr
  obtain ⟨t, ht, rfl⟩ := List.mem_map.1 hr
  have hshared := (List.mem_filter.1 (mem_sortBy.1 ht)).2
  simp only [Db.sharesTask, Bool.and_eq_true, decide_eq_true_eq] at hshared
  exact hshared.2

theorem Exported.project_id (h : Exported config manifest uuid db s db') :
    s.project.id = manifest.projectId := by
  have hproject := h.project
  unfold Db.exportProject at hproject
  split at hproject
  · cases hproject
  · next p hp =>
    have hid : p.id = manifest.projectId := Table.key_of_get hp
    rw [← Except.ok.inj hproject]
    exact hid

theorem exportSnapshot_exported {env : StoreEnv} {allow : Bool}
    (h : db.exportSnapshot config manifest uuid env allow = .ok (s, db')) :
    Exported config manifest uuid db s db' := by
  obtain ⟨⟨t, db₁⟩, hexport, h⟩ := bind_ok h
  obtain ⟨_, -, h⟩ := bind_ok h
  cases h
  exact exportTransaction_exported hexport

end Export

/-! ## The installations -/

/-- The files of a snapshot, as they were written and committed.  Its keys do not collide, and YAML
reads its records back. -/
structure Publication (env : StoreEnv) where
  snapshot : StoreSnapshot
  entries : StoreDir
  written : ∃ root before, snapshot.write env root before = .ok entries
  names : snapshot.normalize.NoCollision env
  back : snapshot.normalize.ReadsBack env

/-- The manifests of the installations, which are of one project. -/
structure Team (ι : Type) where
  projectId : String
  manifest : ι → ProjectSyncManifest
  same : ∀ i, (manifest i).projectId = projectId

/-- The databases of the installations, and what was exported so far. -/
structure Net (ι : Type) where
  db : ι → Db
  exported : List StoreSnapshot := []

section Steps

variable {ι : Type} [DecidableEq ι]

def Net.set (c : Net ι) (i : ι) (db : Db) : Net ι := { c with db := Function.update c.db i db }

variable (κ ρ : Type) (env : SyncEnv) (team : Team ι) (K : Set Item)

/-- An installation exports the snapshot. -/
def Exports (i : ι) (s : StoreSnapshot) (c c' : Net ι) : Prop :=
  ∃ (config : Config κ ρ) (uuid : ℕ → String) (allow : Bool) (db : Db),
    (c.db i).exportSnapshot config (team.manifest i) uuid env.toStoreEnv allow = .ok (s, db) ∧
      c' = { c.set i db with exported := s :: c.exported }

/-- An installation loads a checkout of a store that an exported snapshot was written to, and imports
what it shares of it. -/
def Imports (j : ι) (p : Publication env.toStoreEnv) (c c' : Net ι) : Prop :=
  p.snapshot ∈ c.exported ∧ ∃ kept root t allow stopped db, Store.Checkout p.entries kept ∧
    StoreSnapshot.load env.toStoreEnv root (some (.directory kept)) team.projectId = .ok t ∧
      (c.db j).importTransaction env.texts
        (t.applySharePolicy (team.manifest j).share).toPortableSnapshot allow =
          .ok (stopped, db) ∧
      c' = c.set j db

/-- The items stay, if they were there. -/
def Retains (db db' : Db) : Prop :=
  ∀ k ∈ K, db.Shares team.projectId k → db'.Shares team.projectId k

/-- A step of one installation; besides, its database may change in any way that deletes none of
the items. -/
inductive Step (c : Net ι) : Net ι → Prop
  | exports (i : ι) (s : StoreSnapshot) {c' : Net ι} (h : Exports κ ρ env team i s c c') : Step c c'
  | imports (j : ι) (p : Publication env.toStoreEnv) {c' : Net ι} (h : Imports env team j p c c') :
      Step c c'
  | edits (i : ι) (db : Db) (hthreads : db.Threads) (hkept : Retains team K (c.db i) db) :
      Step c (c.set i db)

abbrev Run : Net ι → Net ι → Prop := Relation.ReflTransGen (Step κ ρ env team K)

/-- Nothing was exported. -/
structure Beginning (c : Net ι) : Prop where
  threads : ∀ i, (c.db i).Threads
  exported : c.exported = []

/-- What holds in every run. -/
structure Held (c : Net ι) : Prop where
  threads : ∀ i, (c.db i).Threads
  exported : ∀ s ∈ c.exported, s.Durable ∧ s.project.id = team.projectId

end Steps

section Runs

variable {ι κ ρ : Type} [DecidableEq ι] {env : SyncEnv} {team : Team ι} {K : Set Item}
  {c₀ c c' : Net ι} {i j : ι} {s : StoreSnapshot} {k : Item}

/-! ## The steps -/

theorem Net.set_self (c : Net ι) (i : ι) (db : Db) : (c.set i db).db i = db :=
  Function.update_self ..

theorem Net.set_of_ne (c : Net ι) (db : Db) (h : j ≠ i) : (c.set i db).db j = c.db j :=
  Function.update_of_ne h ..

omit [DecidableEq ι] in
theorem Publication.loads (p : Publication env.toStoreEnv)
    (hsha : ∀ data, (env.sha256 data).length = 32) {kept : StoreDir} {root : String}
    {t : StoreSnapshot} (hkept : Store.Checkout p.entries kept)
    (hproject : p.snapshot.project.id = team.projectId)
    (h : StoreSnapshot.load env.toStoreEnv root (some (.directory kept)) team.projectId = .ok t) :
    t = p.snapshot.normalize ∧ t.project.id = team.projectId ∧ t.WellFormed ∧
      t.Checked env.toFormats := by
  obtain ⟨_, _, hwrite⟩ := p.written
  have hload := StoreSnapshot.load_of_write hsha p.names p.back hwrite root
  rw [hproject] at hload
  have hsame := StoreSnapshot.load_checkout hkept hload
  rw [h] at hsame
  obtain ⟨-, -, hvalid, -⟩ := StoreSnapshot.load_ok h
  exact ⟨Except.ok.inj hsame, StoreSnapshot.validate_ok.1 hvalid⟩

theorem Exports.exported (h : Exports κ ρ env team i s c c') :
    ∃ (config : Config κ ρ) (uuid : ℕ → String) (db : Db),
      Exported config (team.manifest i) uuid (c.db i) s db ∧
      c' = { c.set i db with exported := s :: c.exported } := by
  obtain ⟨config, uuid, allow, db, hexport, rfl⟩ := h
  exact ⟨config, uuid, db, exportSnapshot_exported hexport, rfl⟩

/-- What an import does. -/
theorem Imports.spec {p : Publication env.toStoreEnv} (h : Imports env team j p c c')
    (hc : Held team c) (hsha : ∀ data, (env.sha256 data).length = 32) :
    ∃ db, c' = c.set j db ∧ db.Threads ∧ Retains team K (c.db j) db ∧
      ∀ k, (team.manifest j).share.projectMemory = true ∨ k.isMemory = false →
        p.snapshot.Has k → db.Shares team.projectId k := by
  obtain ⟨hp, kept, root, t, allow, stopped, db, hkept, hload, himport, rfl⟩ := h
  obtain ⟨hdurable, hproject⟩ := hc.exported _ hp
  obtain ⟨rfl, hid, hwell, hchecked⟩ := p.loads hsha hkept hproject hload
  obtain ⟨hthreads, hmerged⟩ := StoreSnapshot.import_merges hwell.applySharePolicy
    hchecked.applySharePolicy hdurable.normalize.applySharePolicy (hc.threads j) himport
  rw [StoreSnapshot.project_applySharePolicy, hid] at hmerged
  refine ⟨db, rfl, hthreads, fun k _ hk => hmerged k (Or.inl hk), fun k hshare hk => ?_⟩
  refine hmerged k (Or.inr ?_)
  rwa [StoreSnapshot.has_applySharePolicy hshare, StoreSnapshot.has_normalize]

theorem Held.set (hc : Held team c) {db : Db} (hthreads : db.Threads) : Held team (c.set i db) where
  threads j := by
    by_cases hj : j = i
    · subst hj
      rw [Net.set_self]
      exact hthreads
    · rw [c.set_of_ne db hj]
      exact hc.threads j
  exported := hc.exported

theorem retains_set {db : Db} (h : Retains team K (c.db i) db) (j : ι) :
    Retains team K (c.db j) ((c.set i db).db j) := by
  by_cases hj : j = i
  · subst hj
    rw [Net.set_self]
    exact h
  · rw [c.set_of_ne db hj]
    exact fun _ _ hk => hk

/-- What one step preserves. -/
theorem Step.held (h : Step κ ρ env team K c c') (hc : Held team c)
    (hsha : ∀ data, (env.sha256 data).length = 32) :
    Held team c' ∧ ∀ i, Retains team K (c.db i) (c'.db i) := by
  cases h with
  | exports i s h =>
    obtain ⟨config, uuid, db, hexported, rfl⟩ := h.exported
    have hset := hc.set (i := i) (hexported.threads (hc.threads i))
    refine ⟨⟨hset.threads, fun t ht => ?_⟩, retains_set fun k _ hk => hexported.keeps hk⟩
    rcases List.mem_cons.1 ht with rfl | ht
    · exact ⟨hexported.durable, hexported.project_id.trans (team.same i)⟩
    · exact hc.exported t ht
  | imports j p h =>
    obtain ⟨db, rfl, hthreads, hretains, -⟩ := h.spec (K := K) hc hsha
    exact ⟨hc.set hthreads, retains_set hretains⟩
  | edits i db hthreads hkept => exact ⟨hc.set hthreads, retains_set hkept⟩

/-! ## The runs -/

omit [DecidableEq ι] in
theorem Beginning.held (h : Beginning c) : Held team c where
  threads := h.threads
  exported s hs := by
    rw [h.exported] at hs
    cases hs

theorem Run.held (h : Run κ ρ env team K c c') (hc : Held team c)
    (hsha : ∀ data, (env.sha256 data).length = 32) :
    Held team c' ∧ ∀ i, Retains team K (c.db i) (c'.db i) := by
  induction h with
  | refl => exact ⟨hc, fun _ _ _ hk => hk⟩
  | tail _ hstep ih =>
    obtain ⟨hheld, hretains⟩ := hstep.held ih.1 hsha
    exact ⟨hheld, fun i k hmem hk => hretains i k hmem (ih.2 i k hmem hk)⟩

/-- **What nobody deletes is not lost.**  Once an installation has an item, it keeps it, whatever
the installations export and import, and in whatever order. -/
theorem no_item_is_lost (hsha : ∀ data, (env.sha256 data).length = 32) (h₀ : Beginning c₀)
    (h : Run κ ρ env team K c₀ c) (h' : Run κ ρ env team K c c') (hk : k ∈ K) (i : ι)
    (hshares : (c.db i).Shares team.projectId k) : (c'.db i).Shares team.projectId k :=
  (h'.held (h.held h₀.held hsha).1 hsha).2 i k hk hshares

/-- **What is exported arrives.**  What an installation has, and what its export has a record of,
another one has from the time on that it imports the export, however much later. -/
theorem exports_arrive (hsha : ∀ data, (env.sha256 data).length = 32) (h₀ : Beginning c₀)
    {c₁ c₂ c₃ c₄ c₅ : Net ι} (h₀₁ : Run κ ρ env team K c₀ c₁)
    (hexport : Exports κ ρ env team i s c₁ c₂) (h₂₃ : Run κ ρ env team K c₂ c₃)
    {p : Publication env.toStoreEnv} (hp : p.snapshot = s) (himport : Imports env team j p c₃ c₄)
    (h₄₅ : Run κ ρ env team K c₄ c₅) (hk : k ∈ K)
    (hmemory : (team.manifest i).share.projectMemory = true ∧
      (team.manifest j).share.projectMemory = true ∨ k.isMemory = false)
    (hshares : (c₁.db i).Shares team.projectId k ∨ s.Has k) : (c₅.db j).Shares team.projectId k := by
  subst hp
  have hheld₁ := (h₀₁.held h₀.held hsha).1
  have hhas : p.snapshot.Has k := by
    rcases hshares with hshares | hhas
    · obtain ⟨config, uuid, db, hexported, -⟩ := hexport.exported
      rw [← team.same i] at hshares
      exact hexported.has (hmemory.imp_left And.left) hshares
    · exact hhas
  have hheld₂ := ((Step.exports i p.snapshot hexport : Step κ ρ env team K c₁ c₂).held hheld₁ hsha).1
  have hheld₃ := (h₂₃.held hheld₂ hsha).1
  obtain ⟨db, rfl, hthreads, -, hbrings⟩ := himport.spec (K := K) hheld₃ hsha
  have harrived : ((c₃.set j db).db j).Shares team.projectId k := by
    rw [Net.set_self]
    exact hbrings k (hmemory.imp_left And.right) hhas
  exact (h₄₅.held (hheld₃.set hthreads) hsha).2 j k hk harrived

end Runs

/-! ### Two installations -/

section Sample

open StoreSnapshot

def sampleSync : SyncEnv :=
  { sampleEnv with
    schedule := fun _ => ""
    embedding := id
    julianday := fun _ => 0 }

def sampleManifest : ProjectSyncManifest where
  projectId := "one"
  store := { remote := "git@example.com:shared.git", path := "projects/one" }

def sampleTeam : Team Bool := ⟨"one", fun _ => sampleManifest, fun _ => rfl⟩

/-- The project of `sampleSnapshot`. -/
def sampleDb : Db where
  projects := [
    { id := "one"
      name := "One"
      createdAt := "2026-01-01 00:00:00"
      updatedAt := "2026-01-01 00:00:00" }]
  conversations := ["b", "a"].map fun id =>
    { id := id
      createdAt := "2026-01-01 00:00:00"
      updatedAt := "2026-01-01 00:00:00"
      projectId := some "one" }

/-- One of the installations has the project. -/
def sampleNet : Net Bool where
  db i := if i then {} else sampleDb

def sampleExport : Except Error (StoreSnapshot × Db) :=
  sampleDb.exportTransaction ({ rest := () } : Config Unit Unit) sampleManifest (fun _ => "") true

theorem sample_collected : sampleExport.toOption.isSome = true ∧
    ∀ r ∈ sampleExport.toOption.toList,
      r.1.descriptor = ⟨1, "one"⟩ ∧ r.1.project = sampleSnapshot.project ∧ r.1.agents = [] ∧
        r.1.tasks = [] ∧ r.1.taskDependencies = [] ∧ r.1.taskMessages = [] ∧
        r.1.conversations = sampleSnapshot.normalize.conversations ∧
        r.1.participants = [] ∧ r.1.conversationMessages = [] ∧ r.1.workflows = [] ∧
        r.1.memoryNotes = [] ∧ r.1.memoryLinks = [] := by
  decide +kernel

theorem exportSnapshot_of_valid {κ ρ : Type} {config : Config κ ρ} {manifest : ProjectSyncManifest}
    {uuid : ℕ → String} {env : StoreEnv} {allow : Bool} {db db' : Db} {s : StoreSnapshot}
    (h : db.exportTransaction config manifest uuid allow = .ok (s, db'))
    (hvalid : s.validateForSync env manifest.projectId = .ok ()) :
    db.exportSnapshot config manifest uuid env allow = .ok (s, db') := by
  rw [Db.exportSnapshot, h]
  show (s.validateForSync env manifest.projectId >>= fun _ => .ok (s, db')) = _
  rw [hvalid]
  rfl

/-- What the installation exports is the sample. -/
theorem sample_exported : ∃ db,
    sampleDb.exportSnapshot ({ rest := () } : Config Unit Unit) sampleManifest (fun _ => "")
      sampleEnv true = .ok (sampleSnapshot.normalize, db) := by
  obtain ⟨hsome, hfields⟩ := sample_collected
  obtain ⟨r, hr⟩ := Option.isSome_iff_exists.1 hsome
  have hexport : sampleExport = .ok r := by
    cases hresult : sampleExport with
    | error e =>
      rw [hresult] at hr
      cases hr
    | ok r' =>
      rw [hresult] at hr
      cases hr
      rfl
  obtain ⟨⟨⟨project, agents, tasks, taskDependencies, taskMessages, conversations, participants,
    conversationMessages, workflows, memoryNotes, memoryLinks⟩, descriptor⟩, db⟩ := r
  obtain ⟨h1, h2, h3, h4, h5, h6, h7, h8, h9, h10, h11, h12⟩ :=
    hfields _ (Option.mem_toList.2 hr)
  subst h1 h2 h3 h4 h5 h6 h7 h8 h9 h10 h11 h12
  have hvalid : sampleSnapshot.normalize.validateForSync sampleEnv "one" = .ok () := by
    have hok : (sampleSnapshot.normalize.validate sampleEnv.toFormats "one").isOk = true := by
      decide +kernel
    obtain ⟨_, hchecked⟩ := exists_of_isOk hok
    rw [validateForSync, (sample_write_eq none).1]
    exact hchecked
  exact ⟨db, exportSnapshot_of_valid hexport hvalid⟩

theorem sample_imported : (({} : Db).importTransaction sampleSync.texts
    (sampleSnapshot.normalize.applySharePolicy {}).toPortableSnapshot true).isOk = true := by
  decide +kernel

/-- One installation exports the project, and the other one imports what git keeps of it. -/
theorem sample_exchange : ∃ (p : Publication sampleEnv) (c₁ c₂ : Net Bool),
    Exports Unit Unit sampleSync sampleTeam false p.snapshot sampleNet c₁ ∧
      Imports sampleSync sampleTeam true p c₁ c₂ := by
  obtain ⟨db, hexport⟩ := sample_exported
  obtain ⟨⟨stopped, after⟩, himport⟩ := exists_of_isOk sample_imported
  obtain ⟨entries, hwrite⟩ := exists_sample_written
  have hmem : entries ∈ (sampleSnapshot.write sampleEnv "store" none).toOption.toList := by
    rw [hwrite]
    exact List.mem_singleton_self entries
  have hkept := Store.checkout_tracked (sample_names entries hmem)
  rw [← write_normalize] at hwrite
  have hnames : sampleSnapshot.normalize.normalize.NoCollision sampleEnv := by
    rw [normalize_normalize]
    exact sample_noCollision
  have hback : sampleSnapshot.normalize.normalize.ReadsBack sampleEnv := by
    rw [normalize_normalize]
    exact sample_readsBack
  have hload := load_of_write sample_sha256 hnames hback hwrite "store"
  rw [normalize_normalize] at hload
  exact ⟨⟨sampleSnapshot.normalize, entries, ⟨_, _, hwrite⟩, hnames, hback⟩, _, _,
    ⟨_, _, _, db, hexport, rfl⟩, List.mem_cons_self, _, _, _, _, _, after, hkept,
    load_checkout hkept hload, himport, rfl⟩

theorem beginning_sampleNet : Beginning sampleNet where
  threads i := by
    cases i <;>
      exact ⟨⟨by simp [sampleNet, sampleDb], by simp [sampleNet, sampleDb],
        by simp [sampleNet, sampleDb]⟩, ⟨by simp [sampleNet, sampleDb],
        by simp [sampleNet, sampleDb], by simp [sampleNet, sampleDb]⟩⟩
  exported := rfl

theorem sample_shares : (sampleNet.db false).Shares "one" (.conversation "a") := by
  show sampleDb.sharesConversationId "one" "a" = true
  decide

/-- The first installation keeps the Conversation, whatever the second one has imported. -/
theorem sample_is_not_lost : ∃ c : Net Bool,
    Run Unit Unit sampleSync sampleTeam Set.univ sampleNet c ∧
      (c.db false).Shares "one" (.conversation "a") := by
  obtain ⟨p, c₁, c₂, hexport, himport⟩ := sample_exchange
  have hrun : Run Unit Unit sampleSync sampleTeam Set.univ sampleNet c₂ :=
    .tail (.single (.exports _ _ hexport)) (.imports _ p himport)
  exact ⟨c₂, hrun, no_item_is_lost sample_sha256 beginning_sampleNet .refl hrun (Set.mem_univ _)
    false sample_shares⟩

/-- And the second one has it. -/
theorem sample_arrives : ∃ c : Net Bool, (c.db true).Shares "one" (.conversation "a") := by
  obtain ⟨p, c₁, c₂, hexport, himport⟩ := sample_exchange
  exact ⟨c₂, exports_arrive (K := Set.univ) sample_sha256 beginning_sampleNet .refl hexport .refl
    rfl himport .refl (Set.mem_univ _) (Or.inr rfl) (Or.inl sample_shares)⟩

end Sample

end XpressClaw.Sync
