import XpressClaw.Memory.Notes
import XpressClaw.Lib.Runs
import XpressClaw.Sync.Stages

/-!
# The memory index follows the notes

The vector index is a second copy of the notes that every writer keeps by hand.

* `Indexed` — each note that is not archived has one row in the index, an archived one none;
  the row is in the partition of the note's Project and embeds the search key of its texts and
  its tags; the tags of a note have different keys.
* `Indexed.write` — what a writer must put in place for one note.
* `index_consistent` — `Indexed` holds in every state that a run of the writers reaches.
-/

namespace XpressClaw.Memory

open Lib Sync

/-- The tags of a note, in the order in which they were written. -/
def storedTags (db : Db) (noteId : String) : List String :=
  (db.tags.filter (·.noteId = noteId)).map (·.tag)

section

variable (texts : Texts)

/-- The rows of the index that a note should have. -/
def indexRows (n : MemoryNote) : List MemoryEmbedding :=
  if n.state = "archived" then [] else [⟨n.id, texts.embedding n.searchKey, n.projectId⟩]

/-- The index is consistent. -/
structure Indexed (db : Db) : Prop where
  ids : (db.notes.map (·.id)).Nodup
  searchKey : ∀ n ∈ db.notes, n.searchKey =
    texts.searchKey (searchableText n.title n.summary n.body (storedTags db n.id))
  rows : ∀ n ∈ db.notes, db.embeddings.filter (·.noteId = n.id) = indexRows texts n
  tagKey : ∀ t ∈ db.tags, t.tagKey = texts.searchKey t.tag
  tagKeys : ∀ id, ((db.tags.filter (·.noteId = id)).map (·.tagKey)).Nodup
  owned : ∀ e ∈ db.embeddings, ∃ n ∈ db.notes, n.id = e.noteId

end

/-! ## Rows of one note -/

section Rows

variable {ρ : Type} {key : ρ → String} {id id' : String} {rows more : List ρ}

theorem filter_replaced_self (hmore : ∀ r ∈ more, key r = id) :
    (rows.filter (key · ≠ id) ++ more).filter (key · = id) = more := by
  rw [List.filter_append, List.filter_filter, List.filter_eq_nil_iff.2, List.nil_append,
    List.filter_eq_self.2]
  · simpa using hmore
  · simp

theorem filter_replaced_of_ne (hmore : ∀ r ∈ more, key r = id) (hne : id' ≠ id) :
    (rows.filter (key · ≠ id) ++ more).filter (key · = id') = rows.filter (key · = id') := by
  have hnone : more.filter (key · = id') = [] := by
    rw [List.filter_eq_nil_iff]
    intro r hr
    simp [hmore r hr, Ne.symm hne]
  rw [List.filter_append, List.filter_filter, hnone, List.append_nil]
  apply List.filter_congr
  intro r _
  by_cases hr : key r = id'
  · simp [hr, hne]
  · simp [hr]

end Rows

section Writers

variable {texts : Texts} {formats : Formats} {db db' : Db}

theorem Indexed.congr (h : Indexed texts db) (hnotes : db'.notes = db.notes)
    (htags : db'.tags = db.tags) (hrows : db'.embeddings = db.embeddings) : Indexed texts db' := by
  obtain ⟨h1, h2, h3, h4, h5, h6⟩ := h
  refine ⟨?_, ?_, ?_, ?_, ?_, ?_⟩
  · rwa [hnotes]
  · rw [hnotes]
    unfold storedTags
    rwa [htags]
  · rwa [hnotes, hrows]
  · rwa [htags]
  · rwa [htags]
  · rwa [hnotes, hrows]

theorem noteId_of_mem_indexRows {n : MemoryNote} : ∀ e ∈ indexRows texts n, e.noteId = n.id := by
  intro e he
  unfold indexRows at he
  split at he
  · cases he
  · obtain rfl := List.mem_singleton.1 he
    rfl

/-- What a writer of one note must put in place: the note with the search key of its tags, its
tags instead of the old ones, and its row in the index. -/
theorem Indexed.write (h : Indexed texts db) {n : MemoryNote} {tags : List String}
    {t : List MemoryTag} (hsub : ∀ r ∈ db'.notes, r = n ∨ r ∈ db.notes ∧ r.id ≠ n.id)
    (hids : (db'.notes.map (·.id)).Nodup) (hkept : ∀ r ∈ db.notes, ∃ r' ∈ db'.notes, r'.id = r.id)
    (hmem : n ∈ db'.notes)
    (hkey : n.searchKey = texts.searchKey (searchableText n.title n.summary n.body tags))
    (hnodup : (tags.map texts.searchKey).Nodup)
    (hrows : t = tags.map fun tag => ⟨n.id, tag, texts.searchKey tag⟩)
    (htags : db'.tags = db.tags.filter (·.noteId ≠ n.id) ++ t)
    (hindex : db'.embeddings = db.embeddings.filter (·.noteId ≠ n.id) ++ indexRows texts n) :
    Indexed texts db' := by
  have hown : ∀ r ∈ t, r.noteId = n.id := by
    rw [hrows]
    intro r ht
    obtain ⟨tag, -, rfl⟩ := List.mem_map.1 ht
    rfl
  have hself : db'.tags.filter (·.noteId = n.id) = t := by
    rw [htags]
    exact filter_replaced_self hown
  have hother : ∀ id, id ≠ n.id →
      db'.tags.filter (·.noteId = id) = db.tags.filter (·.noteId = id) := by
    intro id hne
    rw [htags]
    exact filter_replaced_of_ne hown hne
  refine ⟨hids, ?_, ?_, ?_, ?_, ?_⟩
  · intro r hr
    rcases hsub r hr with rfl | ⟨hold, hne⟩
    · rw [hkey, storedTags, hself, hrows, List.map_map]
      simp [Function.comp_def]
    · rw [h.searchKey r hold, storedTags, storedTags, hother r.id hne]
  · intro r hr
    rw [hindex]
    rcases hsub r hr with rfl | ⟨hold, hne⟩
    · exact filter_replaced_self noteId_of_mem_indexRows
    · rw [filter_replaced_of_ne noteId_of_mem_indexRows hne]
      exact h.rows r hold
  · intro r ht
    rw [htags, List.mem_append] at ht
    rcases ht with ht | ht
    · exact h.tagKey r (List.mem_of_mem_filter ht)
    · rw [hrows] at ht
      obtain ⟨tag, -, rfl⟩ := List.mem_map.1 ht
      rfl
  · intro id
    by_cases hid : id = n.id
    · rw [hid, hself, hrows, List.map_map]
      exact hnodup
    · rw [hother id hid]
      exact h.tagKeys id
  · intro e he
    rw [hindex, List.mem_append] at he
    rcases he with he | he
    · obtain ⟨r, hr, hre⟩ := h.owned e (List.mem_of_mem_filter he)
      obtain ⟨r', hr', hid⟩ := hkept r hr
      exact ⟨r', hr', hid.trans hre⟩
    · exact ⟨n, hmem, (noteId_of_mem_indexRows e he).symm⟩

/-! ## Tags -/

/-- `normalize_tags` keeps one tag for each key. -/
theorem normalizeEach_keys {tags seen out : List String}
    (h : normalizeEach formats tags seen = .ok out) :
    (out.map formats.searchKey).Nodup ∧ ∀ tag ∈ out, formats.searchKey tag ∉ seen := by
  induction tags generalizing seen out with
  | nil =>
    cases h
    simp
  | cons tag tags ih =>
    obtain ⟨tag', -, h⟩ := bind_ok h
    obtain ⟨rest, hrest, h⟩ := bind_ok h
    obtain ⟨hnodup, hseen⟩ := ih hrest
    have hrest' : ∀ t ∈ rest, formats.searchKey t ∉ seen := fun t ht hm =>
      hseen t ht (List.mem_cons_of_mem _ hm)
    by_cases hm : formats.searchKey tag' ∈ seen
    · rw [if_pos hm] at h
      cases h
      exact ⟨hnodup, hrest'⟩
    · rw [if_neg hm] at h
      cases h
      constructor
      · rw [List.map_cons, List.nodup_cons]
        refine ⟨fun hmem => ?_, hnodup⟩
        obtain ⟨t, ht, heq⟩ := List.mem_map.1 hmem
        exact hseen t ht (by rw [heq]; exact List.mem_cons_self)
      · intro t ht
        rcases List.mem_cons.1 ht with rfl | ht
        · exact hm
        · exact hrest' t ht

theorem normalizeTags_keys {tags out : List String} (h : normalizeTags formats tags = .ok out) :
    (out.map formats.searchKey).Nodup := by
  obtain ⟨_, -, h⟩ := bind_ok h
  exact (normalizeEach_keys h).1

theorem replaceTags_ok {noteId : String} {tags : List String}
    (h : replaceTags formats noteId tags db = .ok db') : (tags.map formats.searchKey).Nodup ∧
      db' = { db with
        tags := db.tags.filter (·.noteId ≠ noteId) ++ tagRows formats noteId tags } := by
  obtain ⟨_, hnodup, h⟩ := bind_ok h
  exact ⟨require_ok.1 hnodup, (Except.ok.inj h).symm⟩

theorem embedUnlessArchived_ok {n : MemoryNote}
    (h : embedUnlessArchived formats n.state n.id n.projectId n.searchKey db = .ok db') :
    db' = { db with embeddings := db.embeddings ++ indexRows formats.toTexts n } := by
  unfold embedUnlessArchived at h
  unfold indexRows
  by_cases harchived : n.state = "archived"
  · rw [if_pos harchived] at h ⊢
    cases h
    rw [List.append_nil]
  · rw [if_neg harchived] at h ⊢
    obtain ⟨_, -, h⟩ := bind_ok h
    exact (Except.ok.inj h).symm

/-! ## The writers -/

theorem Indexed.no_row (h : Indexed texts db) {id : String} (hnone : db.note? id = none) :
    db.embeddings.filter (·.noteId ≠ id) = db.embeddings := by
  rw [List.filter_eq_self]
  intro e he
  obtain ⟨n, hn, hid⟩ := h.owned e he
  have hne : e.noteId ≠ id := by
    rintro rfl
    have hsome : (db.note? e.noteId).isSome :=
      Table.get_isSome_iff.2 (List.mem_map.2 ⟨n, hn, hid⟩)
    rw [hnone] at hsome
    cases hsome
  simpa using hne

/-- A note that is new is added at the end. -/
theorem rows_added {rows : List MemoryNote} {n : MemoryNote} (hids : (rows.map (·.id)).Nodup)
    (hfresh : ∀ r ∈ rows, r.id ≠ n.id) :
    (∀ r ∈ rows ++ [n], r = n ∨ r ∈ rows ∧ r.id ≠ n.id) ∧
      ((rows ++ [n]).map (·.id)).Nodup ∧ (∀ r ∈ rows, ∃ r' ∈ rows ++ [n], r'.id = r.id) ∧
      n ∈ rows ++ [n] := by
  refine ⟨fun r hr => ?_, ?_, fun r hr => ⟨r, List.mem_append_left _ hr, rfl⟩,
    List.mem_append_right _ (List.mem_singleton_self n)⟩
  · rcases List.mem_append.1 hr with hr | hr
    · exact .inr ⟨hr, hfresh r hr⟩
    · exact .inl (List.mem_singleton.1 hr)
  · rw [List.map_append, List.nodup_append]
    refine ⟨hids, List.nodup_singleton _, ?_⟩
    rintro _ hold _ hnew rfl
    obtain ⟨r, hr, hrid⟩ := List.mem_map.1 hold
    exact hfresh r hr (hrid.trans (List.mem_singleton.1 hnew))

/-- A note that is there is written over where it stands. -/
theorem rows_modified {rows : List MemoryNote} {n : MemoryNote} (hids : (rows.map (·.id)).Nodup)
    (hmem : n ∈ rows) {g : MemoryNote → MemoryNote} (hg : ∀ r, (g r).id = r.id)
    {c : MemoryNote → Prop} [DecidablePred c] (hc : ∀ r ∈ rows, c r ↔ r.id = n.id) :
    (∀ r ∈ rows.map fun r => if c r then g r else r, r = g n ∨ r ∈ rows ∧ r.id ≠ (g n).id) ∧
      ((rows.map fun r => if c r then g r else r).map (·.id)).Nodup ∧
      (∀ r ∈ rows, ∃ r' ∈ rows.map fun r => if c r then g r else r, r'.id = r.id) ∧
      g n ∈ rows.map fun r => if c r then g r else r := by
  have hkeep : ∀ r, (if c r then g r else r).id = r.id := by
    intro r
    split
    · exact hg r
    · rfl
  refine ⟨fun r hr => ?_, ?_, fun r hr => ⟨_, List.mem_map_of_mem hr, hkeep r⟩, ?_⟩
  · obtain ⟨r₀, hr₀, rfl⟩ := List.mem_map.1 hr
    by_cases hr₀c : c r₀
    · obtain rfl := List.inj_on_of_nodup_map hids hr₀ hmem ((hc r₀ hr₀).1 hr₀c)
      exact .inl (if_pos hr₀c)
    · rw [if_neg hr₀c, hg]
      exact .inr ⟨hr₀, fun heq => hr₀c ((hc r₀ hr₀).2 heq)⟩
  · rw [List.map_map, Function.comp_def]
    simp only [hkeep]
    exact hids
  · exact List.mem_map.2 ⟨n, hmem, if_pos ((hc n hmem).2 rfl)⟩

theorem create_indexed (h : Indexed formats.toTexts db) {projectId id : String}
    {provenance : Except Error Unit} {req : CreateProjectMemoryNote}
    (hok : create formats db projectId id provenance req = .ok db') :
    Indexed formats.toTexts db' := by
  unfold create at hok
  obtain ⟨_, -, hok⟩ := bind_ok hok
  obtain ⟨title, -, hok⟩ := bind_ok hok
  obtain ⟨body, -, hok⟩ := bind_ok hok
  obtain ⟨summary, -, hok⟩ := bind_ok hok
  obtain ⟨_, -, hok⟩ := bind_ok hok
  obtain ⟨_, -, hok⟩ := bind_ok hok
  obtain ⟨_, -, hok⟩ := bind_ok hok
  obtain ⟨tags, htags, hok⟩ := bind_ok hok
  obtain ⟨_, -, hok⟩ := bind_ok hok
  obtain ⟨_, -, hok⟩ := bind_ok hok
  obtain ⟨_, hnew, hok⟩ := bind_ok hok
  obtain ⟨db₁, hreplace, hembed⟩ := bind_ok hok
  have hnone : db.note? id = none := Option.isNone_iff_eq_none.1 (require_ok.1 hnew)
  have hfresh : ∀ r ∈ db.notes, r.id ≠ id := by
    rintro r hr rfl
    have hsome : (db.note? r.id).isSome := Table.get_isSome_iff.2 (List.mem_map_of_mem hr)
    rw [hnone] at hsome
    cases hsome
  obtain ⟨-, rfl⟩ := replaceTags_ok hreplace
  rw [embedUnlessArchived_ok hembed]
  generalize hn : createdNote formats projectId id db.now title body summary tags req = n
  have hid : n.id = id := by rw [← hn]; rfl
  obtain ⟨hsub, hids, hkept, hmem⟩ := rows_added (n := n) h.ids (by rw [hid]; exact hfresh)
  refine h.write hsub hids hkept hmem ?_ (normalizeTags_keys htags) rfl rfl ?_
  · rw [← hn]
    rfl
  · rw [hid, h.no_row hnone]

theorem getNote_ok {projectId noteId : String} {n : MemoryNote}
    (h : getNote db projectId noteId = .ok n) :
    n ∈ db.notes ∧ n.id = noteId ∧ n.projectId = projectId := by
  unfold getNote at h
  cases hfound : (db.note? noteId).filter (·.projectId = projectId) with
  | none =>
    rw [hfound] at h
    cases h
  | some r =>
    rw [hfound] at h
    cases h
    obtain ⟨hget, hproject⟩ := Option.filter_eq_some_iff.1 hfound
    exact ⟨Table.mem_of_get hget, Table.key_of_get hget, by simpa using hproject⟩

/-- The tags that an update writes have different keys. -/
theorem updatedTags_keys (h : Indexed formats.toTexts db) {noteId : String}
    {new : Option (List String)} {tags : List String}
    (hok : updatedTags formats db noteId new = .ok tags) : (tags.map formats.searchKey).Nodup := by
  cases new with
  | some new => exact normalizeTags_keys hok
  | none =>
    cases hok
    unfold tagsOfNote
    have hperm := List.perm_insertionSort (fun a b : MemoryTag => a.tagKey ≤ b.tagKey)
      (db.tags.filter (·.noteId = noteId))
    have hkeys : ((db.tags.filter (·.noteId = noteId)).insertionSort
        (fun a b => a.tagKey ≤ b.tagKey)).map (formats.searchKey ·.tag) =
        ((db.tags.filter (·.noteId = noteId)).insertionSort
          (fun a b => a.tagKey ≤ b.tagKey)).map (·.tagKey) :=
      List.map_congr_left fun t ht =>
        (h.tagKey t (List.mem_of_mem_filter (hperm.mem_iff.1 ht))).symm
    rw [List.map_map, Function.comp_def, hkeys, (hperm.map _).nodup_iff]
    exact h.tagKeys noteId

theorem update_indexed (h : Indexed formats.toTexts db) {projectId noteId : String}
    {req : UpdateProjectMemoryNote} (hok : update formats db projectId noteId req = .ok db') :
    Indexed formats.toTexts db' := by
  unfold update at hok
  obtain ⟨existing, hget, hok⟩ := bind_ok hok
  obtain ⟨title, -, hok⟩ := bind_ok hok
  obtain ⟨body, -, hok⟩ := bind_ok hok
  obtain ⟨summary, -, hok⟩ := bind_ok hok
  obtain ⟨_, -, hok⟩ := bind_ok hok
  obtain ⟨_, -, hok⟩ := bind_ok hok
  obtain ⟨tags, htags, hok⟩ := bind_ok hok
  obtain ⟨_, -, hok⟩ := bind_ok hok
  obtain ⟨db₁, hreplace, hembed⟩ := bind_ok hok
  obtain ⟨hmem, rfl, rfl⟩ := getNote_ok hget
  obtain ⟨-, rfl⟩ := replaceTags_ok hreplace
  generalize hwrite : updatedNote formats db.now title body summary
    (req.noteType.getD existing.noteType) (req.state.getD existing.state)
    (req.pinned.getD existing.pinned) tags = write at hembed
  have hid : ∀ r, (write r).id = r.id := fun r => by rw [← hwrite]; rfl
  have hproject : ∀ r, (write r).projectId = r.projectId := fun r => by rw [← hwrite]; rfl
  have hindex := embedUnlessArchived_ok (n := write existing) (by rw [hid, hproject]; exact hembed)
  obtain ⟨hsub, hids, hkept, hmem'⟩ := rows_modified h.ids hmem hid
    (c := fun r => r.id = existing.id ∧ r.projectId = existing.projectId) fun r hr => by
      constructor
      · exact fun h => h.1
      · intro heq
        obtain rfl := List.inj_on_of_nodup_map h.ids hr hmem heq
        exact ⟨rfl, rfl⟩
  rw [hindex]
  refine h.write hsub hids hkept hmem' ?_ (updatedTags_keys h htags) rfl ?_ ?_
  · rw [← hwrite]
    rfl
  · rw [hid]
    rfl
  · rw [hid]
    rfl

theorem embeddingsOf_eq {projectId : String} {p : PortableMemoryNote} {r : MemoryNote}
    (hid : r.id = p.id) :
    embeddingsOf texts projectId p = indexRows texts (rewriteNote texts projectId p r) := by
  rw [embeddingsOf, indexRows, ← hid]
  rfl

theorem importNote_indexed (h : Indexed texts db) {projectId : String} {p : PortableMemoryNote}
    (hok : db.importNote texts projectId p = .ok db') : Indexed texts db' := by
  obtain ⟨_, hkeys, hok⟩ := bind_ok hok
  have hnodup : (p.tags.map texts.searchKey).Nodup := require_ok.1 hkeys
  cases hok
  cases hget : Table.get (·.id) db.notes p.id with
  | none =>
    have hfresh : ∀ r ∈ db.notes, r.id ≠ p.id := by
      rintro r hr heq
      have hsome : (Table.get (·.id) db.notes p.id).isSome :=
        Table.get_isSome_iff.2 (List.mem_map.2 ⟨r, hr, heq⟩)
      rw [hget] at hsome
      cases hsome
    have hnotes : Table.upsert (·.id) p.id (newNote texts projectId p)
        (rewriteNote texts projectId p) db.notes = db.notes ++ [newNote texts projectId p] := by
      rw [Table.upsert, hget]
      rfl
    obtain ⟨hsub, hids, hkept, hmem⟩ :=
      rows_added (n := newNote texts projectId p) h.ids hfresh
    rw [hnotes]
    exact h.write hsub hids hkept hmem rfl hnodup rfl rfl rfl
  | some existing =>
    have hid : existing.id = p.id := Table.key_of_get hget
    have hnotes : Table.upsert (·.id) p.id (newNote texts projectId p)
        (rewriteNote texts projectId p) db.notes =
          db.notes.map fun r => if r.id = p.id then rewriteNote texts projectId p r else r := by
      rw [Table.upsert, hget]
      rfl
    obtain ⟨hsub, hids, hkept, hmem⟩ := rows_modified h.ids (Table.mem_of_get hget)
      (g := rewriteNote texts projectId p) (fun _ => rfl) (c := fun r => r.id = p.id)
      fun r _ => by rw [hid]
    rw [hnotes]
    have hrewrite : (rewriteNote texts projectId p existing).id = p.id := hid
    refine h.write (t := tagsOf texts p) hsub hids hkept hmem rfl hnodup ?_ ?_ ?_
    · rw [hrewrite]
      rfl
    · rw [hrewrite]
    · rw [hrewrite, embeddingsOf_eq hid]

theorem importTransaction_indexed (h : Indexed texts db) {s : PortableSnapshot} {allow : Bool}
    {stopped : List ℕ} (hok : db.importTransaction texts s allow = .ok (stopped, db')) :
    Indexed texts db' := by
  obtain ⟨stages⟩ := importTransaction_stages hok
  have hsecond : Indexed texts stages.second := by
    rw [stages.second_eq, stages.first_eq]
    exact h.congr rfl rfl rfl
  obtain ⟨db₁, hnotes, hlinks⟩ := bind_ok stages.importMemory
  have hwritten : Indexed texts db₁ :=
    each_invariant (fun _ _ _ _ hd hstep => importNote_indexed hd hstep) hsecond hnotes
  have hthird : Indexed texts stages.third := by
    rw [← Except.ok.inj hlinks]
    exact hwritten.congr rfl rfl rfl
  obtain ⟨db₂, hsettling, hdb'⟩ := importConversationMessages_settling stages.importMessages
  obtain ⟨⟨_, _, _, _, _, hdb₂⟩, -, -⟩ := hsettling
  rw [hdb', hdb₂]
  exact hthird.congr rfl rfl rfl

/-! ## Moves -/

theorem foldl_deleteEmbedding (notes : List MemoryNote) (db : Db) :
    notes.foldl (fun db n => deleteEmbedding n.id db) db =
      { db with embeddings := db.embeddings.filter (·.noteId ∉ notes.map (·.id)) } := by
  induction notes generalizing db with
  | nil => simp
  | cons n notes ih =>
    rw [List.foldl_cons, ih, deleteEmbedding]
    simp only [List.filter_filter]
    congr 1
    apply List.filter_congr
    intro e _
    by_cases he : e.noteId = n.id <;> simp [he]

/-- Every note that is embedded gets its row. -/
theorem each_embed {notes : List MemoryNote} {projectId : String}
    (h : each (fun db (n : MemoryNote) =>
      embedUnlessArchived formats n.state n.id projectId n.searchKey db) notes db = .ok db') :
    db' = { db with embeddings := db.embeddings ++
      (notes.flatMap fun n => indexRows formats.toTexts { n with projectId := projectId }) } := by
  induction notes generalizing db with
  | nil =>
    cases h
    simp
  | cons n notes ih =>
    obtain ⟨db₁, hembed, h⟩ := bind_ok h
    have hone := embedUnlessArchived_ok (n := { n with projectId := projectId }) hembed
    rw [ih h, hone]
    simp

theorem filter_indexRows (n : MemoryNote) (id : String) :
    (indexRows texts n).filter (·.noteId = id) = if n.id = id then indexRows texts n else [] := by
  split
  · rename_i hid
    rw [List.filter_eq_self]
    intro e he
    simp [noteId_of_mem_indexRows e he, hid]
  · rename_i hid
    rw [List.filter_eq_nil_iff]
    intro e he
    simp [noteId_of_mem_indexRows e he, hid]

theorem filter_flatMap_of_notMem {notes : List MemoryNote} {id : String}
    (h : id ∉ notes.map (·.id)) :
    (notes.flatMap (indexRows texts)).filter (·.noteId = id) = [] := by
  rw [List.filter_eq_nil_iff]
  intro e he heq
  obtain ⟨n, hn, he⟩ := List.mem_flatMap.1 he
  have hid : n.id = id := by
    rw [← noteId_of_mem_indexRows e he]
    simpa using heq
  exact h (List.mem_map.2 ⟨n, hn, hid⟩)

theorem filter_flatMap_of_mem {notes : List MemoryNote} (hids : (notes.map (·.id)).Nodup)
    {n : MemoryNote} (hn : n ∈ notes) :
    (notes.flatMap (indexRows texts)).filter (·.noteId = n.id) = indexRows texts n := by
  induction notes with
  | nil => cases hn
  | cons m notes ih =>
    rw [List.map_cons, List.nodup_cons] at hids
    rw [List.flatMap_cons, List.filter_append, filter_indexRows]
    rcases List.mem_cons.1 hn with rfl | hn
    · rw [if_pos rfl, filter_flatMap_of_notMem hids.1, List.append_nil]
    · have hne : m.id ≠ n.id := fun heq => hids.1 (heq ▸ List.mem_map_of_mem hn)
      rw [if_neg hne, ih hids.2 hn, List.nil_append]

/-- A note of the source Project in the target Project. -/
def movedTo (target : String) (n : MemoryNote) : MemoryNote := { n with projectId := target }

theorem moveProjectMemory_ok {source target : String}
    (h : moveProjectMemory formats db source target = .ok db') :
    let notes := db.notes.filter (·.projectId = source)
    db' = { db with
      notes := db.notes.map fun r => if r.projectId = source then movedTo target r else r
      embeddings := db.embeddings.filter (·.noteId ∉ notes.map (·.id)) ++
        (notes.map (movedTo target)).flatMap (indexRows formats.toTexts) } := by
  intro notes
  rw [moveProjectMemory, foldl_deleteEmbedding] at h
  rw [each_embed h, List.flatMap_map]
  rfl

theorem moveProjectMemory_indexed (h : Indexed formats.toTexts db) {source target : String}
    (hok : moveProjectMemory formats db source target = .ok db') :
    Indexed formats.toTexts db' := by
  rw [moveProjectMemory_ok hok]
  have hsub : ∀ r ∈ db.notes.filter (·.projectId = source), r ∈ db.notes ∧ r.projectId = source :=
    fun r hr => by simpa using List.mem_filter.1 hr
  have hmoved : ((db.notes.filter (·.projectId = source)).map (movedTo target)).map (·.id) =
      (db.notes.filter (·.projectId = source)).map (·.id) := by
    rw [List.map_map]
    rfl
  have hids : ((db.notes.filter (·.projectId = source)).map (·.id)).Nodup :=
    h.ids.sublist (List.filter_sublist.map _)
  have hkeep : ∀ r : MemoryNote,
      (if r.projectId = source then movedTo target r else r).id = r.id := by
    intro r
    split <;> rfl
  refine ⟨?_, ?_, ?_, h.tagKey, h.tagKeys, ?_⟩
  · rw [List.map_map, Function.comp_def]
    simp only [hkeep]
    exact h.ids
  · intro r' hr'
    obtain ⟨r, hr, rfl⟩ := List.mem_map.1 hr'
    have hkey := h.searchKey r hr
    split
    · exact hkey
    · exact hkey
  · intro r' hr'
    obtain ⟨r, hr, rfl⟩ := List.mem_map.1 hr'
    rw [hkeep, List.filter_append, List.filter_filter]
    by_cases hsource : r.projectId = source
    · have hmem : r ∈ db.notes.filter (·.projectId = source) := by simpa using ⟨hr, hsource⟩
      have hold : db.embeddings.filter (fun e => decide (e.noteId = r.id) &&
          decide (e.noteId ∉ (db.notes.filter (·.projectId = source)).map (·.id))) = [] := by
        rw [List.filter_eq_nil_iff]
        intro e _ he
        rw [Bool.and_eq_true, decide_eq_true_eq, decide_eq_true_eq] at he
        exact he.2 (he.1 ▸ List.mem_map_of_mem hmem)
      have hnew : (((db.notes.filter (·.projectId = source)).map (movedTo target)).flatMap
          (indexRows formats.toTexts)).filter (·.noteId = r.id) =
            indexRows formats.toTexts (movedTo target r) :=
        filter_flatMap_of_mem (hmoved ▸ hids) (List.mem_map_of_mem hmem)
      rw [if_pos hsource, hold, List.nil_append]
      exact hnew
    · have hnotMem : r.id ∉ (db.notes.filter (·.projectId = source)).map (·.id) := by
        intro hm
        obtain ⟨r₀, hr₀, hid⟩ := List.mem_map.1 hm
        obtain rfl := List.inj_on_of_nodup_map h.ids (hsub r₀ hr₀).1 hr hid
        exact hsource (hsub r₀ hr₀).2
      have hold : db.embeddings.filter (fun e => decide (e.noteId = r.id) &&
          decide (e.noteId ∉ (db.notes.filter (·.projectId = source)).map (·.id))) =
            db.embeddings.filter (·.noteId = r.id) := by
        apply List.filter_congr
        intro e _
        by_cases he : e.noteId = r.id
        · simp only [he, hnotMem, not_false_eq_true, decide_true, Bool.and_true]
        · simp [he]
      rw [if_neg hsource, hold, filter_flatMap_of_notMem (by rw [hmoved]; exact hnotMem),
        List.append_nil]
      exact h.rows r hr
  · intro e he
    rcases List.mem_append.1 he with he | he
    · obtain ⟨n, hn, hid⟩ := h.owned e (List.mem_of_mem_filter he)
      exact ⟨_, List.mem_map_of_mem hn, (hkeep n).trans hid⟩
    · obtain ⟨n', hn', he⟩ := List.mem_flatMap.1 he
      obtain ⟨n, hn, rfl⟩ := List.mem_map.1 hn'
      exact ⟨_, List.mem_map_of_mem (hsub n hn).1,
        (hkeep n).trans (noteId_of_mem_indexRows e he).symm⟩

/-- Every operation keeps the index consistent. -/
theorem step_indexed (h : Indexed formats.toTexts db) (o : Op) :
    Indexed formats.toTexts (step formats db o) := by
  unfold step
  cases hexec : o.exec formats db with
  | error e => exact h
  | ok db' =>
    cases o with
    | wait now =>
      cases hexec
      exact h.congr rfl rfl rfl
    | create projectId id provenance req => exact create_indexed h hexec
    | update projectId noteId req => exact update_indexed h hexec
    | archive projectId noteId => exact update_indexed h hexec
    | moveProjectMemory source target => exact moveProjectMemory_indexed h hexec
    | importSnapshot s allow =>
      obtain ⟨_, -, hexec⟩ := bind_ok hexec
      obtain ⟨⟨stopped, db₁⟩, himport, hexec⟩ := bind_ok hexec
      cases hexec
      exact importTransaction_indexed h himport

end Writers

/-! ## Runs -/

/-- **The memory index is consistent.**  After any run of creations, updates, archivings, moves
and imports from a database without notes: a note has one row in the index if it is not
archived and none if it is; the row is in the partition of the note's Project and embeds the
search key of the note's title, summary, body and tags; and the tags of a note have different
keys. -/
theorem index_consistent (formats : Formats) {db : Db} (hnotes : db.notes = [])
    (htags : db.tags = []) (hrows : db.embeddings = []) (ops : List Op) :
    let reached := runOps (step formats) db ops
    ∀ n ∈ reached.notes,
      reached.embeddings.filter (·.noteId = n.id) =
          (if n.state = "archived" then []
          else [⟨n.id, formats.embedding (formats.searchKey
            (searchableText n.title n.summary n.body (storedTags reached n.id))), n.projectId⟩]) ∧
        ((storedTags reached n.id).map formats.searchKey).Nodup := by
  intro reached n hn
  have hstart : Indexed formats.toTexts db := by
    refine ⟨?_, ?_, ?_, ?_, ?_, ?_⟩ <;> simp [hnotes, htags, hrows]
  have h : Indexed formats.toTexts reached :=
    runOps_invariant (I := Indexed formats.toTexts) (fun _ o h => step_indexed h o) hstart ops
  constructor
  · rw [h.rows n hn, indexRows, h.searchKey n hn]
  · have hkeys : ((reached.tags.filter (·.noteId = n.id)).map (·.tag)).map formats.searchKey =
        (reached.tags.filter (·.noteId = n.id)).map (·.tagKey) := by
      rw [List.map_map]
      exact List.map_congr_left fun t ht => (h.tagKey t (List.mem_of_mem_filter ht)).symm
    rw [storedTags, hkeys]
    exact h.tagKeys n.id

/-- Texts in small letters, which are their own search keys. -/
def smallLetters : Formats where
  parse := fun _ => none
  normalizeStartAfter := .ok
  searchKey := id
  embedding := id
  julianday := fun _ => 0
  debug := id

/-- Two Projects without notes. -/
def twoProjects : Db where
  projects := [{ id := "one" }, { id := "two" }]

/-- A note is written, archived and restored with other tags, and its Project moves. -/
def movedNote : List Op :=
  [.create "one" "note" (.ok ())
      { title := "deploys", body := "on fridays", tags := ["ops", "ci"] },
    .archive "one" "note",
    .update "one" "note" { state := some "evergreen", tags := some ["week", "ops", "ops"] },
    .moveProjectMemory "one" "two"]

theorem index_consistent_moved :
    let reached := runOps (step smallLetters) twoProjects movedNote
    reached.embeddings = [⟨"note", "deploys\ndeploys\non fridays\nweek ops", "two"⟩] ∧
      ∀ n ∈ reached.notes, reached.embeddings.filter (·.noteId = n.id) =
          (if n.state = "archived" then []
          else [⟨n.id, searchableText n.title n.summary n.body (storedTags reached n.id),
            n.projectId⟩]) ∧
        ((storedTags reached n.id).map id).Nodup :=
  ⟨by decide +kernel, index_consistent smallLetters rfl rfl rfl movedNote⟩

end XpressClaw.Memory
