import XpressClaw.Lib.Patch
import XpressClaw.Lib.Runs
import XpressClaw.Lib.Threads
import XpressClaw.Memory.Index

/-!
# Two updates of one note

`ProjectMemory::update` reads the note, its tags and its links in a transaction each, fills the
fields that the request leaves open from what it has read, and writes the whole note, its tags
and its row of the index in one transaction.

* `updateCall` — the transactions of an update; alone it leaves what `update` leaves.
* `Field` — the fields of a note, and a request as a partial update of them.
* `Pair` — two updates in stages; its runs are the schedules of the two calls.
* `firstWrite` — which call a schedule lets write first, and what the other one has read by then.
* `Merged` — the note has the fields of both, and the index is that of the note.
* `updates_merged_iff` — the schedules of which that is so.
-/

namespace XpressClaw.Memory

open Lib Sync

/-! ## The calls -/

/-- What an update writes. -/
structure Revision where
  title : String
  body : String
  summary : String
  noteType : String
  state : String
  pinned : Bool
  tags : List String

/-- A note with its tags and its links, as `get_without_access` returns it. -/
abbrev NoteRead := MemoryNote × List String × List MemoryLink

/-- The links of a note, as `get_without_access` reads them. -/
def linksOfNote (db : Db) (noteId : String) : List MemoryLink :=
  (db.links.filter fun l => l.key.fromNoteId = noteId || l.key.toNoteId = noteId).insertionSort
    fun a b => a.createdAt < b.createdAt ∨ a.createdAt = b.createdAt ∧
      (a.key.fromNoteId < b.key.fromNoteId ∨ a.key.fromNoteId = b.key.fromNoteId ∧
        a.key.toNoteId ≤ b.key.toNoteId)

/-- `get_without_access`. -/
def getWithoutAccess (projectId noteId : String) : Prog Db Error NoteRead := do
  let note ← Prog.tx fun db => (getNote db projectId noteId).map fun note => (note, db)
  let tags ← Prog.read (tagsOfNote · noteId)
  let links ← Prog.read (linksOfNote · noteId)
  pure (note, tags, links)

section

variable (formats : Formats)

/-- The tags after an update: the new ones, or those that were read. -/
def revisedTags (existing : List String) : Option (List String) → Except Error (List String)
  | some tags => normalizeTags formats tags
  | none => .ok existing

/-- The checks of `update`, and the fields it fills from what it has read. -/
def revise (req : UpdateProjectMemoryNote) (existing : MemoryNote) (existingTags : List String) :
    Except Error Revision := do
  let title ← replacedText "title" req.title existing.title 200
  let body ← replacedText "body" req.body existing.body 100000
  let summary ← replacedText "summary" req.summary existing.summary 1000
  let noteType := req.noteType.getD existing.noteType
  let state := req.state.getD existing.state
  validateChoice formats "note_type" noteType noteTypes
  validateChoice formats "state" state noteStates
  let pinned := req.pinned.getD existing.pinned
  let tags ← revisedTags formats existingTags req.tags
  .ok ⟨title, body, summary, noteType, state, pinned, tags⟩

/-- The transaction of `update`. -/
def Revision.write (v : Revision) (projectId noteId : String) (db : Db) : Except Error Db := do
  db.ensureProjectAcceptsWork projectId
  let write := updatedNote formats db.now v.title v.body v.summary v.noteType v.state v.pinned
    v.tags
  let written := db.notes.map fun r =>
    if r.id = noteId ∧ r.projectId = projectId then write r else r
  let db ← replaceTags formats noteId v.tags { db with notes := written }
  embedUnlessArchived formats v.state noteId projectId
    (formats.searchKey (searchableText v.title v.summary v.body v.tags)) (deleteEmbedding noteId db)

/-- What is left of an update when it is checked. -/
def writeCall (projectId noteId : String) (v : Revision) : Prog Db Error NoteRead := do
  Prog.tx fun db => (v.write formats projectId noteId db).map fun db => ((), db)
  getWithoutAccess projectId noteId

/-- `update`, as the transactions it commits. -/
def updateCall (projectId noteId : String) (req : UpdateProjectMemoryNote) :
    Prog Db Error NoteRead := do
  let (existing, tags, _) ← getWithoutAccess projectId noteId
  let v ← Prog.ret (revise formats req existing tags)
  writeCall formats projectId noteId v

theorem update_eq (db : Db) (projectId noteId : String) (req : UpdateProjectMemoryNote) :
    update formats db projectId noteId req =
      getNote db projectId noteId >>= fun existing =>
        revise formats req existing (tagsOfNote db noteId) >>= fun v =>
          v.write formats projectId noteId db := by
  have htags : updatedTags formats db noteId req.tags =
      revisedTags formats (tagsOfNote db noteId) req.tags := by
    cases req.tags <;> rfl
  simp only [update, revise, htags, bind_assoc]
  rfl

/-- Reading a note leaves the database. -/
theorem getWithoutAccess_run (projectId noteId : String) (db : Db) :
    (getWithoutAccess projectId noteId).run db =
      (some ((getNote db projectId noteId).map fun note =>
        (note, tagsOfNote db noteId, linksOfNote db noteId)), db) := by
  cases h : getNote db projectId noteId <;>
    simp [getWithoutAccess, Prog.tx, Prog.read, h, Except.map]

/-- **Alone, the transactions of an update leave what the update leaves.** -/
theorem updateCall_final (projectId noteId : String) (req : UpdateProjectMemoryNote) (db : Db) :
    (updateCall formats projectId noteId req).final db =
      match update formats db projectId noteId req with
      | .ok db' => db'
      | .error _ => db := by
  have hread := getWithoutAccess_run projectId noteId db
  rw [update_eq, Prog.final, updateCall, Prog.bind_eq]
  cases hnote : getNote db projectId noteId with
  | error e =>
      rw [hnote] at hread
      rw [Prog.run_bind_error hread]
      rfl
  | ok existing =>
      rw [hnote] at hread
      rw [Prog.run_bind_ok hread]
      cases hv : revise formats req existing (tagsOfNote db noteId) with
      | error e => simp only [hv, Prog.ret_error_bind, bind, Except.bind, Prog.run_ret]
      | ok v =>
          simp only [hv, Prog.ret_ok_bind, writeCall, bind, Except.bind]
          cases hw : v.write formats projectId noteId db with
          | error e =>
              rw [← Prog.bind_eq]
              exact congrArg Prod.snd (Prog.run_bind_error (Prog.run_tx_error (by rw [hw]; rfl)))
          | ok db' =>
              have htx : (Prog.tx fun db =>
                    (v.write formats projectId noteId db).map fun db => ((), db)).run db =
                  (some (.ok ()), db') := Prog.run_tx_ok (by rw [hw]; rfl)
              have hwrite := Prog.run_bind_ok (g := fun _ => getWithoutAccess projectId noteId) htx
              rw [getWithoutAccess_run] at hwrite
              exact congrArg Prod.snd hwrite

end

/-! ## The fields of a note -/

/-- The fields of the row of a note that an update may set. -/
inductive Field where
  | title
  | body
  | summary
  | noteType
  | state
  | pinned

abbrev Field.Value : Field → Type
  | pinned => Bool
  | _ => String

/-- The values of a row. -/
def contentOf (r : MemoryNote) : ∀ f : Field, f.Value
  | .title => r.title
  | .body => r.body
  | .summary => r.summary
  | .noteType => r.noteType
  | .state => r.state
  | .pinned => r.pinned

def Revision.content (v : Revision) : ∀ f : Field, f.Value
  | .title => v.title
  | .body => v.body
  | .summary => v.summary
  | .noteType => v.noteType
  | .state => v.state
  | .pinned => v.pinned

/-- A request as a partial update of the row; texts are stored without the white space around
them. -/
def UpdateProjectMemoryNote.patch (req : UpdateProjectMemoryNote) : Patch Field.Value
  | .title => req.title.map Text.trim
  | .body => req.body.map Text.trim
  | .summary => req.summary.map Text.trim
  | .noteType => req.noteType
  | .state => req.state
  | .pinned => req.pinned

section Revisions

variable {formats : Formats} {projectId noteId : String} {req : UpdateProjectMemoryNote}
  {v : Revision} {db db' : Db} {r : MemoryNote} {tags : List String}

theorem requiredText_ok {field value out : String} {maxChars : ℕ}
    (h : requiredText field value maxChars = .ok out) : out = Text.trim value := by
  unfold requiredText at h
  obtain ⟨_, -, h⟩ := bind_ok h
  obtain ⟨_, -, h⟩ := bind_ok h
  exact (Except.ok.inj h).symm

theorem replacedText_ok {field existing out : String} {value : Option String} {maxChars : ℕ}
    (h : replacedText field value existing maxChars = .ok out) :
    out = (value.map Text.trim).getD existing := by
  cases value with
  | none => exact (Except.ok.inj h).symm
  | some value => exact requiredText_ok h

theorem revise_tags (h : revise formats req r tags = .ok v) :
    revisedTags formats tags req.tags = .ok v.tags := by
  unfold revise at h
  obtain ⟨_, -, h⟩ := bind_ok h
  obtain ⟨_, -, h⟩ := bind_ok h
  obtain ⟨_, -, h⟩ := bind_ok h
  obtain ⟨_, -, h⟩ := bind_ok h
  obtain ⟨_, -, h⟩ := bind_ok h
  obtain ⟨out, htags, h⟩ := bind_ok h
  cases h
  exact htags

/-- **A revision is the request applied to what was read.** -/
theorem revise_content (h : revise formats req r tags = .ok v) :
    v.content = req.patch.apply (contentOf r) := by
  unfold revise at h
  obtain ⟨title, htitle, h⟩ := bind_ok h
  obtain ⟨body, hbody, h⟩ := bind_ok h
  obtain ⟨summary, hsummary, h⟩ := bind_ok h
  obtain ⟨_, -, h⟩ := bind_ok h
  obtain ⟨_, -, h⟩ := bind_ok h
  obtain ⟨out, -, h⟩ := bind_ok h
  cases h
  funext f
  cases f with
  | title => exact replacedText_ok htitle
  | body => exact replacedText_ok hbody
  | summary => exact replacedText_ok hsummary
  | noteType => rfl
  | state => rfl
  | pinned => rfl

/-- What the transaction of an update leaves. -/
theorem write_ok (h : v.write formats projectId noteId db = .ok db') :
    db'.notes = db.notes.map (fun r => if r.id = noteId ∧ r.projectId = projectId then
        updatedNote formats db.now v.title v.body v.summary v.noteType v.state v.pinned v.tags r
      else r) ∧
    db'.tags = db.tags.filter (·.noteId ≠ noteId) ++ tagRows formats noteId v.tags ∧
    db'.embeddings = db.embeddings.filter (·.noteId ≠ noteId) ++
      if v.state = "archived" then [] else [⟨noteId, formats.embedding (formats.searchKey
        (searchableText v.title v.summary v.body v.tags)), projectId⟩] := by
  unfold Revision.write at h
  obtain ⟨_, -, h⟩ := bind_ok h
  obtain ⟨db₁, hreplace, h⟩ := bind_ok h
  obtain ⟨-, rfl⟩ := replaceTags_ok hreplace
  have hindex := embedUnlessArchived_ok
    (n := { id := noteId
            projectId := projectId
            state := v.state
            searchKey := formats.searchKey (searchableText v.title v.summary v.body v.tags) }) h
  subst hindex
  exact ⟨rfl, rfl, rfl⟩

/-- The row of the note after an update. -/
theorem getNote_write (h : v.write formats projectId noteId db = .ok db')
    (hr : getNote db projectId noteId = .ok r) :
    getNote db' projectId noteId = .ok (updatedNote formats db.now v.title v.body v.summary
      v.noteType v.state v.pinned v.tags r) := by
  obtain ⟨hnotes, -, -⟩ := write_ok h
  obtain ⟨-, hid, hproject⟩ := getNote_ok hr
  unfold getNote at hr ⊢
  cases hget : (db.note? noteId).filter (·.projectId = projectId) with
  | none =>
    rw [hget] at hr
    cases hr
  | some r' =>
    rw [hget] at hr
    cases hr
    obtain ⟨hfound, -⟩ := Option.filter_eq_some_iff.1 hget
    have hfound' : db'.note? noteId = some (updatedNote formats db.now v.title v.body v.summary
        v.noteType v.state v.pinned v.tags r) := by
      unfold Db.note? at hfound ⊢
      rw [hnotes, Table.get_map fun a => by split <;> rfl, hfound, Option.map_some,
        if_pos ⟨hid, hproject⟩]
    rw [hfound', Option.filter_some, if_pos (by exact decide_eq_true hproject)]

theorem storedTags_write (h : v.write formats projectId noteId db = .ok db') :
    storedTags db' noteId = v.tags := by
  obtain ⟨-, htags, -⟩ := write_ok h
  have hown : ∀ t ∈ tagRows formats noteId v.tags, t.noteId = noteId := by
    intro t ht
    obtain ⟨tag, -, rfl⟩ := List.mem_map.1 ht
    rfl
  rw [storedTags, htags, filter_replaced_self hown, tagRows, List.map_map]
  exact (List.map_congr_left fun _ _ => rfl).trans (List.map_id _)

theorem tagsOfNote_perm (db : Db) (noteId : String) :
    (tagsOfNote db noteId).Perm (storedTags db noteId) :=
  (List.perm_insertionSort _ _).map _

end Revisions

/-! ## Two calls in stages -/

/-- How far an update has got, with what it has read. -/
inductive Stage where
  | start
  | found (existing : MemoryNote)
  | tagged (existing : MemoryNote) (tags : List String)
  | ready (v : Revision)
  | wrote
  | reread (note : MemoryNote)
  | retagged (note : MemoryNote) (tags : List String)
  | ended (result : NoteRead)
  | failed (e : Error)

namespace Stage

/-- The transactions in which a call has read, before it writes. -/
def reads : Stage → ℕ
  | start => 0
  | found _ => 1
  | tagged _ _ => 2
  | _ => 3

/-- The call has written, or will not write. -/
def Done : Stage → Prop
  | wrote | reread _ | retagged _ _ | ended _ | failed _ => True
  | _ => False

theorem reads_le (stage : Stage) : stage.reads ≤ 3 := by
  cases stage <;> simp only [reads, Nat.zero_le, Nat.reduceLeDiff, le_refl]

end Stage

section Stages

variable (formats : Formats) (projectId noteId : String)

/-- What is left of a call. -/
def Stage.prog (req : UpdateProjectMemoryNote) : Stage → Prog Db Error NoteRead
  | start => updateCall formats projectId noteId req
  | found existing => do
      let tags ← Prog.read (tagsOfNote · noteId)
      let _ ← Prog.read (linksOfNote · noteId)
      let v ← Prog.ret (revise formats req existing tags)
      writeCall formats projectId noteId v
  | tagged existing tags => do
      let _ ← Prog.read (linksOfNote · noteId)
      let v ← Prog.ret (revise formats req existing tags)
      writeCall formats projectId noteId v
  | ready v => writeCall formats projectId noteId v
  | wrote => getWithoutAccess projectId noteId
  | reread note => do
      let tags ← Prog.read (tagsOfNote · noteId)
      let links ← Prog.read (linksOfNote · noteId)
      pure (note, tags, links)
  | retagged note tags => do
      let links ← Prog.read (linksOfNote · noteId)
      pure (note, tags, links)
  | ended result => .ret (.ok result)
  | failed e => .ret (.error e)

/-- The database and the two calls. -/
structure Pair where
  db : Db
  calls : Bool → Stage

namespace Pair

def set (h : Pair) (i : Bool) (stage : Stage) : Pair :=
  { h with calls := Function.update h.calls i stage }

/-- The next transaction of one call. -/
def step (req : Bool → UpdateProjectMemoryNote) (h : Pair) (i : Bool) : Pair :=
  match h.calls i with
  | .start =>
      match getNote h.db projectId noteId with
      | .ok note => h.set i (.found note)
      | .error e => h.set i (.failed e)
  | .found existing => h.set i (.tagged existing (tagsOfNote h.db noteId))
  | .tagged existing tags =>
      match revise formats (req i) existing tags with
      | .ok v => h.set i (.ready v)
      | .error e => h.set i (.failed e)
  | .ready v =>
      match v.write formats projectId noteId h.db with
      | .ok db => ⟨db, Function.update h.calls i .wrote⟩
      | .error e => h.set i (.failed e)
  | .wrote =>
      match getNote h.db projectId noteId with
      | .ok note => h.set i (.reread note)
      | .error e => h.set i (.failed e)
  | .reread note => h.set i (.retagged note (tagsOfNote h.db noteId))
  | .retagged note tags => h.set i (.ended (note, tags, linksOfNote h.db noteId))
  | .ended _ | .failed _ => h

/-- The database and the programs. -/
def sys (req : Bool → UpdateProjectMemoryNote) (h : Pair) : Sys Db Error NoteRead :=
  ⟨h.db, [(h.calls false).prog formats projectId noteId (req false),
    (h.calls true).prog formats projectId noteId (req true)]⟩

end Pair

end Stages

section Simulation

variable {formats : Formats} {projectId noteId : String} {req : Bool → UpdateProjectMemoryNote}

theorem Pair.sys_update (h : Pair) (i : Bool) (db : Db) (stage : Stage) :
    (Pair.mk db (Function.update h.calls i stage)).sys formats projectId noteId req =
      ⟨db, (h.sys formats projectId noteId req).threads.set i.toNat
        (stage.prog formats projectId noteId (req i))⟩ := by
  cases i <;> rfl

theorem Pair.threads_get (h : Pair) (i : Bool) :
    (h.sys formats projectId noteId req).threads[i.toNat]? =
      some ((h.calls i).prog formats projectId noteId (req i)) := by
  cases i <;> rfl

/-- **A step of the pair is a commit of the system.** -/
theorem Pair.step_sys (h : Pair) (i : Bool) :
    (h.step formats projectId noteId req i).sys formats projectId noteId req =
      (h.sys formats projectId noteId req).step i.toNat := by
  have hstore : (h.sys formats projectId noteId req).store = h.db := rfl
  rw [Sys.step, h.threads_get i, Pair.step]
  cases hi : h.calls i with
  | start =>
    simp only [Stage.prog, updateCall, getWithoutAccess, Prog.tx, Prog.bind_eq, Prog.act_bind,
      hstore]
    cases hnote : getNote h.db projectId noteId with
    | ok note => exact Pair.sys_update ..
    | error e => exact Pair.sys_update ..
  | found existing => exact Pair.sys_update ..
  | tagged existing tags =>
    simp only [Stage.prog, Prog.read, Prog.bind_eq, Prog.act_bind, Prog.ret_ok_bind, hstore, id]
    cases hv : revise formats (req i) existing tags with
    | ok v => exact Pair.sys_update ..
    | error e => exact Pair.sys_update ..
  | ready v =>
    simp only [Stage.prog, writeCall, Prog.tx, Prog.bind_eq, Prog.act_bind, hstore]
    cases hw : v.write formats projectId noteId h.db with
    | ok db => exact Pair.sys_update ..
    | error e => exact Pair.sys_update ..
  | wrote =>
    simp only [Stage.prog, getWithoutAccess, Prog.tx, Prog.bind_eq, Prog.act_bind, hstore]
    cases hnote : getNote h.db projectId noteId with
    | ok note => exact Pair.sys_update ..
    | error e => exact Pair.sys_update ..
  | reread note => exact Pair.sys_update ..
  | retagged note tags => exact Pair.sys_update ..
  | ended result => rfl
  | failed e => rfl

theorem Pair.run_sys (h : Pair) (schedule : List Bool) :
    (runOps (Pair.step formats projectId noteId req) h schedule).sys formats projectId noteId req =
      (h.sys formats projectId noteId req).sched (schedule.map Bool.toNat) := by
  induction schedule generalizing h with
  | nil => rfl
  | cons i schedule ih => rw [runOps_cons, ih, h.step_sys, List.map_cons, Sys.sched_cons]

end Simulation

/-! ## What a call has read -/

section Reads

variable (formats : Formats) (projectId noteId : String)

/-- A call that has not written has read the row in one database and the tags in another. -/
def Stage.Copied (req : UpdateProjectMemoryNote) (rowDb tagDb : Db) : Stage → Prop
  | start | failed _ => True
  | found r => getNote rowDb projectId noteId = .ok r
  | tagged r tags => getNote rowDb projectId noteId = .ok r ∧ tags = tagsOfNote tagDb noteId
  | ready v => ∃ r, getNote rowDb projectId noteId = .ok r ∧
      revise formats req r (tagsOfNote tagDb noteId) = .ok v
  | _ => False

/-- A call has read the row in one database and the tags in another, and its write turns `db` into
`db'`. -/
def Written (req : UpdateProjectMemoryNote) (rowDb tagDb db db' : Db) : Prop :=
  ∃ r v, getNote rowDb projectId noteId = .ok r ∧
    revise formats req r (tagsOfNote tagDb noteId) = .ok v ∧
    v.write formats projectId noteId db = .ok db'

variable {formats projectId noteId} {req : Bool → UpdateProjectMemoryNote} {h : Pair}
  {i : Bool} {stage : Stage}

theorem Pair.set_self (hi : h.calls i = stage) : h.set i stage = h := by
  rw [Pair.set, ← hi, Function.update_eq_self]

/-- A call that has written only reads, and a call that has failed does nothing. -/
theorem Pair.step_done (hdone : (h.calls i).Done) :
    ∃ stage : Stage, stage.Done ∧ h.step formats projectId noteId req i = h.set i stage := by
  unfold Pair.step
  cases hi : h.calls i with
  | start | found _ | tagged _ _ | ready _ =>
    rw [hi] at hdone
    exact hdone.elim
  | wrote =>
    cases getNote h.db projectId noteId with
    | ok note => exact ⟨.reread note, trivial, rfl⟩
    | error e => exact ⟨.failed e, trivial, rfl⟩
  | reread note => exact ⟨.retagged note (tagsOfNote h.db noteId), trivial, rfl⟩
  | retagged note tags => exact ⟨.ended (note, tags, linksOfNote h.db noteId), trivial, rfl⟩
  | ended result => exact ⟨.ended result, trivial, (Pair.set_self hi).symm⟩
  | failed e => exact ⟨.failed e, trivial, (Pair.set_self hi).symm⟩

/-- **The step of a call that has not written.**  It reads, and then the row and the tags are those
of the databases in which it read them; or it fails; or it writes. -/
theorem Pair.step_copied {rowDb tagDb : Db}
    (hcopied : (h.calls i).Copied formats projectId noteId (req i) rowDb tagDb)
    (hrow : (h.calls i).reads = 0 → rowDb = h.db) (htags : (h.calls i).reads ≤ 1 → tagDb = h.db) :
    (∃ stage : Stage, stage.Copied formats projectId noteId (req i) rowDb tagDb ∧
      stage.reads = (h.calls i).reads + 1 ∧
        h.step formats projectId noteId req i = h.set i stage) ∨
    (∃ e, h.step formats projectId noteId req i = h.set i (.failed e)) ∨
    ∃ db, (h.calls i).reads = 3 ∧
      Written formats projectId noteId (req i) rowDb tagDb h.db db ∧
        h.step formats projectId noteId req i = ⟨db, Function.update h.calls i .wrote⟩ := by
  unfold Pair.step
  cases hi : h.calls i with
  | start =>
    rw [hi] at hrow
    obtain rfl := hrow rfl
    cases hnote : getNote h.db projectId noteId with
    | ok note => exact .inl ⟨.found note, hnote, rfl, rfl⟩
    | error e => exact .inr (.inl ⟨e, rfl⟩)
  | found existing =>
    rw [hi] at hcopied htags
    obtain rfl := htags le_rfl
    exact .inl ⟨.tagged existing (tagsOfNote h.db noteId), ⟨hcopied, rfl⟩, rfl, rfl⟩
  | tagged existing tags =>
    rw [hi] at hcopied
    obtain ⟨hnote, rfl⟩ := hcopied
    dsimp only
    cases hv : revise formats (req i) existing (tagsOfNote tagDb noteId) with
    | ok v => exact .inl ⟨.ready v, ⟨existing, hnote, hv⟩, rfl, rfl⟩
    | error e => exact .inr (.inl ⟨e, rfl⟩)
  | ready v =>
    rw [hi] at hcopied
    obtain ⟨r, hnote, hv⟩ := hcopied
    dsimp only
    cases hw : v.write formats projectId noteId h.db with
    | ok db => exact .inr (.inr ⟨db, rfl, ⟨r, v, hnote, hv, hw⟩, rfl⟩)
    | error e => exact .inr (.inl ⟨e, rfl⟩)
  | wrote | reread _ | retagged _ _ | ended _ =>
    rw [hi] at hcopied
    exact hcopied.elim
  | failed e => exact .inr (.inl ⟨e, (Pair.set_self hi).symm⟩)

end Reads

/-! ## Which call writes first -/

/-- The call that writes first, when neither fails, and the transactions in which the other one has
read by then: a call writes in its fourth transaction. -/
def firstWrite : List Bool → (Bool → ℕ) → Option (Bool × ℕ)
  | [], _ => none
  | i :: schedule, n =>
      if n i = 3 then some (i, n !i)
      else firstWrite schedule (Function.update n i (n i + 1))

section Writes

variable (formats : Formats) (projectId noteId : String) (req : Bool → UpdateProjectMemoryNote)

/-- The two writes, when the first is that of `i` and the other call has then read in `m`
transactions: the row in the first one, the tags in the second one. -/
def Writes (i : Bool) (m : ℕ) (db₀ db₁ db₂ : Db) : Prop :=
  Written formats projectId noteId (req i) db₀ db₀ db₀ db₁ ∧
    Written formats projectId noteId (req !i) (if m = 0 then db₁ else db₀)
      (if m ≤ 1 then db₁ else db₀) db₁ db₂

/-- After the first write, which has left `db₁`. -/
inductive Late (i : Bool) (m : ℕ) (db₀ db₁ : Db) : Pair → Prop
  | one (calls : Bool → Stage) (hdone : (calls i).Done) (hreads : m ≤ (calls !i).reads)
      (hcopied : (calls !i).Copied formats projectId noteId (req !i) (if m = 0 then db₁ else db₀)
        (if m ≤ 1 then db₁ else db₀)) : Late i m db₀ db₁ ⟨db₁, calls⟩
  | both (calls : Bool → Stage) (db₂ : Db) (hdone : ∀ j, (calls j).Done)
      (hwritten : Written formats projectId noteId (req !i) (if m = 0 then db₁ else db₀)
        (if m ≤ 1 then db₁ else db₀) db₁ db₂) : Late i m db₀ db₁ ⟨db₂, calls⟩

variable {formats projectId noteId req} {i : Bool} {m : ℕ} {db₀ db₁ : Db} {h : Pair}

/-- The other call keeps what it has read, or writes once. -/
theorem Late.step (hlate : Late formats projectId noteId req i m db₀ db₁ h) (j : Bool) :
    Late formats projectId noteId req i m db₀ db₁ (h.step formats projectId noteId req j) := by
  cases hlate with
  | one calls hdone hreads hcopied =>
    rcases Bool.eq_or_eq_not j i with rfl | rfl
    · obtain ⟨stage, hstage, hstep⟩ := Pair.step_done (h := ⟨db₁, calls⟩) hdone
      rw [hstep]
      refine .one _ ?_ ?_ ?_
      · rwa [Function.update_self]
      · rwa [Function.update_of_ne (Bool.not_ne_self j)]
      · rwa [Function.update_of_ne (Bool.not_ne_self j)]
    · have hrow : (calls !i).reads = 0 → (if m = 0 then db₁ else db₀) = db₁ := by
        intro hzero
        rw [if_pos (by omega)]
      have htags : (calls !i).reads ≤ 1 → (if m ≤ 1 then db₁ else db₀) = db₁ := by
        intro hle
        rw [if_pos (by omega)]
      rcases Pair.step_copied (h := ⟨db₁, calls⟩) hcopied hrow htags with
        ⟨stage, hstage, hmore, hstep⟩ | ⟨e, hstep⟩ | ⟨db₂, -, hwritten, hstep⟩
      · rw [hstep]
        refine .one _ ?_ ?_ ?_
        · rwa [Function.update_of_ne (Bool.not_ne_self i).symm]
        · rw [Function.update_self]
          dsimp only at hmore
          omega
        · rwa [Function.update_self]
      · rw [hstep]
        refine .one _ ?_ ?_ ?_
        · rwa [Function.update_of_ne (Bool.not_ne_self i).symm]
        · rw [Function.update_self]
          exact hreads.trans (Stage.reads_le _)
        · rw [Function.update_self]
          trivial
      · rw [hstep]
        refine .both _ db₂ ((Function.forall_update_iff _ fun _ (stage : Stage) => stage.Done).2
          ⟨trivial, fun k hk => ?_⟩) hwritten
        rwa [Bool.ne_not.1 hk]
  | both calls db₂ hdone hwritten =>
    obtain ⟨stage, hstage, hstep⟩ := Pair.step_done (h := ⟨db₂, calls⟩) (hdone j)
    rw [hstep]
    exact .both _ db₂ ((Function.forall_update_iff _ fun _ (stage : Stage) => stage.Done).2
      ⟨hstage, fun k _ => hdone k⟩) hwritten

theorem Late.ended (hlate : Late formats projectId noteId req i m db₀ db₁ h) {note : NoteRead}
    (hended : h.calls (!i) = .ended note) :
    Written formats projectId noteId (req !i) (if m = 0 then db₁ else db₀)
      (if m ≤ 1 then db₁ else db₀) db₁ h.db := by
  cases hlate with
  | one calls hdone hreads hcopied =>
    have hcall : calls (!i) = .ended note := hended
    rw [hcall] at hcopied
    exact hcopied.elim
  | both calls db₂ hdone hwritten => exact hwritten

theorem Stage.Copied.later {stage : Stage} {req : UpdateProjectMemoryNote}
    (hcopied : stage.Copied formats projectId noteId req db₀ db₀) (db₁ : Db) :
    stage.Copied formats projectId noteId req (if stage.reads = 0 then db₁ else db₀)
      (if stage.reads ≤ 1 then db₁ else db₀) := by
  cases stage with
  | start | failed _ => trivial
  | found r => exact hcopied
  | tagged r tags => exact hcopied
  | ready v => exact hcopied
  | wrote | reread _ | retagged _ _ | ended _ => exact hcopied.elim

/-- A call that has failed stays so. -/
theorem Pair.failed_run {e : Error} (hfailed : h.calls i = .failed e) (schedule : List Bool) :
    (runOps (Pair.step formats projectId noteId req) h schedule).calls i = .failed e := by
  refine runOps_invariant (I := fun h : Pair => h.calls i = .failed e) (fun h j hi => ?_) hfailed
    schedule
  rcases Bool.eq_or_eq_not j i with rfl | rfl
  · simp only [Pair.step, hi]
  · have hne : i ≠ !i := (Bool.not_ne_self i).symm
    unfold Pair.step
    split
    · split <;> simp only [Pair.set, Function.update_of_ne hne, hi]
    · simp only [Pair.set, Function.update_of_ne hne, hi]
    · split <;> simp only [Pair.set, Function.update_of_ne hne, hi]
    · split <;> simp only [Pair.set, Function.update_of_ne hne, hi]
    · split <;> simp only [Pair.set, Function.update_of_ne hne, hi]
    · simp only [Pair.set, Function.update_of_ne hne, hi]
    · simp only [Pair.set, Function.update_of_ne hne, hi]
    · exact hi
    · exact hi

/-- **Two calls that both return have both written, the first as `firstWrite` says.** -/
theorem run_writes {calls : Bool → Stage} {n : Bool → ℕ}
    (hcopied : ∀ j, (calls j).Copied formats projectId noteId (req j) db₀ db₀)
    (hcount : ∀ j, (calls j).reads = n j) (schedule : List Bool)
    (hended : ∀ j, ∃ note,
      (runOps (Pair.step formats projectId noteId req) ⟨db₀, calls⟩ schedule).calls j =
        .ended note) :
    ∃ i m db₁, firstWrite schedule n = some (i, m) ∧ Writes formats projectId noteId req i m db₀ db₁
      (runOps (Pair.step formats projectId noteId req) ⟨db₀, calls⟩ schedule).db := by
  induction schedule generalizing calls n with
  | nil =>
    obtain ⟨note, hnote⟩ := hended true
    have hfalse := hcopied true
    have hcall : calls true = .ended note := hnote
    rw [hcall] at hfalse
    exact hfalse.elim
  | cons i schedule ih =>
    rw [runOps_cons] at hended ⊢
    rcases Pair.step_copied (h := ⟨db₀, calls⟩) (hcopied i) (fun _ => rfl) (fun _ => rfl) with
      ⟨stage, hstage, hmore, hstep⟩ | ⟨e, hstep⟩ | ⟨db₁, hthree, hwritten, hstep⟩
    · have hlt : n i ≠ 3 := by
        have := stage.reads_le
        have := hcount i
        dsimp only at hmore
        omega
      rw [firstWrite, if_neg hlt]
      rw [hstep] at hended ⊢
      refine ih ?_ (fun j => ?_) hended
      · exact (Function.forall_update_iff _ fun j (stage : Stage) =>
          stage.Copied formats projectId noteId (req j) db₀ db₀).2 ⟨hstage, fun j _ => hcopied j⟩
      · by_cases hj : j = i
        · rw [hj, Function.update_self, Function.update_self, hmore, ← hcount i]
        · rw [Function.update_of_ne hj, Function.update_of_ne hj, hcount j]
    · obtain ⟨note, hnote⟩ := hended i
      rw [hstep, Pair.failed_run (e := e)] at hnote
      · cases hnote
      · exact Function.update_self ..
    · have hi : n i = 3 := (hcount i).symm.trans hthree
      rw [firstWrite, if_pos hi]
      rw [hstep] at hended ⊢
      have hlate : Late formats projectId noteId req i (n !i) db₀ db₁
          ⟨db₁, Function.update calls i .wrote⟩ := by
        have hother : Function.update calls i .wrote (!i) = calls !i :=
          Function.update_of_ne (Bool.not_ne_self i) ..
        refine .one _ ?_ ?_ ?_
        · rw [Function.update_self]
          trivial
        · rw [hother, hcount]
        · rw [hother, ← hcount]
          exact (hcopied _).later db₁
      refine ⟨i, n !i, db₁, rfl, hwritten, ?_⟩
      obtain ⟨note, hnote⟩ := hended !i
      exact (runOps_invariant (fun h j hh => hh.step j) hlate schedule).ended hnote

end Writes

/-! ## The fields of both -/

section Both

variable (formats : Formats) (projectId noteId : String)

/-- Two updates of a note in the order of a schedule. -/
def bothUpdates (req : Bool → UpdateProjectMemoryNote) (db₀ : Db) (schedule : List Bool) :
    Sys Db Error NoteRead :=
  (Sys.mk db₀ [updateCall formats projectId noteId (req false),
    updateCall formats projectId noteId (req true)]).sched (schedule.map Bool.toNat)

/-- The note has the fields and the tags of both requests, and the index is that of the note. -/
def Merged (a b : UpdateProjectMemoryNote) (db₀ db : Db) : Prop :=
  ∃ before after tags, getNote db₀ projectId noteId = .ok before ∧
    getNote db projectId noteId = .ok after ∧
    contentOf after = b.patch.apply (a.patch.apply (contentOf before)) ∧
    revisedTags formats (tagsOfNote db₀ noteId) (a.tags.or b.tags) = .ok tags ∧
    (tagsOfNote db noteId).Perm tags ∧
    after.searchKey = formats.searchKey
      (searchableText after.title after.summary after.body (storedTags db noteId)) ∧
    db.embeddings.filter (·.noteId = noteId) = indexRows formats.toTexts after

/-- The request sets no field of the row to a new value. -/
def RowIdle (req : UpdateProjectMemoryNote) (db : Db) : Prop :=
  ∀ note, getNote db projectId noteId = .ok note → req.patch.Idle (contentOf note)

/-- The request sets the tags that the note has, or none. -/
def TagsIdle (req : UpdateProjectMemoryNote) (db : Db) : Prop :=
  ∀ tags, revisedTags formats (tagsOfNote db noteId) req.tags = .ok tags →
    tags.Perm (tagsOfNote db noteId)

variable {formats projectId noteId} {req : Bool → UpdateProjectMemoryNote}
  {a b : UpdateProjectMemoryNote} {db db' rowDb tagDb db₀ db₁ db₂ : Db} {i : Bool} {m : ℕ}

theorem Merged.symm (hrow : a.patch.Disjoint b.patch) (htags : a.tags = none ∨ b.tags = none)
    (h : Merged formats projectId noteId a b db₀ db) :
    Merged formats projectId noteId b a db₀ db := by
  obtain ⟨before, after, tags, hbefore, hafter, hcontent, hrevised, hrest⟩ := h
  have hor : b.tags.or a.tags = a.tags.or b.tags := by
    rcases htags with hnone | hnone
    · rw [hnone, Option.none_or, Option.or_none]
    · rw [hnone, Option.none_or, Option.or_none]
  refine ⟨before, after, tags, hbefore, hafter, ?_, ?_, hrest⟩
  · rw [hcontent, Patch.apply_comm hrow.symm]
  · rw [hor, hrevised]

/-- **The row, the tags and the index that a write leaves.** -/
theorem Written.spec (h : Written formats projectId noteId a rowDb tagDb db db') {r : MemoryNote}
    (hr : getNote db projectId noteId = .ok r) :
    ∃ row after, getNote rowDb projectId noteId = .ok row ∧
      getNote db' projectId noteId = .ok after ∧
      contentOf after = a.patch.apply (contentOf row) ∧
      revisedTags formats (tagsOfNote tagDb noteId) a.tags = .ok (storedTags db' noteId) ∧
      after.searchKey = formats.searchKey
        (searchableText after.title after.summary after.body (storedTags db' noteId)) ∧
      db'.embeddings.filter (·.noteId = noteId) = indexRows formats.toTexts after := by
  obtain ⟨row, v, hrow, hv, hw⟩ := h
  obtain ⟨-, hid, hproject⟩ := getNote_ok hr
  obtain ⟨-, -, hindex⟩ := write_ok hw
  refine ⟨row, _, hrow, getNote_write hw hr, ?_, ?_, ?_, ?_⟩
  · rw [← revise_content hv]
    funext f
    cases f <;> rfl
  · rw [storedTags_write hw, revise_tags hv]
  · rw [storedTags_write hw]
    rfl
  · rw [hindex, filter_replaced_self]
    · rw [indexRows, updatedNote, hid, hproject]
    · intro e he
      split at he
      · cases he
      · rw [List.mem_singleton.1 he]

/-- The tags are those of both when the other call has read the tags that the first one wrote, or
the first one has changed none. -/
theorem tags_merged_iff (hnone : a.tags = none ∨ b.tags = none)
    (hfirst : revisedTags formats (tagsOfNote db₀ noteId) a.tags = .ok (storedTags db₁ noteId))
    (hsecond : revisedTags formats (tagsOfNote (if m ≤ 1 then db₁ else db₀) noteId) b.tags =
      .ok (storedTags db₂ noteId)) :
    (∃ tags, revisedTags formats (tagsOfNote db₀ noteId) (a.tags.or b.tags) = .ok tags ∧
        (tagsOfNote db₂ noteId).Perm tags) ↔
      m ≤ 1 ∨ TagsIdle formats noteId a db₀ := by
  cases hb : b.tags with
  | some new =>
    have ha : a.tags = none := hnone.resolve_right (by rw [hb]; exact Option.some_ne_none new)
    rw [hb] at hsecond
    refine iff_of_true ⟨storedTags db₂ noteId, ?_, tagsOfNote_perm db₂ noteId⟩ (.inr ?_)
    · rw [ha, Option.none_or]
      exact hsecond
    · intro tags htags
      rw [ha] at htags
      cases htags
      exact .rfl
  | none =>
    rw [hb] at hsecond
    rw [Option.or_none, hfirst]
    have hstored := Except.ok.inj hsecond
    have hperm := tagsOfNote_perm db₂ noteId
    rw [← hstored] at hperm
    by_cases hm : m ≤ 1
    · rw [if_pos hm] at hperm
      exact iff_of_true ⟨_, rfl, hperm.trans (tagsOfNote_perm db₁ noteId)⟩ (.inl hm)
    · rw [if_neg hm] at hperm
      constructor
      · rintro ⟨tags, htags, hmerged⟩
        refine .inr fun out hout => ?_
        rw [hfirst, htags] at hout
        cases hout
        exact hmerged.symm.trans hperm
      · intro hidle
        exact ⟨_, rfl, hperm.trans (hidle.resolve_left hm _ hfirst).symm⟩

/-- **What two writes lose**, by the transactions in which the later one had read at the first. -/
theorem Writes.merged_iff (hwrites : Writes formats projectId noteId req i m db₀ db₁ db₂)
    (hrow : (req i).patch.Disjoint (req !i).patch)
    (htags : (req i).tags = none ∨ (req !i).tags = none) :
    Merged formats projectId noteId (req i) (req !i) db₀ db₂ ↔
      (m = 0 ∨ RowIdle projectId noteId (req i) db₀) ∧
        (m ≤ 1 ∨ TagsIdle formats noteId (req i) db₀) := by
  obtain ⟨hfirst, hsecond⟩ := hwrites
  obtain ⟨before, -, hbefore, -⟩ := id hfirst
  obtain ⟨row, mid, hfound, hmid, hcontent₁, htags₁, -⟩ := hfirst.spec hbefore
  obtain rfl : before = row := Except.ok.inj (hbefore.symm.trans hfound)
  obtain ⟨row, after, hfound₂, hafter, hcontent₂, htags₂, hkey, hindex⟩ := hsecond.spec hmid
  have hcontents : contentOf after = (req !i).patch.apply ((req i).patch.apply (contentOf before)) ↔
      m = 0 ∨ RowIdle projectId noteId (req i) db₀ := by
    have hidle : RowIdle projectId noteId (req i) db₀ ↔ (req i).patch.Idle (contentOf before) := by
      refine ⟨fun h => h before hbefore, fun h note hnote => ?_⟩
      obtain rfl : before = note := Except.ok.inj (hbefore.symm.trans hnote)
      exact h
    rw [hidle, hcontent₂]
    by_cases hm : m = 0
    · rw [if_pos hm, hmid] at hfound₂
      cases hfound₂
      rw [hcontent₁]
      exact iff_of_true rfl (.inl hm)
    · rw [if_neg hm, hbefore] at hfound₂
      cases hfound₂
      rw [Patch.apply_stale_iff hrow, or_iff_right hm]
  rw [← hcontents, ← tags_merged_iff htags htags₁ htags₂]
  constructor
  · rintro ⟨before', after', tags, hbefore', hafter', hcontent, hrevised, hperm, -⟩
    obtain rfl : before = before' := Except.ok.inj (hbefore.symm.trans hbefore')
    obtain rfl : after = after' := Except.ok.inj (hafter.symm.trans hafter')
    exact ⟨hcontent, tags, hrevised, hperm⟩
  · rintro ⟨hcontent, tags, hrevised, hperm⟩
    exact ⟨before, after, tags, hbefore, hafter, hcontent, hrevised, hperm, hkey, hindex⟩

theorem Stage.eq_ended {stage : Stage} {note : NoteRead}
    (h : stage.prog formats projectId noteId a = .ret (.ok note)) : stage = .ended note := by
  cases stage with
  | ended result =>
    cases h
    rfl
  | failed e => cases h
  | _ => simp [Stage.prog, updateCall, writeCall, getWithoutAccess, Prog.tx, Prog.read] at h

/-- **Two updates of a note that both return have the fields of both** exactly when the one that
writes later has read nothing by the first write or the first one sets no field to a new value, and
has not read the tags by then or the first one sets no others. -/
theorem updates_merged_iff (formats : Formats) (projectId noteId : String)
    (req : Bool → UpdateProjectMemoryNote) (db₀ : Db) (schedule : List Bool)
    (hrow : (req false).patch.Disjoint (req true).patch)
    (htags : (req false).tags = none ∨ (req true).tags = none) {first second : NoteRead}
    (hreturned : (bothUpdates formats projectId noteId req db₀ schedule).threads =
      [.ret (.ok first), .ret (.ok second)]) :
    Merged formats projectId noteId (req false) (req true) db₀
        (bothUpdates formats projectId noteId req db₀ schedule).store ↔
      ∀ i m, firstWrite schedule (fun _ => 0) = some (i, m) →
        (m = 0 ∨ RowIdle projectId noteId (req i) db₀) ∧
          (m ≤ 1 ∨ TagsIdle formats noteId (req i) db₀) := by
  have hrun : _ = bothUpdates formats projectId noteId req db₀ schedule :=
    Pair.run_sys ⟨db₀, fun _ => .start⟩ schedule
  rw [← hrun] at hreturned ⊢
  obtain ⟨hfalse, htrue, -⟩ : _ ∧ _ ∧ _ := by
    simpa only [Pair.sys, List.cons.injEq] using hreturned
  have hstart : ∀ j, Stage.start.Copied formats projectId noteId (req j) db₀ db₀ :=
    fun _ => trivial
  obtain ⟨i, m, db₁, hfirst, hwrites⟩ := run_writes (n := fun _ => 0) hstart
    (fun _ => rfl) schedule (Bool.forall_bool.2
      ⟨⟨first, Stage.eq_ended hfalse⟩, ⟨second, Stage.eq_ended htrue⟩⟩)
  have hmerged : Merged formats projectId noteId (req false) (req true) db₀
      (runOps (Pair.step formats projectId noteId req) ⟨db₀, fun _ => .start⟩ schedule).db ↔
        (m = 0 ∨ RowIdle projectId noteId (req i) db₀) ∧
          (m ≤ 1 ∨ TagsIdle formats noteId (req i) db₀) := by
    cases i with
    | false => exact hwrites.merged_iff hrow htags
    | true =>
        rw [← hwrites.merged_iff hrow.symm htags.symm]
        exact ⟨fun h => h.symm hrow htags, fun h => h.symm hrow.symm htags.symm⟩
  rw [hfirst]
  refine hmerged.trans ⟨fun h j k hjk => ?_, fun h => h i m rfl⟩
  cases hjk
  exact h

end Both

/-- A Project with one note. -/
def fridayDeploys : Db where
  projects := [{ id := "one" }]
  notes := [{ id := "note", projectId := "one", title := "deploys", body := "on fridays" }]

/-- One call sets the title, the other one the body and the tags. -/
def deployEdits : Bool → UpdateProjectMemoryNote
  | false => { title := some "releases" }
  | true => { body := some "never", tags := some ["ops"] }

theorem deployEdits_disjoint : (deployEdits false).patch.Disjoint (deployEdits true).patch
  | .title => .inr rfl
  | .body | .summary | .noteType | .state | .pinned => .inl rfl

/-- The second call starts when the first one has written. -/
theorem updates_merged_inTurn :
    let schedule := [false, false, false, false, true, true, true, false, true, true, false, true,
      false, true]
    firstWrite schedule (fun _ => 0) = some (false, 0) ∧
      Merged smallLetters "one" "note" (deployEdits false) (deployEdits true) fridayDeploys
        (bothUpdates smallLetters "one" "note" deployEdits fridayDeploys schedule).store :=
  ⟨rfl, (updates_merged_iff smallLetters "one" "note" deployEdits fridayDeploys _
    deployEdits_disjoint (.inl rfl) rfl).2 fun i m hfirst => by
      cases hfirst
      exact ⟨.inl rfl, .inl (by decide)⟩⟩

/-- Both calls read the note before either of them writes, and the new title is lost. -/
theorem overlapping_updates_lost :
    let schedule := [false, false, false, true, true, true, false, true, false, false, false, true,
      true, true]
    (deployEdits false).patch.Disjoint (deployEdits true).patch ∧
      (∃ first second,
        (bothUpdates smallLetters "one" "note" deployEdits fridayDeploys schedule).threads =
          [.ret (.ok first), .ret (.ok second)]) ∧
      ¬ Merged smallLetters "one" "note" (deployEdits false) (deployEdits true) fridayDeploys
        (bothUpdates smallLetters "one" "note" deployEdits fridayDeploys schedule).store := by
  refine ⟨deployEdits_disjoint, ⟨_, _, rfl⟩, ?_⟩
  rintro ⟨before, after, tags, hbefore, hafter, hcontent, -⟩
  cases hbefore
  cases hafter
  have htitle : "deploys" = "releases" := congrFun hcontent .title
  exact absurd htitle (by decide)

end XpressClaw.Memory
