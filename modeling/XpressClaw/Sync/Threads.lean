import XpressClaw.Sync.Import

/-!
# Messages and their records

The two loops that import messages, over one table of messages and the table of their records.

* `Thread.Sound` — the keys and the foreign key of the two tables.
* `Thread.Copy` — the message of a record is there and is as the record has it.
* `Thread.importRecord_cases` — what the first loop does for one record.
* `Thread.ParentIs` — the parent of a record is as the snapshot has it.
-/

namespace XpressClaw.Sync

open Lib

variable {μ : Type} {id : μ → ℕ} {t t' : Thread μ} {x y : Record μ} {row : SyncRow} {m : μ}
  {b : Bool}

theorem require_ok {p : Prop} [Decidable p] {e : Error} {u : Unit} :
    require p e = .ok u ↔ p := by
  unfold require
  by_cases hp : p <;> simp [hp]

/-- What is written for a record agrees with the record. -/
structure Record.Lawful (id : μ → ℕ) (x : Record μ) : Prop where
  id_set : ∀ m, id (x.set m) = id m
  set_set : ∀ m, x.set (x.set m) = x.set m
  check_set : ∀ m, x.check m = .ok () → x.check (x.set m) = .ok ()
  id_insert : ∀ n, id (x.insert n) = n
  set_insert : ∀ n, x.set (x.insert n) = x.insert n
  check_insert : ∀ n, x.check (x.insert n) = .ok ()

theorem SyncRow.recordId_setParent (parent : Option String) (r : SyncRow) :
    (r.setParent parent).recordId = r.recordId := rfl

namespace Thread

/-- Every record has its message, no message has two records, and new ids are not in use. -/
structure Sound (id : μ → ℕ) (t : Thread μ) : Prop where
  message : ∀ r ∈ t.sync, (Table.get id t.messages r.messageId).isSome
  fresh : ∀ m ∈ t.messages, id m < t.nextId
  single : ∀ r ∈ t.sync, ∀ r' ∈ t.sync, r.messageId = r'.messageId → r.recordId = r'.recordId

/-- The message of a record is as the record has it. -/
structure Copy (id : μ → ℕ) (x : Record μ) (t : Thread μ) (row : SyncRow) (m : μ) : Prop where
  synced : Table.get (·.recordId) t.sync x.recordId = some row
  message : Table.get id t.messages row.messageId = some m
  check : x.check m = .ok ()
  agrees : Table.Agrees id row.messageId x.set t.messages

/-- The parent of a record is as given. -/
structure ParentIs (recordId : String) (parentRecordId : Option String) (t : Thread μ) :
    Prop where
  exists_row : (Table.get (·.recordId) t.sync recordId).isSome
  agrees : Table.Agrees (·.recordId) recordId (SyncRow.setParent parentRecordId) t.sync

theorem Sound.lt (hs : Sound id t) {r : SyncRow} (hr : r ∈ t.sync) : r.messageId < t.nextId := by
  obtain ⟨m, hm⟩ := Option.isSome_iff_exists.1 (hs.message r hr)
  rw [← Table.key_of_get hm]
  exact hs.fresh m (Table.mem_of_get hm)

theorem link_of_get {sync : List SyncRow} {recordId : String} {n : ℕ}
    (h : (Table.get (·.recordId) sync recordId).isSome) : link sync recordId n = sync := by
  obtain ⟨r, hr⟩ := Option.isSome_iff_exists.1 h
  unfold link
  rw [if_pos]
  rw [List.any_eq_true]
  refine ⟨r, Table.mem_of_get hr, ?_⟩
  have hkey := Table.key_of_get hr
  simp [hkey]

theorem link_fresh (hs : Sound id t) {recordId : String}
    (h : Table.get (·.recordId) t.sync recordId = none) :
    link t.sync recordId t.nextId = t.sync ++ [⟨recordId, t.nextId, none⟩] := by
  unfold link
  rw [if_neg]
  rw [List.any_eq_true]
  rintro ⟨r, hr, hsame⟩
  simp only [Bool.or_eq_true, decide_eq_true_eq] at hsame
  rcases hsame with hrecord | hmessage
  · rw [Table.get, List.find?_eq_none] at h
    exact h r hr (by simpa using hrecord)
  · exact absurd hmessage (Nat.ne_of_lt (hs.lt hr))

/-- The first loop changes the message of a record, or inserts one under a new id. -/
theorem importRecord_cases (hs : Sound id t) (h : importRecord id t x = .ok (b, t')) :
    (∃ row m, Table.get (·.recordId) t.sync x.recordId = some row ∧
      Table.get id t.messages row.messageId = some m ∧ b = true ∧ x.check m = .ok () ∧
      t' = { t with messages := Table.modify id row.messageId x.set t.messages }) ∨
    (Table.get (·.recordId) t.sync x.recordId = none ∧ b = false ∧
      t' =
        { messages := t.messages ++ [x.insert t.nextId]
          sync := t.sync ++ [⟨x.recordId, t.nextId, none⟩]
          nextId := t.nextId + 1 }) := by
  unfold importRecord find at h
  cases hrow : Table.get (·.recordId) t.sync x.recordId with
  | none =>
    rw [hrow, Option.bind_none] at h
    rw [link_fresh hs hrow] at h
    cases h
    exact Or.inr ⟨rfl, rfl, rfl⟩
  | some row =>
    obtain ⟨m, hm⟩ := Option.isSome_iff_exists.1 (hs.message row (Table.mem_of_get hrow))
    rw [hrow, Option.bind_some, hm] at h
    obtain ⟨_, hcheck, h⟩ := bind_ok h
    rw [link_of_get (by rw [hrow]; rfl), Table.key_of_get hm] at h
    cases h
    exact Or.inl ⟨row, m, rfl, hm, rfl, hcheck, rfl⟩

theorem Sound.of_importRecord (hs : Sound id t) (hx : x.Lawful id)
    (h : importRecord id t x = .ok (b, t')) : Sound id t' := by
  rcases importRecord_cases hs h with ⟨row, m, -, -, -, -, rfl⟩ | ⟨-, -, rfl⟩
  · refine ⟨fun r hr => ?_, fun m hm => ?_, hs.single⟩
    · rw [Table.isSome_get_modify hx.id_set]
      exact hs.message r hr
    · rcases Table.mem_modify hm with ⟨hm, -⟩ | ⟨m₀, hm₀, -, rfl⟩
      · exact hs.fresh m hm
      · rw [hx.id_set]
        exact hs.fresh m₀ hm₀
  · refine ⟨fun r hr => ?_, fun m hm => ?_, fun r hr r' hr' hsame => ?_⟩
    · rcases List.mem_append.1 hr with hr | hr
      · exact Table.isSome_get_append (hs.message r hr)
      · obtain rfl := List.mem_singleton.1 hr
        rw [Table.get_isSome_iff]
        exact List.mem_map.2 ⟨x.insert t.nextId, List.mem_append_right _
          (List.mem_singleton_self _), hx.id_insert _⟩
    · rcases List.mem_append.1 hm with hm | hm
      · exact Nat.lt_succ_of_lt (hs.fresh m hm)
      · rw [List.mem_singleton.1 hm, hx.id_insert]
        exact Nat.lt_succ_self _
    · rcases List.mem_append.1 hr with hr | hr
      · rcases List.mem_append.1 hr' with hr' | hr'
        · exact hs.single r hr r' hr' hsame
        · rw [List.mem_singleton.1 hr'] at hsame
          exact absurd hsame (Nat.ne_of_lt (hs.lt hr))
      · rcases List.mem_append.1 hr' with hr' | hr'
        · rw [List.mem_singleton.1 hr] at hsame
          exact absurd hsame.symm (Nat.ne_of_lt (hs.lt hr'))
        · rw [List.mem_singleton.1 hr, List.mem_singleton.1 hr']

/-- After its step, the message of a record is as the record has it. -/
theorem copy_importRecord (hs : Sound id t) (hx : x.Lawful id)
    (h : importRecord id t x = .ok (b, t')) : ∃ row m, Copy id x t' row m := by
  rcases importRecord_cases hs h with ⟨row, m, hrow, hm, -, hcheck, rfl⟩ | ⟨hnone, -, rfl⟩
  · refine ⟨row, x.set m, hrow, ?_, hx.check_set m hcheck, Table.agrees_modify hx.set_set⟩
    rw [Table.get_modify hx.id_set, hm]
    simp
  · have hfresh : Table.get id t.messages t.nextId = none := by
      rw [Table.get, List.find?_eq_none]
      intro m hm
      simpa using Nat.ne_of_lt (hs.fresh m hm)
    refine ⟨⟨x.recordId, t.nextId, none⟩, x.insert t.nextId, ?_, ?_, hx.check_insert _, ?_⟩
    · rw [Table.get_append, hnone]
      simp [Table.get]
    · rw [Table.get_append, hfresh]
      simp [Table.get, hx.id_insert]
    · intro m hm hid
      rcases List.mem_append.1 hm with hm | hm
      · exact absurd hid (Nat.ne_of_lt (hs.fresh m hm))
      · rw [List.mem_singleton.1 hm]
        exact hx.set_insert _

/-- The step of another record leaves it. -/
theorem Copy.of_importRecord (hc : Copy id x t row m) (hs : Sound id t) (hy : y.Lawful id)
    (hne : x.recordId ≠ y.recordId) (h : importRecord id t y = .ok (b, t')) :
    Copy id x t' row m := by
  rcases importRecord_cases hs h with ⟨row', m', hrow', -, -, -, rfl⟩ | ⟨-, -, rfl⟩
  · have hother : row.messageId ≠ row'.messageId := by
      intro hsame
      have hrecord := hs.single row (Table.mem_of_get hc.synced) row' (Table.mem_of_get hrow') hsame
      have hx := Table.key_of_get hc.synced
      have hy := Table.key_of_get hrow'
      exact hne (hx.symm.trans (hrecord.trans hy))
    refine ⟨hc.synced, ?_, hc.check, hc.agrees.modify_of_ne hother hy.id_set⟩
    rw [Table.get_modify hy.id_set, hc.message]
    simp [hother]
  · refine ⟨Table.get_append_of_some hc.synced, Table.get_append_of_some hc.message, hc.check, ?_⟩
    refine hc.agrees.append fun hid => ?_
    rw [hy.id_insert] at hid
    exact absurd hid.symm (Nat.ne_of_lt (hs.lt (Table.mem_of_get hc.synced)))

theorem Copy.importRecord_eq (hc : Copy id x t row m) : importRecord id t x = .ok (true, t) := by
  have hid := Table.key_of_get hc.message
  unfold Thread.importRecord find
  rw [hc.synced, Option.bind_some, hc.message]
  show (x.check m >>= fun _ => Except.ok (true,
    { t with
      messages := Table.modify id (id m) x.set t.messages
      sync := link t.sync x.recordId (id m) })) = _
  rw [hc.check, link_of_get (by rw [hc.synced]; rfl), hid, hc.agrees.modify_eq_self]
  rfl

theorem Copy.find_eq (hc : Copy id x t row m) : t.find id x.recordId = some m := by
  unfold find
  rw [hc.synced, Option.bind_some, hc.message]

/-! ## Parents -/

variable {label recordId : String} {parent : Option String} {existed : Bool}

theorem importParent_ok (h : importParent label recordId parent existed t = .ok t') :
    (Table.get (·.recordId) t.sync recordId).isSome ∧
      t' = { t with
        sync := Table.modify (·.recordId) recordId (SyncRow.setParent parent) t.sync } := by
  unfold importParent at h
  split at h
  · cases h
  · rename_i r hr
    obtain ⟨_, -, h⟩ := bind_ok h
    cases h
    exact ⟨by rw [hr]; rfl, rfl⟩

theorem parentIs_importParent (h : importParent label recordId parent existed t = .ok t') :
    ParentIs recordId parent t' := by
  obtain ⟨hrow, rfl⟩ := importParent_ok h
  exact ⟨(Table.isSome_get_modify (SyncRow.recordId_setParent parent)).trans hrow,
    Table.agrees_modify fun _ => rfl⟩

theorem ParentIs.of_importParent {recordId' : String} {parent' : Option String}
    (hp : ParentIs recordId parent t) (hne : recordId ≠ recordId')
    (h : importParent label recordId' parent' existed t = .ok t') :
    ParentIs recordId parent t' := by
  obtain ⟨-, rfl⟩ := importParent_ok h
  exact ⟨(Table.isSome_get_modify (SyncRow.recordId_setParent parent')).trans hp.exists_row,
    hp.agrees.modify_of_ne hne (SyncRow.recordId_setParent parent')⟩

/-- To write the same parent again changes nothing. -/
theorem ParentIs.importParent_eq (hp : ParentIs recordId parent t) (label : String)
    (existed : Bool) : Thread.importParent label recordId parent existed t = .ok t := by
  obtain ⟨r, hr⟩ := Option.isSome_iff_exists.1 hp.exists_row
  have hparent : r.parentRecordId = parent := by
    have hagree := hp.agrees r (Table.mem_of_get hr) (Table.key_of_get hr)
    rw [← hagree]
    rfl
  unfold Thread.importParent
  rw [hr]
  show (require (¬ (existed ∧ r.parentRecordId ≠ parent)) _ >>= fun _ => Except.ok
    { t with
      sync := Table.modify (·.recordId) recordId (SyncRow.setParent parent) t.sync }) = _
  rw [hp.agrees.modify_eq_self, require, if_pos (by simp [hparent])]
  rfl

theorem Copy.of_importParent (hc : Copy id x t row m)
    (h : importParent label recordId parent existed t = .ok t') : ∃ row', Copy id x t' row' m ∧
      row'.messageId = row.messageId := by
  obtain ⟨-, rfl⟩ := importParent_ok h
  have hrow : Table.get (·.recordId)
      (Table.modify (·.recordId) recordId (SyncRow.setParent parent) t.sync) x.recordId =
        some (if x.recordId = recordId then row.setParent parent else row) := by
    rw [Table.get_modify (SyncRow.recordId_setParent parent), hc.synced, Option.map_some]
  refine ⟨_, ⟨hrow, ?_, hc.check, ?_⟩, ?_⟩
  · split <;> exact hc.message
  · split <;> exact hc.agrees
  · split <;> rfl

end Thread

end XpressClaw.Sync
