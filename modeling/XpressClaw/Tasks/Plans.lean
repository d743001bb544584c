import XpressClaw.Lib.Runs
import XpressClaw.Lib.Upsert
import XpressClaw.Tasks.Store
import XpressClaw.Workflow.Json

/-!
# Reported plans

`sync_reported_subtasks` replaces the plan an Agent reported for a task with its latest
snapshot: rows of the plan are changed in place, new ones are inserted and the ones past the
end are deleted.

* `Mirrors` — the plan rows of a task are the items of a snapshot, one each.
* `Tidy` — what the rows of a plan satisfy between two snapshots.
* `reported_plans_mirrored` — snapshots given one after another.
-/

namespace XpressClaw.Tasks.Plans

open Lib

/-- A row of `tasks`, as far as a plan is read from it and written to it. -/
structure Row where
  id : String
  title : String
  status : TaskStatus := .pending
  priority : ℤ := 0
  parentTaskId : Option String := none
  /-- The JSON of the column; `none` for `NULL` and for a text that is no JSON. -/
  context : Option Json := none
  createdAt : ℤ
  updatedAt : ℤ
  completedAt : Option ℤ := none
  projectId : Option String := none
  provenance : String := "durable"
  blocksParent : Bool := true
  deriving DecidableEq

/-- `NATIVE_PLAN_PROVENANCE`. -/
def nativePlanProvenance : String := "native_plan"

/-- `ReportedSubtask`. -/
structure ReportedSubtask where
  title : String
  status : TaskStatus
  deriving DecidableEq

/-- A call of `sync_reported_subtasks`, the clock and the identifiers it draws included. -/
structure Report where
  parentTaskId : String
  attemptId : String
  items : List ReportedSubtask
  now : ℤ
  /-- `Uuid::new_v4` for the item of an index. -/
  newId : ℕ → String

/-- `Value::as_u64`, for the indices that contexts hold; a number here does not tell `1.0`, of
which nothing is read, from the `1` that the code writes. -/
def asU64 : Json → Option ℕ
  | .num q => if q.den = 1 ∧ 0 ≤ q.num then some q.num.toNat else none
  | _ => none

/-- The index of a plan row, from its context. -/
def Row.index (r : Row) : Option ℕ :=
  match r.context with
  | none => none
  | some value =>
      if (value.get? "origin").bind Json.asStr = some nativePlanProvenance then
        (value.get? "index").bind asU64
      else none

/-- The context of a plan row. -/
def planContext (attemptId : String) (index : ℕ) : Json :=
  Json.ofFields [
    ("origin", .str nativePlanProvenance),
    ("lifecycle", .str "ephemeral"),
    ("completion_gate", .bool false),
    ("attempt_id", .str attemptId),
    ("index", .num index)]

/-- `parent_task_id = ?1 AND provenance = 'native_plan'`. -/
def Row.isPlan (parentTaskId : String) (r : Row) : Bool :=
  r.parentTaskId = some parentTaskId && r.provenance = nativePlanProvenance

/-- A child of the task that is no row of its plan. -/
def Row.isDurable (parentTaskId : String) (r : Row) : Bool :=
  r.parentTaskId = some parentTaskId && r.provenance ≠ nativePlanProvenance

/-- `list_subtasks`. -/
def listSubtasks (parentTaskId : String) (rows : List Row) : List Row :=
  (rows.filter (·.parentTaskId = some parentTaskId)).insertionSort fun r s =>
    s.priority < r.priority ∨ r.priority = s.priority ∧ r.createdAt ≤ s.createdAt

/-- The rows of the plan with their indices, oldest first. -/
def existing (parentTaskId : String) (rows : List Row) : List (String × ℕ) :=
  ((rows.filter (·.isPlan parentTaskId)).insertionSort fun r s =>
    r.createdAt ≤ s.createdAt).filterMap fun r => r.index.map fun index => (r.id, index)

namespace Report

variable (c : Report)

/-- `UPDATE tasks SET title = ?1, …`. -/
def updated (project : Option String) (index : ℕ) (item : ReportedSubtask) (r : Row) : Row :=
  { r with
    title := item.title
    status := item.status
    updatedAt := c.now
    completedAt := if item.status = .completed then some c.now else none
    context := some (planContext c.attemptId index)
    projectId := project
    provenance := nativePlanProvenance
    blocksParent := false }

/-- `INSERT INTO tasks …`; an index past the range of `i32` wraps around. -/
def inserted (project : Option String) (index : ℕ) (item : ReportedSubtask) : Row where
  id := c.newId index
  title := item.title
  status := item.status
  priority := (-(index : ℤ)).bmod 4294967296
  parentTaskId := some c.parentTaskId
  context := some (planContext c.attemptId index)
  createdAt := c.now
  updatedAt := c.now
  completedAt := if item.status = .completed then some c.now else none
  projectId := project
  provenance := nativePlanProvenance
  blocksParent := false

/-- An item of the snapshot is written over the row of its index, or inserted. -/
def syncItem (project : Option String) (existing : List (String × ℕ))
    (item : ReportedSubtask × ℕ) (rows : List Row) : Except Error (List Row) :=
  match existing.find? (·.2 = item.2) with
  | some (id, _) => .ok (Table.modify (·.id) id (c.updated project item.2 item.1) rows)
  | none =>
      if rows.any (·.id = c.newId item.2) then .error .constraint
      else .ok (rows ++ [c.inserted project item.2 item.1])

end Report

/-- `DELETE FROM tasks WHERE id = ?1`, with `ON DELETE SET NULL` for the children. -/
def deleteTask (id : String) (rows : List Row) : List Row :=
  (rows.filter (·.id ≠ id)).map fun r =>
    if r.parentTaskId = some id then { r with parentTaskId := none } else r

/-- `sync_reported_subtasks`. -/
def syncReportedSubtasks (c : Report) (rows : List Row) : Except Error (List Row × List Row) :=
  match Table.get (·.id) rows c.parentTaskId with
  | none => .error (.taskNotFound c.parentTaskId)
  | some parent => do
      let existing := existing c.parentTaskId rows
      let rows ← each (fun rows item => c.syncItem parent.projectId existing item rows)
        c.items.zipIdx rows
      let rows := ((existing.filter (c.items.length ≤ ·.2)).map Prod.fst).foldl
        (fun rows id => deleteTask id rows) rows
      .ok (listSubtasks c.parentTaskId rows, rows)

/-- The table after a call; one that fails leaves it as it was. -/
def step (rows : List Row) (c : Report) : List Row :=
  match syncReportedSubtasks c rows with
  | .ok (_, rows) => rows
  | .error _ => rows

/-! ## The statement -/

/-- The plan rows of a task are the items of a snapshot, one for each index. -/
structure Mirrors (parentTaskId : String) (items : List ReportedSubtask) (rows : List Row) :
    Prop where
  exactly_one : ∀ i < items.length, ∃! r, r ∈ rows ∧ r.isPlan parentTaskId ∧ r.index = some i
  shows : ∀ r ∈ rows, r.isPlan parentTaskId → ∃ i item, items[i]? = some item ∧
    r.index = some i ∧ r.title = item.title ∧ r.status = item.status

/-- The plan rows of a task have readable indices, no two the same. -/
structure Tidy (parentTaskId : String) (rows : List Row) : Prop where
  ids : (rows.map (·.id)).Nodup
  indexed : ∀ r ∈ rows, r.isPlan parentTaskId → r.index.isSome
  distinct : ∀ r ∈ rows, ∀ s ∈ rows, r.isPlan parentTaskId → s.isPlan parentTaskId →
    r.index = s.index → r = s
  /-- The task is no row of its own plan. -/
  proper : ∀ r ∈ rows, r.isPlan parentTaskId → r.id ≠ parentTaskId

/-! ## Rows -/

variable {parentTaskId : String}

@[simp] theorem asU64_natCast (i : ℕ) : asU64 (.num i) = some i := by simp [asU64]

theorem index_planContext (attemptId : String) (i : ℕ) {r : Row}
    (h : r.context = some (planContext attemptId i)) : r.index = some i := by
  have hget (k : String) : (planContext attemptId i).get? k = Vars.get? (Vars.extend [] [
      ("origin", .str nativePlanProvenance), ("lifecycle", .str "ephemeral"),
      ("completion_gate", .bool false), ("attempt_id", .str attemptId),
      ("index", .num i)]) k := rfl
  simp [Row.index, h, hget, Vars.extend, Vars.get?_insert, Json.asStr]

theorem isPlan_iff {r : Row} : r.isPlan parentTaskId = true ↔
    r.parentTaskId = some parentTaskId ∧ r.provenance = nativePlanProvenance := by
  simp [Row.isPlan]

theorem not_isDurable {r : Row} (h : r.isPlan parentTaskId) : r.isDurable parentTaskId = false := by
  simp [Row.isDurable, (isPlan_iff.1 h).2]

theorem mem_existing {rows : List Row} {e : String × ℕ} : e ∈ existing parentTaskId rows ↔
    ∃ r ∈ rows, r.isPlan parentTaskId ∧ r.id = e.1 ∧ r.index = some e.2 := by
  simp only [existing, List.mem_filterMap, List.mem_insertionSort, List.mem_filter, and_assoc,
    Option.map_eq_some_iff]
  refine exists_congr fun r => and_congr_right fun _ => and_congr_right fun _ => ?_
  constructor
  · rintro ⟨i, hi, rfl⟩
    exact ⟨rfl, hi⟩
  · rintro ⟨hid, hi⟩
    exact ⟨e.2, hi, Prod.ext hid rfl⟩

/-- A filter that sees a changed table as the table before. -/
theorem filter_map_filter {d p : Row → Bool} {f : Row → Row} (rows : List Row)
    (hkeep : ∀ r ∈ rows, d r = true → p r = true ∧ f r = r)
    (hnew : ∀ r ∈ rows, d (f r) = true → d r = true) :
    ((rows.filter p).map f).filter d = rows.filter d := by
  induction rows with
  | nil => rfl
  | cons r rows ih =>
    have ih := ih (fun r hr => hkeep r (List.mem_cons_of_mem _ hr))
      fun r hr => hnew r (List.mem_cons_of_mem _ hr)
    by_cases hd : d r
    · obtain ⟨hp, hf⟩ := hkeep r List.mem_cons_self hd
      rw [List.filter_cons_of_pos hp, List.map_cons, hf, List.filter_cons_of_pos hd, ih,
        List.filter_cons_of_pos hd]
    · have hdf : ¬ d (f r) := fun h => hd (hnew r List.mem_cons_self h)
      rw [List.filter_cons_of_neg hd, ← ih]
      by_cases hp : p r
      · rw [List.filter_cons_of_pos hp, List.map_cons, List.filter_cons_of_neg hdf]
      · rw [List.filter_cons_of_neg hp]

/-! ## One item -/

/-- The table after the first items of a snapshot, against the table before. -/
structure Synced (parentTaskId : String) (items : List ReportedSubtask) (rows : List Row) (k : ℕ)
    (mid : List Row) : Prop where
  tidy : Tidy parentTaskId mid
  durable : mid.filter (·.isDurable parentTaskId) = rows.filter (·.isDurable parentTaskId)
  done : ∀ r ∈ mid, r.isPlan parentTaskId → ∀ i < k, r.index = some i →
    ∃ item, items[i]? = some item ∧ r.title = item.title ∧ r.status = item.status
  there : ∀ i < k, ∃ r ∈ mid, r.isPlan parentTaskId ∧ r.index = some i
  kept : ∀ r ∈ rows, r.isPlan parentTaskId →
    ∃ s ∈ mid, s.id = r.id ∧ s.isPlan parentTaskId ∧ s.index = r.index
  only : ∀ s ∈ mid, s.isPlan parentTaskId → ∀ i, k ≤ i → s.index = some i →
    ∃ r ∈ rows, r.isPlan parentTaskId ∧ r.id = s.id ∧ r.index = some i

/-- A plan row takes the place of the one with its identifier, or is new. -/
structure Placed (parentTaskId : String) (new : Row) (mid mid' : List Row) : Prop where
  ids : (mid'.map (·.id)).Nodup
  mem : ∀ r, r ∈ mid' ↔ r = new ∨ r ∈ mid ∧ r.id ≠ new.id
  plan : new.isPlan parentTaskId
  proper : new.id ≠ parentTaskId
  slot : ∀ r ∈ mid, r.isPlan parentTaskId → (r.index = new.index ↔ r.id = new.id)
  durable : mid'.filter (·.isDurable parentTaskId) = mid.filter (·.isDurable parentTaskId)

/-- An item whose row is in place. -/
theorem Placed.synced {items : List ReportedSubtask} {rows mid mid' : List Row} {k : ℕ}
    {item : ReportedSubtask} {new : Row} (hp : Placed parentTaskId new mid mid')
    (hs : Synced parentTaskId items rows k mid) (hitem : items[k]? = some item)
    (hindex : new.index = some k) (htitle : new.title = item.title)
    (hstatus : new.status = item.status) : Synced parentTaskId items rows (k + 1) mid' := by
  have hnew : new ∈ mid' := (hp.mem new).2 (Or.inl rfl)
  -- the rows of the other indices stay
  have hstays {r : Row} (hr : r ∈ mid) (hplan : r.isPlan parentTaskId) (hne : r.index ≠ some k) :
      r ∈ mid' :=
    (hp.mem r).2 (Or.inr ⟨hr, fun hid => hne (((hp.slot r hr hplan).2 hid).trans hindex)⟩)
  refine ⟨⟨hp.ids, ?_, ?_, ?_⟩, hp.durable.trans hs.durable, ?_, ?_, ?_, ?_⟩
  · intro r hr hplan
    rcases (hp.mem r).1 hr with rfl | ⟨hr, -⟩
    · rw [hindex]
      rfl
    · exact hs.tidy.indexed r hr hplan
  · intro r hr s hs' hrp hsp heq
    rcases (hp.mem r).1 hr with rfl | ⟨hr, hrid⟩ <;> rcases (hp.mem s).1 hs' with rfl | ⟨hs', hsid⟩
    · rfl
    · exact absurd ((hp.slot s hs' hsp).1 heq.symm) hsid
    · exact absurd ((hp.slot r hr hrp).1 heq) hrid
    · exact hs.tidy.distinct r hr s hs' hrp hsp heq
  · intro r hr hplan
    rcases (hp.mem r).1 hr with rfl | ⟨hr, -⟩
    · exact hp.proper
    · exact hs.tidy.proper r hr hplan
  · intro r hr hplan i hi hri
    rcases (hp.mem r).1 hr with rfl | ⟨hr, hrid⟩
    · rw [hindex] at hri
      cases hri
      exact ⟨item, hitem, htitle, hstatus⟩
    · have hne : i ≠ k := by
        rintro rfl
        exact hrid ((hp.slot r hr hplan).1 (hri.trans hindex.symm))
      exact hs.done r hr hplan i (by omega) hri
  · intro i hi
    by_cases hik : i = k
    · exact ⟨new, hnew, hp.plan, by rw [hindex, hik]⟩
    · obtain ⟨r, hr, hplan, hri⟩ := hs.there i (by omega)
      exact ⟨r, hstays hr hplan (by rw [hri]; simpa using hik), hplan, hri⟩
  · intro r hr hplan
    obtain ⟨s, hs', hid, hsp, hsi⟩ := hs.kept r hr hplan
    by_cases hk : s.index = some k
    · refine ⟨new, hnew, ?_, hp.plan, by rw [hindex, ← hsi, hk]⟩
      rw [← hid, (hp.slot s hs' hsp).1 (hk.trans hindex.symm)]
    · exact ⟨s, hstays hs' hsp hk, hid, hsp, hsi⟩
  · intro s hs' hsp i hi hsi
    rcases (hp.mem s).1 hs' with rfl | ⟨hs', -⟩
    · rw [hindex] at hsi
      cases hsi
      omega
    · exact hs.only s hs' hsp i (by omega) hsi

theorem Synced.refl {items : List ReportedSubtask} {rows : List Row} (h : Tidy parentTaskId rows) :
    Synced parentTaskId items rows 0 rows :=
  ⟨h, rfl, fun _ _ _ _ hi => absurd hi (Nat.not_lt_zero _),
    fun _ hi => absurd hi (Nat.not_lt_zero _),
    fun r hr hplan => ⟨r, hr, rfl, hplan, rfl⟩, fun s hs hplan _ _ hi => ⟨s, hs, hplan, rfl, hi⟩⟩

/-- An item whose index has a row: the row is changed. -/
theorem placed_updated {items : List ReportedSubtask} {rows mid : List Row} {k : ℕ} {r : Row}
    (c : Report) (project : Option String) (item : ReportedSubtask)
    (hs : Synced parentTaskId items rows k mid) (hr : r ∈ mid) (hplan : r.isPlan parentTaskId)
    (hindex : r.index = some k) :
    Placed parentTaskId (c.updated project k item r) mid
      (Table.modify (·.id) r.id (c.updated project k item) mid) := by
  have hnewIndex : (c.updated project k item r).index = some k :=
    index_planContext c.attemptId k rfl
  have hnewPlan : (c.updated project k item r).isPlan parentTaskId :=
    isPlan_iff.2 ⟨(isPlan_iff.1 hplan).1, rfl⟩
  have honly {s : Row} (hs' : s ∈ mid) (hid : s.id = r.id) : s = r :=
    List.inj_on_of_nodup_map hs.tidy.ids hs' hr hid
  refine ⟨?_, fun s => ?_, hnewPlan, hs.tidy.proper r hr hplan, fun s hs' hsp => ?_, ?_⟩
  · have hid (s : Row) : (c.updated project k item s).id = s.id := rfl
    rw [Table.map_key_modify hid]
    exact hs.tidy.ids
  · simp only [Table.modify, List.mem_map]
    constructor
    · rintro ⟨s, hs', rfl⟩
      by_cases hid : s.id = r.id
      · rw [if_pos hid, honly hs' hid]
        exact Or.inl rfl
      · rw [if_neg hid]
        exact Or.inr ⟨hs', hid⟩
    · rintro (rfl | ⟨hs', hid⟩)
      · exact ⟨r, hr, if_pos rfl⟩
      · exact ⟨s, hs', if_neg hid⟩
  · rw [hnewIndex]
    constructor
    · intro hsi
      rw [hs.tidy.distinct s hs' r hr hsp hplan (hsi.trans hindex.symm)]
      rfl
    · intro hid
      rw [honly hs' hid, hindex]
  · have hf := filter_map_filter (d := (·.isDurable parentTaskId)) (p := fun _ => true)
      (f := fun s => if s.id = r.id then c.updated project k item s else s) mid ?_ ?_
    · rwa [List.filter_true] at hf
    · intro s hs' hd
      refine ⟨rfl, if_neg fun hid => ?_⟩
      rw [honly hs' hid, not_isDurable hplan] at hd
      cases hd
    · intro s hs' hd
      by_cases hid : s.id = r.id
      · rw [if_pos hid, honly hs' hid, not_isDurable hnewPlan] at hd
        cases hd
      · rwa [if_neg hid] at hd

/-- An item whose index has no row: a row is inserted. -/
theorem placed_inserted {items : List ReportedSubtask} {rows mid : List Row} {k : ℕ}
    (c : Report) (project : Option String) (item : ReportedSubtask)
    (hs : Synced c.parentTaskId items rows k mid)
    (hfree : ∀ e ∈ existing c.parentTaskId rows, e.2 ≠ k) (hnew : ∀ r ∈ mid, r.id ≠ c.newId k)
    (hparent : ∃ r ∈ mid, r.id = c.parentTaskId) :
    Placed c.parentTaskId (c.inserted project k item) mid (mid ++ [c.inserted project k item]) := by
  have hnewIndex : (c.inserted project k item).index = some k := index_planContext c.attemptId k rfl
  have hnewPlan : (c.inserted project k item).isPlan c.parentTaskId := isPlan_iff.2 ⟨rfl, rfl⟩
  refine ⟨?_, fun s => ?_, hnewPlan, ?_, fun s hs' hsp => ?_, ?_⟩
  · rw [List.map_append]
    refine hs.tidy.ids.append (List.nodup_singleton _) fun i hi hmem => ?_
    obtain ⟨r, hr, rfl⟩ := List.mem_map.1 hi
    exact hnew r hr (List.mem_singleton.1 hmem)
  · rw [List.mem_append, List.mem_singleton, or_comm]
    exact or_congr_right ⟨fun hs' => ⟨hs', hnew s hs'⟩, And.left⟩
  · rintro hid
    obtain ⟨r, hr, hrid⟩ := hparent
    exact hnew r hr (hrid.trans hid.symm)
  · rw [hnewIndex]
    constructor
    · intro hsi
      obtain ⟨r, hr, hplan, hid, hri⟩ := hs.only s hs' hsp k le_rfl hsi
      exact absurd rfl (hfree (r.id, k) (mem_existing.2 ⟨r, hr, hplan, rfl, hri⟩))
    · intro hid
      exact absurd hid (hnew s hs')
  · rw [List.filter_append, List.filter_cons_of_neg, List.filter_nil, List.append_nil]
    rw [not_isDurable hnewPlan]
    exact Bool.false_ne_true

/-- **One item.** -/
theorem syncItem_synced {c : Report} {project : Option String} {rows mid mid' : List Row} {k : ℕ}
    {item : ReportedSubtask} (hs : Synced c.parentTaskId c.items rows k mid)
    (hparent : ∃ r ∈ mid, r.id = c.parentTaskId) (hitem : c.items[k]? = some item)
    (h : c.syncItem project (existing c.parentTaskId rows) (item, k) mid = .ok mid') :
    Synced c.parentTaskId c.items rows (k + 1) mid' ∧ ∃ r ∈ mid', r.id = c.parentTaskId := by
  have hkeep {new : Row} (hp : Placed c.parentTaskId new mid mid') :
      ∃ r ∈ mid', r.id = c.parentTaskId := by
    obtain ⟨r, hr, hid⟩ := hparent
    exact ⟨r, (hp.mem r).2 (Or.inr ⟨hr, hid ▸ hp.proper.symm⟩), hid⟩
  unfold Report.syncItem at h
  cases hfind : (existing c.parentTaskId rows).find? (·.2 = k) with
  | some e =>
    rw [hfind] at h
    cases h
    have hk : e.2 = k := by simpa using List.find?_some hfind
    obtain ⟨r₀, hr₀, hplan₀, hid, hindex⟩ := mem_existing.1 (List.mem_of_find?_eq_some hfind)
    obtain ⟨r, hr, hrid, hplan, hri⟩ := hs.kept r₀ hr₀ hplan₀
    have hp := placed_updated c project item hs hr hplan (hri.trans (hindex.trans (by rw [hk])))
    rw [hrid, hid] at hp
    exact ⟨hp.synced hs hitem (index_planContext c.attemptId k rfl) rfl rfl, hkeep hp⟩
  | none =>
    rw [hfind] at h
    dsimp only at h
    split at h
    · cases h
    · rename_i hnew
      cases h
      have hfree : ∀ e ∈ existing c.parentTaskId rows, e.2 ≠ k := by
        simpa using List.find?_eq_none.1 hfind
      have hp := placed_inserted c project item hs hfree (by simpa using hnew) hparent
      exact ⟨hp.synced hs hitem (index_planContext c.attemptId k rfl) rfl rfl, hkeep hp⟩

/-! ## The rows past the end -/

/-- Deleting tasks one after another. -/
theorem foldl_deleteTask (ids : List String) (rows : List Row) :
    ids.foldl (fun rows id => deleteTask id rows) rows =
      (rows.filter (·.id ∉ ids)).map fun r =>
        if r.parentTaskId.any (· ∈ ids) then { r with parentTaskId := none } else r := by
  induction ids generalizing rows with
  | nil => simp
  | cons id ids ih =>
    rw [List.foldl_cons, ih, deleteTask, List.filter_map, List.map_map, List.filter_filter]
    refine (List.map_congr_left fun r _ => ?_).trans
      (congrArg _ (List.filter_congr fun r _ => ?_))
    · by_cases hid : r.parentTaskId = some id
      · simp [hid]
      · cases hp : r.parentTaskId with
        | none => simp [hp]
        | some parent =>
          have hne : parent ≠ id := fun he => hid (by rw [hp, he])
          simp [hp, hne]
    · have hkey : (if r.parentTaskId = some id then { r with parentTaskId := none } else r).id =
          r.id := by split <;> rfl
      simp only [Function.comp, hkey, List.mem_cons, not_or, Bool.decide_and, Bool.and_comm]

section Delete

variable {rows mid : List Row} {items : List ReportedSubtask} {stale : List String}

/-- The children of a task that is not deleted are the ones that are not. -/
theorem mem_foldl_deleteTask (hparent : parentTaskId ∉ stale) {r : Row}
    (hr : r.parentTaskId = some parentTaskId) :
    r ∈ stale.foldl (fun rows id => deleteTask id rows) mid ↔ r ∈ mid ∧ r.id ∉ stale := by
  simp only [foldl_deleteTask, List.mem_map, List.mem_filter, decide_eq_true_eq]
  constructor
  · rintro ⟨s, ⟨hs, hid⟩, rfl⟩
    split at hr
    · cases hr
    · rename_i hkeep
      rw [if_neg hkeep]
      exact ⟨hs, hid⟩
  · rintro ⟨hs, hid⟩
    exact ⟨r, ⟨hs, hid⟩, if_neg (by simpa [hr] using hparent)⟩

/-- The rows of the plan past the last item. -/
def Stale (parentTaskId : String) (items : List ReportedSubtask) (rows : List Row)
    (stale : List String) : Prop :=
  ∀ id, id ∈ stale ↔ ∃ r ∈ rows, r.isPlan parentTaskId ∧ r.id = id ∧
    ∃ i, items.length ≤ i ∧ r.index = some i

theorem Stale.parent_notMem (hstale : Stale parentTaskId items rows stale)
    (h : Tidy parentTaskId rows) : parentTaskId ∉ stale := by
  intro hmem
  obtain ⟨r, hr, hplan, hid, -⟩ := (hstale _).1 hmem
  exact h.proper r hr hplan hid

/-- A plan row stays exactly if its index is one of the snapshot. -/
theorem Stale.mem_iff (hstale : Stale parentTaskId items rows stale)
    (hs : Synced parentTaskId items rows items.length mid) {r : Row} {i : ℕ} (hr : r ∈ mid)
    (hplan : r.isPlan parentTaskId) (hi : r.index = some i) :
    r.id ∈ stale ↔ items.length ≤ i := by
  rw [hstale]
  constructor
  · rintro ⟨r₀, hr₀, hplan₀, hid, j, hj, hindex⟩
    obtain ⟨s, hs', hsid, hsp, hsi⟩ := hs.kept r₀ hr₀ hplan₀
    have heq : s = r := List.inj_on_of_nodup_map hs.tidy.ids hs' hr (hsid.trans hid)
    rw [heq, hi, hindex] at hsi
    cases hsi
    exact hj
  · intro hle
    obtain ⟨r₀, hr₀, hplan₀, hid, hindex⟩ := hs.only r hr hplan i hle hi
    exact ⟨r₀, hr₀, hplan₀, hid, i, hle, hindex⟩

/-- The plan rows that are left are the items of the snapshot. -/
theorem synced_mirrors (hs : Synced parentTaskId items rows items.length mid)
    (h : Tidy parentTaskId rows) (hstale : Stale parentTaskId items rows stale) :
    Mirrors parentTaskId items (stale.foldl (fun rows id => deleteTask id rows) mid) := by
  have hmem {r : Row} (hplan : r.isPlan parentTaskId) :
      r ∈ stale.foldl (fun rows id => deleteTask id rows) mid ↔ r ∈ mid ∧ r.id ∉ stale :=
    mem_foldl_deleteTask (hstale.parent_notMem h) (isPlan_iff.1 hplan).1
  refine ⟨fun i hi => ?_, fun r hr hplan => ?_⟩
  · obtain ⟨r, hr, hplan, hri⟩ := hs.there i hi
    have hstays : r.id ∉ stale := fun hin => by
      have hle := (hstale.mem_iff hs hr hplan hri).1 hin
      omega
    refine ⟨r, ⟨(hmem hplan).2 ⟨hr, hstays⟩, hplan, hri⟩, ?_⟩
    rintro s ⟨hs', hsp, hsi⟩
    exact hs.tidy.distinct s ((hmem hsp).1 hs').1 r hr hsp hplan (hsi.trans hri.symm)
  · obtain ⟨hr, hstays⟩ := (hmem hplan).1 hr
    obtain ⟨i, hri⟩ := Option.isSome_iff_exists.1 (hs.tidy.indexed r hr hplan)
    have hi : i < items.length := by
      by_contra hle
      exact hstays ((hstale.mem_iff hs hr hplan hri).2 (not_lt.1 hle))
    obtain ⟨item, hitem, hshown⟩ := hs.done r hr hplan i hi hri
    exact ⟨i, item, hitem, hri, hshown⟩

theorem synced_tidy (hs : Synced parentTaskId items rows items.length mid)
    (h : Tidy parentTaskId rows) (hstale : Stale parentTaskId items rows stale) :
    Tidy parentTaskId (stale.foldl (fun rows id => deleteTask id rows) mid) := by
  have hmem {r : Row} (hplan : r.isPlan parentTaskId)
      (hr : r ∈ stale.foldl (fun rows id => deleteTask id rows) mid) : r ∈ mid :=
    ((mem_foldl_deleteTask (hstale.parent_notMem h) (isPlan_iff.1 hplan).1).1 hr).1
  refine ⟨?_, fun r hr hplan => hs.tidy.indexed r (hmem hplan hr) hplan,
    fun r hr s hs' hrp hsp => hs.tidy.distinct r (hmem hrp hr) s (hmem hsp hs') hrp hsp,
    fun r hr hplan => hs.tidy.proper r (hmem hplan hr) hplan⟩
  rw [foldl_deleteTask, List.map_map, List.map_congr_left (g := Row.id) fun r _ => ?_]
  · exact (List.filter_sublist.map _).nodup hs.tidy.ids
  · dsimp only [Function.comp]
    split <;> rfl

theorem synced_durable (hs : Synced parentTaskId items rows items.length mid)
    (h : Tidy parentTaskId rows) (hstale : Stale parentTaskId items rows stale) :
    (stale.foldl (fun rows id => deleteTask id rows) mid).filter (·.isDurable parentTaskId) =
      rows.filter (·.isDurable parentTaskId) := by
  have hparent := hstale.parent_notMem h
  rw [foldl_deleteTask, ← hs.durable]
  refine filter_map_filter _ (fun r hr hd => ⟨?_, if_neg ?_⟩) fun r hr hd => ?_
  · rw [decide_eq_true_eq]
    intro hin
    obtain ⟨r₀, hr₀, hplan₀, hid, -⟩ := (hstale _).1 hin
    obtain ⟨s, hs', hsid, hsp, -⟩ := hs.kept r₀ hr₀ hplan₀
    have heq : s = r := List.inj_on_of_nodup_map hs.tidy.ids hs' hr (hsid.trans hid)
    rw [← heq, not_isDurable hsp] at hd
    cases hd
  · have hp : r.parentTaskId = some parentTaskId := by
      simp only [Row.isDurable, Bool.and_eq_true, decide_eq_true_eq] at hd
      exact hd.1
    simpa [hp] using hparent
  · split at hd
    · simp [Row.isDurable] at hd
    · exact hd

end Delete

/-! ## Snapshots -/

/-- **One snapshot.** -/
theorem syncReportedSubtasks_mirrors {c : Report} {rows rows' tasks : List Row}
    (h : Tidy c.parentTaskId rows) (hsync : syncReportedSubtasks c rows = .ok (tasks, rows')) :
    Tidy c.parentTaskId rows' ∧ Mirrors c.parentTaskId c.items rows' ∧
      rows'.filter (·.isDurable c.parentTaskId) = rows.filter (·.isDurable c.parentTaskId) ∧
      ∀ r ∈ rows, ∀ s ∈ rows', r.isPlan c.parentTaskId → s.isPlan c.parentTaskId →
        r.index = s.index → s.id = r.id := by
  unfold syncReportedSubtasks at hsync
  cases hparent : Table.get (·.id) rows c.parentTaskId with
  | none =>
    rw [hparent] at hsync
    cases hsync
  | some parent =>
    rw [hparent] at hsync
    obtain ⟨mid, hloop, hsync⟩ := bind_ok hsync
    cases hsync
    have hs := each_zipIdx_invariant (n := 0) c.items
      (I := fun k mid => Synced c.parentTaskId c.items rows k mid ∧
        ∃ r ∈ mid, r.id = c.parentTaskId)
      (fun k item s s' hitem hI hstep => syncItem_synced hI.1 hI.2 hitem hstep) rfl
      ⟨.refl h, parent, Table.mem_of_get hparent, Table.key_of_get hparent⟩ hloop
    rw [Nat.zero_add] at hs
    have hstale : Stale c.parentTaskId c.items rows
        (((existing c.parentTaskId rows).filter (c.items.length ≤ ·.2)).map Prod.fst) := by
      intro id
      simp only [List.mem_map, List.mem_filter, mem_existing, decide_eq_true_eq]
      constructor
      · rintro ⟨e, ⟨⟨r, hr, hplan, hid, hindex⟩, hle⟩, rfl⟩
        exact ⟨r, hr, hplan, hid, e.2, hle, hindex⟩
      · rintro ⟨r, hr, hplan, hid, i, hle, hindex⟩
        exact ⟨(id, i), ⟨⟨r, hr, hplan, hid, hindex⟩, hle⟩, rfl⟩
    refine ⟨synced_tidy hs.1 h hstale, synced_mirrors hs.1 h hstale,
      synced_durable hs.1 h hstale, fun r hr s hs' hrp hsp heq => ?_⟩
    obtain ⟨hmid, -⟩ := (mem_foldl_deleteTask (hstale.parent_notMem h) (isPlan_iff.1 hsp).1).1 hs'
    obtain ⟨t, ht, htid, htp, hti⟩ := hs.1.kept r hr hrp
    rw [← htid, hs.1.tidy.distinct t ht s hmid htp hsp (hti.trans heq)]

theorem step_tidy {c : Report} {rows : List Row} (h : Tidy c.parentTaskId rows) :
    Tidy c.parentTaskId (step rows c) ∧
      (step rows c).filter (·.isDurable c.parentTaskId) =
        rows.filter (·.isDurable c.parentTaskId) := by
  unfold step
  cases hsync : syncReportedSubtasks c rows with
  | error e => exact ⟨h, rfl⟩
  | ok r =>
    obtain ⟨htidy, -, hdurable, -⟩ := syncReportedSubtasks_mirrors h hsync
    exact ⟨htidy, hdurable⟩

theorem runOps_tidy {rows : List Row} (h : Tidy parentTaskId rows) {reports : List Report}
    (hreports : ∀ c ∈ reports, c.parentTaskId = parentTaskId) :
    Tidy parentTaskId (runOps step rows reports) ∧
      (runOps step rows reports).filter (·.isDurable parentTaskId) =
        rows.filter (·.isDurable parentTaskId) := by
  induction reports generalizing rows with
  | nil => exact ⟨h, rfl⟩
  | cons c reports ih =>
    obtain rfl := hreports c List.mem_cons_self
    obtain ⟨htidy, hdurable⟩ := step_tidy h
    obtain ⟨hend, hsame⟩ := ih htidy fun d hd => hreports d (List.mem_cons_of_mem _ hd)
    exact ⟨hend, hsame.trans hdurable⟩

/-- **Reported plans are mirrored exactly.**  Snapshots of the plan of a task are given one after
another: each that is taken leaves one plan row for each of its items, keeps the identifiers of
the indices that were there, and leaves the other children of the task as they were. -/
theorem reported_plans_mirrored {rows : List Row} (h : Tidy parentTaskId rows)
    (reports : List Report) (hreports : ∀ c ∈ reports, c.parentTaskId = parentTaskId) :
    (runOps step rows reports).filter (·.isDurable parentTaskId) =
      rows.filter (·.isDurable parentTaskId) ∧
    ∀ before c, before ++ [c] <+: reports → ∀ tasks rows',
      syncReportedSubtasks c (runOps step rows before) = .ok (tasks, rows') →
      Mirrors parentTaskId c.items rows' ∧
      ∀ r ∈ runOps step rows before, ∀ s ∈ rows', r.isPlan parentTaskId → s.isPlan parentTaskId →
        r.index = s.index → s.id = r.id := by
  refine ⟨(runOps_tidy h hreports).2, fun before c hbefore tasks rows' hsync => ?_⟩
  have hmem {d : Report} (hd : d ∈ before ++ [c]) : d.parentTaskId = parentTaskId :=
    hreports d (hbefore.subset hd)
  obtain rfl := hmem (List.mem_append_right before (List.mem_singleton_self c))
  have htidy := (runOps_tidy h fun d hd => hmem (List.mem_append_left _ hd)).1
  obtain ⟨-, hmirrors, -, hids⟩ := syncReportedSubtasks_mirrors htidy hsync
  exact ⟨hmirrors, hids⟩

/-- A task with a child of its own. -/
def parentAndChild : List Row :=
  [{ id := "parent", title := "Parent", createdAt := 0, updatedAt := 0 },
   { id := "child", title := "Child", parentTaskId := some "parent", createdAt := 0,
     updatedAt := 0 }]

/-- Two steps. -/
def firstPlan : Report where
  parentTaskId := "parent"
  attemptId := "attempt"
  now := 1
  items := [⟨"Read", .inProgress⟩, ⟨"Write", .pending⟩]
  newId := fun i => if i = 0 then "step-0" else "step-1"

/-- One of the steps, which is done. -/
def lastPlan : Report where
  parentTaskId := "parent"
  attemptId := "attempt"
  now := 2
  items := [⟨"Read", .completed⟩]
  newId := fun _ => "step-2"

theorem parentAndChild_tidy : Tidy "parent" parentAndChild := by
  have hnone : ∀ r ∈ parentAndChild, ¬ r.isPlan "parent" := by decide
  exact ⟨by decide, fun r hr hplan => absurd hplan (hnone r hr),
    fun r hr s _ hplan => absurd hplan (hnone r hr), fun r hr hplan => absurd hplan (hnone r hr)⟩

theorem lastPlan_mirrored :
    Mirrors "parent" [⟨"Read", .completed⟩] (runOps step parentAndChild [firstPlan, lastPlan]) := by
  have hrun := reported_plans_mirrored parentAndChild_tidy [firstPlan, lastPlan]
    (by simp [firstPlan, lastPlan])
  have htaken :
      (syncReportedSubtasks lastPlan (step parentAndChild firstPlan)).toOption.isSome := by
    decide +kernel
  cases hsync : syncReportedSubtasks lastPlan (step parentAndChild firstPlan) with
  | error e =>
      rw [hsync] at htaken
      cases htaken
  | ok r =>
      have hlast := (hrun.2 [firstPlan] lastPlan (List.prefix_refl _) r.1 r.2 hsync).1
      have hstep : step (step parentAndChild firstPlan) lastPlan = r.2 := by rw [step, hsync]
      rw [runOps_cons, runOps_cons, runOps_nil, hstep]
      exact hlast

end XpressClaw.Tasks.Plans
