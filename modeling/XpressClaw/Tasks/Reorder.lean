import Mathlib.Algebra.Order.Field.Rat
import Mathlib.Data.Prod.Lex
import Mathlib.Data.String.Basic
import Mathlib.Tactic.Linarith
import XpressClaw.Lib.Feed
import XpressClaw.Tasks.Review

/-!
# Reordering tasks

`PlanningAction::Reorder` moves a task before or after another one, which gives it a position
between two neighbours, or renumbers a priority first when there is no room.  Positions are
exact rationals.

* `ordered` — the tasks of a priority by position and identifier.
* `insertBeside` — a task inserted before or after another one.
* `reorder_moves_one` — a reorder that is taken moves one task.
* `reorder_taken` — a reorder is taken whenever its guards let it through.
-/

namespace XpressClaw.Tasks.Reorder

open Lib

/-- A row of `tasks`, as far as a reorder reads and writes it. -/
structure Row where
  id : String
  priority : ℤ := 0
  position : ℚ := 0
  revision : ℕ := 0
  projectId : Option String := none
  hidden : Bool := false
  provenance : String := "durable"
  deriving DecidableEq

/-- What the guards read in other tables, and off columns that a reorder leaves alone. -/
structure Facts where
  /-- The Project of the Agent that asks; `none` for the user. -/
  project : Except Error (Option String)
  /-- The task is scheduled by Xpress AI. -/
  connected : String → Bool
  lane : String → String
  disabledReason : String → Option String
  /-- `ensure_project_accepts_work`. -/
  acceptsWork : String → Except Error Unit

/-- `ORDER BY position, id`. -/
def Row.key (r : Row) : ℚ ×ₗ String := toLex (r.position, r.id)

/-- `read_planning`. -/
def readPlanning (id : String) (rows : List Row) : Except Error Row :=
  match rows.find? fun r => r.id = id && !r.hidden && r.provenance ≠ "native_plan" with
  | some r => .ok r
  | none => .error (.taskNotFound id)

/-- `require_project_task`. -/
def requireProjectTask (project taskId : String) (rows : List Row) : Except Error Unit :=
  if rows.any fun r => r.id = taskId && r.projectId = some project && !r.hidden &&
      r.provenance ≠ "native_plan" then .ok ()
  else .error (.projectAccess "Task was not found in the current Project")

/-- `UPDATE tasks SET … WHERE …`, with the trigger `tasks_planning_revision`. -/
def update (w : Row → Bool) (set : Row → Row) (rows : List Row) : List Row :=
  rows.map fun r => if w r then { set r with revision := r.revision + 1 } else r

/-- The positions on one side of the target, the task that moves apart. -/
def candidates (movingId : String) (target : Row) (before : Bool) (rows : List Row) : List ℚ :=
  (rows.filter fun r => r.priority = target.priority &&
    (if before then r.position ≤ target.position else target.position ≤ r.position : Bool) &&
    r.id ≠ movingId && r.id ≠ target.id).map (·.position)

/-- The position of the neighbour on that side, or one past the end. -/
def edge (movingId : String) (target : Row) (before : Bool) (rows : List Row) : ℚ :=
  let positions := candidates movingId target before rows
  (if before then positions.max? else positions.min?).getD
    (target.position + if before then -2048 else 2048)

/-- `insertion_position`. -/
def insertionPosition (movingId : String) (target : Row) (before : Bool) (rows : List Row) :
    Option ℚ :=
  let edge := edge movingId target before rows
  let midpoint := target.position / 2 + edge / 2
  if midpoint ≠ target.position ∧ midpoint ≠ edge then some midpoint else none

/-- `ROW_NUMBER() OVER (ORDER BY position, id)` among the rows of the priority. -/
def rowNumber (rows : List Row) (r : Row) : ℕ :=
  rows.countP fun s => s.priority = r.priority && s.key ≤ r.key

/-- The rows of a priority are numbered in steps of 1024. -/
def rebalance (priority : ℤ) (rows : List Row) : List Row :=
  update (·.priority = priority) (fun r => { r with position := rowNumber rows r * 1024 }) rows

/-- The neighbour, and whether the task goes before it. -/
def neighbor (id : String) (beforeId afterId : Option String) : Except Error (String × Bool) :=
  match beforeId, afterId with
  | some target, none =>
      if target = id then .error (.task "Choose a different neighboring task")
      else .ok (target, true)
  | none, some target =>
      if target = id then .error (.task "Choose a different neighboring task")
      else .ok (target, false)
  | _, _ => .error (.task "Choose exactly one neighboring task")

/-- An Agent sees the tasks of its Project only. -/
def requireVisible (project : Option String) (taskId : String) (rows : List Row) :
    Except Error Unit :=
  match project with
  | some project => requireProjectTask project taskId rows
  | none => .ok ()

/-- The guards of `change_inner`, which answer the task. -/
def planned (f : Facts) (project : Option String) (id : String) (expectedRevision : ℕ)
    (rows : List Row) : Except Error Row := do
  requireVisible project id rows
  Db.ensure (!f.connected id)
    (.task "This task is scheduled by Xpress AI; continue it on the platform")
  let current ← readPlanning id rows
  Db.ensure (current.revision = expectedRevision)
    (.task "Task changed since it was loaded. Refresh and try again.")
  (f.disabledReason id).elim (.ok ()) fun reason => .error (.task reason)
  current.projectId.elim (.ok ()) f.acceptsWork
  .ok current

/-- The guards of `PlanningAction::Reorder`, which answer the neighbour. -/
def reorderable (f : Facts) (project : Option String) (id targetId : String) (rows : List Row) :
    Except Error Row := do
  requireVisible project targetId rows
  let target ← readPlanning targetId rows
  Db.ensure ((f.disabledReason targetId).isNone && f.lane targetId = f.lane id)
    (.task "Reorder within the same editable column")
  .ok target

/-- A position next to the target, and the rows it is one among: renumbered if there was none. -/
def room (id : String) (target : Row) (before : Bool) (rows : List Row) :
    Except Error (Option ℚ × List Row) :=
  match insertionPosition id target before rows with
  | some position => .ok (some position, rows)
  | none => do
      let rows := rebalance target.priority rows
      let target ← readPlanning target.id rows
      .ok (insertionPosition id target before rows, rows)

/-- The writes of `PlanningAction::Reorder`. -/
def place (id : String) (target : Row) (before : Bool) (rows : List Row) :
    Except Error (List Row) := do
  let (position, rows) ← room id target before rows
  match position with
  | none => .error (.task "Task order changed. Refresh and try again.")
  | some position =>
      .ok (update (·.id = id) (fun r => { r with priority := target.priority, position }) rows)

/-- `change` with `PlanningAction::Reorder`. -/
def reorder (f : Facts) (id : String) (expectedRevision : ℕ) (beforeId afterId : Option String)
    (rows : List Row) : Except Error (Row × List Row) := do
  let project ← f.project
  let _ ← planned f project id expectedRevision rows
  let (targetId, before) ← neighbor id beforeId afterId
  let target ← reorderable f project id targetId rows
  let rows ← place id target before rows
  -- `UPDATE tasks SET updated_at = CURRENT_TIMESTAMP`
  let rows := update (·.id = id) (fun r => r) rows
  let updated ← readPlanning id rows
  .ok (updated, rows)

/-! ## The statement -/

/-- The identifiers of the tasks of a priority, in order. -/
def ordered (priority : ℤ) (rows : List Row) : List String :=
  (Feed.inOrder Row.key (rows.filter (·.priority = priority))).map (·.id)

/-- A list with an element inserted right before, or right after, another one. -/
def insertBeside (before : Bool) (target moved : String) : List String → List String
  | [] => []
  | x :: xs =>
      if x = target then if before then moved :: x :: xs else x :: moved :: xs
      else x :: insertBeside before target moved xs

/-! ## Keys -/

variable {rows : List Row} {id : String}

theorem key_lt_iff {r s : Row} : r.key < s.key ↔
    r.position < s.position ∨ r.position = s.position ∧ r.id < s.id := Prod.Lex.toLex_lt_toLex

theorem key_lt_of_position {r s : Row} (h : r.position < s.position) : r.key < s.key :=
  key_lt_iff.2 (Or.inl h)

theorem position_le_of_key {r s : Row} (h : r.key < s.key) : r.position ≤ s.position := by
  rcases key_lt_iff.1 h with h | ⟨h, -⟩
  · exact le_of_lt h
  · exact le_of_eq h

theorem keys_nodup (hids : (rows.map (·.id)).Nodup) : (rows.map Row.key).Nodup := by
  have hsnd : (rows.map Row.key).map (fun k => (ofLex k).2) = rows.map (·.id) := by
    rw [List.map_map]
    rfl
  exact List.Nodup.of_map (fun k => (ofLex k).2) (by rwa [hsnd])

theorem ids_filter (hids : (rows.map (·.id)).Nodup) (p : Row → Bool) :
    ((rows.filter p).map (·.id)).Nodup :=
  (List.filter_sublist.map _).nodup hids

theorem update_ids {w : Row → Bool} (set : Row → Row) (hset : ∀ r, (set r).id = r.id)
    (rows : List Row) : (update w set rows).map (·.id) = rows.map (·.id) := by
  rw [update, List.map_map]
  refine List.map_congr_left fun r _ => ?_
  dsimp only [Function.comp]
  split
  · exact hset r
  · rfl

/-- The order of a priority without one of its tasks. -/
theorem ordered_erase (hids : (rows.map (·.id)).Nodup) (priority : ℤ) (id : String) :
    (Feed.inOrder Row.key (rows.filter fun r => r.priority = priority && r.id ≠ id)).map (·.id) =
      (ordered priority rows).erase id := by
  have hsplit : (rows.filter fun r => r.priority = priority && r.id ≠ id) =
      (rows.filter (·.priority = priority)).filter (·.id ≠ id) := by
    rw [List.filter_filter]
    exact List.filter_congr fun r _ => Bool.and_comm _ _
  have hnodup : (ordered priority rows).Nodup :=
    ((Feed.inOrder_perm _).map Row.id).nodup_iff.2 (ids_filter hids _)
  rw [hsplit, Feed.inOrder_filter (keys_nodup (ids_filter hids _)), hnodup.erase_eq_filter, ordered,
    List.filter_map]
  refine congrArg _ (List.filter_congr fun r _ => ?_)
  by_cases hid : r.id = id <;> simp [hid]

/-! ## Renumbering -/

/-- Row numbers grow with the keys. -/
theorem rowNumber_lt {r s : Row} (hs : s ∈ rows) (hpriority : r.priority = s.priority)
    (hlt : r.key < s.key) : rowNumber rows r < rowNumber rows s := by
  have hr : rowNumber rows r = ((rows.filter fun t => t.priority = s.priority &&
      t.key ≤ s.key).filter fun t => t.key ≤ r.key).length := by
    rw [rowNumber, List.countP_eq_length_filter, List.filter_filter]
    refine congrArg List.length (List.filter_congr fun t _ => ?_)
    rw [hpriority]
    by_cases hle : t.key ≤ r.key
    · simp [hle, hle.trans hlt.le]
    · simp [hle]
  rw [hr, rowNumber, List.countP_eq_length_filter]
  refine List.length_filter_lt_length_iff_exists.2 ⟨s, List.mem_filter.2 ⟨hs, by simp⟩, ?_⟩
  simpa using hlt

theorem mem_rebalance {priority : ℤ} {r : Row} (hr : r ∈ rebalance priority rows)
    (hpriority : r.priority = priority) : ∃ s ∈ rows, s.id = r.id ∧ s.priority = priority ∧
      r.position = rowNumber rows s * 1024 := by
  obtain ⟨s, hs, rfl⟩ := List.mem_map.1 hr
  by_cases hp : s.priority = priority
  · rw [if_pos (by simpa using hp)]
    exact ⟨s, hs, rfl, hp, rfl⟩
  · rw [if_neg (by simpa using hp)] at hpriority
    exact absurd hpriority hp

theorem rebalance_ids (priority : ℤ) (rows : List Row) :
    (rebalance priority rows).map (·.id) = rows.map (·.id) :=
  update_ids (fun r => { r with position := rowNumber rows r * 1024 }) (fun _ => rfl) rows

/-- Renumbering a priority keeps every order. -/
theorem ordered_rebalance (hids : (rows.map (·.id)).Nodup) (priority p : ℤ) :
    ordered p (rebalance priority rows) = ordered p rows := by
  set renumber : Row → Row := fun r =>
    if r.priority = priority then
      { r with position := rowNumber rows r * 1024, revision := r.revision + 1 } else r with hr
  have hid (r : Row) : (renumber r).id = r.id := by rw [hr]; dsimp only; split <;> rfl
  have hpriority (r : Row) : (renumber r).priority = r.priority := by
    rw [hr]
    dsimp only
    split <;> rfl
  have hrows : rebalance priority rows = rows.map renumber := by
    rw [rebalance, update]
    refine List.map_congr_left fun r _ => ?_
    simp only [hr, decide_eq_true_eq]
  have hfilter : (rows.map renumber).filter (·.priority = p) =
      (rows.filter (·.priority = p)).map renumber := by
    rw [List.filter_map]
    exact congrArg _ (List.filter_congr fun r _ => by simp [hpriority])
  rw [ordered, hrows, hfilter, Feed.inOrder_map (keys_nodup (ids_filter hids _)),
    List.map_map, ordered]
  · exact List.map_congr_left fun r _ => hid r
  · intro a ha b hb hab
    obtain ⟨-, hap⟩ := List.mem_filter.1 ha
    obtain ⟨hbm, hbp⟩ := List.mem_filter.1 hb
    rw [decide_eq_true_eq] at hap hbp
    by_cases hp : p = priority
    · have hlt := rowNumber_lt hbm (hap.trans hbp.symm) hab
      refine key_lt_of_position ?_
      rw [hr]
      dsimp only
      rw [if_pos (hap.trans hp), if_pos (hbp.trans hp)]
      exact mul_lt_mul_of_pos_right (Nat.cast_lt.2 hlt) (by norm_num)
    · rw [hr]
      dsimp only
      rwa [if_neg (hap ▸ hp), if_neg (hbp ▸ hp)]

/-! ## The new position -/

/-- The rows that a move has to get around: those of the priority of the target but for the
target and the task that moves. -/
def Beside (movingId : String) (target : Row) (rows : List Row) (r : Row) : Prop :=
  r ∈ rows ∧ r.priority = target.priority ∧ r.id ≠ movingId ∧ r.id ≠ target.id

variable {movingId : String} {target : Row} {x : ℚ}

theorem mem_candidates (before : Bool) {q : ℚ} : q ∈ candidates movingId target before rows ↔
    ∃ r, Beside movingId target rows r ∧ r.position = q ∧
      (if before then q ≤ target.position else target.position ≤ q) := by
  simp only [candidates, List.mem_map, List.mem_filter, Bool.and_eq_true, decide_eq_true_eq, Beside]
  constructor
  · rintro ⟨r, ⟨hr, ⟨⟨hp, hq⟩, hm⟩, ht⟩, rfl⟩
    exact ⟨r, ⟨hr, hp, hm, ht⟩, rfl, by cases before <;> simpa using hq⟩
  · rintro ⟨r, ⟨hr, hp, hm, ht⟩, rfl, hq⟩
    exact ⟨r, ⟨hr, ⟨⟨hp, by cases before <;> simpa using hq⟩, hm⟩, ht⟩, rfl⟩

theorem edge_before (movingId : String) (target : Row) (rows : List Row) :
    edge movingId target true rows ≤ target.position ∧ ∀ r, Beside movingId target rows r →
      r.position ≤ target.position → r.position ≤ edge movingId target true rows := by
  simp only [edge, if_true]
  cases hmax : (candidates movingId target true rows).max? with
  | none =>
    have hnone := List.max?_eq_none_iff.1 hmax
    refine ⟨by simp, fun r hr hle => ?_⟩
    have hmem := (mem_candidates true).2 ⟨r, hr, rfl, by simpa using hle⟩
    rw [hnone] at hmem
    cases hmem
  | some q =>
    obtain ⟨hmem, hle⟩ := List.max?_eq_some_iff.1 hmax
    obtain ⟨-, -, -, hq⟩ := (mem_candidates _).1 hmem
    exact ⟨hq, fun r hr hr' => hle _ ((mem_candidates _).2 ⟨r, hr, rfl, hr'⟩)⟩

theorem edge_after (movingId : String) (target : Row) (rows : List Row) :
    target.position ≤ edge movingId target false rows ∧ ∀ r, Beside movingId target rows r →
      target.position ≤ r.position → edge movingId target false rows ≤ r.position := by
  simp only [edge, if_neg Bool.false_ne_true]
  cases hmin : (candidates movingId target false rows).min? with
  | none =>
    have hnone := List.min?_eq_none_iff.1 hmin
    refine ⟨by simp, fun r hr hle => ?_⟩
    have hmem := (mem_candidates false).2 ⟨r, hr, rfl, by simpa using hle⟩
    rw [hnone] at hmem
    cases hmem
  | some q =>
    obtain ⟨hmem, hle⟩ := List.min?_eq_some_iff.1 hmin
    obtain ⟨-, -, -, hq⟩ := (mem_candidates _).1 hmem
    exact ⟨hq, fun r hr hr' => hle _ ((mem_candidates _).2 ⟨r, hr, rfl, hr'⟩)⟩

theorem insertionPosition_eq_some {before : Bool} :
    insertionPosition movingId target before rows = some x ↔
      edge movingId target before rows ≠ target.position ∧
        x = target.position / 2 + edge movingId target before rows / 2 := by
  simp only [insertionPosition, Option.ite_none_right_eq_some, Option.some.injEq]
  refine and_congr ⟨?_, fun hne => ⟨fun h => hne (by linarith), fun h => hne (by linarith)⟩⟩ eq_comm
  rintro ⟨hne, -⟩ h
  exact hne (by linarith)

/-- A position on the side of the target that was asked for, past its neighbours there. -/
theorem insertionPosition_between {before : Bool}
    (h : insertionPosition movingId target before rows = some x) :
    (if before then x < target.position else target.position < x) ∧
      (∀ r, Beside movingId target rows r → r.position < target.position → r.position < x) ∧
      (∀ r, Beside movingId target rows r → target.position < r.position → x < r.position) ∧
      ∀ r, Beside movingId target rows r → r.position ≠ target.position := by
  obtain ⟨hne, rfl⟩ := insertionPosition_eq_some.1 h
  cases before with
  | true =>
    obtain ⟨hle, hall⟩ := edge_before movingId target rows
    have hlt := lt_of_le_of_ne hle hne
    refine ⟨by rw [if_pos rfl]; linarith, fun r hr hrt => ?_, fun r hr hrt => by linarith,
      fun r hr heq => ?_⟩
    · have hr' := hall r hr hrt.le
      linarith
    · have hr' := hall r hr heq.le
      linarith
  | false =>
    obtain ⟨hle, hall⟩ := edge_after movingId target rows
    have hlt := lt_of_le_of_ne hle hne.symm
    refine ⟨by rw [if_neg Bool.false_ne_true]; linarith, fun r hr hrt => by linarith,
      fun r hr hrt => ?_, fun r hr heq => ?_⟩
    · have hr' := hall r hr hrt.le
      linarith
    · have hr' := hall r hr heq.ge
      linarith

/-- Where no neighbour has the position of the target, there is room. -/
theorem insertionPosition_isSome {before : Bool}
    (h : ∀ r, Beside movingId target rows r → r.position ≠ target.position) :
    ∃ x, insertionPosition movingId target before rows = some x := by
  refine ⟨_, insertionPosition_eq_some.2 ⟨fun heq => ?_, rfl⟩⟩
  simp only [edge] at heq
  cases before with
  | true =>
    rw [if_pos rfl, if_pos rfl] at heq
    cases hmax : (candidates movingId target true rows).max? with
    | none =>
      rw [hmax, Option.getD_none] at heq
      linarith
    | some q =>
      rw [hmax, Option.getD_some] at heq
      obtain ⟨r, hr, hq, -⟩ := (mem_candidates _).1 (List.max?_mem hmax)
      exact h r hr (hq.trans heq)
  | false =>
    rw [if_neg Bool.false_ne_true, if_neg Bool.false_ne_true] at heq
    cases hmin : (candidates movingId target false rows).min? with
    | none =>
      rw [hmin, Option.getD_none] at heq
      linarith
    | some q =>
      rw [hmin, Option.getD_some] at heq
      obtain ⟨r, hr, hq, -⟩ := (mem_candidates _).1 (List.min?_mem hmin)
      exact h r hr (hq.trans heq)

/-! ## The move -/

theorem insertBeside_append {before : Bool} {target moved : String} {pre post : List String}
    (h : target ∉ pre) : insertBeside before target moved (pre ++ target :: post) =
      if before then pre ++ moved :: target :: post else pre ++ target :: moved :: post := by
  induction pre with
  | nil => cases before <;> simp [insertBeside]
  | cons a pre ih =>
    rw [List.mem_cons, not_or] at h
    rw [List.cons_append, insertBeside, if_neg (Ne.symm h.1), ih h.2]
    cases before <;> rfl

/-- The row of a task that is moved. -/
def Row.moved (target : Row) (x : ℚ) (r : Row) : Row :=
  { r with priority := target.priority, position := x }

section Move

variable {m : Row} {p : ℤ}

theorem filter_move_other (hp : p ≠ target.priority) :
    (update (·.id = movingId) (Row.moved target x) rows).filter (·.priority = p) =
      rows.filter fun r => r.priority = p && r.id ≠ movingId := by
  rw [update, List.filter_map, List.map_congr_left (g := id) fun r hr => ?_, List.map_id]
  · refine List.filter_congr fun r _ => ?_
    by_cases hid : r.id = movingId
    · simp [hid, Row.moved, hp.symm]
    · simp [hid]
  · by_cases hid : r.id = movingId
    · simp [hid, Row.moved, hp.symm] at hr
    · simp [hid]

/-- The rows of the priority of the target, when a task is moved there. -/
theorem filter_move (target : Row) (x : ℚ) (hids : (rows.map (·.id)).Nodup) (hm : m ∈ rows)
    (hid : m.id = movingId) :
    ((update (·.id = movingId) (Row.moved target x) rows).filter
        (·.priority = target.priority)).Perm
      ({ Row.moved target x m with revision := m.revision + 1 } ::
        rows.filter fun r => r.priority = target.priority && r.id ≠ movingId) := by
  have hone : rows.filter (fun r => r.id = movingId) = [m] :=
    Table.filter_key_eq hids (hid ▸ Table.get_eq_some_of_mem hids hm)
  have hsplit := List.filter_append_perm (fun r : Row => decide (r.id = movingId)) rows
  rw [hone] at hsplit
  refine ((hsplit.symm.map _).filter _).trans (List.Perm.of_eq ?_)
  rw [List.cons_append, List.nil_append, List.map_cons, if_pos (by simpa using hid),
    List.filter_cons_of_pos (by simp [Row.moved]), List.map_congr_left (g := id) fun r hr => ?_,
    List.map_id, List.filter_filter]
  · refine congrArg _ (List.filter_congr fun r _ => ?_)
    simp
  · simp only [List.mem_filter, Bool.not_eq_true', decide_eq_false_iff_not] at hr
    simp [hr.2]

/-- **One move.**  A task that gets a position next to the target, with no neighbour between. -/
theorem ordered_move {before : Bool} (hids : (rows.map (·.id)).Nodup) (hm : m ∈ rows)
    (hid : m.id = movingId) (ht : target ∈ rows) (hne : target.id ≠ movingId)
    (h : insertionPosition movingId target before rows = some x) :
    ordered p (update (·.id = movingId) (Row.moved target x) rows) =
      if p = target.priority then
        insertBeside before target.id movingId ((ordered p rows).erase movingId)
      else (ordered p rows).erase movingId := by
  rw [← ordered_erase hids]
  by_cases hp : p = target.priority
  swap
  · rw [if_neg hp, ordered, filter_move_other hp]
  subst hp
  rw [if_pos rfl]
  set l := rows.filter fun r => r.priority = target.priority && r.id ≠ movingId with hl
  have hkeys : (l.map Row.key).Nodup := keys_nodup (ids_filter hids _)
  have hmem : target ∈ Feed.inOrder Row.key l :=
    (Feed.inOrder_perm l).mem_iff.2 (List.mem_filter.2 ⟨ht, by simp [hne]⟩)
  obtain ⟨pre, post, horder⟩ := List.append_of_mem hmem
  have hstrict := Feed.inOrder_strict hkeys
  rw [horder, List.pairwise_append, List.pairwise_cons] at hstrict
  obtain ⟨-, ⟨hafter, -⟩, hbefore⟩ := hstrict
  have hbeside {r : Row} (hr : r ∈ pre ++ target :: post) (hrt : r.key ≠ target.key) :
      Beside movingId target rows r := by
    have hrl : r ∈ l := (Feed.inOrder_perm l).mem_iff.1 (horder ▸ hr)
    simp only [hl, List.mem_filter, Bool.and_eq_true, decide_eq_true_eq] at hrl
    refine ⟨hrl.1, hrl.2.1, hrl.2.2, fun hrid => hrt ?_⟩
    rw [List.inj_on_of_nodup_map hids hrl.1 ht hrid]
  obtain ⟨hside, hless, hmore, hnone⟩ := insertionPosition_between h
  have hpre {r : Row} (hr : r ∈ pre) : r.position < x := by
    have hlt := hbefore r hr target List.mem_cons_self
    have hb := hbeside (List.mem_append_left _ hr) hlt.ne
    exact hless r hb (lt_of_le_of_ne (position_le_of_key hlt) (hnone r hb))
  have hpost {r : Row} (hr : r ∈ post) : x < r.position := by
    have hlt := hafter r hr
    have hb := hbeside (List.mem_append_right _ (List.mem_cons_of_mem _ hr)) hlt.ne'
    exact hmore r hb (lt_of_le_of_ne (position_le_of_key hlt) (hnone r hb).symm)
  have hmove := filter_move target x hids hm hid
  have hfree : target.id ∉ pre.map (·.id) := by
    intro hin
    obtain ⟨r, hr, hrid⟩ := List.mem_map.1 hin
    have hlt := hbefore r hr target List.mem_cons_self
    exact (hbeside (List.mem_append_left _ hr) hlt.ne).2.2.2 hrid
  rw [horder, List.map_append, List.map_cons, insertBeside_append hfree, ordered]
  cases before with
  | true =>
    rw [if_pos rfl, Feed.inOrder_insert hkeys horder hmove]
    · simp [Row.moved, hid]
    · exact fun r hr => key_lt_of_position (hpre hr)
    · intro r hr
      rcases List.mem_cons.1 hr with rfl | hr
      · exact key_lt_of_position hside
      · exact key_lt_of_position (hpost hr)
  | false =>
    have horder' : Feed.inOrder Row.key l = (pre ++ [target]) ++ post := by simp [horder]
    rw [if_neg Bool.false_ne_true, Feed.inOrder_insert hkeys horder' hmove]
    · simp [Row.moved, hid]
    · intro r hr
      rcases List.mem_append.1 hr with hr | hr
      · exact key_lt_of_position (hpre hr)
      · rw [List.mem_singleton.1 hr]
        exact key_lt_of_position hside
    · exact fun r hr => key_lt_of_position (hpost hr)

end Move

/-! ## A reorder -/

theorem mem_of_readPlanning {r : Row} (h : readPlanning id rows = .ok r) :
    r ∈ rows ∧ r.id = id := by
  unfold readPlanning at h
  split at h
  · rename_i s hs
    cases h
    have hp := List.find?_some hs
    simp only [Bool.and_eq_true, decide_eq_true_eq] at hp
    exact ⟨List.mem_of_find?_eq_some hs, hp.1.1⟩
  · cases h

/-- An update of columns that no guard reads is read back. -/
theorem readPlanning_update {w : Row → Bool} (set : Row → Row)
    (hset : ∀ r, (set r).id = r.id ∧ (set r).hidden = r.hidden ∧ (set r).provenance = r.provenance)
    {r : Row} (h : readPlanning id rows = .ok r) :
    readPlanning id (update w set rows) =
      .ok (if w r then { set r with revision := r.revision + 1 } else r) := by
  unfold readPlanning at h ⊢
  rw [update, List.find?_map]
  have hsame : ((fun r : Row => r.id = id && !r.hidden && r.provenance ≠ "native_plan") ∘
      fun r => if w r then { set r with revision := r.revision + 1 } else r) =
      fun r => r.id = id && !r.hidden && r.provenance ≠ "native_plan" := by
    funext r
    dsimp only [Function.comp]
    split
    · rw [(hset r).1, (hset r).2.1, (hset r).2.2]
    · rfl
  rw [hsame]
  split at h
  · rename_i s hs
    cases h
    rw [hs]
    rfl
  · cases h

/-- A task that is touched keeps its place. -/
theorem ordered_touch (hids : (rows.map (·.id)).Nodup) (w : Row → Bool) (p : ℤ) :
    ordered p (update w (fun r => r) rows) = ordered p rows := by
  have hkeep (r : Row) : (if w r then { r with revision := r.revision + 1 } else r).key = r.key ∧
      (if w r then { r with revision := r.revision + 1 } else r).id = r.id ∧
      (if w r then { r with revision := r.revision + 1 } else r).priority = r.priority := by
    split <;> exact ⟨rfl, rfl, rfl⟩
  have hfilter : (update w (fun r => r) rows).filter (·.priority = p) =
      update w (fun r => r) (rows.filter (·.priority = p)) := by
    rw [update, List.filter_map]
    exact congrArg _ (List.filter_congr fun r _ => by simp only [Function.comp, (hkeep r).2.2])
  rw [ordered, hfilter, update, Feed.inOrder_map (keys_nodup (ids_filter hids _)),
    List.map_map, ordered]
  · exact List.map_congr_left fun r _ => (hkeep r).2.1
  · intro a _ b _ hab
    rwa [(hkeep a).1, (hkeep b).1]

/-- After a renumbering there is room everywhere. -/
theorem insertionPosition_rebalance (movingId : String) {target' : Row} (before : Bool)
    (ht : target' ∈ rebalance target'.priority rows) :
    ∃ x, insertionPosition movingId target' before (rebalance target'.priority rows) = some x := by
  refine insertionPosition_isSome fun r hr heq => ?_
  obtain ⟨s, hs, hsid, hsp, hspos⟩ := mem_rebalance hr.1 hr.2.1
  obtain ⟨t, htm, htid, htp, htpos⟩ := mem_rebalance ht rfl
  have hnumber : rowNumber rows s = rowNumber rows t := by
    have hcast : (rowNumber rows s : ℚ) = rowNumber rows t := by linarith
    exact_mod_cast hcast
  rcases lt_trichotomy s.key t.key with hlt | hkey | hlt
  · exact absurd hnumber (rowNumber_lt htm (hsp.trans htp.symm) hlt).ne
  · have hid : s.id = t.id := congrArg (fun k => (ofLex k).2) hkey
    exact hr.2.2.2 (hsid.symm.trans (hid.trans htid))
  · exact absurd hnumber (rowNumber_lt hs (htp.trans hsp.symm) hlt).ne'

/-- A position next to the target, among rows in the order of the ones there were. -/
structure Room (movingId : String) (target : Row) (before : Bool) (rows : List Row) (x : ℚ)
    (rows' : List Row) : Prop where
  next : ∃ target' ∈ rows', target'.id = target.id ∧ target'.priority = target.priority ∧
    insertionPosition movingId target' before rows' = some x
  ids : rows'.map (·.id) = rows.map (·.id)
  same : ∀ p, ordered p rows' = ordered p rows
  visible : ∀ id r, readPlanning id rows = .ok r → ∃ r', readPlanning id rows' = .ok r'

/-- There is always room next to a task. -/
theorem exists_room (movingId : String) (before : Bool) (hids : (rows.map (·.id)).Nodup)
    (ht : readPlanning target.id rows = .ok target) :
    ∃ x rows', room movingId target before rows = .ok (some x, rows') ∧
      Room movingId target before rows x rows' := by
  unfold room
  cases hposition : insertionPosition movingId target before rows with
  | some x =>
    exact ⟨x, rows, rfl, ⟨target, (mem_of_readPlanning ht).1, rfl, rfl, hposition⟩, rfl,
      fun _ => rfl, fun _ r hr => ⟨r, hr⟩⟩
  | none =>
    have hread {id : String} {r : Row} (hr : readPlanning id rows = .ok r) :=
      readPlanning_update (w := (·.priority = target.priority))
        (fun r => { r with position := rowNumber rows r * 1024 })
        (fun _ => ⟨rfl, rfl, rfl⟩) hr
    have ht' := hread ht
    rw [if_pos (by simp)] at ht'
    obtain ⟨x, hx⟩ := insertionPosition_rebalance movingId before
      (mem_of_readPlanning ht').1
    refine ⟨x, rebalance target.priority rows, ?_, ⟨_, (mem_of_readPlanning ht').1, rfl, rfl, hx⟩,
      rebalance_ids _ _, ordered_rebalance hids _, fun _ r hr => ⟨_, hread hr⟩⟩
    dsimp only
    rw [rebalance, ht', ← rebalance]
    exact congrArg (fun x => Except.ok (x, _)) hx

theorem planned_ok {f : Facts} {project : Option String} {expectedRevision : ℕ} {m : Row}
    (h : planned f project id expectedRevision rows = .ok m) : readPlanning id rows = .ok m := by
  obtain ⟨_, -, h⟩ := bind_ok h
  obtain ⟨_, -, h⟩ := bind_ok h
  obtain ⟨current, hread, h⟩ := bind_ok h
  obtain ⟨_, -, h⟩ := bind_ok h
  obtain ⟨_, -, h⟩ := bind_ok h
  obtain ⟨_, -, h⟩ := bind_ok h
  cases h
  exact hread

theorem reorderable_ok {f : Facts} {project : Option String} {targetId : String} {target : Row}
    (h : reorderable f project id targetId rows = .ok target) :
    readPlanning targetId rows = .ok target := by
  obtain ⟨_, -, h⟩ := bind_ok h
  obtain ⟨target, hread, h⟩ := bind_ok h
  obtain ⟨_, -, h⟩ := bind_ok h
  cases h
  exact hread

theorem neighbor_ne {beforeId afterId : Option String} {targetId : String} {before : Bool}
    (h : neighbor id beforeId afterId = .ok (targetId, before)) : targetId ≠ id := by
  unfold neighbor at h
  split at h
  · split at h
    · cases h
    · rename_i hne
      cases h
      exact hne
  · split at h
    · cases h
    · rename_i hne
      cases h
      exact hne
  · cases h

theorem place_update (id : String) (before : Bool) (hids : (rows.map (·.id)).Nodup)
    (ht : readPlanning target.id rows = .ok target) :
    ∃ x rows₁, Room id target before rows x rows₁ ∧
      place id target before rows = .ok (update (·.id = id) (Row.moved target x) rows₁) := by
  obtain ⟨x, rows₁, hroom, hr⟩ := exists_room id before hids ht
  refine ⟨x, rows₁, hr, ?_⟩
  rw [place, hroom]
  rfl

/-- **A reorder is taken** whenever its guards let it through: there is always room. -/
theorem reorder_taken {f : Facts} {project : Option String} {expectedRevision : ℕ}
    {beforeId afterId : Option String} {targetId : String} {before : Bool} {m target : Row}
    (hids : (rows.map (·.id)).Nodup) (hproject : f.project = .ok project)
    (hplanned : planned f project id expectedRevision rows = .ok m)
    (hneighbor : neighbor id beforeId afterId = .ok (targetId, before))
    (htarget : reorderable f project id targetId rows = .ok target) :
    ∃ x rows₁ updated, Room id target before rows x rows₁ ∧
      reorder f id expectedRevision beforeId afterId rows = .ok (updated,
        update (·.id = id) (fun r => r) (update (·.id = id) (Row.moved target x) rows₁)) := by
  have hread := reorderable_ok htarget
  have hid := (mem_of_readPlanning hread).2
  obtain ⟨x, rows₁, hroom, hplace⟩ := place_update id before hids (hid ▸ hread)
  obtain ⟨m', hm'⟩ := hroom.visible id m (planned_ok hplanned)
  have hmoved := readPlanning_update (w := (·.id = id)) (Row.moved target x)
    (fun _ => ⟨rfl, rfl, rfl⟩) hm'
  obtain ⟨updated, hupdated⟩ : ∃ updated, readPlanning id (update (·.id = id) (fun r => r)
      (update (·.id = id) (Row.moved target x) rows₁)) = .ok updated :=
    ⟨_, readPlanning_update _ (fun _ => ⟨rfl, rfl, rfl⟩) hmoved⟩
  refine ⟨x, rows₁, updated, hroom, ?_⟩
  simp only [reorder, hproject, hplanned, hneighbor, htarget, hplace, hupdated, bind, Except.bind]

theorem insertBeside_erase {before : Bool} {target moved : String} {l : List String}
    (h : moved ∉ l) : (insertBeside before target moved l).erase moved = l := by
  induction l with
  | nil => rfl
  | cons a l ih =>
    rw [List.mem_cons, not_or] at h
    have ha : ¬ (a == moved) = true := by simpa using Ne.symm h.1
    rw [insertBeside]
    by_cases hat : a = target
    · cases before with
      | true => rw [if_pos hat, if_pos rfl, List.erase_cons_head]
      | false =>
        rw [if_pos hat, if_neg Bool.false_ne_true, List.erase_cons_tail ha,
          List.erase_cons_head]
    · rw [if_neg hat, List.erase_cons_tail ha, ih h.2]

theorem neighbor_ok {beforeId afterId : Option String} {targetId : String} {before : Bool}
    (h : neighbor id beforeId afterId = .ok (targetId, before)) :
    if before then beforeId = some targetId ∧ afterId = none
    else beforeId = none ∧ afterId = some targetId := by
  unfold neighbor at h
  split at h
  · split at h
    · cases h
    · cases h
      exact ⟨rfl, rfl⟩
  · split at h
    · cases h
    · cases h
      exact ⟨rfl, rfl⟩
  · cases h

/-- **A reorder moves exactly one task.**  In the priority of the target the order is the old one
with the task taken out and put back right before, or right after, the target; in every priority
the others stay in the order they had. -/
theorem reorder_moves_one {f : Facts} {expectedRevision : ℕ} {beforeId afterId : Option String}
    {updated : Row} {rows' : List Row} (hids : (rows.map (·.id)).Nodup)
    (h : reorder f id expectedRevision beforeId afterId rows = .ok (updated, rows')) :
    ∃ before, ∃ target ∈ rows,
      (if before then beforeId = some target.id ∧ afterId = none
        else beforeId = none ∧ afterId = some target.id) ∧
      ordered target.priority rows' =
        insertBeside before target.id id ((ordered target.priority rows).erase id) ∧
      (∀ p ≠ target.priority, ordered p rows' = (ordered p rows).erase id) ∧
      ∀ p, (ordered p rows').erase id = (ordered p rows).erase id := by
  have htaken := h
  obtain ⟨project, hproject, h⟩ := bind_ok h
  obtain ⟨m, hplanned, h⟩ := bind_ok h
  obtain ⟨⟨targetId, before⟩, hneighbor, h⟩ := bind_ok h
  obtain ⟨target, htarget, -⟩ := bind_ok h
  clear h
  obtain ⟨x, rows₁, updated', hroom, hrun⟩ :=
    reorder_taken hids hproject hplanned hneighbor htarget
  rw [htaken] at hrun
  cases hrun
  obtain ⟨htm, rfl⟩ := mem_of_readPlanning (reorderable_ok htarget)
  have hids₁ : (rows₁.map (·.id)).Nodup := hroom.ids ▸ hids
  have hidsMoved : ((update (·.id = id) (Row.moved target x) rows₁).map (·.id)).Nodup := by
    rw [update_ids (Row.moved target x) fun _ => rfl]
    exact hids₁
  obtain ⟨m', hm'⟩ := hroom.visible id m (planned_ok hplanned)
  obtain ⟨hmm, hmid⟩ := mem_of_readPlanning hm'
  obtain ⟨target', htm', htid, htp, hposition⟩ := hroom.next
  have horder (p : ℤ) : ordered p (update (·.id = id) (fun r => r)
      (update (·.id = id) (Row.moved target x) rows₁)) = if p = target.priority then
        insertBeside before target.id id ((ordered p rows).erase id)
      else (ordered p rows).erase id := by
    have hmove := ordered_move (p := p) hids₁ hmm hmid htm' (htid ▸ neighbor_ne hneighbor) hposition
    have hmoved : Row.moved target' x = Row.moved target x := by
      funext r
      rw [Row.moved, Row.moved, htp]
    rw [hmoved, htid, htp, hroom.same] at hmove
    rw [ordered_touch hidsMoved, hmove]
  have hfree (p : ℤ) : id ∉ (ordered p rows).erase id := by
    have hnodup : (ordered p rows).Nodup :=
      ((Feed.inOrder_perm _).map Row.id).nodup_iff.2 (ids_filter hids _)
    exact hnodup.not_mem_erase
  refine ⟨before, target, htm, neighbor_ok hneighbor, ?_, fun p hp => ?_, fun p => ?_⟩
  · rw [horder, if_pos rfl]
  · rw [horder, if_neg hp]
  · rw [horder]
    split
    · exact insertBeside_erase (hfree p)
    · exact List.erase_of_not_mem (hfree p)

/-- The user asks, and every task is in one editable column. -/
def editable : Facts where
  project := .ok none
  connected := fun _ => false
  lane := fun _ => "queue"
  disabledReason := fun _ => none
  acceptsWork := fun _ => .ok ()

/-- Two tasks with one position, and a third one. -/
def tied : List Row :=
  [{ id := "a", position := 1 }, { id := "b", position := 1 }, { id := "c", position := 2 }]

theorem tied_reordered : ∃ updated rows',
    reorder editable "c" 0 (some "b") none tied = .ok (updated, rows') ∧
    ∃ before, ∃ target ∈ tied,
      (if before then some "b" = some target.id ∧ (none : Option String) = none
        else some "b" = none ∧ none = some target.id) ∧
      ordered target.priority rows' =
        insertBeside before target.id "c" ((ordered target.priority tied).erase "c") ∧
      (∀ p ≠ target.priority, ordered p rows' = (ordered p tied).erase "c") ∧
      ∀ p, (ordered p rows').erase "c" = (ordered p tied).erase "c" := by
  have hids : (tied.map (·.id)).Nodup := by decide
  obtain ⟨x, rows₁, updated, -, hrun⟩ : ∃ x rows₁ updated, Room "c" _ _ tied x rows₁ ∧
      reorder editable "c" 0 (some "b") none tied = .ok (updated, _) :=
    reorder_taken hids rfl rfl rfl rfl
  exact ⟨_, _, hrun, reorder_moves_one hids hrun⟩

end XpressClaw.Tasks.Reorder
