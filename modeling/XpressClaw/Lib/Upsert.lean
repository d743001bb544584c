import XpressClaw.Lib.Prog
import XpressClaw.Lib.Table

/-!
# Writing the same records again

Records are written over a table: the rows there are with the key of a record are changed, and
a record without a row is inserted.  Records with different keys do not disturb each other, so
all of them are in place at the end, and to write them a second time changes nothing.

* `Table.upsert` — one record.
* `Table.Written` — a record is in place.
* `Table.written_upsertAll`, `Table.upsertAll_eq_self` — the records of a list.
* `each` — a loop of steps that may fail; `each_settled` and `each_eq_self` say the same of it.
-/

namespace Lib

namespace Table

variable {ρ ι χ : Type} [DecidableEq ι] (key : ρ → ι)

/-- `INSERT … ON CONFLICT (key) DO UPDATE SET …`. -/
def upsert (k : ι) (new : ρ) (set : ρ → ρ) (rows : List ρ) : List ρ :=
  if (get key rows k).isSome then modify key k set rows else rows ++ [new]

/-- The rows with a key are as `set` leaves them. -/
def Agrees (k : ι) (set : ρ → ρ) (rows : List ρ) : Prop :=
  ∀ r ∈ rows, key r = k → set r = r

/-- There is a row with the key, and all of them are as `set` leaves them. -/
structure Written (k : ι) (set : ρ → ρ) (rows : List ρ) : Prop where
  exists_row : (get key rows k).isSome
  agrees : Agrees key k set rows

/-- The records of a list are written, one after another. -/
def upsertAll (id : χ → ι) (new : χ → ρ) (set : χ → ρ → ρ) (xs : List χ) (rows : List ρ) :
    List ρ :=
  xs.foldl (fun rows x => upsert key (id x) (new x) (set x) rows) rows

/-- The rows of the records of a list are changed, one record after another. -/
def modifyAll (id : χ → ι) (set : χ → ρ → ρ) (xs : List χ) (rows : List ρ) : List ρ :=
  xs.foldl (fun rows x => modify key (id x) (set x) rows) rows

/-- What is written for a record keeps the key, and agrees with the columns `agree` sets. -/
structure Lawful (id : χ → ι) (new : χ → ρ) (set agree : χ → ρ → ρ) : Prop where
  key_set : ∀ x r, key (set x r) = key r
  agree_set : ∀ x r, agree x (set x r) = set x r
  key_new : ∀ x, key (new x) = id x
  agree_new : ∀ x, agree x (new x) = new x

variable {key} {rows : List ρ} {k k' : ι} {new : ρ} {set agree g : ρ → ρ}

theorem Agrees.modify_eq_self (h : Agrees key k set rows) : modify key k set rows = rows := by
  unfold modify
  rw [List.map_congr_left (g := id) fun r hr => ?_, List.map_id]
  by_cases hk : key r = k
  · rw [if_pos hk]
    exact h r hr hk
  · rw [if_neg hk]
    rfl

theorem agrees_modify (hagree : ∀ r, agree (set r) = set r) :
    Agrees key k agree (modify key k set rows) := by
  intro r hr hk
  obtain ⟨r₀, -, rfl⟩ := List.mem_map.1 hr
  by_cases h : key r₀ = k
  · rw [if_pos h]
    exact hagree r₀
  · rw [if_neg h] at hk
    exact absurd hk h

theorem Agrees.modify_of_ne (h : Agrees key k set rows) (hne : k ≠ k')
    (hkey : ∀ r, key (g r) = key r) : Agrees key k set (modify key k' g rows) := by
  intro r hr hk
  obtain ⟨r₀, hr₀, rfl⟩ := List.mem_map.1 hr
  by_cases h' : key r₀ = k'
  · rw [if_pos h', hkey] at hk
    exact absurd (hk.symm.trans h') hne
  · rw [if_neg h'] at hk ⊢
    exact h r₀ hr₀ hk

/-- A change of other columns. -/
theorem Agrees.modify_comm (h : Agrees key k set rows) (hkey : ∀ r, key (g r) = key r)
    (hcomm : ∀ r, set (g r) = g (set r)) : Agrees key k set (modify key k' g rows) := by
  intro r hr hk
  obtain ⟨r₀, hr₀, rfl⟩ := List.mem_map.1 hr
  by_cases h' : key r₀ = k'
  · rw [if_pos h', hkey] at hk
    rw [if_pos h', hcomm, h r₀ hr₀ hk]
  · rw [if_neg h'] at hk ⊢
    exact h r₀ hr₀ hk

omit [DecidableEq ι] in
theorem Agrees.append (h : Agrees key k set rows) (hnew : key new = k → set new = new) :
    Agrees key k set (rows ++ [new]) := by
  intro r hr hk
  rcases List.mem_append.1 hr with hr | hr
  · exact h r hr hk
  · obtain rfl := List.mem_singleton.1 hr
    exact hnew hk

/-- The row of a record that is in place. -/
theorem Written.row (h : Written key k set rows) : ∃ r, get key rows k = some r ∧ set r = r := by
  obtain ⟨r, hr⟩ := Option.isSome_iff_exists.1 h.exists_row
  exact ⟨r, hr, h.agrees r (mem_of_get hr) (key_of_get hr)⟩

theorem Written.upsert_eq_self (h : Written key k set rows) :
    upsert key k new set rows = rows := by
  unfold upsert
  rw [if_pos h.exists_row]
  exact h.agrees.modify_eq_self

theorem isSome_get_modify (hkey : ∀ r, key (g r) = key r) :
    (get key (modify key k' g rows) k).isSome = (get key rows k).isSome := by
  rw [get_modify hkey, Option.isSome_map]

theorem isSome_get_append (h : (get key rows k).isSome) :
    (get key (rows ++ [new]) k).isSome := by
  obtain ⟨r, hr⟩ := Option.isSome_iff_exists.1 h
  rw [get_append_of_some hr]
  rfl

theorem isSome_get_upsert (hkey : ∀ r, key (set r) = key r) (h : (get key rows k).isSome) :
    (get key (upsert key k' new set rows) k).isSome := by
  unfold upsert
  split
  · rw [isSome_get_modify hkey]
    exact h
  · exact isSome_get_append h

theorem written_upsert (hkey : ∀ r, key (set r) = key r)
    (hagree : ∀ r, agree (set r) = set r) (hnew : key new = k) (hset : agree new = new) :
    Written key k agree (upsert key k new set rows) := by
  unfold upsert
  split
  · rename_i h
    refine ⟨?_, agrees_modify hagree⟩
    rw [isSome_get_modify hkey]
    exact h
  · rename_i h
    refine ⟨?_, fun r hr hk => ?_⟩
    · rw [get_isSome_iff]
      exact List.mem_map.2 ⟨new, List.mem_append_right _ (List.mem_singleton_self _), hnew⟩
    · rcases List.mem_append.1 hr with hr | hr
      · exact absurd (get_isSome_iff.2 (List.mem_map.2 ⟨r, hr, hk⟩)) h
      · obtain rfl := List.mem_singleton.1 hr
        exact hset

theorem Written.upsert_of_ne (h : Written key k set rows) (hne : k ≠ k')
    (hkey : ∀ r, key (g r) = key r) (hnew : key new = k') :
    Written key k set (upsert key k' new g rows) := by
  refine ⟨isSome_get_upsert hkey h.exists_row, ?_⟩
  unfold upsert
  split
  · exact h.agrees.modify_of_ne hne hkey
  · exact h.agrees.append fun hk => absurd (hk.symm.trans hnew) hne

variable {id : χ → ι} {newOf : χ → ρ} {setOf agreeOf : χ → ρ → ρ} {xs : List χ}

theorem upsertAll_eq_self (h : ∀ x ∈ xs, Written key (id x) (setOf x) rows) :
    upsertAll key id newOf setOf xs rows = rows := by
  unfold upsertAll
  induction xs with
  | nil => rfl
  | cons x xs ih =>
    rw [List.foldl_cons, (h x List.mem_cons_self).upsert_eq_self]
    exact ih fun y hy => h y (List.mem_cons_of_mem _ hy)

/-- A record stays in place while records with other keys are written. -/
theorem Written.upsertAll (hl : Lawful key id newOf setOf agreeOf) (h : Written key k set rows)
    (hne : k ∉ xs.map id) : Written key k set (upsertAll key id newOf setOf xs rows) := by
  unfold Table.upsertAll
  induction xs generalizing rows with
  | nil => exact h
  | cons x xs ih =>
    simp only [List.map_cons, List.mem_cons, not_or] at hne
    exact ih (h.upsert_of_ne hne.1 (hl.key_set x) (hl.key_new x)) hne.2

/-- All records are in place at the end. -/
theorem written_upsertAll (hl : Lawful key id newOf setOf agreeOf) (hxs : (xs.map id).Nodup)
    (rows : List ρ) :
    ∀ x ∈ xs, Written key (id x) (agreeOf x) (upsertAll key id newOf setOf xs rows) := by
  induction xs generalizing rows with
  | nil => simp
  | cons x xs ih =>
    rw [List.map_cons, List.nodup_cons] at hxs
    intro y hy
    rcases List.mem_cons.1 hy with rfl | hy
    · have hy : Written key (id y) (agreeOf y) (upsert key (id y) (newOf y) (setOf y) rows) :=
        written_upsert (hl.key_set y) (hl.agree_set y) (hl.key_new y) (hl.agree_new y)
      show Written key (id y) (agreeOf y) (Table.upsertAll key id newOf setOf xs
        (upsert key (id y) (newOf y) (setOf y) rows))
      exact hy.upsertAll hl hxs.1
    · exact ih hxs.2 _ y hy

/-- The rows of no record are left as they are. -/
theorem get_upsertAll_of_notMem (hl : Lawful key id newOf setOf agreeOf) (hne : k ∉ xs.map id)
    (rows : List ρ) : get key (Table.upsertAll key id newOf setOf xs rows) k = get key rows k := by
  unfold Table.upsertAll
  induction xs generalizing rows with
  | nil => rfl
  | cons x xs ih =>
    simp only [List.map_cons, List.mem_cons, not_or] at hne
    rw [List.foldl_cons, ih hne.2]
    unfold upsert
    split
    · rw [get_modify (hl.key_set x)]
      simp [hne.1]
    · rw [get_append]
      simp [get, hl.key_new x, Ne.symm hne.1]

theorem agrees_modifyAll (hkey : ∀ x r, key (setOf x r) = key r)
    (hagree : ∀ x r, agreeOf x (setOf x r) = setOf x r) (hxs : (xs.map id).Nodup)
    (rows : List ρ) : ∀ x ∈ xs, Agrees key (id x) (agreeOf x) (modifyAll key id setOf xs rows) := by
  induction xs generalizing rows with
  | nil => simp
  | cons x xs ih =>
    rw [List.map_cons, List.nodup_cons] at hxs
    intro y hy
    rcases List.mem_cons.1 hy with rfl | hy
    · have hkeep : ∀ (zs : List χ) (rows : List ρ), id y ∉ zs.map id →
          Agrees key (id y) (agreeOf y) rows →
          Agrees key (id y) (agreeOf y) (modifyAll key id setOf zs rows) := by
        intro zs
        induction zs with
        | nil => exact fun _ _ h => h
        | cons z zs ih' =>
          intro rows hne h
          simp only [List.map_cons, List.mem_cons, not_or] at hne
          exact ih' _ hne.2 (h.modify_of_ne hne.1 (hkey z))
      exact hkeep xs _ hxs.1 (agrees_modify (hagree y))
    · exact ih hxs.2 _ y hy

/-- What is written to some columns stays while others are changed. -/
theorem Written.modifyAll (h : Written key k set rows) (hkey : ∀ x r, key (setOf x r) = key r)
    (hcomm : ∀ x r, set (setOf x r) = setOf x (set r)) :
    Written key k set (modifyAll key id setOf xs rows) := by
  unfold Table.modifyAll
  induction xs generalizing rows with
  | nil => exact h
  | cons x xs ih =>
    refine ih ⟨?_, h.agrees.modify_comm (hkey x) (hcomm x)⟩
    rw [isSome_get_modify (hkey x)]
    exact h.exists_row

/-- Columns that are not changed are read as before. -/
theorem get_modifyAll_map {τ : Type} {f : ρ → τ} (hkey : ∀ x r, key (setOf x r) = key r)
    (hf : ∀ x r, f (setOf x r) = f r) (xs : List χ) (rows : List ρ) (k : ι) :
    (get key (Table.modifyAll key id setOf xs rows) k).map f = (get key rows k).map f := by
  unfold Table.modifyAll
  induction xs generalizing rows with
  | nil => rfl
  | cons x xs ih =>
    rw [List.foldl_cons, ih, get_modify (hkey x), Option.map_map]
    congr 1
    funext r
    rw [Function.comp_apply]
    split
    · exact hf x r
    · rfl

theorem exists_modify {P : ρ → Prop} (h : ∃ r ∈ rows, P r) (hset : ∀ r, P r → P (set r)) :
    ∃ r ∈ modify key k set rows, P r := by
  obtain ⟨r, hr, hP⟩ := h
  refine ⟨if key r = k then set r else r, List.mem_map.2 ⟨r, hr, rfl⟩, ?_⟩
  split
  · exact hset r hP
  · exact hP

theorem exists_upsert {P : ρ → Prop} (h : ∃ r ∈ rows, P r) (hset : ∀ r, P r → P (set r)) :
    ∃ r ∈ upsert key k new set rows, P r := by
  unfold upsert
  split
  · exact exists_modify h hset
  · obtain ⟨r, hr, hP⟩ := h
    exact ⟨r, List.mem_append_left _ hr, hP⟩

/-- A row with a property stays in a table when what is written keeps the property. -/
theorem exists_upsertAll {P : ρ → Prop} (h : ∃ r ∈ rows, P r)
    (hset : ∀ x ∈ xs, ∀ r, P r → P (setOf x r)) :
    ∃ r ∈ Table.upsertAll key id newOf setOf xs rows, P r := by
  unfold Table.upsertAll
  induction xs generalizing rows with
  | nil => exact h
  | cons x xs ih =>
    exact ih (exists_upsert h (hset x List.mem_cons_self)) fun y hy =>
      hset y (List.mem_cons_of_mem _ hy)

theorem exists_modifyAll {P : ρ → Prop} (h : ∃ r ∈ rows, P r)
    (hset : ∀ x ∈ xs, ∀ r, P r → P (setOf x r)) :
    ∃ r ∈ Table.modifyAll key id setOf xs rows, P r := by
  unfold Table.modifyAll
  induction xs generalizing rows with
  | nil => exact h
  | cons x xs ih =>
    exact ih (exists_modify h (hset x List.mem_cons_self)) fun y hy =>
      hset y (List.mem_cons_of_mem _ hy)

/-- Changes of rows with different keys are one change of the table. -/
theorem modifyAll_eq_map (hkey : ∀ x r, key (setOf x r) = key r) (hxs : (xs.map id).Nodup)
    (rows : List ρ) : modifyAll key id setOf xs rows =
      rows.map fun r => (xs.find? fun x => id x = key r).elim r fun x => setOf x r := by
  unfold modifyAll
  induction xs generalizing rows with
  | nil => simp
  | cons x xs ih =>
    rw [List.map_cons, List.nodup_cons] at hxs
    rw [List.foldl_cons, ih hxs.2, modify, List.map_map]
    refine List.map_congr_left fun r _ => ?_
    by_cases hr : key r = id x
    · have hnone : xs.find? (fun y => id y = key r) = none := by
        rw [List.find?_eq_none]
        intro y hy hid
        rw [decide_eq_true_eq, hr] at hid
        exact hxs.1 (hid ▸ List.mem_map_of_mem hy)
      simp only [Function.comp_apply, if_pos hr, hkey, hnone]
      simp [hr]
    · have hr' : ¬ id x = key r := fun h => hr h.symm
      simp [hr, hr']

theorem upsertAll_eq_modifyAll (hkey : ∀ x r, key (setOf x r) = key r)
    (h : ∀ x ∈ xs, (get key rows (id x)).isSome) :
    Table.upsertAll key id newOf setOf xs rows = Table.modifyAll key id setOf xs rows := by
  unfold Table.upsertAll Table.modifyAll
  induction xs generalizing rows with
  | nil => rfl
  | cons x xs ih =>
    rw [List.foldl_cons, List.foldl_cons, upsert, if_pos (h x List.mem_cons_self)]
    refine ih fun y hy => ?_
    rw [isSome_get_modify (hkey x)]
    exact h y (List.mem_cons_of_mem _ hy)

/-- Records are written whose rows are there, and then some columns are changed. -/
theorem modifyAll_upsertAll {setOf' : χ → ρ → ρ} (hkey : ∀ x r, key (setOf x r) = key r)
    (hkey' : ∀ x r, key (setOf' x r) = key r) (hxs : (xs.map id).Nodup)
    (h : ∀ x ∈ xs, (get key rows (id x)).isSome)
    (hg : ∀ x ∈ xs, ∀ r ∈ rows, key r = id x → setOf' x (setOf x r) = g r) :
    Table.modifyAll key id setOf' xs (Table.upsertAll key id newOf setOf xs rows) =
      rows.map fun r => if key r ∈ xs.map id then g r else r := by
  rw [upsertAll_eq_modifyAll hkey h, modifyAll_eq_map hkey hxs, modifyAll_eq_map hkey' hxs,
    List.map_map]
  refine List.map_congr_left fun r hr => ?_
  rw [Function.comp_apply]
  cases hx : xs.find? fun x => id x = key r with
  | none =>
    have hnot : key r ∉ xs.map id := by
      rintro hmem
      obtain ⟨x, hxmem, hid⟩ := List.mem_map.1 hmem
      exact List.find?_eq_none.1 hx x hxmem (by simpa using hid)
    rw [Option.elim_none, hx, if_neg hnot, Option.elim_none]
  | some x =>
    have hmem := List.mem_of_find?_eq_some hx
    have hid : id x = key r := by simpa using List.find?_some hx
    have hin : key r ∈ xs.map id := hid ▸ List.mem_map_of_mem hmem
    rw [if_pos hin]
    simp only [Option.elim_some, hkey, hx]
    exact hg x hmem r hr hid.symm

/-! ### Rows that are replaced -/

/-- The rows of each record are deleted and inserted anew. -/
def replaceAll (key : ρ → ι) (id : χ → ι) (rowsOf : χ → List ρ) (xs : List χ)
    (rows : List ρ) : List ρ :=
  xs.foldl (fun rows x => rows.filter (key · ≠ id x) ++ rowsOf x) rows

theorem replaceAll_eq {rowsOf : χ → List ρ} (hrows : ∀ x, ∀ r ∈ rowsOf x, key r = id x)
    (hxs : (xs.map id).Nodup) (rows : List ρ) : replaceAll key id rowsOf xs rows =
      rows.filter (key · ∉ xs.map id) ++ xs.flatMap rowsOf := by
  unfold replaceAll
  induction xs generalizing rows with
  | nil => simp
  | cons x xs ih =>
    rw [List.map_cons, List.nodup_cons] at hxs
    rw [List.foldl_cons, ih hxs.2, List.filter_append, List.filter_filter]
    have hkept : (rowsOf x).filter (key · ∉ xs.map id) = rowsOf x := by
      rw [List.filter_eq_self]
      intro r hr
      rw [hrows x r hr]
      simpa using hxs.1
    rw [hkept, List.flatMap_cons, List.append_assoc]
    congr 1
    refine List.filter_congr fun r _ => ?_
    rw [Bool.eq_iff_iff]
    simp only [List.map_cons, List.mem_cons, Bool.and_eq_true, decide_eq_true_eq, ne_eq, not_or]
    exact and_comm

/-- To replace the rows a second time changes nothing. -/
theorem replaceAll_replaceAll {rowsOf : χ → List ρ}
    (hrows : ∀ x, ∀ r ∈ rowsOf x, key r = id x) (hxs : (xs.map id).Nodup) (rows : List ρ) :
    replaceAll key id rowsOf xs (replaceAll key id rowsOf xs rows) =
      replaceAll key id rowsOf xs rows := by
  rw [replaceAll_eq hrows hxs, replaceAll_eq hrows hxs, List.filter_append, List.filter_filter]
  have hgone : (xs.flatMap rowsOf).filter (key · ∉ xs.map id) = [] := by
    rw [List.filter_eq_nil_iff]
    intro r hr
    obtain ⟨x, hx, hr⟩ := List.mem_flatMap.1 hr
    rw [hrows x r hr]
    simpa using ⟨x, hx, rfl⟩
  rw [hgone, List.append_nil]
  simp

/-! ### The rows that are left alone -/

/-- The rows whose keys are not in a list. -/
def rest (key : ρ → ι) (keys : List ι) (rows : List ρ) : List ρ := rows.filter (key · ∉ keys)

section Rest

variable {keys : List ι} {more : List ρ}

theorem rest_append_of_mem (hnew : ∀ r ∈ more, key r ∈ keys) :
    rest key keys (rows ++ more) = rest key keys rows := by
  have hgone : more.filter (key · ∉ keys) = [] := by
    rw [List.filter_eq_nil_iff]
    intro r hr
    simpa using hnew r hr
  rw [rest, List.filter_append, hgone, List.append_nil]
  rfl

theorem rest_modify (hk : k ∈ keys) (hkey : ∀ r, key (g r) = key r) (rows : List ρ) :
    rest key keys (modify key k g rows) = rest key keys rows := by
  induction rows with
  | nil => rfl
  | cons r rows ih =>
    have htail : (modify key k g rows).filter (key · ∉ keys) = rows.filter (key · ∉ keys) := ih
    rw [modify, List.map_cons, rest, List.filter_cons, rest, List.filter_cons, ← htail]
    by_cases h : key r = k
    · simp [h, hkey, hk, modify]
    · simp [h, modify]

theorem rest_upsert (hk : k ∈ keys) (hkey : ∀ r, key (set r) = key r) (hnew : key new = k)
    (rows : List ρ) : rest key keys (upsert key k new set rows) = rest key keys rows := by
  unfold upsert
  split
  · exact rest_modify hk hkey rows
  · refine rest_append_of_mem fun r hr => ?_
    rw [List.mem_singleton.1 hr, hnew]
    exact hk

/-- A loop that leaves the rest alone in each of its steps leaves it alone. -/
theorem rest_foldl {step : List ρ → χ → List ρ}
    (hstep : ∀ x ∈ xs, ∀ rows, rest key keys (step rows x) = rest key keys rows)
    (rows : List ρ) : rest key keys (xs.foldl step rows) = rest key keys rows := by
  induction xs generalizing rows with
  | nil => rfl
  | cons x xs ih =>
    rw [List.foldl_cons, ih (fun y hy => hstep y (List.mem_cons_of_mem _ hy)),
      hstep x List.mem_cons_self]

theorem rest_upsertAll (hl : Lawful key id newOf setOf agreeOf) (hxs : ∀ x ∈ xs, id x ∈ keys)
    (rows : List ρ) :
    rest key keys (upsertAll key id newOf setOf xs rows) = rest key keys rows :=
  rest_foldl (fun x hx => rest_upsert (hxs x hx) (hl.key_set x) (hl.key_new x)) rows

theorem rest_modifyAll (hkey : ∀ x r, key (setOf x r) = key r) (hxs : ∀ x ∈ xs, id x ∈ keys)
    (rows : List ρ) : rest key keys (modifyAll key id setOf xs rows) = rest key keys rows :=
  rest_foldl (fun x hx => rest_modify (hxs x hx) (hkey x)) rows

theorem rest_replaceAll {rowsOf : χ → List ρ} (hrows : ∀ x, ∀ r ∈ rowsOf x, key r = id x)
    (hxs : ∀ x ∈ xs, id x ∈ keys) (rows : List ρ) :
    rest key keys (replaceAll key id rowsOf xs rows) = rest key keys rows := by
  refine rest_foldl (fun x hx rows => ?_) rows
  rw [rest_append_of_mem fun r hr => hrows x r hr ▸ hxs x hx, rest, List.filter_filter]
  refine List.filter_congr fun r _ => ?_
  by_cases h : key r = id x
  · simp [h, hxs x hx]
  · simp [h]

end Rest

end Table

/-! ## Loops that may fail -/

variable {σ ε χ β : Type}

/-- A step for each element, in order. -/
def each (step : σ → χ → Except ε σ) : List χ → σ → Except ε σ
  | [], s => .ok s
  | x :: xs, s => step s x >>= each step xs

/-- A step for each element, in order, with what each hands out. -/
def eachWith (step : σ → χ → Except ε (β × σ)) : List χ → σ → Except ε (List (χ × β) × σ)
  | [], s => .ok ([], s)
  | x :: xs, s => do
      let (b, s) ← step s x
      let (bs, s) ← eachWith step xs s
      .ok ((x, b) :: bs, s)

variable {step : σ → χ → Except ε σ} {xs : List χ} {s s' : σ}

/-- What every step keeps, the loop keeps. -/
theorem each_invariant {I : σ → Prop} (hI : ∀ s x s', x ∈ xs → I s → step s x = .ok s' → I s')
    (hs : I s) (h : each step xs s = .ok s') : I s' := by
  induction xs generalizing s with
  | nil =>
    cases h
    exact hs
  | cons x xs ih =>
    obtain ⟨t, ht, h⟩ := bind_ok h
    exact ih (fun s y s' hy => hI s y s' (List.mem_cons_of_mem _ hy))
      (hI s x t List.mem_cons_self hs ht) h

/-- A loop over the elements of a list with their numbers, for an invariant that counts them. -/
theorem each_zipIdx_invariant {step : σ → χ × ℕ → Except ε σ} {I : ℕ → σ → Prop} (ys : List χ)
    (hI : ∀ k x s s', ys[k]? = some x → I k s → step s (x, k) = .ok s' → I (k + 1) s') {n : ℕ}
    (hxs : ys.drop n = xs) (hs : I n s) (h : each step (xs.zipIdx n) s = .ok s') :
    I (n + xs.length) s' := by
  induction xs generalizing n s with
  | nil =>
    cases h
    exact hs
  | cons x xs ih =>
    obtain ⟨t, ht, h⟩ := bind_ok h
    have hx : ys[n]? = some x := by rw [← Nat.add_zero n, ← List.getElem?_drop, hxs]; rfl
    have hrest : ys.drop (n + 1) = xs := by
      rw [← List.drop_drop, hxs, List.drop_one, List.tail_cons]
    have hend := ih hrest (hI n x s t hx hs ht) h
    rwa [Nat.add_assoc, Nat.add_comm 1] at hend

theorem each_eq_self (h : ∀ x ∈ xs, step s x = .ok s) : each step xs s = .ok s := by
  induction xs with
  | nil => rfl
  | cons x xs ih =>
    rw [each, h x List.mem_cons_self]
    exact ih fun y hy => h y (List.mem_cons_of_mem _ hy)

/-- What a step puts in place for an element is in place at the end, if the steps of other
elements leave it. -/
theorem each_settled {I : σ → Prop} {D : χ → σ → Prop} {R : χ → χ → Prop}
    (hI : ∀ s x s', x ∈ xs → I s → step s x = .ok s' → I s')
    (hdone : ∀ s x s', x ∈ xs → I s → step s x = .ok s' → D x s')
    (hkeep : ∀ s x y s', y ∈ xs → I s → R x y → D x s → step s y = .ok s' → D x s')
    (hxs : xs.Pairwise R) (hs : I s) (h : each step xs s = .ok s') : ∀ x ∈ xs, D x s' := by
  induction xs generalizing s with
  | nil => simp
  | cons x xs ih =>
    obtain ⟨t, ht, hrest⟩ := bind_ok h
    rw [List.pairwise_cons] at hxs
    have hIt := hI s x t List.mem_cons_self hs ht
    intro y hy
    rcases List.mem_cons.1 hy with rfl | hy
    · have hboth : I s' ∧ D y s' := by
        refine each_invariant (I := fun s => I s ∧ D y s)
          (fun s z s' hz hs hstep => ?_) ⟨hIt, hdone _ y t List.mem_cons_self hs ht⟩ hrest
        exact ⟨hI s z s' (List.mem_cons_of_mem _ hz) hs.1 hstep,
          hkeep s y z s' (List.mem_cons_of_mem _ hz) hs.1 (hxs.1 z hz) hs.2 hstep⟩
      exact hboth.2
    · exact ih (fun s y s' hy => hI s y s' (List.mem_cons_of_mem _ hy))
        (fun s y s' hy => hdone s y s' (List.mem_cons_of_mem _ hy))
        (fun s y z s' hz => hkeep s y z s' (List.mem_cons_of_mem _ hz)) hxs.2 hIt hrest y hy

theorem eachWith_ok {step : σ → χ → Except ε (β × σ)} {bs : List (χ × β)}
    (h : eachWith step xs s = .ok (bs, s')) :
    each (fun s x => (step s x).map Prod.snd) xs s = .ok s' ∧ bs.map Prod.fst = xs := by
  induction xs generalizing s bs with
  | nil =>
    cases h
    exact ⟨rfl, rfl⟩
  | cons x xs ih =>
    obtain ⟨⟨b, t⟩, ht, h⟩ := bind_ok h
    obtain ⟨⟨cs, u⟩, hu, h⟩ := bind_ok h
    cases h
    obtain ⟨heach, hfst⟩ := ih hu
    refine ⟨?_, by rw [List.map_cons, hfst]⟩
    rw [each, ht]
    exact heach

theorem eachWith_eq_self {step : σ → χ → Except ε (β × σ)} {b : β}
    (h : ∀ x ∈ xs, step s x = .ok (b, s)) :
    eachWith step xs s = .ok (xs.map (·, b), s) := by
  induction xs with
  | nil => rfl
  | cons x xs ih =>
    have hrest := ih fun y hy => h y (List.mem_cons_of_mem _ hy)
    change ((step s x) >>= fun r => eachWith step xs r.2 >>= fun q =>
      .ok ((x, r.1) :: q.1, q.2)) = _
    rw [h x List.mem_cons_self]
    change (eachWith step xs s >>= fun q => .ok ((x, b) :: q.1, q.2)) = _
    rw [hrest]
    rfl

end Lib
