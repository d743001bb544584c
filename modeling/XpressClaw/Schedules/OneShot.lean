import Mathlib.Data.List.Nodup
import Mathlib.Order.Nat
import XpressClaw.Schedules.Store

/-!
# A one-shot wake-up fires at most once

A trigger of a one-shot schedule holds its claim from the moment the schedule was disabled
for it until it releases the claim or updates the counter.  The counter is what keeps the
schedule from being enabled again, so between the two an `enable` lets a second trigger claim
the schedule, and the release of a failed claim enables the schedule whatever was called in
between.

* `Store.Orderly` — the invariant of runs without these two: at most one trigger holds the
  claim, and what may still hand over the wake-up implies that nothing was handed over (or
  that the task to be continued is gone).
* `one_shot_fires_once` — in such runs every one-shot schedule is delivered at most once, and
  a schedule whose last call was a `disable` stays disabled.
-/

namespace XpressClaw.Schedules

open Lib

/-! ## Phases -/

namespace Phase

/-- The claim is held and the wake-up is not handed over, or in vain. -/
def waiting : Phase → Bool
  | .claimed | .checked _ | .noted _ _ | .refused _ | .created _ | .unqueued _ | .failing => true
  | _ => false

/-- The claim is held and the wake-up was handed over. -/
def handed : Phase → Bool
  | .sent _ | .counting => true
  | _ => false

/-- The claim is held. -/
def holds (p : Phase) : Bool := p.waiting || p.handed

/-- The continuation task the trigger works on, or none for a new task. -/
def target : Phase → Option (Option ℕ)
  | .checked taskId | .noted taskId _ | .sent taskId => some (some taskId)
  | .created _ => some none
  | _ => none

end Phase

namespace Store

variable {db db' : Store} {s : String} {i : ℕ} {t : Trigger}

/-- The `i`th trigger holds the claim of the schedule. -/
def Holds (db : Store) (s : String) (i : ℕ) : Prop :=
  ∃ t, db.triggers[i]? = some t ∧ t.schedule.id = s ∧ t.phase.holds = true

/-! ## What a step of a trigger can do -/

/-- The steps of a trigger of a one-shot schedule: the store after the call and the phase
the trigger goes to. -/
inductive Moves (db : Store) (t : Trigger) : Store → Phase → Prop
  | refuse (h : t.phase = .fetched) (hc : db.schedules.any (claimable t.schedule.id) = false) :
      Moves db t db .finished
  | claim (h : t.phase = .fetched) (hc : db.schedules.any (claimable t.schedule.id) = true) :
      Moves db t (db.claim t.schedule.id) .claimed
  | prepare {db₁ : Store} {p : Phase} (h : t.phase.waiting = true) (hp : p.waiting = true)
      (hs : db₁.schedules = db.schedules) (hd : db₁.delivered = db.delivered)
      (ht : db₁.triggers = db.triggers) (hn : db.nextTaskId ≤ db₁.nextTaskId)
      (hgone : ∀ taskId < db.nextTaskId, taskId ∈ db₁.tasks → taskId ∈ db.tasks)
      (htarget : ∀ x ∈ p.target, x = t.schedule.continuationTaskId ∨ x ∈ t.phase.target) :
      Moves db t db₁ p
  | deliver {p : Phase} (h : t.phase.waiting = true) (hp : p.handed = true)
      (htask : ∀ taskId, t.schedule.continuationTaskId = some taskId →
        ∃ x ∈ t.phase.target, x = none ∨ ∃ taskId ∈ db.tasks, x = some taskId)
      (htarget : ∀ x ∈ p.target, x ∈ t.phase.target) :
      Moves db t (db.handOver t.schedule.id) p
  | confirm {taskId : ℕ} (h : t.phase = .sent taskId) : Moves db t db .counting
  | lose {taskId : ℕ} (h : t.phase = .sent taskId) (hgone : taskId ∉ db.tasks) :
      Moves db t db .failing
  | release {p : Phase} (h : t.phase.waiting = true) (hp : p.holds = false)
      (htarget : p.target = none) : Moves db t (db.release t.schedule.id) p
  | remove {taskId : ℕ} (h : t.phase = .removing taskId) :
      Moves db t (db.removeTask taskId) .finished
  | count (h : t.phase = .counting) : Moves db t (db.counted t.schedule.id) .finished

theorem advanceClaimed_moves (hone : t.schedule.oneShot = true) (h : t.phase = .claimed)
    (ok : Bool) : ∃ db₁ p, db.Moves t db₁ p ∧ db.advanceClaimed i t ok = db₁.goto i t p := by
  have hfail : db.Moves t db (failed t) := by
    refine .prepare (by simp [h, Phase.waiting]) ?_ rfl rfl rfl le_rfl (fun _ _ h => h) ?_
    all_goals simp [failed, hone, Phase.waiting, Phase.target]
  unfold advanceClaimed
  split
  · rename_i taskId hcont
    split
    · refine ⟨db, .checked taskId, ?_, rfl⟩
      refine .prepare (by simp [h, Phase.waiting]) rfl rfl rfl rfl le_rfl (fun _ _ h => h) ?_
      simp [Phase.target, hcont]
    · exact ⟨db, _, hfail, rfl⟩
  · rename_i hcont
    split
    · split
      · refine ⟨_, .counting, ?_, rfl⟩
        exact .deliver (by simp [h, Phase.waiting]) rfl (by simp [hcont]) (by simp [Phase.target])
      · exact ⟨db, _, hfail, rfl⟩
    · split
      · refine ⟨db.addTask, .created db.nextTaskId, ?_, rfl⟩
        refine .prepare (by simp [h, Phase.waiting]) rfl rfl rfl rfl (Nat.le_succ _) ?_ ?_
        · intro taskId hlt hmem
          simp only [addTask, List.mem_append, List.mem_singleton] at hmem
          rcases hmem with hmem | hnew
          · exact hmem
          · omega
        · simp [Phase.target, hcont]
      · exact ⟨db, _, hfail, rfl⟩

/-- Every step of a trigger of a one-shot schedule is one of these moves. -/
theorem advance_moves (ht : db.triggers[i]? = some t) (hone : t.schedule.oneShot = true)
    (ok : Bool) : db.advance i ok = db ∨
      ∃ db₁ p, db.Moves t db₁ p ∧ db.advance i ok = db₁.goto i t p := by
  have hfail (hw : t.phase.waiting = true) {db₁ : Store} (hs : db₁.schedules = db.schedules)
      (hd : db₁.delivered = db.delivered) (htr : db₁.triggers = db.triggers)
      (hn : db₁.nextTaskId = db.nextTaskId) (htasks : db₁.tasks = db.tasks) :
      db.Moves t db₁ (failed t) := by
    refine .prepare hw ?_ hs hd htr hn.ge (fun _ _ h => htasks ▸ h) ?_
    all_goals simp [failed, hone, Phase.waiting, Phase.target]
  unfold advance
  rw [ht]
  dsimp only
  cases hp : t.phase with
  | fetched =>
    right
    dsimp only
    unfold advanceFetched
    rw [if_pos hone]
    split
    · rename_i hc
      exact ⟨_, _, .claim hp hc, rfl⟩
    · rename_i hc
      exact ⟨_, _, .refuse hp (by simpa using hc), rfl⟩
  | claimed => exact Or.inr (advanceClaimed_moves hone hp ok)
  | checked taskId =>
    right
    dsimp only
    unfold advanceChecked
    split
    · refine ⟨db.addMessage taskId, _, ?_, rfl⟩
      refine .prepare (by simp [hp, Phase.waiting]) rfl rfl rfl rfl le_rfl (fun _ _ h => h) ?_
      simp [Phase.target, hp]
    · exact ⟨db, _, hfail (by simp [hp, Phase.waiting]) rfl rfl rfl rfl rfl, rfl⟩
  | noted taskId messageId =>
    right
    dsimp only
    unfold advanceNoted
    split
    · rename_i hok
      simp only [Bool.and_eq_true, decide_eq_true_eq] at hok
      refine ⟨_, .sent taskId, .deliver (by simp [hp, Phase.waiting]) rfl ?_ ?_, rfl⟩
      · intro _ _
        exact ⟨some taskId, by simp [hp, Phase.target], Or.inr ⟨taskId, hok.2, rfl⟩⟩
      · simp [Phase.target, hp]
    · refine ⟨db, .refused messageId, ?_, rfl⟩
      refine .prepare (by simp [hp, Phase.waiting]) rfl rfl rfl rfl le_rfl (fun _ _ h => h) ?_
      simp [Phase.target]
  | refused messageId =>
    right
    exact ⟨db.removeMessage messageId, _,
      hfail (by simp [hp, Phase.waiting]) rfl rfl rfl rfl rfl, rfl⟩
  | sent taskId =>
    right
    dsimp only
    split
    · exact ⟨db, _, .confirm hp, rfl⟩
    · rename_i hgone
      refine ⟨db, _, .lose hp hgone, ?_⟩
      simp [failed, hone]
  | created taskId =>
    right
    dsimp only
    unfold advanceCreated
    split
    · refine ⟨_, .counting, .deliver (by simp [hp, Phase.waiting]) rfl ?_ ?_, rfl⟩
      · intro _ _
        exact ⟨none, by simp [hp, Phase.target], Or.inl rfl⟩
      · simp [Phase.target]
    · refine ⟨db, .unqueued taskId, ?_, rfl⟩
      refine .prepare (by simp [hp, Phase.waiting]) rfl rfl rfl rfl le_rfl (fun _ _ h => h) ?_
      simp [Phase.target]
  | unqueued taskId =>
    exact Or.inr ⟨_, _, .release (by simp [hp, Phase.waiting]) rfl rfl, rfl⟩
  | removing taskId => exact Or.inr ⟨_, _, .remove hp, rfl⟩
  | failing => exact Or.inr ⟨_, _, .release (by simp [hp, Phase.waiting]) rfl rfl, rfl⟩
  | counting => exact Or.inr ⟨_, _, .count hp, rfl⟩
  | finished => exact Or.inl rfl

/-! ## Triggers after a step -/

theorem goto_get {j : ℕ} {p : Phase} (hi : db'.triggers = db.triggers)
    (ht : db.triggers[i]? = some t) : (db'.goto i t p).triggers[j]? =
      if j = i then some { t with phase := p } else db.triggers[j]? := by
  obtain ⟨hlt, -⟩ := List.getElem?_eq_some_iff.1 ht
  simp only [goto, hi, List.getElem?_set, hlt]
  by_cases hij : j = i
  · simp [hij]
  · simp [hij, Ne.symm hij]

theorem goto_cases {j : ℕ} {p : Phase} {u : Trigger} (hi : db'.triggers = db.triggers)
    (ht : db.triggers[i]? = some t) (hu : (db'.goto i t p).triggers[j]? = some u) :
    (j = i ∧ u = { t with phase := p }) ∨ (j ≠ i ∧ db.triggers[j]? = some u) := by
  rw [goto_get hi ht] at hu
  by_cases hij : j = i
  · rw [if_pos hij] at hu
    exact Or.inl ⟨hij, (Option.some.inj hu).symm⟩
  · rw [if_neg hij] at hu
    exact Or.inr ⟨hij, hu⟩

/-! ## The invariant -/

/-- Nothing was handed over, or the task to be continued is gone for good. -/
def Unspent (db : Store) (s : String) (target : Option ℕ) : Prop :=
  db.delivered.count s = 0 ∨ ∃ taskId, target = some taskId ∧ taskId ∉ db.tasks

/-- **The invariant of a one-shot schedule with its continuation task.** -/
structure Orderly (db : Store) (s : String) (target : Option ℕ) : Prop where
  rows : ∀ r ∈ db.schedules, r.id = s → r.oneShot = true ∧ r.continuationTaskId = target
  reads : ∀ (i : ℕ) (t : Trigger), db.triggers[i]? = some t → t.schedule.id = s →
    t.schedule.oneShot = true ∧ t.schedule.continuationTaskId = target
  targets : ∀ (i : ℕ) (t : Trigger), db.triggers[i]? = some t → t.schedule.id = s →
    ∀ x ∈ t.phase.target, x = target
  fresh : ∀ taskId ∈ target, taskId < db.nextTaskId
  single : ∀ i j, db.Holds s i → db.Holds s j → i = j
  once : db.delivered.count s ≤ 1
  waiting : ∀ (i : ℕ) (t : Trigger), db.triggers[i]? = some t → t.schedule.id = s →
    t.phase.waiting = true →
    db.Unspent s target
  idle : (∀ i, ¬db.Holds s i) → (∃ r ∈ db.schedules, r.id = s ∧ r.runCount = 0) →
    db.Unspent s target

variable {target : Option ℕ}

theorem Unspent.mono (h : db.Unspent s target)
    (hcount : db'.delivered.count s = db.delivered.count s)
    (hfresh : ∀ taskId ∈ target, taskId < db.nextTaskId)
    (htasks : ∀ taskId < db.nextTaskId, taskId ∈ db'.tasks → taskId ∈ db.tasks) :
    db'.Unspent s target := by
  rcases h with hzero | ⟨taskId, htarget, hgone⟩
  · exact Or.inl (hcount.trans hzero)
  · exact Or.inr ⟨taskId, htarget, fun hmem => hgone (htasks taskId (hfresh taskId htarget) hmem)⟩

/-! ### What others do -/

/-- The schedule and its triggers are left alone, but for new triggers. -/
structure Aside (s : String) (db db' : Store) : Prop where
  rows : ∀ r' ∈ db'.schedules, r'.id = s → ∃ r ∈ db.schedules, r.id = s ∧
    r'.oneShot = r.oneShot ∧ r'.continuationTaskId = r.continuationTaskId ∧
    (r'.runCount = 0 → r.runCount = 0)
  kept : ∀ (i : ℕ) (t : Trigger), db.triggers[i]? = some t → t.schedule.id = s →
    db'.triggers[i]? = some t
  triggers : ∀ (i : ℕ) (t : Trigger), db'.triggers[i]? = some t → t.schedule.id = s →
    db.triggers[i]? = some t ∨ (t.phase = .fetched ∧ t.schedule ∈ db.schedules)
  next : db.nextTaskId ≤ db'.nextTaskId
  tasks : ∀ taskId < db.nextTaskId, taskId ∈ db'.tasks → taskId ∈ db.tasks
  delivered : db'.delivered.count s = db.delivered.count s

theorem Aside.orderly (h : Aside s db db') (ho : db.Orderly s target) : db'.Orderly s target := by
  have hholds : ∀ i, db'.Holds s i → db.Holds s i := by
    rintro i ⟨t, ht, hid, hp⟩
    rcases h.triggers i t ht hid with hold | ⟨hnew, -⟩
    · exact ⟨t, hold, hid, hp⟩
    · rw [hnew] at hp
      cases hp
  constructor
  · intro r' hr' hid
    obtain ⟨r, hr, hrid, hone, hcont, -⟩ := h.rows r' hr' hid
    rw [hone, hcont]
    exact ho.rows r hr hrid
  · intro i t ht hid
    rcases h.triggers i t ht hid with hold | ⟨-, hrow⟩
    · exact ho.reads i t hold hid
    · exact ho.rows _ hrow hid
  · intro i t ht hid x hx
    rcases h.triggers i t ht hid with hold | ⟨hnew, -⟩
    · exact ho.targets i t hold hid x hx
    · rw [hnew] at hx
      cases hx
  · intro taskId htarget
    exact (ho.fresh taskId htarget).trans_le h.next
  · intro i j hi hj
    exact ho.single i j (hholds i hi) (hholds j hj)
  · rw [h.delivered]
    exact ho.once
  · intro i t ht hid hw
    rcases h.triggers i t ht hid with hold | ⟨hnew, -⟩
    · exact (ho.waiting i t hold hid hw).mono h.delivered ho.fresh h.tasks
    · rw [hnew] at hw
      cases hw
  · rintro hfree ⟨r', hr', hid, hzero⟩
    obtain ⟨r, hr, hrid, -, -, hcount⟩ := h.rows r' hr' hid
    refine (ho.idle ?_ ⟨r, hr, hrid, hcount hzero⟩).mono h.delivered ho.fresh h.tasks
    rintro i ⟨t, ht, htid, hp⟩
    exact hfree i ⟨t, h.kept i t ht htid, htid, hp⟩

theorem Aside.of_eq (hs : db'.schedules = db.schedules) (ht : db'.triggers = db.triggers)
    (hd : db'.delivered = db.delivered) (hn : db.nextTaskId ≤ db'.nextTaskId)
    (htasks : ∀ taskId < db.nextTaskId, taskId ∈ db'.tasks → taskId ∈ db.tasks) :
    Aside s db db' where
  rows r' hr' hid := ⟨r', hs ▸ hr', hid, rfl, rfl, fun h => h⟩
  kept _ _ h _ := by rw [ht]; exact h
  triggers _ _ h _ := Or.inl (by rw [← ht]; exact h)
  next := hn
  tasks := htasks
  delivered := by rw [hd]

theorem Aside.refl (s : String) (db : Store) : Aside s db db :=
  .of_eq rfl rfl rfl le_rfl fun _ _ h => h

/-- Rows of the schedule keep their fixed columns and their counter. -/
theorem update_aside {w : Schedule → Bool} {set : Schedule → Schedule}
    (hset : ∀ r, (set r).id = r.id ∧ (set r).oneShot = r.oneShot ∧
      (set r).continuationTaskId = r.continuationTaskId)
    (hcount : ∀ r, r.id = s → w r → (set r).runCount = r.runCount) :
    Aside s db (db.update w set) where
  rows r' hr' hid := by
    obtain ⟨r, hr, rfl⟩ := List.mem_map.1 hr'
    by_cases hw : w r
    · simp only [hw, if_true] at hid ⊢
      obtain ⟨hrid, hone, hcont⟩ := hset r
      have hrs : r.id = s := hrid ▸ hid
      exact ⟨r, hr, hrs, hone, hcont, fun h => hcount r hrs hw ▸ h⟩
    · simp only [hw, Bool.false_eq_true, if_false] at hid ⊢
      exact ⟨r, hr, hid, rfl, rfl, fun h => h⟩
  kept _ _ h _ := h
  triggers _ _ h _ := Or.inl h
  next := le_rfl
  tasks _ _ h := h
  delivered := rfl

theorem addTask_aside : Aside s db db.addTask := by
  refine .of_eq rfl rfl rfl (Nat.le_succ _) ?_
  intro taskId hlt hmem
  rcases List.mem_append.1 hmem with hmem | hnew
  · exact hmem
  · rw [List.mem_singleton] at hnew
    omega

theorem removeTask_aside {taskId : ℕ} : Aside s db (db.removeTask taskId) :=
  .of_eq rfl rfl rfl le_rfl fun _ _ h => (List.mem_filter.1 h).1

theorem handOver_aside {id : String} (h : id ≠ s) : Aside s db (db.handOver id) where
  rows r hr hid := ⟨r, hr, hid, rfl, rfl, fun h => h⟩
  kept _ _ h _ := h
  triggers _ _ h _ := Or.inl h
  next := le_rfl
  tasks _ _ h := h
  delivered := by simp [handOver, h]

theorem delete_aside {id : String} :
    Aside s db { db with schedules := db.schedules.filter (·.id ≠ id) } where
  rows r hr hid := ⟨r, (List.mem_filter.1 hr).1, hid, rfl, rfl, fun h => h⟩
  kept _ _ h _ := h
  triggers _ _ h _ := Or.inl h
  next := le_rfl
  tasks _ _ h := h
  delivered := rfl

theorem fetch_aside {id : String} : Aside s db (db.fetch id) := by
  unfold fetch
  split
  · exact .refl s db
  · rename_i r hr
    refine ⟨fun r hr hid => ⟨r, hr, hid, rfl, rfl, fun h => h⟩, ?_, ?_, le_rfl,
      fun _ _ h => h, rfl⟩
    · intro _ _ ht _
      exact List.getElem?_append_left (List.getElem?_eq_some_iff.1 ht).1 ▸ ht
    · intro i t ht _
      by_cases hlt : i < db.triggers.length
      · rw [List.getElem?_append_left hlt] at ht
        exact Or.inl ht
      · rw [List.getElem?_append_right (by omega)] at ht
        have hmem := List.mem_of_getElem? ht
        rw [List.mem_singleton] at hmem
        subst hmem
        exact Or.inr ⟨rfl, Table.mem_of_get hr⟩

theorem setEnabled_aside {id : String} {enabled accepts : Bool} :
    Aside s db (db.setEnabled id enabled accepts) := by
  unfold setEnabled
  split
  · exact .refl s db
  · split
    · exact .refl s db
    · have hupdate : Aside s db (db.update (·.id = id) fun r => { r with enabled := enabled }) :=
        update_aside (fun _ => ⟨rfl, rfl, rfl⟩) fun _ _ _ => rfl
      exact ⟨hupdate.rows, hupdate.kept, hupdate.triggers, hupdate.next, hupdate.tasks,
        hupdate.delivered⟩

/-- A trigger of another schedule goes on. -/
theorem goto_aside {db₁ : Store} {p : Phase} (h : Aside s db db₁) (htr : db₁.triggers = db.triggers)
    (ht : db.triggers[i]? = some t) (hid : t.schedule.id ≠ s) : Aside s db (db₁.goto i t p) where
  rows := h.rows
  kept j u hu huid := by
    rw [goto_get htr ht, if_neg]
    · exact hu
    · rintro rfl
      rw [ht] at hu
      cases hu
      exact hid huid
  triggers j u hu huid := by
    rcases goto_cases htr ht hu with ⟨-, rfl⟩ | ⟨-, hold⟩
    · exact absurd huid hid
    · exact Or.inl hold
  next := h.next
  tasks := h.tasks
  delivered := h.delivered

theorem advance_aside (ht : db.triggers[i]? = some t) (hid : t.schedule.id ≠ s) (ok : Bool) :
    Aside s db (db.advance i ok) := by
  have hstay (p : Phase) : Aside s db (db.goto i t p) := goto_aside (.refl s db) rfl ht hid
  have hclaim : Aside s db (db.claim t.schedule.id) :=
    update_aside (fun _ => ⟨rfl, rfl, rfl⟩) fun _ _ _ => rfl
  have hrelease : Aside s db (db.release t.schedule.id) :=
    update_aside (fun _ => ⟨rfl, rfl, rfl⟩) fun _ _ _ => rfl
  have hcounted : Aside s db (db.counted t.schedule.id) := by
    refine update_aside (fun _ => ⟨rfl, rfl, rfl⟩) fun r hr hw => ?_
    rw [decide_eq_true_eq] at hw
    exact absurd (hw.symm.trans hr) hid
  have hhand (p : Phase) : Aside s db ((db.handOver t.schedule.id).goto i t p) :=
    goto_aside (handOver_aside hid) rfl ht hid
  unfold advance
  rw [ht]
  dsimp only
  cases t.phase with
  | fetched =>
    dsimp only
    unfold advanceFetched
    split
    · split
      · exact goto_aside hclaim rfl ht hid
      · exact hstay _
    · exact hstay _
  | claimed =>
    dsimp only
    unfold advanceClaimed
    split
    · split
      · exact hstay _
      · exact hstay _
    · split
      · split
        · exact hhand _
        · exact hstay _
      · split
        · exact goto_aside addTask_aside rfl ht hid
        · exact hstay _
  | checked taskId =>
    dsimp only
    unfold advanceChecked
    split
    · exact goto_aside (.of_eq rfl rfl rfl le_rfl fun _ _ h => h) rfl ht hid
    · exact hstay _
  | noted taskId messageId =>
    dsimp only
    unfold advanceNoted
    split
    · exact hhand _
    · exact hstay _
  | refused messageId =>
    exact goto_aside (.of_eq rfl rfl rfl le_rfl fun _ _ h => h) rfl ht hid
  | sent taskId =>
    dsimp only
    split
    · exact hstay _
    · exact hstay _
  | created taskId =>
    dsimp only
    unfold advanceCreated
    split
    · exact hhand _
    · split
      · exact hstay _
      · exact hstay _
  | unqueued taskId => exact goto_aside hrelease rfl ht hid
  | removing taskId => exact goto_aside removeTask_aside rfl ht hid
  | failing => exact goto_aside hrelease rfl ht hid
  | counting => exact goto_aside hcounted rfl ht hid
  | finished => exact .refl s db

/-! ### What its own triggers do -/

theorem Moves.holds {db₁ : Store} {p : Phase} (hid : t.schedule.id = s)
    (ht : db.triggers[i]? = some t) (htr : db₁.triggers = db.triggers) {j : ℕ} :
    (db₁.goto i t p).Holds s j ↔ if j = i then p.holds = true else db.Holds s j := by
  unfold Holds
  rw [goto_get htr ht]
  by_cases hij : j = i
  · simp [hij, hid]
  · simp [hij]

theorem Moves.triggers {db₁ : Store} {p : Phase} (h : db.Moves t db₁ p) :
    db₁.triggers = db.triggers := by
  cases h with
  | prepare _ _ _ _ ht => exact ht
  | _ => rfl

theorem update_rows {w : Schedule → Bool} {set : Schedule → Schedule}
    (hset : ∀ r, (set r).id = r.id ∧ (set r).oneShot = r.oneShot ∧
      (set r).continuationTaskId = r.continuationTaskId)
    (h : ∀ r ∈ db.schedules, r.id = s → r.oneShot = true ∧ r.continuationTaskId = target) :
    ∀ r ∈ (db.update w set).schedules, r.id = s →
      r.oneShot = true ∧ r.continuationTaskId = target := by
  intro r' hr' hid
  obtain ⟨r, hr, rfl⟩ := List.mem_map.1 hr'
  by_cases hw : w r
  · simp only [hw, if_true] at hid ⊢
    obtain ⟨hrid, hone, hcont⟩ := hset r
    rw [hone, hcont]
    exact h r hr (hrid ▸ hid)
  · simp only [hw, Bool.false_eq_true, if_false] at hid ⊢
    exact h r hr hid

theorem Moves.rows {db₁ : Store} {p : Phase} (h : db.Moves t db₁ p) (ho : db.Orderly s target) :
    ∀ r ∈ db₁.schedules, r.id = s → r.oneShot = true ∧ r.continuationTaskId = target := by
  cases h with
  | claim => exact update_rows (fun _ => ⟨rfl, rfl, rfl⟩) ho.rows
  | prepare _ _ hs => rw [hs]; exact ho.rows
  | release => exact update_rows (fun _ => ⟨rfl, rfl, rfl⟩) ho.rows
  | count => exact update_rows (fun _ => ⟨rfl, rfl, rfl⟩) ho.rows
  | _ => exact ho.rows

theorem Moves.targets {db₁ : Store} {p : Phase} (h : db.Moves t db₁ p)
    (hcont : t.schedule.continuationTaskId = target) (hold : ∀ x ∈ t.phase.target, x = target) :
    ∀ x ∈ p.target, x = target := by
  intro x hx
  cases h with
  | prepare _ _ _ _ _ _ _ htarget =>
    rcases htarget x hx with heq | hmem
    · exact heq.trans hcont
    · exact hold x hmem
  | deliver _ _ _ htarget => exact hold x (htarget x hx)
  | release _ _ hnone => simp [hnone] at hx
  | _ => simp [Phase.target] at hx

theorem Moves.next {db₁ : Store} {p : Phase} (h : db.Moves t db₁ p) :
    db.nextTaskId ≤ db₁.nextTaskId := by
  cases h with
  | prepare _ _ _ _ _ hn => exact hn
  | _ => exact le_rfl

theorem Moves.tasks {db₁ : Store} {p : Phase} (h : db.Moves t db₁ p) :
    ∀ taskId < db.nextTaskId, taskId ∈ db₁.tasks → taskId ∈ db.tasks := by
  intro taskId hlt hmem
  cases h with
  | prepare _ _ _ _ _ _ hgone => exact hgone taskId hlt hmem
  | remove => exact (List.mem_filter.1 hmem).1
  | _ => exact hmem

/-- Nothing was handed over before a trigger hands the wake-up over. -/
theorem count_eq_zero (ho : db.Orderly s target) (ht : db.triggers[i]? = some t)
    (hid : t.schedule.id = s) (hw : t.phase.waiting = true)
    (htask : ∀ taskId, t.schedule.continuationTaskId = some taskId →
      ∃ x ∈ t.phase.target, x = none ∨ ∃ taskId ∈ db.tasks, x = some taskId) :
    db.delivered.count s = 0 := by
  rcases ho.waiting i t ht hid hw with hzero | ⟨taskId, htarget, hgone⟩
  · exact hzero
  · obtain ⟨x, hx, hnone | ⟨taskId', hmem, hsome⟩⟩ :=
      htask taskId ((ho.reads i t ht hid).2.trans htarget)
    · rw [ho.targets i t ht hid x hx, htarget] at hnone
      cases hnone
    · rw [ho.targets i t ht hid x hx, htarget] at hsome
      cases hsome
      exact absurd hmem hgone

theorem Moves.heir {db₁ : Store} {p : Phase} (h : db.Moves t db₁ p)
    (hfree : t.phase = .fetched → db.schedules.any (claimable t.schedule.id) = true →
      ∀ j, ¬db.Holds s j) (hp : p.holds = true) :
    t.phase.holds = true ∨ ∀ j, ¬db.Holds s j := by
  cases h with
  | claim hf hc => exact Or.inr (hfree hf hc)
  | prepare hw => exact Or.inl (by simp [Phase.holds, hw])
  | deliver hw => exact Or.inl (by simp [Phase.holds, hw])
  | confirm hs => exact Or.inl (by simp [Phase.holds, hs, Phase.handed])
  | lose hs => exact Or.inl (by simp [Phase.holds, hs, Phase.handed])
  | release _ hnone => simp [hnone] at hp
  | _ => simp [Phase.holds, Phase.waiting, Phase.handed] at hp

theorem Moves.once {db₁ : Store} {p : Phase} (h : db.Moves t db₁ p) (ho : db.Orderly s target)
    (ht : db.triggers[i]? = some t) (hid : t.schedule.id = s) : db₁.delivered.count s ≤ 1 := by
  cases h with
  | prepare _ _ _ hd => rw [hd]; exact ho.once
  | deliver hw _ htask _ =>
    have hzero := count_eq_zero ho ht hid hw htask
    simp [handOver, hid, hzero]
  | _ => exact ho.once

theorem Moves.unspent {db₁ : Store} {p : Phase} (h : db.Moves t db₁ p) (ho : db.Orderly s target)
    (hp : p.handed = false) (hu : db.Unspent s target) : db₁.Unspent s target := by
  refine hu.mono ?_ ho.fresh h.tasks
  cases h with
  | prepare _ _ _ hd => rw [hd]
  | deliver _ hhanded => simp [hhanded] at hp
  | confirm => rfl
  | _ => rfl

/-- The trigger that waits after a move has nothing handed over, or nothing to gain. -/
theorem Moves.waiting {db₁ : Store} {p : Phase} (h : db.Moves t db₁ p) (ho : db.Orderly s target)
    (ht : db.triggers[i]? = some t) (hid : t.schedule.id = s)
    (hfree : t.phase = .fetched → db.schedules.any (claimable t.schedule.id) = true →
      ∀ j, ¬db.Holds s j) (hp : p.waiting = true) : db₁.Unspent s target := by
  have hunspent : db.Unspent s target ∧ p.handed = false := by
    cases h with
    | claim hf hc =>
      refine ⟨ho.idle (hfree hf hc) ?_, rfl⟩
      obtain ⟨r, hr, hclaim⟩ := List.any_eq_true.1 hc
      simp only [claimable, Bool.and_eq_true, decide_eq_true_eq] at hclaim
      exact ⟨r, hr, hclaim.1.1.trans hid, hclaim.2⟩
    | prepare hw =>
      refine ⟨ho.waiting i t ht hid hw, ?_⟩
      cases p <;> simp [Phase.waiting, Phase.handed] at hp ⊢
    | deliver _ hhanded => cases p <;> simp [Phase.waiting, Phase.handed] at hp hhanded
    | lose hs hgone =>
      have htarget := ho.targets i t ht hid _ (by rw [hs]; rfl)
      exact ⟨Or.inr ⟨_, htarget.symm, hgone⟩, rfl⟩
    | release _ hnone => simp [Phase.holds, hp] at hnone
    | _ => simp [Phase.waiting] at hp
  exact h.unspent ho hunspent.2 hunspent.1

/-- When a move leaves nobody with the claim, a schedule that has not run is unspent. -/
theorem Moves.idle {db₁ : Store} {p : Phase} (h : db.Moves t db₁ p) (ho : db.Orderly s target)
    (ht : db.triggers[i]? = some t) (hid : t.schedule.id = s) (hp : p.holds = false)
    (hothers : ∀ j, j ≠ i → ¬db.Holds s j)
    (hrow : ∃ r ∈ db₁.schedules, r.id = s ∧ r.runCount = 0) : db₁.Unspent s target := by
  have hhanded : p.handed = false := by
    simp only [Phase.holds, Bool.or_eq_false_iff] at hp
    exact hp.2
  have hnobody (h₀ : t.phase.holds = false) : ∀ j, ¬db.Holds s j := by
    rintro j ⟨u, hu, huid, hup⟩
    by_cases hij : j = i
    · subst hij
      rw [ht] at hu
      cases hu
      rw [h₀] at hup
      cases hup
    · exact hothers j hij ⟨u, hu, huid, hup⟩
  apply h.unspent ho hhanded
  cases h with
  | refuse hf =>
    exact ho.idle (hnobody (by simp [hf, Phase.holds, Phase.waiting, Phase.handed])) hrow
  | remove hr =>
    exact ho.idle (hnobody (by simp [hr, Phase.holds, Phase.waiting, Phase.handed])) hrow
  | release hw => exact ho.waiting i t ht hid hw
  | count =>
    obtain ⟨r', hr', hrid, hzero⟩ := hrow
    obtain ⟨r, hr, rfl⟩ := List.mem_map.1 hr'
    by_cases hrs : r.id = t.schedule.id
    · simp [hrs] at hzero
    · simp only [hrs, decide_false, Bool.false_eq_true, if_false] at hrid
      exact absurd (hrid.trans hid.symm) hrs
  | prepare _ hw => simp [Phase.holds, hw] at hp
  | deliver _ hh => simp [Phase.holds, hh] at hp
  | _ => simp [Phase.holds, Phase.waiting, Phase.handed] at hp

theorem Moves.orderly {db₁ : Store} {p : Phase} (h : db.Moves t db₁ p) (ho : db.Orderly s target)
    (ht : db.triggers[i]? = some t) (hid : t.schedule.id = s)
    (hfree : t.phase = .fetched → db.schedules.any (claimable t.schedule.id) = true →
      ∀ j, ¬db.Holds s j) : (db₁.goto i t p).Orderly s target := by
  have htr := h.triggers
  have hheir := h.heir hfree
  have hself (h₀ : t.phase.holds = true) : db.Holds s i := ⟨t, ht, hid, h₀⟩
  constructor
  · exact h.rows ho
  · intro j u hu huid
    rcases goto_cases htr ht hu with ⟨-, rfl⟩ | ⟨-, hold⟩
    · exact ho.reads i t ht hid
    · exact ho.reads j u hold huid
  · intro j u hu huid
    rcases goto_cases htr ht hu with ⟨-, rfl⟩ | ⟨-, hold⟩
    · exact h.targets (ho.reads i t ht hid).2 (ho.targets i t ht hid)
    · exact ho.targets j u hold huid
  · intro taskId htarget
    exact (ho.fresh taskId htarget).trans_le h.next
  · intro j k hj hk
    rw [Moves.holds hid ht htr] at hj hk
    by_cases hji : j = i
    · by_cases hki : k = i
      · rw [hji, hki]
      · rw [if_pos hji] at hj
        rw [if_neg hki] at hk
        rcases hheir hj with h₀ | hnone
        · exact absurd (ho.single k i hk (hself h₀)) hki
        · exact absurd hk (hnone k)
    · rw [if_neg hji] at hj
      by_cases hki : k = i
      · rw [if_pos hki] at hk
        rcases hheir hk with h₀ | hnone
        · exact absurd (ho.single j i hj (hself h₀)) hji
        · exact absurd hj (hnone j)
      · rw [if_neg hki] at hk
        exact ho.single j k hj hk
  · exact h.once ho ht hid
  · intro j u hu huid hw
    rcases goto_cases htr ht hu with ⟨-, rfl⟩ | ⟨hne, hold⟩
    · exact h.waiting ho ht hid hfree hw
    · -- another trigger waits, so this one has nothing to hand over
      have hother : db.Holds s j := ⟨u, hold, huid, by simp [Phase.holds, hw]⟩
      refine h.unspent ho ?_ (ho.waiting j u hold huid hw)
      by_contra hhanded
      rcases hheir (by simp [Phase.holds, Bool.not_eq_false _ ▸ hhanded]) with h₀ | hnone
      · exact hne (ho.single j i hother (hself h₀))
      · exact hnone j hother
  · intro hnone hrow
    have hp : p.holds = false := by
      by_contra hp
      exact hnone i ((Moves.holds hid ht htr).2 (by rw [if_pos rfl]; simpa using hp))
    refine h.idle ho ht hid hp (fun j hji hj => ?_) hrow
    exact hnone j ((Moves.holds hid ht htr).2 (by rw [if_neg hji]; exact hj))

/-! ## Calls of `enable` and `disable` -/

/-- The last call that enabled or disabled the schedule. -/
def lastCall (db : Store) (id : String) : Option Bool :=
  (db.calls.filter (·.1 = id)).getLast?.map (·.2)

/-- A schedule whose last call was a `disable` is disabled. -/
def Obeyed (db : Store) : Prop :=
  ∀ r ∈ db.schedules, db.lastCall r.id = some false → r.enabled = false

/-- The step sets the claim of the trigger free. -/
def releases : Phase → Bool
  | .unqueued _ | .failing => true
  | _ => false

/-- Some row is enabled by the release of a claim. -/
def reopened (db : Store) (id : String) : Bool :=
  db.schedules.any fun r => r.id = id && r.runCount = 0

theorem lastCall_concat {id id' : String} {b : Bool}
    (hcalls : db'.calls = db.calls ++ [(id', b)]) :
    db'.lastCall id = if id' = id then some b else db.lastCall id := by
  by_cases hid : id' = id <;> simp [lastCall, hcalls, List.filter_append, hid]

/-- The rows after the step of a trigger. -/
theorem advance_schedules (ht : db.triggers[i]? = some t) (ok : Bool) :
    (db.advance i ok).calls = db.calls ∧
      ((db.advance i ok).schedules = db.schedules ∨
        (db.advance i ok).schedules = (db.claim t.schedule.id).schedules ∨
        (db.advance i ok).schedules = (db.counted t.schedule.id).schedules ∨
        (releases t.phase = true ∧
          (db.advance i ok).schedules = (db.release t.schedule.id).schedules)) := by
  unfold advance
  rw [ht]
  dsimp only
  cases t.phase with
  | fetched =>
    dsimp only
    unfold advanceFetched
    split
    · split
      · exact ⟨rfl, Or.inr (Or.inl rfl)⟩
      · exact ⟨rfl, Or.inl rfl⟩
    · exact ⟨rfl, Or.inl rfl⟩
  | claimed =>
    dsimp only
    unfold advanceClaimed
    split
    · split <;> exact ⟨rfl, Or.inl rfl⟩
    · split <;> split <;> exact ⟨rfl, Or.inl rfl⟩
  | checked taskId =>
    dsimp only
    unfold advanceChecked
    split <;> exact ⟨rfl, Or.inl rfl⟩
  | noted taskId messageId =>
    dsimp only
    unfold advanceNoted
    split <;> exact ⟨rfl, Or.inl rfl⟩
  | sent taskId =>
    dsimp only
    split <;> exact ⟨rfl, Or.inl rfl⟩
  | created taskId =>
    dsimp only
    unfold advanceCreated
    split
    · exact ⟨rfl, Or.inl rfl⟩
    · split <;> exact ⟨rfl, Or.inl rfl⟩
  | unqueued taskId => exact ⟨rfl, Or.inr (Or.inr (Or.inr ⟨rfl, rfl⟩))⟩
  | failing => exact ⟨rfl, Or.inr (Or.inr (Or.inr ⟨rfl, rfl⟩))⟩
  | counting => exact ⟨rfl, Or.inr (Or.inr (Or.inl rfl))⟩
  | _ => exact ⟨rfl, Or.inl rfl⟩

theorem Obeyed.of_rows (h : db.Obeyed) (hcalls : db'.calls = db.calls)
    (hrows : ∀ r' ∈ db'.schedules, ∃ r ∈ db.schedules, r'.id = r.id ∧
      (db.lastCall r.id = some false → r.enabled = false → r'.enabled = false)) : db'.Obeyed := by
  intro r' hr' hlast
  obtain ⟨r, hr, hid, hoff⟩ := hrows r' hr'
  have hlast' : db.lastCall r.id = some false := by
    rw [← hid, lastCall, ← hcalls]
    exact hlast
  exact hoff hlast' (h r hr hlast')

theorem update_obeyed {w : Schedule → Bool} {set : Schedule → Schedule} {rows : List Schedule}
    (hrows : rows = (db.update w set).schedules) (hid : ∀ r, (set r).id = r.id)
    (hoff : ∀ r ∈ db.schedules, w r → db.lastCall r.id = some false → r.enabled = false →
      (set r).enabled = false) :
    ∀ r' ∈ rows, ∃ r ∈ db.schedules, r'.id = r.id ∧
      (db.lastCall r.id = some false → r.enabled = false → r'.enabled = false) := by
  subst hrows
  intro r' hr'
  obtain ⟨r, hr, rfl⟩ := List.mem_map.1 hr'
  refine ⟨r, hr, ?_⟩
  by_cases hw : w r
  · simp only [hw, if_true]
    exact ⟨hid r, hoff r hr hw⟩
  · simp [hw]

theorem advance_obeyed (h : db.Obeyed) (ht : db.triggers[i]? = some t) (ok : Bool)
    (hrelease : releases t.phase = true → db.reopened t.schedule.id = true →
      db.lastCall t.schedule.id ≠ some false) : (db.advance i ok).Obeyed := by
  obtain ⟨hcalls, hrows⟩ := advance_schedules ht ok
  apply h.of_rows hcalls
  rcases hrows with hsame | hclaim | hcounted | ⟨hrel, hreleased⟩
  · intro r hr
    exact ⟨r, hsame ▸ hr, rfl, fun _ h => h⟩
  · exact update_obeyed hclaim (fun _ => rfl) fun _ _ _ _ _ => rfl
  · refine update_obeyed hcounted (fun _ => rfl) fun r _ _ _ hoff => ?_
    simp [hoff]
  · refine update_obeyed hreleased (fun _ => rfl) fun r hr hw hlast => ?_
    have hid : r.id = t.schedule.id := by
      simp only [Bool.and_eq_true, decide_eq_true_eq] at hw
      exact hw.1
    have hopen : db.reopened t.schedule.id = true :=
      List.any_eq_true.2 ⟨r, hr, by rwa [hid] at hw ⊢⟩
    rw [hid] at hlast
    exact absurd hlast (hrelease hrel hopen)

theorem setEnabled_obeyed (h : db.Obeyed) (id : String) (enabled accepts : Bool) :
    (db.setEnabled id enabled accepts).Obeyed := by
  unfold setEnabled
  split
  · exact h
  · split
    · exact h
    · intro r' hr' hlast
      rw [@lastCall_concat db _ r'.id id enabled rfl] at hlast
      obtain ⟨r, hr, rfl⟩ := List.mem_map.1 hr'
      by_cases hid : r.id = id
      · simp only [hid, decide_true, if_true, Option.some.injEq] at hlast ⊢
        exact hlast
      · simp only [hid, decide_false, Bool.false_eq_true, if_false, Ne.symm hid] at hlast ⊢
        exact h r hr hlast

end Store

/-! ## Runs -/

/-- Some trigger holds the claim of the schedule. -/
def Store.held (db : Store) (id : String) : Bool :=
  db.triggers.any fun t => t.schedule.id = id && t.phase.holds

theorem Store.not_holds_of_held {db : Store} {id : String} (h : db.held id = false) (i : ℕ) :
    ¬db.Holds id i := by
  rintro ⟨t, ht, hid, hp⟩
  have hfree := List.any_eq_false.1 h t (List.mem_of_getElem? ht)
  simp [hid, hp] at hfree

/-- The next call of the trigger does not claim a schedule that another trigger holds, and
does not enable one that was disabled meanwhile. -/
def Store.Clear (db : Store) (t : Trigger) : Prop :=
  (t.phase = .fetched → t.schedule.oneShot = true →
    db.schedules.any (Store.claimable t.schedule.id) = true → db.held t.schedule.id = false) ∧
  (Store.releases t.phase = true → db.reopened t.schedule.id = true →
    db.lastCall t.schedule.id ≠ some false)

instance (db : Store) (t : Trigger) : Decidable (db.Clear t) := inferInstanceAs (Decidable (_ ∧ _))

/-- The trigger that goes on. -/
def Op.advances : Op → Option ℕ
  | .advance i _ => some i
  | _ => none

def Op.Clear (db : Store) (op : Op) : Prop :=
  ∀ i ∈ op.advances, ∀ t ∈ db.triggers[i]?, db.Clear t

instance (db : Store) (op : Op) : Decidable (op.Clear db) :=
  inferInstanceAs (Decidable (∀ i ∈ op.advances, ∀ t ∈ db.triggers[i]?, db.Clear t))

theorem step_orderly {db : Store} {s : String} {target : Option ℕ} {op : Op}
    (ho : db.Orderly s target) (hop : op.Clear db) : (step db op).Orderly s target := by
  cases op with
  | advance i ok =>
    cases ht : db.triggers[i]? with
    | none =>
      have hstay : db.advance i ok = db := by rw [Store.advance, ht]
      rw [step, hstay]
      exact ho
    | some t =>
      by_cases hid : t.schedule.id = s
      · obtain ⟨hone, -⟩ := ho.reads i t ht hid
        obtain hstay | ⟨db₁, p, hmove, hgoto⟩ := Store.advance_moves ht hone ok
        · rw [step, hstay]
          exact ho
        · rw [step, hgoto]
          refine hmove.orderly ho ht hid fun hf hc j => ?_
          rw [← hid]
          exact Store.not_holds_of_held ((hop i rfl t ht).1 hf hone hc) j
      · exact (Store.advance_aside ht hid ok).orderly ho
  | trigger id => exact Store.fetch_aside.orderly ho
  | enable id accepts => exact Store.setEnabled_aside.orderly ho
  | disable id => exact Store.setEnabled_aside.orderly ho
  | delete id => exact Store.delete_aside.orderly ho
  | createTask => exact Store.addTask_aside.orderly ho
  | deleteTask taskId => exact Store.removeTask_aside.orderly ho

theorem step_obeyed {db : Store} {op : Op} (h : db.Obeyed) (hop : op.Clear db) :
    (step db op).Obeyed := by
  cases op with
  | advance i ok =>
    cases ht : db.triggers[i]? with
    | none =>
      have hstay : db.advance i ok = db := by rw [Store.advance, ht]
      rw [step, hstay]
      exact h
    | some t => exact Store.advance_obeyed h ht ok (hop i rfl t ht).2
  | trigger id =>
    have hfetched : (db.fetch id).calls = db.calls ∧ (db.fetch id).schedules = db.schedules := by
      unfold Store.fetch
      split
      · exact ⟨rfl, rfl⟩
      · exact ⟨rfl, rfl⟩
    exact h.of_rows hfetched.1 fun r hr => ⟨r, hfetched.2 ▸ hr, rfl, fun _ h => h⟩
  | enable id accepts => exact Store.setEnabled_obeyed h id true accepts
  | disable id => exact Store.setEnabled_obeyed h id false true
  | delete id => exact fun r hr => h r (List.mem_filter.1 hr).1
  | createTask => exact h
  | deleteTask taskId => exact h

/-- Schedules as they were created, before any trigger. -/
structure Store.Fresh (db : Store) : Prop where
  keys : (db.schedules.map (·.id)).Nodup
  targets : ∀ r ∈ db.schedules, ∀ taskId ∈ r.continuationTaskId, taskId < db.nextTaskId
  triggers : db.triggers = []
  delivered : db.delivered = []
  calls : db.calls = []

theorem Store.Fresh.orderly {db : Store} (h : db.Fresh) {r : Schedule} (hr : r ∈ db.schedules)
    (hone : r.oneShot = true) : db.Orderly r.id r.continuationTaskId := by
  have hkey : ∀ r' ∈ db.schedules, r'.id = r.id → r' = r := fun r' hr' hid =>
    List.inj_on_of_nodup_map h.keys hr' hr hid
  have hnone (i : ℕ) (t : Trigger) : ¬db.triggers[i]? = some t := by simp [h.triggers]
  have hzero : db.delivered.count r.id = 0 := by simp [h.delivered]
  constructor
  · intro r' hr' hid
    rw [hkey r' hr' hid]
    exact ⟨hone, rfl⟩
  · exact fun i t ht => absurd ht (hnone i t)
  · exact fun i t ht => absurd ht (hnone i t)
  · exact h.targets r hr
  · rintro i j ⟨t, ht, -⟩
    exact absurd ht (hnone i t)
  · omega
  · exact fun i t ht => absurd ht (hnone i t)
  · exact fun _ _ => Or.inl hzero

/-- **A one-shot wake-up fires at most once.**  In every run whose triggers claim no schedule
that another trigger still holds and release none that was disabled meanwhile, every one-shot
schedule is delivered at most once, and a schedule whose last call was a `disable` stays
disabled. -/
theorem one_shot_fires_once {db : Store} (hdb : db.Fresh) (ops : List Op)
    (hrun : Along step (fun db op => op.Clear db) db ops) :
    (∀ r ∈ db.schedules, r.oneShot = true → (runOps step db ops).delivered.count r.id ≤ 1) ∧
      ∀ r ∈ (runOps step db ops).schedules,
        (runOps step db ops).lastCall r.id = some false → r.enabled = false := by
  constructor
  · intro r hr hone
    have horderly := hrun.invariant (I := fun db => db.Orderly r.id r.continuationTaskId)
      (fun _ _ ho hop => step_orderly ho hop) (hdb.orderly hr hone)
    exact horderly.once
  · have hinit : db.Obeyed := by
      intro r _ hlast
      simp [Store.lastCall, hdb.calls] at hlast
    exact hrun.invariant (fun _ _ h hop => step_obeyed h hop) hinit

/-- One wake-up that creates a task. -/
def oneWakeUp : Store where
  schedules := [{ id := "wake", oneShot := true }]

theorem fresh_oneWakeUp : oneWakeUp.Fresh := by
  constructor <;> simp [oneWakeUp]

/-- A first trigger fails, a second one delivers, and a third one finds the schedule run. -/
def triggeredThrice : List Op :=
  [.trigger "wake", .advance 0 true, .advance 0 false, .advance 0 true,
   .trigger "wake", .advance 1 true, .advance 1 true, .advance 1 true, .advance 1 true,
   .enable "wake" true, .trigger "wake", .advance 2 true]

theorem triggeredThrice_once :
    (runOps step oneWakeUp triggeredThrice).delivered.count "wake" ≤ 1 :=
  (one_shot_fires_once fresh_oneWakeUp triggeredThrice (by decide +kernel)).1
    { id := "wake", oneShot := true } (by decide) rfl

/-- The schedule is enabled and triggered again while the first trigger is at work. -/
def enabledMeanwhile : List Op :=
  [.trigger "wake", .advance 0 true, .enable "wake" true, .trigger "wake", .advance 1 true,
   .advance 0 true, .advance 0 true, .advance 1 true, .advance 1 true]

/-- The schedule is disabled while a trigger is at work that then fails. -/
def disabledMeanwhile : List Op :=
  [.trigger "wake", .advance 0 true, .disable "wake", .advance 0 false, .advance 0 true]

theorem enable_and_disable_meanwhile :
    (runOps step oneWakeUp enabledMeanwhile).delivered = ["wake", "wake"] ∧
      (runOps step oneWakeUp disabledMeanwhile).calls = [("wake", false)] ∧
      (runOps step oneWakeUp disabledMeanwhile).schedules.map (·.enabled) = [true] ∧
      (runOps step oneWakeUp disabledMeanwhile).delivered = [] := by
  decide +kernel

end XpressClaw.Schedules
