import XpressClaw.Schedules.OneShot

/-!
# A one-shot wake-up and a restart

A restart loses the triggers in flight and keeps the tables.  The claim of a one-shot schedule
is committed before the wake-up is handed over, and nothing at startup looks for claimed
schedules, so what is in the tables between the two says that there is nothing left to do.

* `Store.Survives` — the wake-up was handed over, or a later check still claims the schedule.
* `Store.Owing` — a trigger holds the claim and has not handed over the wake-up.
* `wake_up_survives_crash` — at any point of any run a restart keeps the wake-up exactly when
  no trigger owes it, and then the next trigger that meets no failure hands it over.
-/

namespace XpressClaw.Schedules

open Lib

/-- The control plane starts again: the triggers in flight are gone, the tables stay. -/
def Store.restart (db : Store) : Store := { db with triggers := [] }

/-- A database call, or a crash followed by a restart. -/
inductive Event where
  | call (op : Op)
  | crash
  deriving DecidableEq

def Event.step (db : Store) : Event → Store
  | .call op => Schedules.step db op
  | .crash => db.restart

namespace Store

variable {db db₁ db' : Store} {s : String} {i : ℕ} {t : Trigger} {p : Phase} {target : Option ℕ}

/-- The wake-up was handed over, or the schedule is enabled and has not run. -/
def Survives (db : Store) (s : String) : Prop :=
  s ∈ db.delivered ∨ db.schedules.any (claimable s) = true

/-- A trigger claimed the schedule and has neither handed over the wake-up nor released the
claim. -/
def Owing (db : Store) (s : String) : Prop :=
  s ∉ db.delivered ∧ ∃ t ∈ db.triggers, t.schedule.id = s ∧ t.phase.waiting = true

instance (db : Store) (s : String) : Decidable (db.Owing s) := inferInstanceAs (Decidable (_ ∧ _))

instance (db : Store) (s : String) : Decidable (db.Survives s) :=
  inferInstanceAs (Decidable (_ ∨ _))

/-! ## The invariant -/

/-- Nobody holds the claim, and a trigger can take it. -/
def Open (db : Store) (s : String) : Prop :=
  db.schedules.any (claimable s) = true ∧ ∀ i, ¬db.Holds s i

/-- One trigger holds the claim, and its release opens the schedule again. -/
structure Claimed (db : Store) (s : String) (i : ℕ) : Prop where
  holds : db.Holds s i
  alone : ∀ j, db.Holds s j → j = i
  shut : db.schedules.any (claimable s) = false
  row : ∃ r ∈ db.schedules, r.id = s ∧ r.runCount = 0

/-- **The invariant of a one-shot schedule that only its triggers change.** -/
structure Tended (db : Store) (s : String) (target : Option ℕ) : Prop where
  rows : ∀ r ∈ db.schedules, r.id = s → r.oneShot = true ∧ r.continuationTaskId = target
  reads : ∀ (i : ℕ) (t : Trigger), db.triggers[i]? = some t → t.schedule.id = s →
    t.schedule.oneShot = true
  paid : ∀ (i : ℕ) (t : Trigger), db.triggers[i]? = some t → t.schedule.id = s →
    t.phase.handed = true → s ∈ db.delivered
  kept : s ∈ db.delivered ∨ db.Open s ∨ ∃ i, db.Claimed s i

theorem any_claimable_iff :
    db.schedules.any (claimable s) = true ↔
      ∃ r ∈ db.schedules, r.id = s ∧ r.enabled = true ∧ r.runCount = 0 := by
  simp [claimable, and_assoc]

/-- Without a trigger that waits, an undelivered wake-up is open. -/
theorem Tended.survives_iff (h : db.Tended s target) : db.Survives s ↔ ¬db.Owing s := by
  constructor
  · rintro hsurvives ⟨hnot, t, ht, hid, hw⟩
    obtain ⟨i, hi⟩ := List.getElem?_of_mem ht
    have hholds : db.Holds s i := ⟨t, hi, hid, by simp [Phase.holds, hw]⟩
    have hopen : db.schedules.any (claimable s) = true := hsurvives.resolve_left hnot
    rcases h.kept with hin | ⟨-, hfree⟩ | ⟨j, hj⟩
    · exact hnot hin
    · exact hfree i hholds
    · rw [hj.shut] at hopen
      cases hopen
  · intro howes
    rcases h.kept with hin | ⟨hopen, -⟩ | ⟨i, hi⟩
    · exact Or.inl hin
    · exact Or.inr hopen
    · obtain ⟨t, ht, hid, hp⟩ := hi.holds
      left
      by_contra hnot
      have hw : t.phase.waiting = true := by
        rw [Phase.holds, Bool.or_eq_true] at hp
        exact hp.resolve_right fun hh => hnot (h.paid i t ht hid hh)
      exact howes ⟨hnot, t, List.mem_of_getElem? ht, hid, hw⟩

/-! ### Steps beside the schedule -/

/-- Steps that leave the rows of the schedule and its triggers alone. -/
theorem Tended.of_aside (h : db.Tended s target) (ha : Aside s db db')
    (hrows : ∀ r, r.id = s → (r ∈ db'.schedules ↔ r ∈ db.schedules)) : db'.Tended s target := by
  have hmem : s ∈ db'.delivered ↔ s ∈ db.delivered := by
    rw [← List.count_pos_iff, ← List.count_pos_iff, ha.delivered]
  have hholds (i : ℕ) : db'.Holds s i ↔ db.Holds s i := by
    constructor
    · rintro ⟨t, ht, hid, hp⟩
      rcases ha.triggers i t ht hid with hold | ⟨hnew, -⟩
      · exact ⟨t, hold, hid, hp⟩
      · rw [hnew] at hp
        cases hp
    · rintro ⟨t, ht, hid, hp⟩
      exact ⟨t, ha.kept i t ht hid, hid, hp⟩
  have hclaim : db'.schedules.any (claimable s) = db.schedules.any (claimable s) := by
    rw [Bool.eq_iff_iff, any_claimable_iff, any_claimable_iff]
    constructor
    · rintro ⟨r, hr, hid, hrest⟩
      exact ⟨r, (hrows r hid).1 hr, hid, hrest⟩
    · rintro ⟨r, hr, hid, hrest⟩
      exact ⟨r, (hrows r hid).2 hr, hid, hrest⟩
  constructor
  · intro r hr hid
    exact h.rows r ((hrows r hid).1 hr) hid
  · intro i t ht hid
    rcases ha.triggers i t ht hid with hold | ⟨-, hrow⟩
    · exact h.reads i t hold hid
    · exact (h.rows _ hrow hid).1
  · intro i t ht hid hp
    rcases ha.triggers i t ht hid with hold | ⟨hnew, -⟩
    · exact hmem.2 (h.paid i t hold hid hp)
    · rw [hnew] at hp
      cases hp
  · rcases h.kept with hin | ⟨hopen, hfree⟩ | ⟨i, hi⟩
    · exact Or.inl (hmem.2 hin)
    · exact Or.inr (Or.inl ⟨hclaim.trans hopen, fun i hh => hfree i ((hholds i).1 hh)⟩)
    · refine Or.inr (Or.inr ⟨i, (hholds i).2 hi.holds, fun j hj => hi.alone j ((hholds j).1 hj),
        hclaim.trans hi.shut, ?_⟩)
      obtain ⟨r, hr, hid, hzero⟩ := hi.row
      exact ⟨r, (hrows r hid).2 hr, hid, hzero⟩

/-- An update of other rows. -/
theorem mem_update_of_ne {w : Schedule → Bool} {set : Schedule → Schedule}
    {rows : List Schedule} (hrows : rows = (db.update w set).schedules)
    (hid : ∀ r, (set r).id = r.id) (hw : ∀ r, w r = true → r.id ≠ s) (r : Schedule)
    (hr : r.id = s) : r ∈ rows ↔ r ∈ db.schedules := by
  subst hrows
  constructor
  · intro hmem
    obtain ⟨r₀, hr₀, rfl⟩ := List.mem_map.1 hmem
    by_cases hw₀ : w r₀ = true
    · rw [if_pos hw₀, hid] at hr
      exact absurd hr (hw r₀ hw₀)
    · rwa [if_neg hw₀]
  · intro hmem
    refine List.mem_map.2 ⟨r, hmem, if_neg fun hwr => hw r hwr hr⟩

theorem advance_tended_of_ne (h : db.Tended s target) (ht : db.triggers[i]? = some t)
    (hid : t.schedule.id ≠ s) (ok : Bool) : (db.advance i ok).Tended s target := by
  refine h.of_aside (advance_aside ht hid ok) fun r hr => ?_
  have hother {w : Schedule → Bool} (hw : ∀ r, w r = true → r.id = t.schedule.id) (r : Schedule)
      (hwr : w r = true) : r.id ≠ s := by
    rw [hw r hwr]
    exact hid
  rcases (advance_schedules ht ok).2 with hs | hs | hs | ⟨-, hs⟩
  · rw [hs]
  · refine mem_update_of_ne hs (fun _ => rfl) (hother fun r hr => ?_) r hr
    simp only [claimable, Bool.and_eq_true, decide_eq_true_eq] at hr
    exact hr.1.1
  · exact mem_update_of_ne hs (fun _ => rfl) (hother fun r hr => by simpa using hr) r hr
  · refine mem_update_of_ne hs (fun _ => rfl) (hother fun r hr => ?_) r hr
    simp only [Bool.and_eq_true, decide_eq_true_eq] at hr
    exact hr.1

theorem setEnabled_tended {id : String} (h : db.Tended s target) (hid : id ≠ s)
    (enabled accepts : Bool) : (db.setEnabled id enabled accepts).Tended s target := by
  refine h.of_aside setEnabled_aside fun r hr => ?_
  unfold setEnabled
  split
  · rfl
  · split
    · rfl
    · have hrows : (db.update (·.id = id) fun r => { r with enabled := enabled }).schedules =
          (db.update (·.id = id) fun r => { r with enabled := enabled }).schedules := rfl
      refine mem_update_of_ne hrows (fun _ => rfl) (fun r hw => ?_) r hr
      rw [decide_eq_true_eq] at hw
      rw [hw]
      exact hid

theorem delete_tended {id : String} (h : db.Tended s target) (hid : id ≠ s) :
    ({ db with schedules := db.schedules.filter (·.id ≠ id) } : Store).Tended s target := by
  refine h.of_aside delete_aside fun r hr => ?_
  rw [List.mem_filter, and_iff_left]
  simp [hr, Ne.symm hid]

theorem fetch_tended {id : String} (h : db.Tended s target) : (db.fetch id).Tended s target := by
  refine h.of_aside fetch_aside fun r _ => ?_
  unfold fetch
  split <;> rfl

/-! ### Steps of its own triggers -/

/-- A trigger that goes on without holding a claim before or after. -/
theorem holds_goto_of_not (hid : t.schedule.id = s) (ht : db.triggers[i]? = some t)
    (htr : db₁.triggers = db.triggers) (hold : t.phase.holds = false) (hnew : p.holds = false)
    (j : ℕ) : (db₁.goto i t p).Holds s j ↔ db.Holds s j := by
  rw [Moves.holds hid ht htr]
  by_cases hji : j = i
  · subst hji
    rw [if_pos rfl, hnew]
    simp only [Bool.false_eq_true, false_iff]
    rintro ⟨u, hu, -, hp⟩
    rw [ht] at hu
    cases hu
    rw [hold] at hp
    cases hp
  · rw [if_neg hji]

/-- What is kept while a trigger that does not hold the claim goes on. -/
theorem Tended.kept_of_not (h : db.Tended s target) (hid : t.schedule.id = s)
    (ht : db.triggers[i]? = some t) (htr : db₁.triggers = db.triggers)
    (hd : db₁.delivered = db.delivered) (hs : db₁.schedules = db.schedules)
    (hold : t.phase.holds = false) (hnew : p.holds = false) :
    s ∈ (db₁.goto i t p).delivered ∨ (db₁.goto i t p).Open s ∨
      ∃ j, (db₁.goto i t p).Claimed s j := by
  have hholds := holds_goto_of_not hid ht htr hold hnew
  have hrows : (db₁.goto i t p).schedules = db.schedules := hs
  rcases h.kept with hin | ⟨hopen, hfree⟩ | ⟨j, hj⟩
  · exact Or.inl (hd ▸ hin)
  · exact Or.inr (Or.inl ⟨hrows ▸ hopen, fun j hh => hfree j ((hholds j).1 hh)⟩)
  · exact Or.inr (Or.inr ⟨j, (hholds j).2 hj.holds, fun k hk => hj.alone k ((hholds k).1 hk),
      hrows ▸ hj.shut, hrows ▸ hj.row⟩)

theorem Tended.claimed_of_waiting (h : db.Tended s target) (hid : t.schedule.id = s)
    (ht : db.triggers[i]? = some t) (hw : t.phase.waiting = true) :
    s ∈ db.delivered ∨ db.Claimed s i := by
  have hself : db.Holds s i := ⟨t, ht, hid, by simp [Phase.holds, hw]⟩
  rcases h.kept with hin | ⟨-, hfree⟩ | ⟨j, hj⟩
  · exact Or.inl hin
  · exact absurd hself (hfree i)
  · exact Or.inr (hj.alone i hself ▸ hj)

theorem goto_claimed (hid : t.schedule.id = s) (ht : db.triggers[i]? = some t)
    (htr : db₁.triggers = db.triggers) (hp : p.holds = true)
    (hothers : ∀ j, db.Holds s j → j = i) (hshut : db₁.schedules.any (claimable s) = false)
    (hrow : ∃ r ∈ db₁.schedules, r.id = s ∧ r.runCount = 0) : (db₁.goto i t p).Claimed s i where
  holds := (Moves.holds hid ht htr).2 (by rw [if_pos rfl]; exact hp)
  alone j hj := by
    by_contra hji
    rw [Moves.holds hid ht htr, if_neg hji] at hj
    exact hji (hothers j hj)
  shut := hshut
  row := hrow

theorem any_claimable_claim : (db.claim s).schedules.any (claimable s) = false := by
  rw [List.any_eq_false]
  intro r' hr'
  obtain ⟨r, -, rfl⟩ := List.mem_map.1 hr'
  by_cases hw : claimable s r = true
  · rw [if_pos hw]
    simp [claimable]
  · rw [if_neg hw]
    exact hw

theorem any_claimable_release (h : ∃ r ∈ db.schedules, r.id = s ∧ r.runCount = 0) :
    (db.release s).schedules.any (claimable s) = true := by
  obtain ⟨r, hr, hid, hzero⟩ := h
  refine any_claimable_iff.2 ⟨_, List.mem_map.2 ⟨r, hr, rfl⟩, ?_⟩
  simp [hid, hzero]

/-- One move keeps track of the wake-up. -/
theorem Moves.kept (hm : db.Moves t db₁ p) (h : db.Tended s target)
    (ht : db.triggers[i]? = some t) (hid : t.schedule.id = s) :
    s ∈ (db₁.goto i t p).delivered ∨ (db₁.goto i t p).Open s ∨
      ∃ j, (db₁.goto i t p).Claimed s j := by
  cases hm with
  | refuse hf =>
    exact h.kept_of_not hid ht rfl rfl rfl
      (by simp [hf, Phase.holds, Phase.waiting, Phase.handed]) rfl
  | remove hr =>
    exact h.kept_of_not hid ht rfl rfl rfl
      (by simp [hr, Phase.holds, Phase.waiting, Phase.handed]) rfl
  | claim hf hc =>
    rw [hid] at hc ⊢
    rcases h.kept with hin | ⟨-, hfree⟩ | ⟨j, hj⟩
    · exact Or.inl hin
    · refine Or.inr (Or.inr ⟨i, goto_claimed hid ht rfl rfl (fun j hj => absurd hj (hfree j))
        any_claimable_claim ?_⟩)
      obtain ⟨r, hr, hrid, hen, hzero⟩ := any_claimable_iff.1 hc
      refine ⟨_, List.mem_map.2 ⟨r, hr, rfl⟩, ?_⟩
      simp [claimable, hrid, hen, hzero]
    · rw [hj.shut] at hc
      cases hc
  | prepare hw hp hs hd htr =>
    rcases h.claimed_of_waiting hid ht hw with hin | hi
    · exact Or.inl (hd ▸ hin)
    · exact Or.inr (Or.inr ⟨i, goto_claimed hid ht htr (by simp [Phase.holds, hp]) hi.alone
        (hs ▸ hi.shut) (hs ▸ hi.row)⟩)
  | deliver => exact Or.inl (by simp [goto, handOver, hid])
  | confirm hp =>
    exact Or.inl (h.paid i t ht hid (by simp [hp, Phase.handed]))
  | lose hp =>
    exact Or.inl (h.paid i t ht hid (by simp [hp, Phase.handed]))
  | count hp =>
    exact Or.inl (h.paid i t ht hid (by simp [hp, Phase.handed]))
  | release hw hp =>
    rcases h.claimed_of_waiting hid ht hw with hin | hi
    · exact Or.inl hin
    · refine Or.inr (Or.inl ⟨?_, fun j hj => ?_⟩)
      · rw [hid]
        exact any_claimable_release hi.row
      · have htr : (db.release t.schedule.id).triggers = db.triggers := rfl
        rw [Moves.holds hid ht htr] at hj
        by_cases hji : j = i
        · rw [if_pos hji, hp] at hj
          cases hj
        · rw [if_neg hji] at hj
          exact hji (hi.alone j hj)

theorem Moves.delivered (hm : db.Moves t db₁ p) {x : String} (hx : x ∈ db.delivered) :
    x ∈ db₁.delivered := by
  cases hm with
  | prepare _ _ _ hd => exact hd ▸ hx
  | deliver => exact List.mem_append_left _ hx
  | _ => exact hx

theorem Moves.paid (hm : db.Moves t db₁ p) (hp : p.handed = true) :
    t.phase.handed = true ∨ t.schedule.id ∈ db₁.delivered := by
  cases hm with
  | prepare _ hw => cases p <;> simp [Phase.waiting, Phase.handed] at hw hp
  | deliver => exact Or.inr (by simp [handOver])
  | confirm hs => exact Or.inl (by simp [hs, Phase.handed])
  | release _ hnone => simp [Phase.holds, hp] at hnone
  | _ => simp [Phase.handed] at hp

theorem Moves.tended (hm : db.Moves t db₁ p) (h : db.Tended s target)
    (ht : db.triggers[i]? = some t) (hid : t.schedule.id = s) :
    (db₁.goto i t p).Tended s target := by
  have htr := hm.triggers
  constructor
  · cases hm with
    | claim => exact update_rows (fun _ => ⟨rfl, rfl, rfl⟩) h.rows
    | prepare _ _ hs =>
      intro r hr
      exact h.rows r (hs ▸ hr)
    | release => exact update_rows (fun _ => ⟨rfl, rfl, rfl⟩) h.rows
    | count => exact update_rows (fun _ => ⟨rfl, rfl, rfl⟩) h.rows
    | _ => exact h.rows
  · intro j u hu huid
    rcases goto_cases htr ht hu with ⟨-, rfl⟩ | ⟨-, hold⟩
    · exact h.reads i t ht hid
    · exact h.reads j u hold huid
  · intro j u hu huid hp
    rcases goto_cases htr ht hu with ⟨-, rfl⟩ | ⟨-, hold⟩
    · rcases hm.paid hp with hh | hin
      · exact hm.delivered (h.paid i t ht hid hh)
      · exact hid ▸ hin
    · exact hm.delivered (h.paid j u hold huid hp)
  · exact hm.kept h ht hid

theorem advance_tended (h : db.Tended s target) (i : ℕ) (ok : Bool) :
    (db.advance i ok).Tended s target := by
  cases ht : db.triggers[i]? with
  | none =>
    have hstay : db.advance i ok = db := by rw [advance, ht]
    rw [hstay]
    exact h
  | some t =>
    by_cases hid : t.schedule.id = s
    · obtain hstay | ⟨db₁, p, hmove, hgoto⟩ := advance_moves ht (h.reads i t ht hid) ok
      · rw [hstay]
        exact h
      · rw [hgoto]
        exact hmove.tended h ht hid
    · exact advance_tended_of_ne h ht hid ok

theorem restart_tended (h : db.Tended s target) (howes : ¬db.Owing s) :
    db.restart.Tended s target where
  rows := h.rows
  reads _ _ ht := by simp [restart] at ht
  paid _ _ ht := by simp [restart] at ht
  kept := by
    have hfree (i : ℕ) : ¬db.restart.Holds s i := by
      rintro ⟨t, ht, -⟩
      simp [restart] at ht
    rcases h.survives_iff.2 howes with hin | hopen
    · exact Or.inl hin
    · exact Or.inr (Or.inl ⟨hopen, hfree⟩)

end Store

/-! ## Runs -/

/-- Nobody enables, disables or deletes the schedule. -/
def Event.Leaves (s : String) : Event → Prop
  | .call (.enable id _) | .call (.disable id) | .call (.delete id) => id ≠ s
  | _ => True

instance (s : String) : ∀ e : Event, Decidable (e.Leaves s)
  | .call (.enable id _) | .call (.disable id) | .call (.delete id) =>
      inferInstanceAs (Decidable (id ≠ s))
  | .call (.trigger _) | .call (.advance _ _) | .call .createTask | .call (.deleteTask _) =>
      inferInstanceAs (Decidable True)
  | .crash => inferInstanceAs (Decidable True)

/-- The schedule is left to its triggers, and a crash finds none that owes its wake-up. -/
def Event.Mild (s : String) (db : Store) (e : Event) : Prop :=
  e.Leaves s ∧ (e = .crash → ¬db.Owing s)

instance (s : String) (db : Store) (e : Event) : Decidable (e.Mild s db) :=
  inferInstanceAs (Decidable (_ ∧ _))

theorem step_tended {db : Store} {s : String} {target : Option ℕ} {e : Event}
    (h : db.Tended s target) (he : e.Mild s db) : (Event.step db e).Tended s target := by
  cases e with
  | crash => exact Store.restart_tended h (he.2 rfl)
  | call op =>
    cases op with
    | trigger id => exact Store.fetch_tended h
    | advance i ok => exact Store.advance_tended h i ok
    | enable id accepts => exact Store.setEnabled_tended h he.1 true accepts
    | disable id => exact Store.setEnabled_tended h he.1 false true
    | delete id => exact Store.delete_tended h he.1
    | createTask => exact h.of_aside Store.addTask_aside fun _ _ => Iff.rfl
    | deleteTask taskId => exact h.of_aside Store.removeTask_aside fun _ _ => Iff.rfl

theorem Store.Fresh.tended {db : Store} (h : db.Fresh) {r : Schedule} (hr : r ∈ db.schedules)
    (hone : r.oneShot = true) (hen : r.enabled = true) (hzero : r.runCount = 0) :
    db.Tended r.id r.continuationTaskId where
  rows r' hr' hid := by
    rw [List.inj_on_of_nodup_map h.keys hr' hr hid]
    exact ⟨hone, rfl⟩
  reads _ _ ht := by simp [h.triggers] at ht
  paid _ _ ht := by simp [h.triggers] at ht
  kept := by
    refine Or.inr (Or.inl ⟨Store.any_claimable_iff.2 ⟨r, hr, rfl, hen, hzero⟩, ?_⟩)
    rintro i ⟨t, ht, -⟩
    simp [h.triggers] at ht

/-- A check that finds the schedule due and meets no failure. -/
def retry (s : String) : List Op := .trigger s :: List.replicate 4 (.advance 0 true)

/-- A trigger that nobody disturbs and nothing fails hands the wake-up over. -/
theorem Store.Tended.retry_delivers {db : Store} {s : String} {target : Option ℕ}
    (h : db.Tended s target) (htr : db.triggers = [])
    (hclaim : db.schedules.any (Store.claimable s) = true)
    (htask : ∀ taskId ∈ target, taskId ∈ db.tasks) :
    s ∈ (runOps step db (retry s)).delivered := by
  obtain ⟨r₀, hr₀, hid₀, -⟩ := Store.any_claimable_iff.1 hclaim
  have hfound : (Table.get (·.id) db.schedules s).isSome := by
    rw [Table.get_isSome_iff]
    exact List.mem_map.2 ⟨r₀, hr₀, hid₀⟩
  obtain ⟨r, hr⟩ := Option.isSome_iff_exists.1 hfound
  have hid : r.id = s := Table.key_of_get hr
  obtain ⟨hone, hcont⟩ := h.rows r (Table.mem_of_get hr) hid
  have hfetch : db.fetch s = { db with triggers := [{ schedule := r }] } := by
    simp [Store.fetch, hr, htr]
  have hclaimed : ({ db with triggers := [{ schedule := r }] } : Store).advance 0 true =
      { db.claim s with triggers := [{ schedule := r, phase := .claimed }] } := by
    simp [Store.advance, Store.advanceFetched, hone, hid, hclaim, Store.goto, Store.claim,
      Store.update]
  simp only [retry, List.replicate_succ, List.replicate_zero, runOps_cons, runOps_nil, step,
    hfetch, hclaimed]
  cases hc : r.continuationTaskId with
  | some taskId =>
    have hmem : taskId ∈ db.tasks := htask taskId (by rw [← hcont, hc]; rfl)
    simp [Store.advance, Store.advanceClaimed, Store.advanceChecked, Store.advanceNoted,
      Store.goto, Store.claim, Store.update, Store.addMessage, Store.handOver, hc, hmem, hid]
  | none =>
    cases hv : r.conversationId with
    | some conversationId =>
      simp [Store.advance, Store.advanceClaimed, Store.goto, Store.claim, Store.update,
        Store.handOver, Store.counted, hc, hv, hid]
    | none =>
      simp [Store.advance, Store.advanceClaimed, Store.advanceCreated, Store.goto, Store.claim,
        Store.update, Store.handOver, Store.counted, Store.addTask, hc, hv, hid]

/-- **What survives a crash.**  A one-shot schedule that was created enabled is left to its
triggers, and the crashes so far found none that owed its wake-up.  Then a crash now keeps the
wake-up (handed over, or enabled with a counter of zero) exactly when no trigger has claimed
the schedule without handing the wake-up over or releasing the claim; and a check after such a
crash hands over what was not handed over yet. -/
theorem wake_up_survives_crash {db : Store} (hdb : db.Fresh) {r : Schedule}
    (hr : r ∈ db.schedules) (hone : r.oneShot = true) (hen : r.enabled = true)
    (hzero : r.runCount = 0) (events : List Event)
    (hrun : Along Event.step (fun db e => e.Mild r.id db) db events) :
    ((runOps Event.step db (events ++ [.crash])).Survives r.id ↔
        ¬(runOps Event.step db events).Owing r.id) ∧
      (¬(runOps Event.step db events).Owing r.id →
        (∀ taskId ∈ r.continuationTaskId, taskId ∈ (runOps Event.step db events).tasks) →
        r.id ∈ (runOps Event.step db (events ++ [.crash])).delivered ∨
          r.id ∈ (runOps step (runOps Event.step db (events ++ [.crash]))
            (retry r.id)).delivered) := by
  have htended := hrun.invariant (I := fun db => db.Tended r.id r.continuationTaskId)
    (fun _ _ h he => step_tended h he) (hdb.tended hr hone hen hzero)
  rw [runOps_concat]
  constructor
  · exact htended.survives_iff
  · intro howes htask
    rcases htended.survives_iff.2 howes with hin | hopen
    · exact Or.inl hin
    · exact Or.inr ((Store.restart_tended htended howes).retry_delivers rfl hopen htask)

/-- The first trigger fails and releases its claim, a crash follows, the second trigger hands
the wake-up over, and another crash comes before the counter. -/
def crashedTwice : List Event :=
  [.call (.trigger "wake"), .call (.advance 0 true), .call (.advance 0 false),
   .call (.advance 0 true), .crash, .call (.trigger "wake"), .call (.advance 0 true),
   .call (.advance 0 true), .call (.advance 0 true)]

theorem crashedTwice_survives :
    (runOps Event.step oneWakeUp (crashedTwice ++ [.crash])).Survives "wake" :=
  (wake_up_survives_crash fresh_oneWakeUp (r := { id := "wake", oneShot := true }) (by decide) rfl
    rfl rfl crashedTwice (by decide +kernel)).1.2 (by decide +kernel)

/-- The schedule is claimed, and the control plane stops before the task is created. -/
def crashedAfterClaim : List Event := [.call (.trigger "wake"), .call (.advance 0 true), .crash]

theorem crash_after_claim_loses :
    ¬(runOps Event.step oneWakeUp crashedAfterClaim).Survives "wake" ∧
      (runOps Event.step oneWakeUp crashedAfterClaim).schedules.map (·.enabled) = [false] ∧
      (runOps step (runOps Event.step oneWakeUp crashedAfterClaim) (retry "wake")).delivered = [] := by
  decide +kernel

end XpressClaw.Schedules
