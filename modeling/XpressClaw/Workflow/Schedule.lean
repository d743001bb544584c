import XpressClaw.Workflow.Terminal

/-!
# Scheduled occurrences

A pass of the schedule runner reads all workflow rows and then works on them one by one,
while rows are edited and other passes run.  What keeps it from starting an occurrence
twice, or one of a schedule that has changed, is the `WHERE` clause of the claim: the row
must be enabled and have the revision and the last trigger that were read.  Every edit and
every claim moves the revision on (`Rows`), so a row with the revision that was read is the
row that was read.

* `Occurrences` — the invariant of the claims recorded so far.
* `ScheduleStep` — what one transaction of any call does to rows and claims.
* `occurrence_claimed_once` — what follows for every interleaving, with the two facts about
  the single transaction that claims and inserts.
-/

namespace XpressClaw

open Lib InstanceManager

/-- A claimed occurrence: the workflow, the revision and last trigger of its row, and the
instance that was started. -/
structure Occurrence where
  workflow : ℕ
  revision : ℕ
  last : Option String
  inst : ℕ
  deriving DecidableEq

/-- The occurrence an event records. -/
def Event.occurrence? : Event → Option Occurrence
  | .scheduled workflow revision last inst => some ⟨workflow, revision, last, inst⟩
  | _ => none

/-- The occurrences claimed so far, in order. -/
def Db.occurrences (s : Db) : List Occurrence := s.log.filterMap Event.occurrence?

/-- A workflow that runs once. -/
def WorkflowRecord.once (w : WorkflowRecord) : Bool := w.definition.schedule.any Schedule.once

/-- Rows stay, and whatever changes one moves its revision on. -/
def Rows (s t : Db) : Prop :=
  ∀ id w, s.workflow? id = some w →
    ∃ w', t.workflow? id = some w' ∧ (w' = w ∨ w.revision < w'.revision)

/-- The claims recorded so far were made on revisions that are past, and no two on one. -/
structure Occurrences (s : Db) : Prop where
  keyed : s.Keyed
  past : ∀ o ∈ s.occurrences, ∃ w, s.workflow? o.workflow = some w ∧ o.revision < w.revision
  nodup : (s.occurrences.map fun o => (o.workflow, o.revision)).Nodup

/-- How often a workflow has been started by its schedule. -/
def Db.starts (s : Db) (id : ℕ) : ℕ := s.occurrences.countP fun o => o.workflow = id

section

variable {s t u : Db}

theorem Rows.refl (s : Db) : Rows s s := fun _ w hw => ⟨w, hw, .inl rfl⟩

theorem Rows.trans (h : Rows s t) (h' : Rows t u) : Rows s u := by
  intro id w hw
  obtain ⟨w', hw', h1⟩ := h id w hw
  obtain ⟨w'', hw'', h2⟩ := h' id w' hw'
  refine ⟨w'', hw'', ?_⟩
  rcases h1 with rfl | h1
  · exact h2
  · rcases h2 with rfl | h2
    · exact .inr h1
    · exact .inr (h1.trans h2)

theorem Rows.eq_of_revision (h : Rows s t) {w w' : WorkflowRecord} {id : ℕ}
    (hw : s.workflow? id = some w) (hw' : t.workflow? id = some w')
    (hrev : w'.revision = w.revision) : w' = w := by
  obtain ⟨v, hv, hv'⟩ := h id w hw
  rw [hw', Option.some.injEq] at hv
  subst hv
  rcases hv' with hv' | hv'
  · exact hv'
  · omega

theorem occurrences_of_tracked
    (h : t.log.filter Event.tracked = s.log.filter Event.tracked) :
    t.occurrences = s.occurrences := by
  have hall : ∀ l : List Event,
      l.filterMap Event.occurrence? = (l.filter Event.tracked).filterMap Event.occurrence? := by
    intro l
    induction l with
    | nil => rfl
    | cons ev l ih =>
      rw [List.filterMap_cons, List.filter_cons, ih]
      cases ev <;> rfl
  rw [Db.occurrences, Db.occurrences, hall, h, ← hall]

theorem occurrences_note_granted (exec : ℕ) :
    (s.note (.granted exec)).occurrences = s.occurrences := by
  simp [Db.occurrences, Event.occurrence?]

end

/-! ## The transaction of a claim -/

theorem workflow?_trigger (t : Db) (seen : WorkflowRecord) (triggeredAt : String) (id : ℕ) :
    (t.trigger seen triggeredAt).workflow? id = (t.workflow? id).map fun w =>
      if id = seen.id then w.triggered seen.once triggeredAt else w :=
  Table.get_modify fun _ => rfl

/-- **A claim and its instance are committed together or not at all.** -/
theorem createInstance_occurrence (n : NewInstance) {seen : WorkflowRecord} {triggeredAt : String}
    (hn : n.occurrence = some (seen, triggeredAt)) (s : Db) :
    (∃ e, (createInstance n).run s = (some (.error e), s)) ∨
    ∃ u project row, (createInstance n).run s = (some (.ok s.nextId), u) ∧
      u.instances = s.instances ++ [n.row project s.nextId s.clock] ∧
      u.occurrences = s.occurrences ++ [⟨seen.id, seen.revision, seen.lastTriggeredAt, s.nextId⟩] ∧
      s.workflow? seen.id = some row ∧ row.enabled = true ∧ row.revision = seen.revision ∧
      row.lastTriggeredAt = seen.lastTriggeredAt ∧ s.nextId ≤ u.nextId ∧
      u.workflows = (s.trigger seen triggeredAt).workflows := by
  rcases createInstance_cases n s with h | ⟨project, bindings, t, u, ht, hu, hr⟩
  · exact .inl h
  · have hsame : t.workflows = s.workflows ∧ t.log = s.log ∧ s.nextId ≤ t.nextId ∧
        t.instances = s.instances ++ [n.row project s.nextId s.clock] := by
      rcases insertGate_cases ht with rfl | ⟨row, rfl⟩
      · exact ⟨rfl, rfl, Nat.le_succ _, rfl⟩
      · exact ⟨rfl, rfl, Nat.le_add_right _ 2, rfl⟩
    obtain ⟨hw, hl, hid, hi⟩ := hsame
    rw [hn] at hu
    obtain ⟨row, hrow, h1, h2, h3, rfl⟩ := claimOccurrence_ok hu
    refine .inr ⟨_, project, row, hr, hi, ?_, ?_, h1, h2, h3, hid, ?_⟩
    · simp [Db.occurrences, Event.occurrence?, Db.trigger, hl]
    · rwa [Db.workflow?, hw] at hrow
    · change (t.trigger seen triggeredAt).workflows = _
      rw [Db.trigger, Db.trigger, hw]

/-- Without an occurrence the workflows and the claims stay. -/
theorem createInstance_manual (n : NewInstance) (hn : n.occurrence = none) (s : Db) :
    ((createInstance n).final s).workflows = s.workflows ∧
      ((createInstance n).final s).occurrences = s.occurrences ∧
      s.nextId ≤ ((createInstance n).final s).nextId := by
  rcases createInstance_cases n s with ⟨e, hr⟩ | ⟨project, bindings, t, u, ht, hu, hr⟩
  · rw [Prog.final, hr]
    exact ⟨rfl, rfl, le_rfl⟩
  · rw [Prog.final, hr]
    rw [hn] at hu
    cases hu
    rcases insertGate_cases ht with rfl | ⟨row, rfl⟩
    · exact ⟨rfl, rfl, Nat.le_succ _⟩
    · exact ⟨rfl, rfl, Nat.le_add_right _ 2⟩

/-! ## What a transaction does to the schedules -/

/-- A transaction that claims nothing; it edits the workflows `T` at most. -/
structure Unclaimed (T : ℕ → Prop) (s t : Db) : Prop where
  rows : ∀ id w, s.workflow? id = some w →
    ∃ w', t.workflow? id = some w' ∧ (w' = w ∨ T id ∧ w.revision < w'.revision)
  keyed : s.Keyed → t.Keyed
  occurrences : t.occurrences = s.occurrences

/-- A transaction that claims an occurrence with the row `seen`. -/
structure Claims (seen : WorkflowRecord) (s t : Db) : Prop where
  claim : ∃ row triggeredAt inst, s.workflow? seen.id = some row ∧ row.enabled = true ∧
    row.revision = seen.revision ∧
    t.workflow? seen.id = some (row.triggered seen.once triggeredAt) ∧
    t.occurrences = s.occurrences ++ [⟨seen.id, seen.revision, seen.lastTriggeredAt, inst⟩]
  rest : ∀ id, id ≠ seen.id → t.workflow? id = s.workflow? id
  keyed : s.Keyed → t.Keyed

section

variable {host : Host} {T : ℕ → Prop} {S : WorkflowRecord → Prop} {s t : Db} {f : Db → Db}

theorem Unclaimed.of_eq (hw : t.workflows = s.workflows) (hn : s.nextId ≤ t.nextId)
    (ho : t.occurrences = s.occurrences) : Unclaimed T s t :=
  ⟨fun id w h => ⟨w, by rwa [Db.workflow?, hw], .inl rfl⟩, fun hs => hs.of_eq hw hn, ho⟩

theorem Unclaimed.refl (s : Db) : Unclaimed T s s := .of_eq rfl le_rfl rfl

theorem Plain.unclaimed (h : Plain T s t) : Unclaimed T s t :=
  ⟨h.workflows, h.keyed, occurrences_of_tracked h.log⟩

theorem createInstance_claims {n : NewInstance} {seen : WorkflowRecord} {triggeredAt : String}
    (hn : n.occurrence = some (seen, triggeredAt)) :
    Unclaimed T s ((createInstance n).final s) ∨ Claims seen s ((createInstance n).final s) := by
  rcases createInstance_occurrence n hn s with ⟨e, hr⟩ |
    ⟨u, project, row, hr, -, hocc, hrow, h1, h2, -, hid, hw⟩
  · rw [Prog.final, hr]
    exact .inl (Unclaimed.refl s)
  · rw [Prog.final, hr]
    have hget : ∀ id, u.workflow? id = (s.trigger seen triggeredAt).workflow? id := by
      intro id
      rw [Db.workflow?, hw, ← Db.workflow?]
    refine .inr ⟨⟨row, triggeredAt, s.nextId, hrow, h1, h2, ?_, hocc⟩, fun id hne => ?_,
      fun hs => ⟨?_, fun w hmem => ?_⟩⟩
    · rw [hget, workflow?_trigger, hrow, Option.map_some, if_pos rfl]
    · rw [hget, workflow?_trigger]
      simp [hne]
    · have hkeys : (s.trigger seen triggeredAt).workflows.map WorkflowRecord.id =
          s.workflows.map WorkflowRecord.id := Table.map_key_modify fun _ => rfl
      rw [hw, hkeys]
      exact hs.nodup
    · rw [hw] at hmem
      rcases Table.mem_modify hmem with ⟨hmem, -⟩ | ⟨w₀, hw₀, -, rfl⟩
      · exact (hs.below w hmem).trans_le hid
      · exact (hs.below w₀ hw₀).trans_le hid

/-- Every transaction claims nothing, or claims an occurrence with a row it may use. -/
theorem Commit.schedule_cases (h : Commit host T S f) (s : Db) :
    Unclaimed T s (f s) ∨ ∃ seen, S seen ∧ Claims seen s (f s) := by
  cases h with
  | plain h => exact .inl (h s).unclaimed
  | cancelStatus inst m h =>
    have hf : f s = (updateStatus inst .cancelled m).final s := by
      cases h
      rfl
    rw [hf]
    refine .inl (final_update_cases (I := Unclaimed T s) (Unclaimed.refl s) fun s' h => ?_)
    cases h
    exact .of_eq rfl le_rfl rfl
  | cancelInstance inst h =>
    have hf : f s = (XpressClaw.cancelInstance host inst).final s := by
      cases h
      rfl
    rw [hf]
    refine .inl (final_update_cases (I := Unclaimed T s) (Unclaimed.refl s) fun s' h => ?_)
    split at h
    · cases h
    · obtain ⟨-, -, h⟩ := bind_ok h
      cases h
      exact .of_eq rfl le_rfl rfl
  | createInstance n hS h =>
    have hf : f s = (XpressClaw.createInstance n).final s := Prog.final_of_next? h s
    rw [hf]
    cases hocc : n.occurrence with
    | none =>
      obtain ⟨h1, h2, h3⟩ := createInstance_manual n hocc s
      exact .inl (.of_eq h1 h3 h2)
    | some o =>
      rcases createInstance_claims (T := T) (s := s) hocc with h | h
      · exact .inl h
      · exact .inr ⟨o.1, hS o.1 o.2 hocc, h⟩
  | beginCommand exec h =>
    rw [Prog.final_of_next? h]
    refine .inl (Prog.final_tx_cases (I := Unclaimed T s) (Unclaimed.refl s) fun a s' h => ?_)
    split at h
    · cases h
    · split at h
      · cases h
        exact Unclaimed.refl s
      · split at h
        · cases h
        · cases h
          exact .of_eq rfl le_rfl (occurrences_note_granted exec)
  | saveResult exec result h =>
    cases h
    exact .inl (.of_eq rfl le_rfl rfl)

/-! ## The invariants -/

theorem Unclaimed.rows_evolve (h : Unclaimed T s t) : Rows s t := by
  intro id w hw
  obtain ⟨w', hw', h'⟩ := h.rows id w hw
  exact ⟨w', hw', h'.imp_right And.right⟩

theorem Claims.rows_evolve {seen : WorkflowRecord} (h : Claims seen s t) : Rows s t := by
  intro id w hw
  obtain ⟨row, triggeredAt, inst, hrow, -, -, ht, -⟩ := h.claim
  by_cases hid : id = seen.id
  · subst hid
    rw [hw, Option.some.injEq] at hrow
    subst hrow
    exact ⟨_, ht, .inr (Nat.lt_succ_self _)⟩
  · exact ⟨w, by rw [h.rest id hid, hw], .inl rfl⟩

theorem Occurrences.past_evolve (hs : Occurrences s) (h : Rows s t) {o : Occurrence}
    (ho : o ∈ s.occurrences) : ∃ w, t.workflow? o.workflow = some w ∧ o.revision < w.revision := by
  obtain ⟨w, hw, hlt⟩ := hs.past o ho
  obtain ⟨w', hw', h'⟩ := h _ w hw
  refine ⟨w', hw', ?_⟩
  rcases h' with rfl | h'
  · exact hlt
  · exact hlt.trans h'

theorem Occurrences.unclaimed (hs : Occurrences s) (h : Unclaimed T s t) : Occurrences t where
  keyed := h.keyed hs.keyed
  past := by
    rw [h.occurrences]
    exact fun o ho => hs.past_evolve h.rows_evolve ho
  nodup := by
    rw [h.occurrences]
    exact hs.nodup

theorem Occurrences.claims {seen : WorkflowRecord} (hs : Occurrences s) (h : Claims seen s t) :
    Occurrences t := by
  obtain ⟨row, triggeredAt, inst, hrow, -, hrev, ht, hocc⟩ := h.claim
  refine ⟨h.keyed hs.keyed, fun o ho => ?_, ?_⟩
  · rw [hocc] at ho
    rcases List.mem_append.1 ho with ho | ho
    · exact hs.past_evolve h.rows_evolve ho
    · rw [List.mem_singleton.1 ho]
      exact ⟨_, ht, hrev ▸ Nat.lt_succ_self _⟩
  · rw [hocc, List.map_append, List.map_singleton]
    refine List.nodup_append.2 ⟨hs.nodup, List.nodup_singleton _, ?_⟩
    intro a ha b hb hab
    obtain ⟨o, ho, rfl⟩ := List.mem_map.1 ha
    rw [List.mem_singleton.1 hb, Prod.mk.injEq] at hab
    obtain ⟨w, hw, hlt⟩ := hs.past o ho
    rw [hab.1, hrow, Option.some.injEq] at hw
    subst hw
    rw [hab.2, hrev] at hlt
    exact lt_irrefl _ hlt

/-- What one transaction does: it claims nothing, or it claims with the row as it is. -/
def ScheduleStep (s t : Db) : Prop :=
  Unclaimed (fun _ => True) s t ∨
    ∃ seen, s.workflow? seen.id = some seen ∧ Claims seen s t

theorem ScheduleStep.rows (h : ScheduleStep s t) : Rows s t := by
  rcases h with h | ⟨seen, -, h⟩
  · exact h.rows_evolve
  · exact h.rows_evolve

theorem ScheduleStep.keeps (h : ScheduleStep s t) (hs : Occurrences s) : Occurrences t := by
  rcases h with h | ⟨seen, -, h⟩
  · exact hs.unclaimed h
  · exact hs.claims h

end

/-! ## Runs -/

/-- Threads that claim with the rows as they are. -/
def scheduling : Protocol Db where
  Inv := Occurrences
  Rely := Rows
  Guar := ScheduleStep
  refl := Rows.refl
  trans := Rows.trans

theorem scheduling_shared : scheduling.Shared := ScheduleStep.rows

/-- A transaction may use the rows of an earlier state: those it can claim with are still
as they were. -/
theorem Commit.scheduleStep {host : Host} {s t : Db} {f : Db → Db}
    (h : Commit host (fun _ => True) (fun w => s.workflow? w.id = some w) f) (hst : Rows s t)
    (ht : Occurrences t) : ScheduleStep t (f t) ∧ Occurrences (f t) := by
  have hstep : ScheduleStep t (f t) := by
    rcases h.schedule_cases t with h | ⟨seen, hseen, h⟩
    · exact .inl h
    · obtain ⟨row, triggeredAt, inst, hrow, -, hrev, -⟩ := h.claim
      have heq : row = seen := hst.eq_of_revision hseen hrow hrev
      exact .inr ⟨seen, heq ▸ hrow, h⟩
  exact ⟨hstep, hstep.keeps ht⟩

theorem checkScheduled_ok (host : Host) (fuel now : ℕ) {s : Db} (hs : Occurrences s) :
    (Op.prog host fuel (.checkScheduled now)).Ok scheduling s fun _ _ => True := by
  have hrefl : ∀ t, ScheduleStep t t := fun t => .inl (Unclaimed.refl t)
  refine Prog.ok_bind hs (Prog.ok_read hrefl fun t _ ht u htu hu => ?_)
  refine Prog.Each.ok (checkScheduledRows_each (executeStep_each host fuel) ?_) scheduling_shared
    fun f hf v huv hv => Commit.scheduleStep (s := t) hf (Rows.trans htu huv) hv
  intro w hw
  have hmem : w ∈ t.workflows :=
    (List.perm_insertionSort _ _).mem_iff.1 (List.mem_of_mem_filter hw)
  exact Table.get_eq_some_of_mem ht.keyed.nodup hmem

theorem Op.prog_scheduling (host : Host) (fuel : ℕ) (op : Op) {s : Db} (hs : Occurrences s) :
    (op.prog host fuel).Ok scheduling s fun _ _ => True := by
  by_cases hop : ∃ now, op = .checkScheduled now
  · obtain ⟨now, rfl⟩ := hop
    exact checkScheduled_ok host fuel now hs
  · have heach : (op.prog host fuel).Each
        (Commit host (fun _ => True) fun w => s.workflow? w.id = some w) :=
      Op.prog_each host fuel op (fun _ _ => trivial) fun now w h => absurd ⟨now, h⟩ hop
    exact heach.ok scheduling_shared fun f hf t hst ht => hf.scheduleStep hst ht

/-- Every change of the workflow's row along the schedule is a claim of an occurrence. -/
def Unedited (c : Sys Db Err Unit) (id : ℕ) : List ℕ → Prop
  | [] => True
  | i :: is =>
      ((c.step i).store.workflow? id = c.store.workflow? id ∨
        (c.step i).store.occurrences ≠ c.store.occurrences) ∧
      Unedited (c.step i) id is

section

variable {c : Sys Db Err Unit}

/-- A one-shot workflow in a run: it is as it was, or it has started once more and is off. -/
def Spent (id k : ℕ) (s : Db) : Prop :=
  ∃ w, s.workflow? id = some w ∧ w.once = true ∧
    (s.starts id = k ∨ s.starts id = k + 1 ∧ w.enabled = false)

theorem Spent.step {id k : ℕ} {s t : Db} (h : Spent id k s) (hstep : ScheduleStep s t)
    (hedit : t.workflow? id = s.workflow? id ∨ t.occurrences ≠ s.occurrences) : Spent id k t := by
  obtain ⟨w, hw, honce, hcount⟩ := h
  rcases hstep with hstep | ⟨seen, hseen, hstep⟩
  · have hrow : t.workflow? id = s.workflow? id :=
      hedit.resolve_right fun h => h hstep.occurrences
    refine ⟨w, hrow.trans hw, honce, ?_⟩
    rw [Db.starts, hstep.occurrences]
    exact hcount
  · obtain ⟨row, triggeredAt, inst, hrow, hen, -, ht, hocc⟩ := hstep.claim
    by_cases hid : id = seen.id
    · subst hid
      obtain rfl : row = w := by rwa [hrow, Option.some.injEq] at hw
      obtain rfl : row = seen := by rwa [hrow, Option.some.injEq] at hseen
      have hk : s.starts row.id = k := by
        refine hcount.resolve_right fun h => ?_
        rw [hen] at h
        cases h.2
      refine ⟨_, ht, honce, .inr ⟨?_, ?_⟩⟩
      · rw [Db.starts, hocc, List.countP_append, ← Db.starts, hk]
        simp
      · change (row.enabled && !row.once) = false
        rw [honce]
        simp
    · have hstarts : t.starts id = s.starts id := by
        rw [Db.starts, hocc, List.countP_append, ← Db.starts]
        simp [Ne.symm hid]
      refine ⟨w, (hstep.rest id hid).trans hw, honce, ?_⟩
      rw [hstarts]
      exact hcount

theorem sched_spent {id k : ℕ} (hi : Occurrences c.store)
    (hok : ∀ p ∈ c.threads, p.Ok scheduling c.store fun _ _ => True) {schedule : List ℕ}
    (hedit : Unedited c id schedule) (h : Spent id k c.store) :
    Spent id k (c.sched schedule).store := by
  induction schedule generalizing c with
  | nil => exact h
  | cons i is ih =>
    obtain ⟨-, hi', hok'⟩ := Sys.step_ok scheduling_shared hi hok i
    refine ih hi' hok' hedit.2 ?_
    rcases Sys.step_guar hi hok i with hc | hc
    · rw [hc]
      exact h
    · exact h.step hc hedit.1

end

/-- The run up to a point keeps the protocol, and so do the calls still under way. -/
theorem calls_scheduling {host : Host} (fuel : ℕ) {db : Db} (hdb : db.Initial host.toEnv)
    (hkeyed : db.Keyed) (ops : List Op) (is : List ℕ) :
    Occurrences (calls host fuel db ops is).store ∧
      ∀ p ∈ (calls host fuel db ops is).threads,
        p.Ok scheduling (calls host fuel db ops is).store fun _ _ => True := by
  have hnone : db.occurrences = [] := by
    rw [Db.occurrences, hdb.log]
    rfl
  have hinv : Occurrences db := ⟨hkeyed, by simp [hnone], by simp [hnone]⟩
  have hok : ∀ p ∈ ops.map (Op.prog host fuel), p.Ok scheduling db fun _ _ => True := by
    intro p hp
    obtain ⟨op, -, rfl⟩ := List.mem_map.1 hp
    exact Op.prog_scheduling host fuel op hinv
  exact (Sys.sched_ok (c := ⟨db, _⟩) scheduling_shared hinv hok is).2

/-- **Each occurrence of a schedule is started once.**  A row `r` read at any point of a run
with which the database no longer agrees claims nothing; no two claims have the same
workflow, revision and last trigger; while a one-shot workflow is not edited it starts at
most once; and the claim and the new instance are committed together or not at all. -/
theorem occurrence_claimed_once (host : Host) (fuel : ℕ) (db : Db) (hdb : db.Initial host.toEnv)
    (hkeyed : db.Keyed) (ops : List Op) (is js : List ℕ) :
    let c := calls host fuel db ops is
    let t := (c.sched js).store
    (∀ r ∈ c.store.workflows, t.workflow? r.id ≠ some r →
      ∀ n triggeredAt, n.occurrence = some (r, triggeredAt) →
        ∃ e, (createInstance n).run t = (some (.error e), t)) ∧
    (t.occurrences.map fun o => (o.workflow, o.revision, o.last)).Nodup ∧
    (∀ id w, c.store.workflow? id = some w → w.once = true → Unedited c id js →
      t.starts id ≤ c.store.starts id + 1) ∧
    (∀ n seen triggeredAt, n.occurrence = some (seen, triggeredAt) →
      (∃ e, (createInstance n).run t = (some (.error e), t)) ∨
      ∃ u project, (createInstance n).run t = (some (.ok t.nextId), u) ∧
        u.instances = t.instances ++ [n.row project t.nextId t.clock] ∧
        u.occurrences = t.occurrences ++
          [⟨seen.id, seen.revision, seen.lastTriggeredAt, t.nextId⟩]) := by
  intro c t
  obtain ⟨hi, hok⟩ := calls_scheduling fuel hdb hkeyed ops is
  obtain ⟨hrows, ht, -⟩ := Sys.sched_ok scheduling_shared hi hok js
  refine ⟨fun r hr hstale n triggeredAt hn => ?_, ?_, fun id w hw honce hedit => ?_,
    fun n seen triggeredAt hn => ?_⟩
  · rcases createInstance_occurrence n hn t with h | ⟨u, project, row, -, -, -, hrow, -, hrev, -⟩
    · exact h
    · have hread : c.store.workflow? r.id = some r := Table.get_eq_some_of_mem hi.keyed.nodup hr
      have heq : row = r := hrows.eq_of_revision hread hrow hrev
      rw [heq] at hrow
      exact absurd hrow hstale
  · refine List.Nodup.of_map (fun p => (p.1, p.2.1)) ?_
    rw [List.map_map]
    exact ht.nodup
  · obtain ⟨w', -, -, hcount⟩ := sched_spent hi hok hedit ⟨w, hw, honce, .inl rfl⟩
    rcases hcount with hcount | ⟨hcount, -⟩
    · exact hcount.le.trans (Nat.le_succ _)
    · exact hcount.le
  · rcases createInstance_occurrence n hn t with h | ⟨u, project, row, h1, h2, h3, -⟩
    · exact .inl h
    · exact .inr ⟨u, project, h1, h2, h3⟩

/-- A workflow that runs once, at a time that has passed. -/
def dated : Definition where
  name := "dated"
  schedule := some { runAt := some "1970-01-01T00:00:00Z" }
  flows := [("main", ⟨[{ id := "digest", agent := some "coder" }]⟩)]

/-- A host that reads that time, which is the epoch, and no other. -/
def datedHost : Host :=
  { plainHost with
    parseRfc3339 := fun text => if text = "1970-01-01T00:00:00Z" then some 0 else none
    normalizeStartAfter := fun text =>
      if text = "1970-01-01T00:00:00Z" then .ok "1970-01-01T00:00:00.000Z"
      else .error "unsupported" }

/-- The workflow is saved. -/
def datedDb : Db where
  workflows := [{ id := 0, name := "dated", definition := dated }]
  work := { agents := [{ id := "coder" }] }
  nextId := 1

/-- Two passes of the schedule runner. -/
def datedPasses : List Op := [.checkScheduled 5, .checkScheduled 5]

/-- Both passes read the row, and then the first of them starts the workflow. -/
theorem dated_started_once :
    let c := calls datedHost 5 datedDb datedPasses [0, 1]
    (c.sched [0, 0, 0, 0]).store.starts 0 = 1 ∧
      (c.sched [0, 0, 0, 0]).store.starts 0 ≤ c.store.starts 0 + 1 := by
  intro c
  have hdb : datedDb.Initial datedHost.toEnv := by
    refine ⟨?_, rfl, rfl, rfl⟩
    intro w hw
    obtain rfl := List.mem_singleton.1 hw
    rfl
  have hkeyed : datedDb.Keyed := ⟨by simp [datedDb], by simp [datedDb]⟩
  have hedit : Unedited c 0 [0, 0, 0, 0] :=
    ⟨.inl rfl, .inl rfl, .inl rfl, .inr (by decide +kernel), trivial⟩
  refine ⟨by decide +kernel, ?_⟩
  exact (occurrence_claimed_once datedHost 5 datedDb hdb hkeyed datedPasses [0, 1]
    [0, 0, 0, 0]).2.2.1 0 _ rfl rfl hedit

end XpressClaw
