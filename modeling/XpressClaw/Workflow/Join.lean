import XpressClaw.Workflow.Group

/-!
# The parallel join

Any number of completion callbacks for the branches of a parallel group, in any order
and with any repetitions, interleaved at the granularity of a transaction.  Before the
join is claimed the callbacks only record results; the one that claims it runs alone
until it has left the group; after that nobody writes the group any more.

* `join_taken_once` — **the history of a group**: first the results of branches, each what
  the first report of its branch says; once every branch has one, the claim, the join with
  these results, the parent's status and the one way on, which the thread that claimed
  takes; and then nothing more about the group.
-/

namespace XpressClaw

open Lib InstanceManager

namespace BranchGroup

variable {db : Db} (g : BranchGroup db) (env : Env)

/-! ## Reports -/

/-- What a callback records for a branch that is reported with a status and an output: the
report itself or, for a command that completed, the result saved with the branch. -/
def verdict (b : Execution) (status output : String) : ExecStatus × String :=
  match (g.d.findStep b.flowName b.stepId).filter fun s => s.stepType = .command with
  | some step =>
      if status = "completed" then match b.commandResult with
        | some r => (if r.succeeds step.allowFailure then .completed else .failed, r.jsonOutput env)
        | none => (.failed, "Command has no recorded execution result")
      else (.failed, output)
  | none => (if status = "completed" then .completed else .failed, output)

/-- One of the reports, of a task with a status and an output, says this of the branch. -/
def Told (told : List (ℕ × String × String)) (b : Execution) (status : ExecStatus)
    (output : String) : Prop :=
  ∃ r ∈ told, b.taskId = some r.1 ∧ g.verdict env b r.2.1 r.2.2 = (status, output)

/-- Every result is what a report says of its branch. -/
def Reported (told : List (ℕ × String × String)) (rs : List Result) : Prop :=
  ∀ r ∈ rs, ∃ b ∈ g.branches, b.id = r.exec ∧ g.Told env told b r.status r.output

/-- The rows of the branches are as the results say. -/
def Shows (rs : List Result) (t : Db) : Prop :=
  ∀ b ∈ g.branches, ∃ e, t.execution? b.id = some e ∧ e.status = (applyResults rs b).status ∧
    e.output = (applyResults rs b).output

/-- Every branch that is terminal is as a report says. -/
def RowsTold (told : List (ℕ × String × String)) (t : Db) : Prop :=
  ∀ b ∈ g.branches, ∀ e, t.execution? b.id = some e → e.status.terminal →
    ∃ output, e.output = some output ∧ g.Told env told b e.status output

/-! ## Phases -/

/-- Some branch has no result. -/
def Open (t : Db) : Prop := ∃ rs, g.Results rs ∧ ¬ g.Complete rs ∧ t = db.withResults rs

/-- Everything but the group. -/
def outside : Scope where
  inst := fun _ => True
  exec := fun id => id ≠ g.parent.id ∧ id ∉ g.branches.map Execution.id
  base := db.nextId
  inst_fresh := fun _ _ => trivial
  exec_fresh := by
    intro id hid
    constructor
    · rintro rfl
      exact absurd (g.wf.executionIds _ (Table.mem_of_get g.parentFound)) (by omega)
    · intro hm
      obtain ⟨b, hb, rfl⟩ := List.mem_map.1 hm
      exact absurd (g.wf.executionIds _ (mem_branches.1 hb).1) (by omega)

/-- The engine has left the group. -/
def Done (t : Db) : Prop :=
  ∃ rs, g.Results rs ∧ g.Complete rs ∧ Frame g.outside (g.left env rs) t

/-- The join is claimed. -/
def Held (t : Db) : Prop :=
  (∃ rs, g.Results rs ∧ g.Complete rs ∧
    (t = g.claimed rs ∨ t = g.joined env rs ∨ t = g.marked env rs)) ∨ g.Done env t

end BranchGroup

/-- The execution has its final status. -/
def Db.Terminal (db : Db) (x : ℕ) : Prop :=
  ∃ e, db.execution? x = some e ∧ e.status.terminal

namespace BranchGroup

variable {db : Db} {g : BranchGroup db} {env : Env} {rs : List Result} {s t : Db}
variable {told : List (ℕ × String × String)}

section Rows

variable {b : Execution}

theorem branch_claimed (hb : b ∈ g.branches) :
    (g.claimed rs).execution? b.id = some (applyResults rs b) := by
  rw [claimed, Db.execution?_note, Db.execution?_setExecution, branch_withResults hb]
  · simp [id_ne_parent hb]
  · exact fun _ => rfl

theorem branch_joined (hb : b ∈ g.branches) :
    (g.joined env rs).execution? b.id = some (applyResults rs b) := branch_claimed hb

theorem branch_marked (hb : b ∈ g.branches) :
    (g.marked env rs).execution? b.id = some (applyResults rs b) := by
  rw [marked, Db.execution?_note, Db.execution?_setExecution, branch_joined hb]
  · simp [id_ne_parent hb]
  · exact fun _ => rfl

theorem branch_left (hb : b ∈ g.branches) :
    (g.left env rs).execution? b.id = some (applyResults rs b) := branch_marked hb

theorem parent_claimed (h : g.Results rs) :
    (g.claimed rs).execution? g.parent.id = some { g.parent with status := .resuming } := by
  rw [claimed, Db.execution?_note, Db.execution?_setExecution, parent_withResults h]
  · simp
  · exact fun _ => rfl

theorem parent_joined (h : g.Results rs) : (g.joined env rs).execution? g.parent.id =
    some { g.parent with status := .resuming } := parent_claimed h

theorem parent_marked (h : g.Results rs) : (g.marked env rs).execution? g.parent.id =
    some { g.parent with status := g.outcome rs, output := some (g.summary env rs) } := by
  rw [marked, Db.execution?_note, Db.execution?_setExecution, parent_joined h]
  · simp
  · exact fun _ => rfl

theorem parent_left (h : g.Results rs) : (g.left env rs).execution? g.parent.id =
    some { g.parent with status := g.outcome rs, output := some (g.summary env rs) } :=
  parent_marked h

theorem instance_withResults : (db.withResults rs).instance? g.row.id = some g.row := g.found

theorem instance_claimed : (g.claimed rs).instance? g.row.id = some g.row := g.found

theorem outcome_terminal : (g.outcome rs).terminal := by
  unfold outcome
  split <;> rfl

end Rows

theorem row_of_outside (hf : Frame g.outside s t) {x : ℕ} {e : Execution}
    (hx : ¬ g.outside.exec x) (he : s.execution? x = some e) :
    ∃ f, t.execution? x = some f ∧ f.status = e.status ∧ f.output = e.output := by
  obtain ⟨f, hf', hk⟩ := hf.execution? he
  have hid : e.id = x := Table.key_of_get he
  exact ⟨f, hf', hk.2 (hid ▸ hx)⟩

theorem parent_not_outside : ¬ g.outside.exec g.parent.id := fun h => h.1 rfl

theorem branch_not_outside {b : Execution} (hb : b ∈ g.branches) : ¬ g.outside.exec b.id :=
  fun h => h.2 (List.mem_map_of_mem hb)

/-! ### The rows of the branches -/

theorem Shows.of_rows (h : ∀ b ∈ g.branches, t.execution? b.id = some (applyResults rs b)) :
    g.Shows rs t :=
  fun b hb => ⟨_, h b hb, rfl, rfl⟩

theorem Shows.outside (h : g.Shows rs s) (hf : Frame g.outside s t) : g.Shows rs t := by
  intro b hb
  obtain ⟨e, he, h1, h2⟩ := h b hb
  obtain ⟨f, hf', h3, h4⟩ := row_of_outside hf (branch_not_outside hb) he
  exact ⟨f, hf', h3.trans h1, h4.trans h2⟩

theorem Shows.terminal (h : g.Shows rs t) (hrs : g.Results rs) (hc : g.Complete rs) {b : Execution}
    (hb : b ∈ g.branches) : t.Terminal b.id := by
  obtain ⟨e, he, hst, -⟩ := h b hb
  exact ⟨e, he, hst ▸ (terminal_iff hrs hb).2 (hc b hb)⟩

/-- Rows that show results are told exactly if the results are reported. -/
theorem Shows.rowsTold_iff (h : g.Shows rs t) (hrs : g.Results rs) :
    g.RowsTold env told t ↔ g.Reported env told rs := by
  constructor
  · intro ht r hr
    obtain ⟨b, hb, hid⟩ := List.mem_map.1 (hrs.branch r hr)
    obtain ⟨e, he, hst, hout⟩ := h b hb
    rw [applyResults_of_mem hrs.nodup hr hid.symm] at hst hout
    obtain ⟨output, houtput, htold⟩ := ht b hb e he (hst ▸ hrs.terminal r hr)
    obtain rfl : r.output = output := Option.some.inj (hout.symm.trans houtput)
    rw [hst] at htold
    exact ⟨b, hb, hid, htold⟩
  · intro ht b hb e he hterm
    obtain ⟨f, hf, hst, hout⟩ := h b hb
    rw [he, Option.some.injEq] at hf
    subst hf
    rw [hst] at hterm
    obtain ⟨r, hr, hid⟩ := List.mem_map.1 ((terminal_iff hrs hb).1 hterm)
    rw [applyResults_of_mem hrs.nodup hr hid] at hst hout
    obtain ⟨c, hc, hcid, htold⟩ := ht r hr
    obtain rfl : c = b := by
      have := g.wf.execution?_of_mem (mem_branches.1 hc).1
      rw [hcid, hid, g.wf.execution?_of_mem (mem_branches.1 hb).1, Option.some.injEq] at this
      exact this.symm
    exact ⟨r.output, hout, hst ▸ htold⟩

theorem RowsTold.of_rows (h : g.RowsTold env told s)
    (hrows : ∀ b ∈ g.branches, t.execution? b.id = s.execution? b.id) : g.RowsTold env told t :=
  fun b hb e he => h b hb e (hrows b hb ▸ he)

theorem RowsTold.outside (h : g.RowsTold env told s) (hs : Frame Scope.all db s)
    (hf : Frame g.outside s t) : g.RowsTold env told t := by
  intro b hb e he hterm
  obtain ⟨e₀, he₀, -⟩ := hs.execution? (g.wf.execution?_of_mem (mem_branches.1 hb).1)
  obtain ⟨f, hf', hst, hout⟩ := row_of_outside hf (branch_not_outside hb) he₀
  rw [he, Option.some.injEq] at hf'
  subst hf'
  obtain ⟨output, h1, h2⟩ := h b hb e₀ he₀ (hst ▸ hterm)
  exact ⟨output, hout.trans h1, hst ▸ h2⟩

theorem shows_withResults : g.Shows rs (db.withResults rs) :=
  .of_rows fun _ hb => branch_withResults hb

theorem Done.shows (h : g.Done env t) : ∃ rs, g.Results rs ∧ g.Complete rs ∧ g.Shows rs t := by
  obtain ⟨rs, hrs, hc, hf⟩ := h
  exact ⟨rs, hrs, hc, (Shows.of_rows fun b hb => branch_left hb).outside hf⟩

theorem Held.shows (h : g.Held env t) : ∃ rs, g.Results rs ∧ g.Complete rs ∧ g.Shows rs t := by
  rcases h with ⟨rs, hrs, hc, rfl | rfl | rfl⟩ | h
  · exact ⟨rs, hrs, hc, .of_rows fun b hb => branch_claimed hb⟩
  · exact ⟨rs, hrs, hc, .of_rows fun b hb => branch_joined hb⟩
  · exact ⟨rs, hrs, hc, .of_rows fun b hb => branch_marked hb⟩
  · exact h.shows

theorem Held.terminal (h : g.Held env t) {b : Execution} (hb : b ∈ g.branches) :
    t.Terminal b.id := by
  obtain ⟨rs, hrs, hc, hshows⟩ := h.shows
  exact hshows.terminal hrs hc hb

theorem Held.parent (h : g.Held env t) :
    ∃ e, t.execution? g.parent.id = some e ∧ e.status ≠ .running := by
  have hout : ∀ rs, g.outcome rs ≠ .running := fun rs => by
    unfold outcome
    split <;> decide
  rcases h with ⟨rs, hrs, hc, rfl | rfl | rfl⟩ | ⟨rs, hrs, hc, hf⟩
  · exact ⟨_, parent_claimed hrs, by simp⟩
  · exact ⟨_, parent_joined hrs, by simp⟩
  · exact ⟨_, parent_marked hrs, hout rs⟩
  · obtain ⟨e, he, hst, -⟩ := row_of_outside hf parent_not_outside (parent_left hrs)
    exact ⟨e, he, hst ▸ hout rs⟩

theorem Open.not_held (h : g.Open t) : ¬ g.Held env t := by
  intro hh
  obtain ⟨rs, hrs, -, rfl⟩ := h
  obtain ⟨e, he, hst⟩ := hh.parent
  rw [parent_withResults hrs, Option.some.injEq] at he
  subst he
  exact hst g.parentRunning

theorem Open.not_terminal (h : g.Open t) : ∃ b ∈ g.branches, ¬ t.Terminal b.id := by
  obtain ⟨rs, hrs, hc, rfl⟩ := h
  obtain ⟨b, hb, hm⟩ : ∃ b ∈ g.branches, b.id ∉ rs.map Result.exec := by
    simpa [Complete] using hc
  refine ⟨b, hb, ?_⟩
  rintro ⟨e, he, hst⟩
  rw [branch_withResults hb, Option.some.injEq] at he
  subst he
  exact hm ((terminal_iff hrs hb).1 hst)

/-! ### Whether the group was left -/

theorem advances_withResults (x : ℕ) : (db.withResults rs).advances x = db.advances x := by
  have : (rs.map Result.event).countP (Event.leaves x) = 0 := by
    rw [List.countP_eq_zero]
    intro ev hev
    obtain ⟨r, -, rfl⟩ := List.mem_map.1 hev
    simp [Result.event, Event.leaves]
  simp [Db.advances, Db.withResults, this]

theorem advances_claimed (x : ℕ) : (g.claimed rs).advances x = db.advances x :=
  calc (g.claimed rs).advances x = (db.withResults rs).advances x := by
        simp [Db.advances, claimed, Event.leaves]
    _ = db.advances x := advances_withResults x

theorem advances_joined (x : ℕ) : (g.joined env rs).advances x = db.advances x :=
  calc (g.joined env rs).advances x = (g.claimed rs).advances x := by
        simp [Db.advances, joined, Event.leaves]
    _ = db.advances x := advances_claimed x

theorem advances_marked (x : ℕ) : (g.marked env rs).advances x = db.advances x :=
  calc (g.marked env rs).advances x = (g.joined env rs).advances x := by
        simp [Db.advances, marked, Event.leaves]
    _ = db.advances x := advances_joined x

theorem advances_mono {c : Scope} (h : Frame c s t) (x : ℕ) : s.advances x ≤ t.advances x := by
  obtain ⟨new, hnew, -⟩ := h.log
  simp [Db.advances, hnew]

theorem Done.advances (h : g.Done env t) : db.advances g.parent.id < t.advances g.parent.id := by
  obtain ⟨rs, -, -, hf⟩ := h
  have hleft : (g.left env rs).advances g.parent.id =
    (g.marked env rs).advances g.parent.id + 1 := by
    simp [Db.advances, left, Event.leaves]
  rw [advances_marked] at hleft
  have := advances_mono hf g.parent.id
  omega

/-! ## Who may write what -/

variable (g env told)

/-- What holds between any two transactions. -/
structure Inv (t : Db) : Prop where
  wf : WellFormed t
  frame : Frame Scope.all db t
  phase : g.Open t ∨ g.Held env t
  rows : g.RowsTold env told t

/-- How the database changes: branches that are terminal stay as they are, and after the
join the group does. -/
structure Later (s t : Db) : Prop where
  frame : Frame Scope.all s t
  rows : ∀ b ∈ g.branches, ∀ e, s.execution? b.id = some e → e.status.terminal →
    ∃ f, t.execution? b.id = some f ∧ f.status = e.status ∧ f.output = e.output
  done : g.Done env s → Frame g.outside s t

/-- The group is left alone; until the holder has left it, everything is. -/
def Apart (s t : Db) : Prop := Frame g.outside s t ∧ (¬ g.Done env s → t = s)

variable {g env told}

theorem Done.frame (h : g.Done env s) (hst : Frame g.outside s t) : g.Done env t := by
  obtain ⟨rs, hrs, hc, hf⟩ := h
  exact ⟨rs, hrs, hc, hf.trans hst⟩

theorem Done.later (h : g.Done env s) (hst : g.Later env s t) : g.Done env t := h.frame (hst.done h)

theorem Later.refl (s : Db) : g.Later env s s :=
  ⟨.refl s, fun _ _ e he _ => ⟨e, he, rfl, rfl⟩, fun _ => .refl s⟩

theorem Later.trans {u : Db} (h : g.Later env s t) (h' : g.Later env t u) : g.Later env s u where
  frame := h.frame.trans h'.frame
  rows := by
    intro b hb e he hterm
    obtain ⟨f, hf, h1, h2⟩ := h.rows b hb e he hterm
    obtain ⟨k, hk, h3, h4⟩ := h'.rows b hb f hf (h1 ▸ hterm)
    exact ⟨k, hk, h3.trans h1, h4.trans h2⟩
  done := fun hd => (h.done hd).trans (h'.done (hd.later h))

theorem Later.terminal (h : g.Later env s t) {b : Execution} (hb : b ∈ g.branches)
    (hs : s.Terminal b.id) : t.Terminal b.id := by
  obtain ⟨e, he, hst⟩ := hs
  obtain ⟨f, hf, hst', -⟩ := h.rows b hb e he hst
  exact ⟨f, hf, hst' ▸ hst⟩

variable (g env told)

/-- The callbacks that have not claimed the join. -/
def free : Protocol Db where
  Inv := g.Inv env told
  Rely := g.Later env
  Guar := fun s t => g.Later env s t ∧ (g.Open s → g.Open t) ∧ (g.Held env s → g.Apart env s t)
  refl := .refl
  trans := .trans

/-- The callback that has claimed it. -/
def holder : Protocol Db where
  Inv := fun t => g.Inv env told t ∧ g.Held env t
  Rely := g.Apart env
  Guar := g.Later env
  refl := fun s => ⟨.refl s, fun _ => rfl⟩
  trans := by
    intro s t u h h'
    refine ⟨h.1.trans h'.1, fun hs => ?_⟩
    obtain rfl := h.2 hs
    exact h'.2 hs

/-- Whoever comes after the join. -/
def rules : Rules where
  own := g.outside
  others := Scope.all
  inst_sub := fun _ _ => trivial
  exec_sub := fun _ _ => trivial
  also := fun t => Frame Scope.all db t ∧ g.Done env t ∧ g.RowsTold env told t
  also_keep := fun ⟨hs, hd, hrows⟩ hst => ⟨hs.trans hst.toAll, hd.frame hst, hrows.outside hs hst⟩

variable {g env told}

theorem Apart.refl (s : Db) : g.Apart env s s := ⟨.refl s, fun _ => rfl⟩

theorem Later.of_frame (h : Frame g.outside s t) : g.Later env s t :=
  ⟨h.toAll, fun _ hb _ he _ => row_of_outside h (branch_not_outside hb) he, fun _ => h⟩

theorem Held.apart (h : g.Held env s) (hst : g.Apart env s t) : g.Held env t := by
  by_cases hd : g.Done env s
  · exact .inr (hd.frame hst.1)
  · rw [hst.2 hd]
    exact h

/-- What is open later was open before. -/
theorem Open.before (h : g.Open t) (hst : g.Later env s t) (hs : g.Inv env told s) : g.Open s := by
  obtain ⟨b, hb, hn⟩ := h.not_terminal
  exact hs.phase.resolve_right fun hheld => hn (hst.terminal hb (hheld.terminal hb))

theorem handover : Handover (g.free env told) (g.holder env told) g.Open where
  shared := fun h => h.1
  free := fun _ hg ht hs => ⟨hg.2.2 hs.2, ht, hs.2.apart (hg.2.2 hs.2)⟩
  held := fun _ hg ht => ⟨ht.1, hg⟩
  untaken := fun hs hg => hg.2.1 hs

theorem Inv.rules (h : g.Inv env told s) (hd : g.Done env s) : (g.rules env told).Inv s :=
  ⟨h.wf, h.frame.nextId, h.frame, hd, h.rows⟩

theorem Inv.of_rules (h : (g.rules env told).Inv s) : g.Inv env told s :=
  ⟨h.wf, h.also.1, .inr (.inr h.also.2.1), h.also.2.2⟩

theorem free_keeps {α : Type} {p : Run α} {Q : α → Db → Prop} (hd : g.Done env s)
    (h : Keeps (g.rules env told) s p Q) : p.Ok (g.free env told) s fun _ t => g.Done env t := by
  refine (Prog.Ok.mono (A := fun t => g.Done env t) (keeps_iff.1 h) hd ?_ ?_ ?_).weaken
    fun _ _ _ hq => hq.2
  · exact fun hs hst ht => ⟨hst.frame, hs.later hst⟩
  · exact fun hs hi => hi.rules hs
  · intro s t hs hi hst ht
    exact ⟨⟨Later.of_frame hst, fun ho => absurd (.inr hs) ho.not_held,
      fun _ => ⟨hst, fun hn => absurd hs hn⟩⟩, .of_rules ht, ht.also.2.1⟩

theorem hold_keeps {α : Type} {p : Run α} {Q : α → Db → Prop} (hd : g.Done env s)
    (h : Keeps (g.rules env told) s p Q) : p.Ok (g.holder env told) s fun _ t => g.Done env t := by
  refine (Prog.Ok.mono (A := fun t => g.Done env t) (keeps_iff.1 h) hd ?_ ?_ ?_).weaken
    fun _ _ _ hq => hq.2
  · exact fun hs hst _ => ⟨hst.1.toAll, hs.frame hst.1⟩
  · exact fun hs hi => hi.1.rules hs
  · intro s t hs hi hst ht
    exact ⟨.of_frame hst, ⟨.of_rules ht, .inr ht.also.2.1⟩, ht.also.2.1⟩

theorem row_of_frame {e : Execution} (hdb : WellFormed db) (hf : Frame Scope.all db t)
    (he : e ∈ db.executions) : ∃ f, t.execution? e.id = some f ∧ SameExecution e f := by
  obtain ⟨f, hf', hk⟩ := hf.execution? (hdb.execution?_of_mem he)
  exact ⟨f, hf', hk.1⟩

theorem parentExec_not_branch {inst id : ℕ} {ty : StepType} (hf : Frame Scope.all db t)
    (h : t.ParentExec inst ty id) : id ∉ g.branches.map Execution.id := by
  intro hm
  obtain ⟨b, hb, rfl⟩ := List.mem_map.1 hm
  obtain ⟨hmem, hpar⟩ := mem_branches.1 hb
  obtain ⟨f, hf', hsame⟩ := row_of_frame g.wf hf hmem
  obtain ⟨d, flow, stepId, step, ⟨e, he, -, -, -, htask⟩, -⟩ := h
  rw [hf', Option.some.injEq] at he
  subst he
  have := (g.branchRunning b hmem hpar).2
  rw [← hsame.taskId, htask] at this
  cases this

theorem covers : (g.rules env told).Covers where
  loop := by
    intro t inst id ht _ hp
    refine ⟨?_, parentExec_not_branch ht.also.1 hp⟩
    rintro rfl
    -- the parent of the group stands at a parallel step, not at a loop
    obtain ⟨d, flow, stepId, step, ⟨e, he, h1, h2, h3, -⟩, hr, hfind, hty⟩ := hp
    obtain ⟨f, hf, hsame⟩ := row_of_frame g.wf ht.also.1 (Table.mem_of_get g.parentFound)
    rw [hf, Option.some.injEq] at he
    subst he
    have hruns : t.Runs inst g.d := by
      rw [← h1, hsame.instanceId, g.parentInstance]
      exact Db.Runs.later ⟨g.row, g.found, g.definition⟩ ht.also.1
    obtain ⟨-, step', hfind', hty'⟩ := parent_spec (g := g)
    rw [hr.unique hruns, ← h2, ← h3, hsame.flowName, hsame.stepId, hfind',
      Option.some.injEq] at hfind
    rw [← hfind, hty'] at hty
    cases hty
  join := by
    intro t e p ht hsaw hW hp
    obtain ⟨⟨_, -, -, hpar⟩, f, hf, hsame⟩ := hsaw
    refine ⟨?_, parentExec_not_branch ht.also.1 (hpar p hp).2⟩
    rintro rfl
    -- a row under this parent is a branch, and new rows have new parents
    rcases ht.also.1.executions.mem_cases (Table.mem_of_get hf) with ⟨e₀, he₀, hk⟩ | hnew
    · refine hW.2 (List.mem_map.2 ⟨e₀, mem_branches.2 ⟨he₀, ?_⟩, ?_⟩)
      · rw [← hk.1.parentExecutionId, hsame.parentExecutionId, hp]
      · rw [← hk.1.id, hsame.id]
    · have := hnew.2.2.2 g.parent.id (by rw [hsame.parentExecutionId, hp])
      have := g.wf.executionIds _ (Table.mem_of_get g.parentFound)
      omega

/-! ## The holder -/

theorem passes_fetch {α β : Type} {q : Db → Option α} {e : Err} {k : α → Run β} {r : Run β}
    {ts : List Db} {a : α} (hq : q s = some a) (h : (k a).Passes s ts r) :
    ((fetch q e).bind k).Passes s (s :: ts) r := by
  refine ⟨rfl, ?_⟩
  show ((Prog.orFail e (q s)).bind k).Passes s ts r
  rw [hq]
  exact h

theorem Later.of_moves {c : Scope} (hm : Moves c s t) (hs : ¬ g.Done env s)
    (h : ∀ b ∈ g.branches, t.execution? b.id = s.execution? b.id) : g.Later env s t :=
  ⟨hm.1.toAll, fun b hb e he _ => ⟨e, by rw [h b hb, he], rfl, rfl⟩, fun hd => absurd hd hs⟩

theorem Inv.moves {c : Scope} (hs : g.Inv env told s) (hm : Moves c s t) (hh : g.Held env t)
    (h : ∀ b ∈ g.branches, t.execution? b.id = s.execution? b.id) : g.Inv env told t :=
  ⟨hm.2, hs.frame.trans hm.1.toAll, .inr hh, hs.rows.of_rows h⟩

theorem not_done_claimed : ¬ g.Done env (g.claimed rs) := fun h => by
  have := h.advances
  rw [advances_claimed] at this
  omega

theorem not_done_joined : ¬ g.Done env (g.joined env rs) := fun h => by
  have := h.advances
  rw [advances_joined] at this
  omega

theorem not_done_marked : ¬ g.Done env (g.marked env rs) := fun h => by
  have := h.advances
  rw [advances_marked] at this
  omega

/-- The way on from the group. -/
def successor (g : BranchGroup db) (env : Env) (next : StepFn) (rs : List Result) : Run Unit :=
  if (g.failed rs).isEmpty then
    advanceToNext next g.row.id g.parent.flowName g.index g.d g.row.triggerData (g.saved env rs)
  else if (g.d.flow? "on_error").isSome then
    next g.row.id "on_error" 0 g.d g.row.triggerData (g.saved env rs)
  else updateStatus g.row.id .failed (some (joinFailure g.parent.stepId (g.failed rs)))

/-- Saving the join, giving the parent its status and leaving the group. -/
theorem joinParallel_passes {next : StepFn} :
    (joinParallel env next { g.parent with status := .resuming } g.row g.d g.index
      (g.rows rs)).Passes
      (g.claimed rs) [g.claimed rs, g.joined env rs, g.marked env rs, g.left env rs]
      (g.successor env next rs) := by
  refine passes_fetch (a := g.row.variableStore) (by rw [instance_claimed]; rfl) ?_
  refine ⟨rfl, rfl, ?_⟩
  show Prog.Passes (if (g.failed rs).isEmpty then _ else _) (g.marked env rs) _ _
  -- one of three ways on, each after the event that says so
  unfold successor
  split
  · rename_i hok
    exact ⟨by rw [left, leave, if_pos hok], Prog.passes_nil.2 rfl⟩
  split
  · rename_i hno herr
    exact ⟨by rw [left, leave, if_neg hno, if_pos herr], Prog.passes_nil.2 rfl⟩
  · rename_i hno herr
    exact ⟨by rw [left, leave, if_neg hno, if_neg herr], Prog.passes_nil.2 rfl⟩

/-- **The join, from its claim on**, as long as nobody else writes: no test of
`finish_parallel` fails. -/
theorem finishParallel_passes {next : StepFn} (hrs : g.Results rs) (hc : g.Complete rs) :
    (finishParallel env next g.parent.id).Passes (g.claimed rs)
      ([g.claimed rs, g.claimed rs, g.claimed rs, g.claimed rs, g.joined env rs, g.marked env rs,
        g.left env rs]) (g.successor env next rs) := by
  refine passes_fetch (parent_claimed hrs) ?_
  refine passes_fetch (a := g.row) (by rw [g.parentInstance]; exact instance_claimed) ?_
  rw [if_pos g.running, definitionForInstance, g.definition]
  show Prog.Passes ((lookup (g.d.stepIndex g.parent.flowName g.parent.stepId) _).bind _)
    (g.claimed rs) _ _
  rw [g.stepIndex]
  show Prog.Passes (if g.row.currentFlow = g.parent.flowName ∧
    g.row.currentStepIndex = g.index ∧ g.row.currentExecutionId = some g.parent.id then _ else _)
    (g.claimed rs) _ _
  rw [if_pos ⟨g.currentFlow, g.currentStepIndex, g.currentExecutionId⟩]
  refine ⟨rfl, ?_⟩
  beta_reduce
  rw [Prog.ret_ok_bind, listed_claimed, if_neg]
  · exact joinParallel_passes
  · rw [not_or, List.isEmpty_iff, List.any_eq_true]
    refine ⟨rows_ne_nil, ?_⟩
    rintro ⟨e, he, hn⟩
    rw [rows_terminal hrs hc he] at hn
    cases hn

theorem successor_hold {next : StepFn} (hnext : NextKeeps (g.rules env told) next)
    (hi : g.Inv env told (g.left env rs)) (hdone : g.Done env (g.left env rs)) :
    (g.successor env next rs).Ok (g.holder env told) (g.left env rs) fun _ t => g.Done env t := by
  have hruns : (g.left env rs).Runs g.row.id g.d :=
    g.runs.later hi.frame
  have hflow? : (g.d.flow? g.parent.flowName).isSome :=
    flow?_of_stepIndex (by rw [g.stepIndex]; rfl)
  refine hold_keeps (Q := anything) hdone ?_
  unfold successor
  split
  · exact hnext _ _ _ _ _ _ _ (hi.rules hdone) trivial hruns hflow? (saved_allows env rs)
  split
  · rename_i herr
    exact hnext _ _ _ _ _ _ _ (hi.rules hdone) trivial hruns herr (saved_allows env rs)
  · exact updateStatus_keeps trivial

/-- While the join is under way, nobody else writes anything. -/
theorem apart_claimed {rest : List Db} (hrest : rest = [g.claimed rs, g.claimed rs, g.claimed rs,
    g.claimed rs, g.joined env rs, g.marked env rs, g.left env rs]) :
    ∀ t ∈ (g.claimed rs :: rest).dropLast, ∀ u, g.Apart env t u → u = t := by
  subst hrest
  intro t ht u hu
  refine hu.2 ?_
  simp only [List.dropLast_cons_cons, List.dropLast_singleton, List.mem_cons, List.not_mem_nil,
    or_false] at ht
  rcases ht with rfl | rfl | rfl | rfl | rfl | rfl | rfl
  all_goals first | exact not_done_claimed | exact not_done_joined | exact not_done_marked

/-- The holder finds everything as it left it. -/
theorem finishParallel_hold {next : StepFn} (hnext : NextKeeps (g.rules env told) next)
    (hrs : g.Results rs) (hc : g.Complete rs) (hi : g.Inv env told (g.claimed rs)) :
    (finishParallel env next g.parent.id).Ok (g.holder env told) (g.claimed rs)
      fun _ t => g.Done env t := by
  have hheld : ∀ t, t = g.claimed rs ∨ t = g.joined env rs ∨ t = g.marked env rs → g.Held env t :=
    fun t ht => .inl ⟨rs, hrs, hc, ht⟩
  have hdone : g.Done env (g.left env rs) := ⟨rs, hrs, hc, .refl _⟩
  have hrows1 : ∀ b ∈ g.branches, (g.joined env rs).execution? b.id =
    (g.claimed rs).execution? b.id := fun b hb => by rw [branch_joined hb, branch_claimed hb]
  have hrows2 : ∀ b ∈ g.branches, (g.marked env rs).execution? b.id =
    (g.joined env rs).execution? b.id := fun b hb => by rw [branch_marked hb, branch_joined hb]
  have hrows3 : ∀ b ∈ g.branches, (g.left env rs).execution? b.id =
    (g.marked env rs).execution? b.id := fun b hb => by rw [branch_left hb, branch_marked hb]
  have hm1 : Moves Scope.all (g.claimed rs) (g.joined env rs) := by
    have hm := Moves.setVariables (c := Scope.all) hi.wf trivial (g.runs.later hi.frame)
      (saved_allows env rs)
    exact hm.trans (Moves.note hm.2 trivial trivial)
  have hi1 : g.Inv env told (g.joined env rs) := hi.moves hm1 (hheld _ (.inr (.inl rfl))) hrows1
  have hgate : (g.joined env rs).Gated g.parent.id := parent_gated.later hi1.frame
  have hm2 : Moves Scope.all (g.joined env rs) (g.marked env rs) := by
    have hm : Moves Scope.all (g.joined env rs) ((g.joined env rs).setExecution g.parent.id
        fun e => { e with status := g.outcome rs, output := some (g.summary env rs) }) :=
      Moves.setExecution hi1.wf (.inl trivial)
      (fun e => ⟨rfl, rfl, rfl, rfl, rfl, rfl, rfl, rfl, fun _ h => h⟩)
        fun e he hid h => h.finish hi1.wf he outcome_terminal fun _ => hid ▸ hgate
    exact hm.trans (Moves.note hm.2 trivial trivial)
  have hi2 : g.Inv env told (g.marked env rs) := hi1.moves hm2 (hheld _ (.inr (.inr rfl))) hrows2
  have hm3 : Moves Scope.all (g.marked env rs) (g.left env rs) := Moves.note hi2.wf trivial trivial
  have hi3 : g.Inv env told (g.left env rs) := hi2.moves hm3 (.inr hdone) hrows3
  refine (finishParallel_passes hrs hc).ok (apart_claimed rfl) ?_ (successor_hold hnext hi3 hdone)
  simp only [List.isChain_cons_cons, List.IsChain.singleton, and_true]
  have hread : g.Later env (g.claimed rs) (g.claimed rs) ∧
      g.Inv env told (g.claimed rs) ∧ g.Held env (g.claimed rs) :=
    ⟨.refl _, hi, hheld _ (.inl rfl)⟩
  exact ⟨hread, hread, hread, hread,
    ⟨.of_moves hm1 not_done_claimed hrows1, hi1, hheld _ (.inr (.inl rfl))⟩,
    ⟨.of_moves hm2 not_done_joined hrows2, hi2, hheld _ (.inr (.inr rfl))⟩,
    ⟨.of_moves hm3 not_done_marked hrows3, hi3, .inr hdone⟩⟩

/-! ## A callback of a branch -/

/-- A callback claims the join, and has `q` left to do. -/
def Claims {α : Type} (g : BranchGroup db) (q : Run α) (s t : Db) (p : Run α) : Prop :=
  g.Open s ∧ (∃ rs, g.Results rs ∧ g.Complete rs ∧ t = g.claimed rs) ∧ p = q

theorem terminal_withResults (h : g.Results rs) {b : Execution} (hb : b ∈ g.branches) :
    (db.withResults rs).Terminal b.id ↔ b.id ∈ rs.map Result.exec := by
  rw [← terminal_iff h hb]
  constructor
  · rintro ⟨e, he, hst⟩
    rw [branch_withResults hb, Option.some.injEq] at he
    exact he ▸ hst
  · exact fun hst => ⟨_, branch_withResults hb, hst⟩

theorem free_refl (t : Db) : (g.free env told).Guar t t := ⟨.refl t, fun h => h, fun _ => .refl t⟩

theorem open_withResults (hrs : g.Results rs) (hopen : ¬ g.Complete rs) :
    g.Open (db.withResults rs) := ⟨rs, hrs, hopen, rfl⟩

/-- One more result for a branch that had none. -/
theorem recorded_later {r : Result} (hrs : g.Results rs) (hopen : ¬ g.Complete rs)
    (hr : r.exec ∉ rs.map Result.exec) (hm : Moves Scope.all (db.withResults rs) t)
    (hshows : g.Shows (rs ++ [r]) t) : g.Later env (db.withResults rs) t := by
  refine ⟨hm.1, fun b hb e he hterm => ?_, fun hd =>
    absurd (.inr hd) (open_withResults hrs hopen).not_held⟩
  rw [branch_withResults hb, Option.some.injEq] at he
  subst he
  have hne : b.id ≠ r.exec := fun h => hr (h ▸ (terminal_iff hrs hb).1 hterm)
  obtain ⟨f, hf, h1, h2⟩ := hshows b hb
  rw [applyResults_append hr, if_neg hne] at h1 h2
  exact ⟨f, hf, h1, h2⟩

theorem Inv.recorded {r : Result} (hs : g.Inv env told (db.withResults rs)) (hrs : g.Results rs)
    (hrs' : g.Results (rs ++ [r])) (hm : Moves Scope.all (db.withResults rs) t)
    (hshows : g.Shows (rs ++ [r]) t) (hphase : g.Open t ∨ g.Held env t) {b : Execution}
    (hb : b ∈ g.branches) (hid : b.id = r.exec) (htold : g.Told env told b r.status r.output) :
    g.Inv env told t := by
  refine ⟨hm.2, hs.frame.trans hm.1, hphase, (hshows.rowsTold_iff hrs').2 fun q hq => ?_⟩
  rcases List.mem_append.1 hq with hq | hq
  · exact (shows_withResults.rowsTold_iff hrs).1 hs.rows q hq
  · obtain rfl := List.mem_singleton.1 hq
    exact ⟨b, hb, hid, htold⟩

theorem completeParallelBranch_eq (next : StepFn) (exec : Execution) (parent : ℕ)
    (status : ExecStatus) (output : String) :
    completeParallelBranch env next exec parent status output =
      Prog.act (fun t => (recordBranch exec parent status output t).2) fun t =>
        if (recordBranch exec parent status output t).1 then finishParallel env next parent
        else pure () := rfl

theorem recordBranch_held (h : g.Held env t) (exec : Execution) (status : ExecStatus)
    (output : String) : recordBranch exec g.parent.id status output t = (false, t) := by
  obtain ⟨e, he, hst⟩ := h.parent
  unfold recordBranch
  simp [he, hst]

theorem completeParallelBranch_takes {next : StepFn} (hnext : NextKeeps (g.rules env told) next)
    {b : Execution} (hb : b ∈ g.branches) {status : ExecStatus} {output : String}
    (hst : status.terminal) (hg : status = .completed → s.Gated b.id)
    (hs : g.Inv env told s) (htold : g.Open s → g.Told env told b status output) :
    (completeParallelBranch env next b g.parent.id status output).Takes (g.free env told)
      (g.holder env told) (g.Claims (finishParallel env next g.parent.id))
      (fun _ t => g.Done env t) s fun _ t => t.Terminal b.id := by
  rw [completeParallelBranch_eq]
  intro t hst' ht
  beta_reduce
  have hback : ∀ t, t.Terminal b.id → (pure () : Run Unit).Takes (g.free env told)
      (g.holder env told) (g.Claims (finishParallel env next g.parent.id))
      (fun _ t => g.Done env t) t fun _ t => t.Terminal b.id :=
    fun t h u hu _ => hu.terminal hb h
  rcases id ht.phase with ⟨rs, hrs, hopen, rfl⟩ | hheld
  swap
  · rw [recordBranch_held hheld]
    exact ⟨ht, .refl t, .inl ⟨free_refl t, hback t (hheld.terminal hb)⟩⟩
  obtain ⟨hmem, hpar⟩ := mem_branches.1 hb
  have htop : (db.withResults rs).TopExec b.instanceId g.parent.id := by
    obtain ⟨_, -, -, hp⟩ := g.wf.executions b hmem
    exact (hp _ hpar).1.later ht.frame
  have hm : Moves Scope.all (db.withResults rs)
      (recordBranch b g.parent.id status output (db.withResults rs)).2 :=
    recordBranch_moves ht.wf hst trivial trivial htop fun hdone => (hg hdone).later hst'.frame
  have htold' := htold ((open_withResults hrs hopen).before hst' hs)
  rcases recordBranch_withResults hrs hopen hb (.refl b) hst with
    ⟨hrec, heq⟩ | ⟨hnew, hrs', ⟨hc, heq⟩ | ⟨hc, heq⟩⟩
  · -- the branch has its result already
    rw [heq]
    exact ⟨ht, .refl _, .inl ⟨free_refl _, hback _ ((terminal_withResults hrs hb).2 hrec)⟩⟩
  · -- the last branch: the join is claimed
    rw [heq] at hm ⊢
    have hshows : g.Shows (rs ++ [⟨b.id, status, output⟩])
        (g.claimed (rs ++ [⟨b.id, status, output⟩])) := .of_rows fun c hc => branch_claimed hc
    have hheld : g.Held env (g.claimed (rs ++ [⟨b.id, status, output⟩])) :=
      .inl ⟨_, hrs', hc, .inl rfl⟩
    have hinv : g.Inv env told (g.claimed (rs ++ [⟨b.id, status, output⟩])) :=
      ht.recorded hrs hrs' hm hshows (.inr hheld) hb rfl htold'
    exact ⟨hinv, recorded_later hrs hopen hnew hm hshows, .inr ⟨⟨open_withResults hrs hopen,
      ⟨_, hrs', hc, rfl⟩, rfl⟩, ⟨hinv, hheld⟩, finishParallel_hold hnext hrs' hc hinv⟩⟩
  · -- another branch is still running
    rw [heq] at hm ⊢
    have hopen' : g.Open (db.withResults (rs ++ [⟨b.id, status, output⟩])) := ⟨_, hrs', hc, rfl⟩
    have hlater : g.Later env (db.withResults rs)
      (db.withResults (rs ++ [⟨b.id, status, output⟩])) :=
      recorded_later hrs hopen hnew hm shows_withResults
    refine ⟨ht.recorded hrs hrs' hm shows_withResults (.inl hopen') hb rfl htold', hlater,
      .inl ⟨⟨hlater, fun _ => hopen', ?_⟩, ?_⟩⟩
    · exact fun hh => absurd hh (open_withResults hrs hopen).not_held
    · exact hback _ ((terminal_withResults hrs' hb).2 (by simp))

section Callback

variable {host : Host} {next : StepFn} {b : Execution} {task : ℕ} {status output : String}

theorem ok_fetch {α : Type} {q : Db → Option α} {e : Err} {Q : Except Err α → Db → Prop}
    (h : ∀ t, g.Inv env told t → ∃ a, q t = some a ∧
      ∀ u, g.Later env t u → g.Inv env told u → Q (.ok a) u) :
    (fetch q e).Ok (g.free env told) s Q := by
  intro t _ ht
  obtain ⟨a, ha, hQ⟩ := h t ht
  refine ⟨free_refl t, ht, ?_⟩
  show (Prog.orFail e (q t)).Ok (g.free env told) t Q
  rw [ha]
  exact hQ

theorem takes_after {α β : Type} {p : Run α} {k : α → Run β} {A : α → Db → Prop}
    {T : Db → Db → Run β → Prop} {R Q : Except Err β → Db → Prop} (hs : g.Inv env told s)
    (hp : p.Ok (g.free env told) s fun r t => ∃ a, r = .ok a ∧ A a t)
    (hk : ∀ a t, g.Inv env told t → A a t →
      (k a).Takes (g.free env told) (g.holder env told) T R t Q) :
    (p.bind k).Takes (g.free env told) (g.holder env told) T R s Q := by
  refine Prog.Ok.takes_bind handover.shared hs (hp.weaken ?_)
  rintro _ t ht ⟨a, rfl, ha⟩
  exact hk a t ht ha

theorem getInstance_free : (getInstance g.row.id).Ok (g.free env told) s fun r t => ∃ i,
    r = .ok i ∧ i.id = g.row.id ∧ i.definition = some g.d ∧
      (i.status = .running ∨ ∀ b ∈ g.branches, t.Terminal b.id) := by
  refine ok_fetch fun t ht => ?_
  obtain ⟨i, hi, hk⟩ := ht.frame.instance? g.found
  refine ⟨i, hi, fun u htu _ => ⟨i, rfl, hk.1.id, hk.1.definition.trans g.definition, ?_⟩⟩
  rcases ht.phase with ⟨rs, -, -, rfl⟩ | hheld
  · rw [instance_withResults, Option.some.injEq] at hi
    exact .inl (hi ▸ g.running)
  · exact .inr fun b hb => htu.terminal hb (hheld.terminal hb)

theorem loadVariableStore_free :
    (loadVariableStore g.row.id).Ok (g.free env told) s fun r _ => ∃ vars, r = .ok vars ∧ True := by
  refine ok_fetch fun t ht => ?_
  obtain ⟨i, hi, -⟩ := ht.frame.instance? g.found
  exact ⟨i.variableStore, by rw [hi]; rfl, fun _ _ _ => ⟨_, rfl, trivial⟩⟩

theorem instanceId_of_mem (hb : b ∈ g.branches) : b.instanceId = g.row.id :=
  (mem_listStepExecutions.1 (List.mem_filter.1 hb).1).2

theorem sawExecution_of_mem (ht : g.Inv env told t) (hb : b ∈ g.branches) : SawExecution t b := by
  obtain ⟨hmem, -⟩ := mem_branches.1 hb
  exact (sawExecution_of_execution? g.wf (g.wf.execution?_of_mem hmem)).later ht.frame

theorem runs_of_mem (ht : g.Inv env told t) (hb : b ∈ g.branches) : t.Runs b.instanceId g.d := by
  rw [instanceId_of_mem hb]
  exact Db.Runs.later ⟨g.row, g.found, g.definition⟩ ht.frame

/-- What the callback of a branch is about to record is its verdict on the report. -/
theorem commandCompletion_free (hs : g.Inv env told s) (hb : b ∈ g.branches) :
    (commandCompletion env g.d b status output).Ok (g.free env told) s fun r t => ∃ a,
      r = .ok a ∧ (a.1 = "completed" → t.Gated b.id) ∧ (g.Open t →
        g.verdict env b status output =
          (if a.1 = "completed" then .completed else .failed, a.2)) := by
  unfold commandCompletion
  split
  · rename_i step hstep
    obtain ⟨hfind, -⟩ := Option.filter_eq_some_iff.1 hstep
    split
    · rename_i hdone
      refine Prog.ok_bind hs (ok_fetch fun t ht => ?_)
      obtain ⟨e, he, -⟩ := row_of_frame g.wf ht.frame (mem_branches.1 hb).1
      refine ⟨e, he, fun u htu _ => Prog.ok_pure fun v huv _ => ⟨_, rfl, fun hdone => ?_, ?_⟩⟩
      · exact ((sawExecution_of_mem ht hb).gated_of_result (runs_of_mem ht hb) hfind he
          hdone).later (htu.frame.trans huv.frame)
      · intro hopen
        -- the row read was the branch with a result or without
        obtain ⟨rs, hrs, -, rfl⟩ := hopen.before (htu.trans huv) ht
        rw [branch_withResults hb, Option.some.injEq] at he
        subst he
        have hresult : (applyResults rs b).commandResult = b.commandResult := by
          unfold applyResults
          split <;> rfl
        rw [verdict, hstep, hresult]
        cases b.commandResult with
        | none => simp [hdone]
        | some r => by_cases hr : r.succeeds step.allowFailure <;> simp [hdone, hr]
    · rename_i hn
      refine Prog.ok_pure fun _ _ _ => ⟨_, rfl, fun hdone => absurd hdone hn, fun _ => ?_⟩
      rw [verdict, hstep]
      simp [hn]
  · rename_i hnone
    refine Prog.ok_pure fun t _ ht => ⟨_, rfl, fun _ =>
      (sawExecution_of_mem ht hb).gated_of_filter (runs_of_mem ht hb) hnone, fun _ => ?_⟩
    rw [verdict, hnone]

/-- The callback of a branch: it records the result, or finds one, and may claim. -/
theorem onExecutionTaskCompleted_takes (hnext : NextKeeps (g.rules host.toEnv told) next)
    (hb : b ∈ g.branches) (htask : b.taskId = some task) (htold : (task, status, output) ∈ told)
    (hs : g.Inv host.toEnv told s) :
    (onExecutionTaskCompleted host next b task status output none).Takes (g.free host.toEnv told)
      (g.holder host.toEnv told) (g.Claims (finishParallel host.toEnv next g.parent.id))
      (fun _ t => g.Done host.toEnv t) s fun _ t => t.Terminal b.id := by
  unfold onExecutionTaskCompleted completeWith
  rw [instanceId_of_mem hb]
  refine takes_after hs getInstance_free ?_
  rintro i t ht ⟨hid, hdef, hlive⟩
  split
  swap
  · rename_i hn
    exact fun u hu _ => hu.terminal hb (hlive.resolve_left hn b hb)
  rw [definitionForInstance, hdef]
  refine takes_after (p := loadVariableStore i.id) ht (hid ▸ loadVariableStore_free) ?_
  rintro vars u hu -
  refine takes_after hu (commandCompletion_free hu hb) ?_
  rintro a v hv ⟨hgate, hverdict⟩
  rw [(mem_branches.1 hb).2]
  refine completeParallelBranch_takes hnext hb (Completion.stepStatus_terminal _)
    (fun hdone => hgate (Completion.stepStatus_completed hdone)) hv fun hopen => ?_
  exact ⟨_, htold, htask, hverdict hopen⟩

/-- What `on_task_completed` makes of the outcome of its only callback. -/
def settle (inst : ℕ) (r : Except Err Unit) : Except Err Unit :=
  r.mapError fun x => .workflow (
    "workflow completion failed: " ++ joinErrors [s!"{inst}: {x.text}"])

/-- The rest of `on_task_completed`, when its only callback has `p` left to do. -/
def settled (g : BranchGroup db) (p : Run Unit) : Run Unit :=
  p.attempt.bind fun r => Prog.ret (settle g.row.id r)

theorem Claims.wrap {α β : Type} {q : Run α} {p : Run α} (h : g.Claims q s t p)
    (k : Run α → Run β) : g.Claims (k q) s t (k p) := ⟨h.1, h.2.1, congrArg k h.2.2⟩

theorem completeFound_takes (hnext : NextKeeps (g.rules host.toEnv told) next)
    (hb : b ∈ g.branches) (htask : b.taskId = some task) (htold : (task, status, output) ∈ told)
    (hs : g.Inv host.toEnv told s) :
    (completeFound host next task status output [b]).Takes (g.free host.toEnv told)
      (g.holder host.toEnv told)
      (g.Claims (g.settled (finishParallel host.toEnv next g.parent.id)))
      (fun _ t => g.Done host.toEnv t) s fun _ t => t.Terminal b.id := by
  -- the callback, and then only what becomes of its error
  have hret : completeFound host next task status output [b] =
      g.settled (onExecutionTaskCompleted host next b task status output none) := by
    rw [completeFound, completeEach, completeEach, settled, ← instanceId_of_mem hb]
    simp only [Prog.bind_eq, Prog.bind_assoc, Prog.pure_eq, Prog.ret_ok_bind]
    congr 1
    funext r
    cases r <;> rfl
  rw [hret]
  refine Prog.takes_return (Prog.takes_attempt ?_)
  exact (onExecutionTaskCompleted_takes hnext hb htask htold hs).mono fun s t q hq =>
    (hq.wrap Prog.attempt).wrap fun p => p.bind fun r => Prog.ret (settle g.row.id r)

/-- Once the join is claimed, no lookup finds a row of the group. -/
theorem found_outside (ht : g.Inv env told t) (hh : g.Held env t) {e : Execution}
    (he : e ∈ t.runningByTask task) : g.outside.exec e.id := by
  obtain ⟨hmem, htask, hlive, -⟩ := mem_runningByTask.1 he
  have hrow := ht.wf.execution?_of_mem hmem
  refine ⟨fun hid => ?_, fun hm => ?_⟩
  · -- the parent has no task
    obtain ⟨f, hf, hsame⟩ := row_of_frame g.wf ht.frame (Table.mem_of_get g.parentFound)
    rw [← hid, hrow, Option.some.injEq] at hf
    subst hf
    rw [hsame.taskId, parent_spec.1] at htask
    cases htask
  · -- and branches are terminal
    obtain ⟨b, hb, hid⟩ := List.mem_map.1 hm
    obtain ⟨f, hf, hst⟩ := hh.terminal hb
    rw [hid, hrow, Option.some.injEq] at hf
    subst hf
    rcases hlive with h | h <;> rw [h] at hst <;> cases hst

/-- Until the group is left there are no rows but the old ones. -/
theorem Held.rows (h : g.Held env t) : g.Done env t ∨ ∃ f : Execution → Execution,
    (∀ e, SameExecution e (f e)) ∧ t.executions = db.executions.map f := by
  have hset : ∀ {f : Execution → Execution} (k : Execution → Execution),
      (∀ e, SameExecution e (f e)) → (∀ e, SameExecution e (k e)) → ∃ f' : Execution → Execution,
        (∀ e, SameExecution e (f' e)) ∧
          Table.modify Execution.id g.parent.id k (db.executions.map f) = db.executions.map f' := by
    intro f k hf hk
    refine ⟨fun e => if (f e).id = g.parent.id then k (f e) else f e, fun e => ?_, ?_⟩
    · dsimp only
      split
      · exact (hf e).trans (hk _)
      · exact hf e
    · rw [Table.modify, List.map_map]
      rfl
  rcases h with ⟨rs, -, -, h⟩ | h
  swap
  · exact .inl h
  obtain ⟨f, hf, hf'⟩ := hset (fun e => { e with status := .resuming }) (applyResults_same rs)
    fun e => ⟨rfl, rfl, rfl, rfl, rfl, rfl, rfl, rfl, fun _ h => h⟩
  rcases h with rfl | rfl | rfl
  · exact .inr ⟨f, hf, hf'⟩
  · exact .inr ⟨f, hf, hf'⟩
  · obtain ⟨k, hk, hk'⟩ := hset (fun e => { e with
      status := g.outcome rs, output := some (g.summary env rs) }) hf
      fun e => ⟨rfl, rfl, rfl, rfl, rfl, rfl, rfl, rfl, fun _ h => h⟩
    refine .inr ⟨k, hk, ?_⟩
    rw [← hk', ← hf']
    rfl

/-- What a lookup by the task of a branch finds while results are recorded. -/
theorem found_withResults (hrs : g.Results rs) (hwf : WellFormed (db.withResults rs))
    (hb : b ∈ g.branches) (htask : b.taskId = some task) :
    (b.id ∈ rs.map Result.exec ∧ (db.withResults rs).runningByTask task = []) ∨
      (db.withResults rs).runningByTask task = [b] := by
  obtain ⟨hmem, hpar⟩ := mem_branches.1 hb
  have hmem_iff : ∀ e, e ∈ (db.withResults rs).runningByTask task →
      e = b ∧ b.id ∉ rs.map Result.exec := by
    intro e he
    obtain ⟨hmem', htask', hlive, -⟩ := mem_runningByTask.1 he
    obtain ⟨e₀, he₀, rfl⟩ := List.mem_map.1 hmem'
    obtain rfl : e₀ = b := by
      refine g.alone b hmem hpar e₀ he₀ ?_
      rw [← (applyResults_same rs e₀).taskId, htask', htask]
    have hn : e₀.id ∉ rs.map Result.exec := by
      intro hm
      have := (terminal_iff hrs hb).2 hm
      rcases hlive with h | h <;> rw [h] at this <;> cases this
    exact ⟨applyResults_of_notMem hn, hn⟩
  by_cases hm : b.id ∈ rs.map Result.exec
  · refine .inl ⟨hm, List.eq_nil_iff_forall_not_mem.2 fun e he => (hmem_iff e he).2 hm⟩
  · right
    have hbmem : b ∈ (db.withResults rs).runningByTask task := by
      refine mem_runningByTask.2 ⟨List.mem_map.2 ⟨b, hmem, applyResults_of_notMem hm⟩, htask,
        .inl (g.branchRunning b hmem hpar).1, ?_⟩
      rw [instanceId_of_mem hb, instance_withResults, Option.any_some, g.running]
      rfl
    have hnd := List.Nodup.of_map _ (runningByTask_nodup hwf task)
    have hperm : (db.withResults rs).runningByTask task ⊆ [b] := fun e he => by
      simp [(hmem_iff e he).1]
    cases hl : (db.withResults rs).runningByTask task with
    | nil => rw [hl] at hbmem; cases hbmem
    | cons e es =>
      rw [hl, List.nodup_cons] at hnd
      rw [hl] at hperm
      obtain rfl : e = b := by simpa using hperm (List.mem_cons_self ..)
      have hes : es = [] := by
        refine List.eq_nil_iff_forall_not_mem.2 fun f hf => hnd.1 ?_
        obtain rfl : f = e := by simpa using hperm (List.mem_cons_of_mem _ hf)
        exact hf
      rw [hes]

/-- **One callback for the task of a branch.**  When it returns, the branch is
terminal. -/
theorem onTaskCompleted_takes (hnext : NextKeeps (g.rules host.toEnv told) next)
    (hb : b ∈ g.branches) (htask : b.taskId = some task) (htold : (task, status, output) ∈ told) :
    (onTaskCompleted host next task status output).Takes (g.free host.toEnv told)
      (g.holder host.toEnv told)
      (g.Claims (g.settled (finishParallel host.toEnv next g.parent.id)))
      (fun _ t => g.Done host.toEnv t) s fun _ t => t.Terminal b.id := by
  have hnil : ∀ t, t.Terminal b.id → (completeFound host next task status output []).Takes
      (g.free host.toEnv told) (g.holder host.toEnv told)
      (g.Claims (g.settled (finishParallel host.toEnv next g.parent.id)))
      (fun _ t => g.Done host.toEnv t) t fun _ t => t.Terminal b.id :=
    fun t h u hu _ => hu.terminal hb h
  rw [onTaskCompleted_eq]
  intro t _ ht
  refine ⟨ht, .refl t, .inl ⟨free_refl t, ?_⟩⟩
  beta_reduce
  rcases id ht.phase with ⟨rs, hrs, hopen, rfl⟩ | hheld
  · rcases found_withResults hrs ht.wf hb htask with ⟨hm, hes⟩ | hes
    · rw [hes]
      exact hnil _ ((terminal_withResults hrs hb).2 hm)
    · rw [hes]
      exact completeFound_takes hnext hb htask htold ht
  rcases hheld.rows with hdone | ⟨f, hf, hrows⟩
  · refine Prog.Ok.takes handover.shared ((free_keeps hdone (completeFound_keeps hnext covers
      (ht.rules hdone) fun e he => ?_)).weaken fun _ u _ hu => Held.terminal (.inr hu) hb)
    exact ⟨sawExecution_of_mem_runningByTask ht.wf he, trivial, found_outside ht hheld he⟩
  · have hes : t.runningByTask task = [] := by
      refine List.eq_nil_iff_forall_not_mem.2 fun e he => ?_
      obtain ⟨hmem', htask', -⟩ := mem_runningByTask.1 he
      rw [hrows] at hmem'
      obtain ⟨e₀, he₀, rfl⟩ := List.mem_map.1 hmem'
      obtain ⟨hmem, hpar⟩ := mem_branches.1 hb
      obtain rfl : e₀ = b := by
        refine g.alone b hmem hpar e₀ he₀ ?_
        rw [← (hf e₀).taskId, htask', htask]
      refine branch_not_outside hb ?_
      rw [← (hf e₀).id]
      exact found_outside ht hheld he
    show Prog.Takes _ _ _ _ (completeFound host next task status output (t.runningByTask task)) _ _
    rw [hes]
    exact hnil t (hheld.terminal hb)

end Callback

/-! ## The history of a group -/

/-- The results a join saves, each under the step of its branch. -/
theorem joinedVariables_get {d : Definition} {vars : Vars} {bs : List Execution}
    (hnd : (bs.map Execution.stepId).Nodup) {b : Execution} (hb : b ∈ bs) :
    Vars.get? (joinedVariables env d vars bs) b.stepId = some (stepValue
      (d.findStep b.flowName b.stepId) (parseTaskOutput env (b.output.getD ""))) := by
  induction bs using List.reverseRecOn with
  | nil => cases hb
  | append_singleton bs c ih =>
    rw [List.map_append, List.nodup_append] at hnd
    rw [joinedVariables, List.foldl_append, List.foldl_cons, List.foldl_nil, Vars.get?_insert]
    rcases List.mem_append.1 hb with hb | hb
    · have hne : b.stepId ≠ c.stepId := fun h =>
        hnd.2.2 _ (List.mem_map_of_mem hb) _ (by simp) h
      rw [if_neg hne]
      exact ih hnd.1 hb
    · obtain rfl := List.mem_singleton.1 hb
      rw [if_pos rfl]

theorem branches_steps_nodup : (g.branches.map Execution.stepId).Nodup := by
  have hnd : g.branches.Nodup :=
    ((List.perm_insertionSort _ _).nodup_iff.2
      ((List.Nodup.of_map _ g.wf.executionsNodup).filter _)).filter _
  refine hnd.map_on fun b hb c hc h => ?_
  obtain ⟨hb, hbp⟩ := mem_branches.1 hb
  obtain ⟨hc, hcp⟩ := mem_branches.1 hc
  exact (g.distinct b hb hbp c hc hcp h.symm).symm

/-- A recorded result is what the join saves for its branch. -/
theorem saved_get (hrs : g.Results rs) {r : Result} (hr : r ∈ rs) {b : Execution}
    (hb : b ∈ g.branches) (hid : b.id = r.exec) :
    Vars.get? (g.saved env rs) b.stepId = some (stepValue
      (g.d.findStep b.flowName b.stepId) (parseTaskOutput env r.output)) := by
  have hsteps : (g.rows rs).map Execution.stepId = g.branches.map Execution.stepId := by
    rw [rows, List.map_map]
    exact List.map_congr_left fun e _ => (applyResults_same rs e).stepId
  have hrow := applyResults_of_mem hrs.nodup hr hid.symm
  have hmem : applyResults rs b ∈ g.rows rs := List.mem_map_of_mem hb
  have hget : Vars.get? (joinedVariables env g.d g.row.variableStore (g.rows rs))
      (applyResults rs b).stepId = some (stepValue (g.d.findStep (applyResults rs b).flowName
        (applyResults rs b).stepId) (parseTaskOutput env ((applyResults rs b).output.getD ""))) :=
    joinedVariables_get (hsteps ▸ branches_steps_nodup) hmem
  rw [hrow] at hget
  exact hget

/-- The instance has the saved variables when the engine leaves the group. -/
theorem instance_left : (g.left env rs).instance? g.row.id =
    some { g.row with variableStore := g.saved env rs } := by
  show ((g.claimed rs).setInstance g.row.id fun i =>
    { i with variableStore := g.saved env rs }).instance? g.row.id = _
  rw [Db.instance?_setInstance, instance_claimed, Option.map_some, if_pos rfl]
  exact fun _ => rfl

variable (g env)

/-- What `finish_parallel` records, in order. -/
def events (rs : List Result) : List Event :=
  [.claimed g.parent.id, .joined g.parent.id (g.rows rs) (g.saved env rs),
    .marked g.parent.id (g.outcome rs), .advanced g.parent.id (g.leave rs)]

/-- The stores before the group is left, in order. -/
def stores (rs : List Result) : List Db :=
  [db.withResults rs, g.claimed rs, g.joined env rs, g.marked env rs]

/-- **The history of a group**, from its publication on, under a schedule of callbacks:
the results `rs`, one for each of some branches and each the first that was recorded for
its branch, as a report says; then the first `stage` of the four commits of the join, for
which every branch has a result.  The last commit has saved the results, and the thread
that made it has exactly the one way on left to do; nothing after it is about the group. -/
structure History (next : StepFn) (told : List (ℕ × String × String)) (c : Sys Db Err Unit)
    (schedule : List ℕ) (rs : List Result) (stage : ℕ) : Prop where
  results : g.Results rs
  reported : g.Reported env told rs
  first : ∀ before, before <+: schedule → ∀ b ∈ g.branches, ∀ e,
    (c.sched before).store.execution? b.id = some e → e.status.terminal →
    ∃ r ∈ rs, r.exec = b.id ∧ e.status = r.status ∧ e.output = some r.output
  complete : 0 < stage ↔ g.Complete rs
  store : stage < 4 → (g.stores env rs)[stage]? = some (c.sched schedule).store
  left : stage = 4 → Frame g.outside (g.left env rs) (c.sched schedule).store ∧
    ∃ (before : List ℕ) (i : ℕ), before <+: schedule ∧
      (c.sched before).store = g.left env rs ∧
      (c.sched before).threads[i]? = some (g.settled (g.successor env next rs))
  saved : ∀ r ∈ rs, ∀ b ∈ g.branches, b.id = r.exec →
    ((g.left env rs).instance? g.row.id).bind (fun i => Vars.get? i.variableStore b.stepId) =
      some (stepValue (g.d.findStep b.flowName b.stepId) (parseTaskOutput env r.output))
  log : ∃ rest, (c.sched schedule).store.log =
      db.log ++ rs.map Result.event ++ (g.events env rs).take stage ++ rest ∧
    (stage < 4 → rest = []) ∧ ∀ ev ∈ rest, ev.within g.outside.exec

variable {g env}

theorem log_of_stores {stage : ℕ} (h : (g.stores env rs)[stage]? = some t) :
    t.log = db.log ++ rs.map Result.event ++ (g.events env rs).take stage := by
  match stage, h with
  | 0, h => obtain rfl := Option.some.inj h; simp [Db.withResults]
  | 1, h => obtain rfl := Option.some.inj h; simp [claimed, Db.withResults, events]
  | 2, h => obtain rfl := Option.some.inj h; simp [joined, claimed, Db.withResults, events]
  | 3, h => obtain rfl := Option.some.inj h; simp [marked, joined, claimed, Db.withResults, events]

theorem shows_of_stores {stage : ℕ} (h : (g.stores env rs)[stage]? = some t) : g.Shows rs t := by
  match stage, h with
  | 0, h => obtain rfl := Option.some.inj h; exact shows_withResults
  | 1, h => obtain rfl := Option.some.inj h; exact .of_rows fun b hb => branch_claimed hb
  | 2, h => obtain rfl := Option.some.inj h; exact .of_rows fun b hb => branch_joined hb
  | 3, h => obtain rfl := Option.some.inj h; exact .of_rows fun b hb => branch_marked hb

theorem not_done_of_stores {stage : ℕ} (h : (g.stores env rs)[stage]? = some t) :
    ¬ g.Done env t := by
  have hadv : t.advances g.parent.id = db.advances g.parent.id := by
    match stage, h with
    | 0, h => obtain rfl := Option.some.inj h; exact advances_withResults _
    | 1, h => obtain rfl := Option.some.inj h; exact advances_claimed _
    | 2, h => obtain rfl := Option.some.inj h; exact advances_joined _
    | 3, h => obtain rfl := Option.some.inj h; exact advances_marked _
  exact fun hd => hd.advances.ne hadv.symm

theorem log_left : (g.left env rs).log = db.log ++ rs.map Result.event ++ g.events env rs := by
  simp [left, marked, joined, claimed, Db.withResults, events]

/-- What the last store says of the results, it says of the whole schedule. -/
theorem history_of_shows {next : StepFn} {c : Sys Db Err Unit} {schedule : List ℕ} {stage : ℕ}
    (hinv : g.Inv env told (c.sched schedule).store)
    (hrely : ∀ before, before <+: schedule →
      g.Later env (c.sched before).store (c.sched schedule).store)
    (hrs : g.Results rs) (hshows : g.Shows rs (c.sched schedule).store)
    (hcomplete : 0 < stage ↔ g.Complete rs)
    (hstore : stage < 4 → (g.stores env rs)[stage]? = some (c.sched schedule).store)
    (hleft : stage = 4 → Frame g.outside (g.left env rs) (c.sched schedule).store ∧
      ∃ (before : List ℕ) (i : ℕ), before <+: schedule ∧
        (c.sched before).store = g.left env rs ∧
        (c.sched before).threads[i]? = some (g.settled (g.successor env next rs)))
    (hle : stage ≤ 4) : g.History env next told c schedule rs stage where
  results := hrs
  reported := (hshows.rowsTold_iff hrs).1 hinv.rows
  first := by
    intro before hbefore b hb e he hterm
    obtain ⟨f, hf, h1, h2⟩ := (hrely before hbefore).rows b hb e he hterm
    obtain ⟨f', hf', h3, h4⟩ := hshows b hb
    obtain rfl : f = f' := Option.some.inj (hf.symm.trans hf')
    obtain ⟨r, hr, hid⟩ := List.mem_map.1 ((terminal_iff hrs hb).1 (h3 ▸ h1 ▸ hterm))
    rw [applyResults_of_mem hrs.nodup hr hid] at h3 h4
    exact ⟨r, hr, hid, h1.symm.trans h3, h2.symm.trans h4⟩
  complete := hcomplete
  store := hstore
  left := hleft
  saved := by
    intro r hr b hb hid
    rw [instance_left, Option.bind_some]
    exact saved_get hrs hr hb hid
  log := by
    by_cases h4 : stage < 4
    · exact ⟨[], by simp [log_of_stores (hstore h4)], fun _ => rfl, by simp⟩
    · obtain rfl : stage = 4 := by omega
      obtain ⟨rest, hlog, hout⟩ := (hleft rfl).1.log
      exact ⟨rest, by rw [hlog, log_left]; rfl, by omega, hout⟩

end BranchGroup

/-- Callbacks for tasks, each with the status and the output that is reported. -/
def reports (host : Host) (fuel : ℕ) (db : Db) (rs : List (ℕ × String × String)) :
    Sys Db Err Unit :=
  ⟨db, rs.map fun r => onTaskCompleted host (executeStep host fuel) r.1 r.2.1 r.2.2⟩

namespace BranchGroup

variable {db : Db} {g : BranchGroup db} {host : Host} {fuel : ℕ}

/-- A callback that returns leaves the branch of its task terminal. -/
theorem reports_take {rs : List (ℕ × String × String)}
    (hrs : ∀ r ∈ rs, ∃ b ∈ g.branches, b.taskId = some r.1) (j : ℕ) (p : Run Unit)
    (hp : (reports host fuel db rs).threads[j]? = some p) :
    p.Takes (g.free host.toEnv rs) (g.holder host.toEnv rs)
      (g.Claims (g.settled (finishParallel host.toEnv (executeStep host fuel) g.parent.id)))
      (fun _ t => g.Done host.toEnv t) db
      fun _ t => ∀ r, rs[j]? = some r → ∀ b ∈ g.branches, b.taskId = some r.1 →
        t.Terminal b.id := by
  rw [reports, List.getElem?_map, Option.map_eq_some_iff] at hp
  obtain ⟨r, hr, rfl⟩ := hp
  obtain ⟨b, hb, htask⟩ := hrs r (List.mem_of_getElem? hr)
  refine (onTaskCompleted_takes (executeStep_keeps host fuel) hb htask
    (List.mem_of_getElem? hr)).weaken fun _ t hterm r' hr' c hc hctask => ?_
  obtain rfl : r = r' := Option.some.inj (hr.symm.trans hr')
  obtain ⟨hmem, hpar⟩ := mem_branches.1 hb
  obtain rfl := g.alone b hmem hpar c (mem_branches.1 hc).1 (hctask.trans htask.symm)
  exact hterm

/-- From its claim on, the join is under way, or it got to the end. -/
theorem join_under_way {c : Sys Db Err Unit} {told : List (ℕ × String × String)} {next : StepFn}
    {R : Except Err Unit → Db → Prop} {Q : ℕ → Except Err Unit → Db → Prop} {i : ℕ}
    {before after : List ℕ} {results : List Result} (hrs : g.Results results)
    (hc : g.Complete results)
    (hclaimed : (c.sched (before ++ [i])).store = g.claimed results)
    (hthread : (c.sched (before ++ [i])).threads[i]? =
      some (g.settled (finishParallel host.toEnv next g.parent.id)))
    (hheld : ∀ pre, pre <+: after → (c.sched (before ++ i :: pre)).HeldBy (g.free host.toEnv told)
      (g.holder host.toEnv told) (g.Claims (g.settled (finishParallel host.toEnv next g.parent.id)))
      R Q i) :
    (∃ stage, 0 < stage ∧ stage < 4 ∧ (g.stores host.toEnv results)[stage]? =
      some (c.sched (before ++ i :: after)).store) ∨
    ∃ pre, pre <+: after ∧ (c.sched (before ++ i :: pre)).store = g.left host.toEnv results ∧
      (c.sched (before ++ i :: pre)).threads[i]? =
        some (g.settled (g.successor host.toEnv next results)) := by
  have hsched : ∀ pre, (c.sched (before ++ [i])).sched pre = c.sched (before ++ i :: pre) := by
    intro pre
    rw [← Sys.sched_append, List.append_assoc, List.singleton_append]
  have hpasses : (g.settled (finishParallel host.toEnv next g.parent.id)).Passes
      (c.sched (before ++ [i])).store [g.claimed results, g.claimed results, g.claimed results,
        g.claimed results, g.joined host.toEnv results, g.marked host.toEnv results,
        g.left host.toEnv results] (g.settled (g.successor host.toEnv next results)) :=
    hclaimed ▸ (finishParallel_passes hrs hc).attempt.bind
  rcases Sys.sched_passes (V := (g.holder host.toEnv told).Rely) hthread hpasses
    (by rw [hclaimed]; exact apart_claimed rfl) after fun pre j hpre hj => by
      rw [hsched]
      have hheld' := hheld pre ((List.prefix_append _ _).trans hpre)
      refine hheld'.rely handover hj ?_
      rintro ⟨f, k, -, hopen, -⟩
      exact hopen.not_held hheld'.held.2 with h | ⟨pre, hpre, hstore, hth⟩
  · left
    rw [hsched, hclaimed] at h
    simp only [List.dropLast_cons_cons, List.dropLast_singleton, List.mem_cons, List.not_mem_nil,
      or_false] at h
    rcases h with h | h | h | h | h | h | h <;> rw [h]
    · exact ⟨1, by omega, by omega, rfl⟩
    · exact ⟨1, by omega, by omega, rfl⟩
    · exact ⟨1, by omega, by omega, rfl⟩
    · exact ⟨1, by omega, by omega, rfl⟩
    · exact ⟨1, by omega, by omega, rfl⟩
    · exact ⟨2, by omega, by omega, rfl⟩
    · exact ⟨3, by omega, by omega, rfl⟩
  · rw [hsched] at hstore hth
    exact .inr ⟨pre, hpre, by rw [hstore, hclaimed]; rfl, hth⟩

end BranchGroup

open BranchGroup in
/-- **The join is taken exactly once and loses nothing.**  For every parallel group and
every schedule of callbacks for the tasks of its branches, the history is that of a
group; and when the callbacks have returned and every branch had one, the group was
joined and left. -/
theorem join_taken_once (host : Host) (fuel : ℕ) {db : Db} (g : BranchGroup db)
    (rs : List (ℕ × String × String)) (hrs : ∀ r ∈ rs, ∃ b ∈ g.branches, b.taskId = some r.1)
    (schedule : List ℕ) : ∃ results stage, stage ≤ 4 ∧
      g.History host.toEnv (executeStep host fuel) rs (reports host fuel db rs) schedule results
        stage ∧
      ((∀ p ∈ ((reports host fuel db rs).sched schedule).threads, p.returned) →
        (∀ b ∈ g.branches, ∃ r ∈ rs, b.taskId = some r.1) → stage = 4) := by
  have hopen : g.Open db := by
    obtain ⟨b, hb, hpar⟩ := g.nonempty
    refine ⟨[], .nil, fun hc => ?_, withResults_nil.symm⟩
    cases hc b (mem_branches.2 ⟨hb, hpar⟩)
  have hrows : g.RowsTold host.toEnv rs db := by
    intro b hb e he hterm
    obtain ⟨hmem, hpar⟩ := mem_branches.1 hb
    rw [g.wf.execution?_of_mem hmem, Option.some.injEq] at he
    rw [← he, (g.branchRunning b hmem hpar).1] at hterm
    cases hterm
  have hinv : g.Inv host.toEnv rs db := ⟨g.wf, .refl db, .inl hopen, hrows⟩
  have hrun := Sys.sched_handover (c := reports host fuel db rs) handover
    (fun j r s hs hd t hst ht r' _ b hb _ => hst.terminal hb (Held.terminal (.inr hd) hb))
    hinv hopen (reports_take hrs) schedule fun before i after _ ⟨f, k, _, hclaim⟩ hheld _ _ _ _ _ =>
      absurd hheld.2 hclaim.1.not_held
  rcases hrun.turn with hun | ⟨i, before, after, hsplit, ⟨f, k, hi, htook⟩, hheld⟩
  · -- nobody claimed the join, so some branch is not terminal
    obtain ⟨results, hres, hnot, hstore⟩ := hun.untaken
    refine ⟨results, 0, by omega, history_of_shows hrun.inv hrun.rely hres
      (hstore ▸ shows_withResults) (by simp [hnot]) (fun _ => congrArg some hstore.symm)
      (by omega) (by omega), fun hreturned hall => ?_⟩
    -- but it had a callback
    obtain ⟨b, hb, hn⟩ := hun.untaken.not_terminal
    obtain ⟨r, hr, htask⟩ := hall b hb
    obtain ⟨j, hj⟩ := List.getElem?_of_mem hr
    obtain ⟨p, hp⟩ : ∃ p, ((reports host fuel db rs).sched schedule).threads[j]? = some p := by
      have hlt : j < ((reports host fuel db rs).sched schedule).threads.length := by
        rw [Sys.length_sched]
        simpa [reports] using (List.getElem?_eq_some_iff.1 hj).1
      exact ⟨_, List.getElem?_eq_getElem hlt⟩
    obtain ⟨x, rfl⟩ := Prog.eq_ret_of_returned (hreturned p (List.mem_of_getElem? hp))
    exact absurd (hun.free j _ hp _ (.refl _) hrun.inv r hj b hb htask) hn
  -- thread `i` claimed it
  subst hsplit
  obtain ⟨-, ⟨results, hres, hc, hclaimed⟩, hleft⟩ := htook
  have hlast := hheld after List.prefix_rfl
  have hstep : (reports host fuel db rs).sched (before ++ [i]) =
      ⟨f ((reports host fuel db rs).sched before).store,
        ((reports host fuel db rs).sched before).threads.set i
          (k ((reports host fuel db rs).sched before).store)⟩ := by
    rw [Sys.sched_concat, Sys.step, hi]
  have hlt : i < ((reports host fuel db rs).sched before).threads.length :=
    (List.getElem?_eq_some_iff.1 hi).1
  rcases join_under_way hres hc (by rw [hstep]; exact hclaimed)
    (by rw [hstep, ← hleft]; exact List.getElem?_set_self hlt) hheld with
    ⟨stage, hpos, h4, hstore⟩ | ⟨pre, hpre, hstore, hth⟩
  · refine ⟨results, stage, by omega, history_of_shows hrun.inv hrun.rely hres
      (shows_of_stores hstore) (by simp [hpos, hc]) (fun _ => hstore) (by omega) (by omega),
      fun hreturned _ => ?_⟩
    -- the thread that claimed the join has not returned
    obtain ⟨p, hp, hok⟩ := hlast.holder
    obtain ⟨r, rfl⟩ := Prog.eq_ret_of_returned (hreturned p (List.mem_of_getElem? hp))
    exact absurd (hok _ ((g.holder host.toEnv rs).refl _) hlast.held) (not_done_of_stores hstore)
  · have hbefore : before ++ i :: pre <+: before ++ i :: after :=
      List.prefix_append_right_inj _ |>.2 (List.cons_prefix_cons.2 ⟨rfl, hpre⟩)
    have hframe : Frame g.outside (g.left host.toEnv results)
        ((reports host fuel db rs).sched (before ++ i :: after)).store := by
      have hlater := hrun.rely _ hbefore
      rw [hstore] at hlater
      exact hlater.done ⟨results, hres, hc, .refl _⟩
    refine ⟨results, 4, le_rfl, history_of_shows hrun.inv hrun.rely hres
      ((Shows.of_rows fun b hb => branch_left hb).outside hframe) (by simp [hc]) (by omega)
      (fun _ => ⟨hframe, _, i, hbefore, hstore, hth⟩) le_rfl, fun _ _ => rfl⟩

/-! ## A run -/

/-- A parallel step with two branches, and a step after it. -/
def branching : Definition where
  name := "branching"
  flows := [("main", ⟨[
    { id := "both", stepType := .parallel, body := [
      { id := "left", agent := some "coder" }, { id := "right", agent := some "coder" }] },
    { id := "after", agent := some "coder" }]⟩)]

/-- The workflow is saved, and its agent exists. -/
def branchingDb : Db where
  workflows := [{ id := 0, name := "branching", definition := branching }]
  work := { agents := [{ id := "coder" }] }
  nextId := 1

theorem branchingDb_initial : branchingDb.Initial plainHost.toEnv where
  workflows := by
    intro w hw
    obtain rfl := List.mem_singleton.1 hw
    rfl
  instances := rfl
  executions := rfl
  log := rfl

/-- One start of it. -/
def branchesRunning : Db :=
  (calls plainHost 5 branchingDb [.start 0 (.obj []) {} none] (List.replicate 60 0)).store

theorem branchesRunning_wellFormed : WellFormed branchesRunning :=
  calls_wellFormed 5 branchingDb_initial _ _

/-- The group of that start. -/
def bothBranches : BranchGroup branchesRunning where
  row := (branchesRunning.instance? 1).get (by decide +kernel)
  d := ((branchesRunning.instance? 1).get (by decide +kernel)).definition.get (by decide +kernel)
  parent := (branchesRunning.execution? 4).get (by decide +kernel)
  index := 0
  wf := branchesRunning_wellFormed
  found := by
    have hid : ((branchesRunning.instance? 1).get (by decide +kernel)).id = 1 := by decide +kernel
    rw [hid, Option.some_get]
  running := by decide +kernel
  definition := (Option.some_get _).symm
  currentFlow := by decide +kernel
  currentStepIndex := by decide +kernel
  currentExecutionId := by decide +kernel
  stepIndex := by decide +kernel
  parentFound := by decide +kernel
  parentInstance := by decide +kernel
  parentRunning := by decide +kernel
  nonempty := by decide +kernel
  branchRunning := by decide +kernel
  alone := by decide +kernel
  distinct := by decide +kernel

/-- Three callbacks, two of them for one branch, and the other failing. -/
def bothReports : List (ℕ × String × String) :=
  [(2, "completed", "a"), (3, "failed", "b"), (2, "completed", "c")]

/-- The third looks its branch up before the first, and records after it. -/
def interleaved : List ℕ :=
  [2, 2, 0, 0, 1, 1] ++ List.replicate 16 1 ++ List.replicate 10 0 ++ List.replicate 10 2

/-- The join saves what was recorded first, and the instance fails. -/
theorem bothBranches_joined :
    (∃ results, bothBranches.History plainHost.toEnv (executeStep plainHost 5) bothReports
      (reports plainHost 5 branchesRunning bothReports) interleaved results 4) ∧
    (((reports plainHost 5 branchesRunning bothReports).sched interleaved).store.instance? 1).map
      (fun i => (i.status, i.variableStore)) = some (.failed,
        [("left", .obj [("output", .str "a")]), ("right", .obj [("output", .str "b")])]) := by
  refine ⟨?_, by decide +kernel⟩
  obtain ⟨results, stage, -, hhist, hstage⟩ := join_taken_once plainHost 5 bothBranches bothReports
    (by decide +kernel) interleaved
  have hreturned : (((reports plainHost 5 branchesRunning bothReports).sched
      interleaved).threads.all Prog.returned) = true := by decide +kernel
  obtain rfl := hstage (List.all_eq_true.1 hreturned) (by decide +kernel)
  exact ⟨results, hhist⟩

end XpressClaw
