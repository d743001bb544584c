import XpressClaw.Workflow.Completion

/-!
# A parallel group and its states

Until the join is taken, callbacks for the branches of a parallel group change nothing
but the branches, each at most once.  So the database is known exactly: it is
`Db.withResults rs`, the published one with the results `rs` recorded, and after the claim
`BranchGroup.claimed`, `BranchGroup.joined`, `BranchGroup.marked` and `BranchGroup.left`,
which are the stores that `finish_parallel` commits.  `recordBranch_withResults` computes the transaction of a
branch callback on such a state.
-/

namespace XpressClaw

open Lib

/-- A result that a callback recorded for a branch. -/
structure Result where
  exec : ℕ
  status : ExecStatus
  output : String

/-- The event of a recorded result. -/
def Result.event (r : Result) : Event := .recorded r.exec r.status r.output

/-- A row after results were recorded. -/
def applyResults (rs : List Result) (e : Execution) : Execution :=
  match rs.find? fun r => r.exec = e.id with
  | some r => { e with status := r.status, output := some r.output }
  | none => e

/-- The store with results recorded. -/
def Db.withResults (db : Db) (rs : List Result) : Db :=
  { db with
    executions := db.executions.map (applyResults rs)
    log := db.log ++ rs.map Result.event }

section

variable {rs : List Result} {e : Execution}

theorem applyResults_same (rs : List Result) (e : Execution) :
    SameExecution e (applyResults rs e) := by
  unfold applyResults
  split <;> exact ⟨rfl, rfl, rfl, rfl, rfl, rfl, rfl, rfl, fun _ h => h⟩

theorem applyResults_of_notMem (h : e.id ∉ rs.map Result.exec) : applyResults rs e = e := by
  have hnone : rs.find? (fun r => r.exec = e.id) = none := by
    rw [List.find?_eq_none]
    intro r hr
    simpa using fun hid : r.exec = e.id => h (hid ▸ List.mem_map_of_mem hr)
  simp [applyResults, hnone]

theorem applyResults_of_mem {r : Result} (hnd : (rs.map Result.exec).Nodup) (hr : r ∈ rs)
    (hid : r.exec = e.id) :
    applyResults rs e = { e with status := r.status, output := some r.output } := by
  have hfind : rs.find? (fun r => r.exec = e.id) = some r := by
    rw [← hid]
    exact Table.get_eq_some_of_mem hnd hr
  simp [applyResults, hfind]

theorem withResults_nil {db : Db} : db.withResults [] = db := by
  have hid : applyResults [] = id := rfl
  simp [Db.withResults, hid]

/-- One more result for a row that has none. -/
theorem applyResults_append {r : Result} (hr : r.exec ∉ rs.map Result.exec) :
    applyResults (rs ++ [r]) e =
      if e.id = r.exec then { applyResults rs e with status := r.status, output := some r.output }
      else applyResults rs e := by
  unfold applyResults
  rw [List.find?_append]
  cases hf : rs.find? (fun r => r.exec = e.id) with
  | some q =>
    have hq : q.exec = e.id := by simpa using List.find?_some hf
    have hne : e.id ≠ r.exec := fun h =>
      hr (h ▸ hq ▸ List.mem_map_of_mem (List.mem_of_find?_eq_some hf))
    simp [hne]
  | none =>
    by_cases he : e.id = r.exec
    · simp [he]
    · simp [he, Ne.symm he]

end

/-- A parallel group whose branches all run: its instance stands at the parallel step,
its parent is the instance's current execution, and nothing else works on the tasks of
its branches. -/
structure BranchGroup (db : Db) where
  row : Instance
  d : Definition
  parent : Execution
  index : ℕ
  wf : WellFormed db
  found : db.instance? row.id = some row
  running : row.status = .running
  definition : row.definition = some d
  currentFlow : row.currentFlow = parent.flowName
  currentStepIndex : row.currentStepIndex = index
  currentExecutionId : row.currentExecutionId = some parent.id
  stepIndex : d.stepIndex parent.flowName parent.stepId = some index
  parentFound : db.execution? parent.id = some parent
  parentInstance : parent.instanceId = row.id
  parentRunning : parent.status = .running
  nonempty : ∃ b ∈ db.executions, b.parentExecutionId = some parent.id
  branchRunning : ∀ b ∈ db.executions, b.parentExecutionId = some parent.id →
    b.status = .running ∧ b.taskId.isSome
  alone : ∀ b ∈ db.executions, b.parentExecutionId = some parent.id →
    ∀ e ∈ db.executions, e.taskId = b.taskId → e = b
  distinct : ∀ b ∈ db.executions, b.parentExecutionId = some parent.id →
    ∀ c ∈ db.executions, c.parentExecutionId = some parent.id → c.stepId = b.stepId → c = b

namespace BranchGroup

variable {db : Db} (g : BranchGroup db)

/-- The branches, in the order in which `finish_parallel` lists them. -/
def branches : List Execution :=
  (db.listStepExecutions g.row.id).filter fun e => e.parentExecutionId = some g.parent.id

/-- What holds of results that callbacks recorded: one for each of some branches. -/
structure Results (rs : List Result) : Prop where
  nodup : (rs.map Result.exec).Nodup
  branch : ∀ r ∈ rs, r.exec ∈ g.branches.map Execution.id
  terminal : ∀ r ∈ rs, r.status.terminal

/-- Every branch has a result. -/
def Complete (rs : List Result) : Prop := ∀ b ∈ g.branches, b.id ∈ rs.map Result.exec

instance (rs : List Result) : Decidable (g.Complete rs) :=
  inferInstanceAs (Decidable (∀ b ∈ g.branches, b.id ∈ rs.map Result.exec))

/-! ## The stores -/

/-- The join is claimed. -/
def claimed (rs : List Result) : Db :=
  ((db.withResults rs).setExecution g.parent.id fun e => { e with status := .resuming }).note
    (.claimed g.parent.id)

/-- The branches with their results. -/
def rows (rs : List Result) : List Execution := g.branches.map (applyResults rs)

/-- The variables the join saves. -/
def saved (env : Env) (rs : List Result) : Vars :=
  joinedVariables env g.d g.row.variableStore (g.rows rs)

/-- The steps of the branches that did not complete. -/
def failed (rs : List Result) : List String :=
  ((g.rows rs).filter fun b => b.status ≠ .completed).map Execution.stepId

/-- The status of the parent. -/
def outcome (rs : List Result) : ExecStatus := if (g.failed rs).isEmpty then .completed else .failed

/-- Where the instance goes from the group. -/
def leave (rs : List Result) : Leave :=
  if (g.failed rs).isEmpty then .step g.parent.flowName (g.index + 1)
  else if (g.d.flow? "on_error").isSome then .step "on_error" 0
  else .failed

/-- The output of the parent. -/
def summary (env : Env) (rs : List Result) : String :=
  env.renderJson (.obj [("branches", .num (g.rows rs).length),
    ("failed", .arr ((g.failed rs).map .str))])

/-- The join is saved. -/
def joined (env : Env) (rs : List Result) : Db :=
  ((g.claimed rs).setInstance g.row.id fun i => { i with variableStore := g.saved env rs }).note
    (.joined g.parent.id (g.rows rs) (g.saved env rs))

/-- The parent has its final status. -/
def marked (env : Env) (rs : List Result) : Db :=
  ((g.joined env rs).setExecution g.parent.id fun e =>
    { e with status := g.outcome rs, output := some (g.summary env rs) }).note
    (.marked g.parent.id (g.outcome rs))

/-- The engine leaves the group. -/
def left (env : Env) (rs : List Result) : Db :=
  (g.marked env rs).note (.advanced g.parent.id (g.leave rs))

/-! ## The rows of a group -/

variable {g}

theorem mem_branches {b : Execution} :
    b ∈ g.branches ↔ b ∈ db.executions ∧ b.parentExecutionId = some g.parent.id := by
  simp only [branches, Db.listStepExecutions, List.mem_filter, List.mem_insertionSort,
    decide_eq_true_eq]
  constructor
  · rintro ⟨⟨h1, -⟩, h2⟩
    exact ⟨h1, h2⟩
  · rintro ⟨h1, h2⟩
    obtain ⟨_, -, -, hpar⟩ := g.wf.executions b h1
    obtain ⟨e, he, hinst⟩ := (hpar _ h2).1.belongs
    rw [g.parentFound, Option.some.injEq] at he
    subst he
    exact ⟨⟨h1, hinst.symm.trans g.parentInstance⟩, h2⟩

theorem parent_spec : g.parent.taskId = none ∧ ∃ step,
    g.d.findStep g.parent.flowName g.parent.stepId = some step ∧ step.stepType = .parallel := by
  obtain ⟨b, hb, hpar⟩ := g.nonempty
  obtain ⟨_, -, -, h⟩ := g.wf.executions b hb
  obtain ⟨d, flow, stepId, step, ⟨e, he, h1, h2, h3, h4⟩, hr, hfind, hty⟩ := (h _ hpar).2
  rw [g.parentFound, Option.some.injEq] at he
  subst he
  have hruns : db.Runs b.instanceId g.d :=
    ⟨g.row, by rw [← h1, g.parentInstance]; exact g.found, g.definition⟩
  obtain rfl := hr.unique hruns
  exact ⟨h4, step, by rw [h2, h3]; exact hfind, hty⟩

theorem parent_gated : db.Gated g.parent.id := by
  obtain ⟨-, step, hfind, hty⟩ := parent_spec (g := g)
  refine ⟨g.parent, g.d, g.parentFound, ⟨g.row, ?_, g.definition⟩, fun st hst hcmd => ?_⟩
  · rw [g.parentInstance]
    exact g.found
  · rw [hfind, Option.some.injEq] at hst
    rw [← hst, hty] at hcmd
    cases hcmd

theorem runs (g : BranchGroup db) : db.Runs g.row.id g.d := ⟨g.row, g.found, g.definition⟩

/-- The variables that the join saves have names of the definition. -/
theorem saved_allows (env : Env) (rs : List Result) : g.d.Allows (g.saved env rs) := by
  refine joinedVariables_allows (g.wf.allows (Table.mem_of_get g.found) g.definition) ?_
  intro e he
  obtain ⟨b, hb, rfl⟩ := List.mem_map.1 he
  obtain ⟨hmem, hinst⟩ := mem_listStepExecutions.1 (List.mem_filter.1 hb).1
  have hsaw := sawExecution_of_execution? g.wf (g.wf.execution?_of_mem hmem)
  rw [(applyResults_same rs b).stepId]
  exact hsaw.mem_names (hinst ▸ g.runs)

theorem id_ne_parent {b : Execution} (hb : b ∈ g.branches) : b.id ≠ g.parent.id := by
  intro hid
  obtain ⟨hmem, hpar⟩ := mem_branches.1 hb
  have hbp : b = g.parent := by
    have := g.wf.execution?_of_mem hmem
    rw [hid, g.parentFound, Option.some.injEq] at this
    exact this.symm
  have htask := (g.branchRunning b hmem hpar).2
  rw [hbp, parent_spec.1] at htask
  cases htask

section State

variable {rs : List Result}

theorem Results.nil : g.Results [] := ⟨by simp, by simp, by simp⟩

theorem Results.parent (h : g.Results rs) : g.parent.id ∉ rs.map Result.exec := by
  intro hm
  obtain ⟨r, hr, hid⟩ := List.mem_map.1 hm
  obtain ⟨b, hb, hb'⟩ := List.mem_map.1 (h.branch r hr)
  exact id_ne_parent hb (hb'.trans hid)

theorem Results.append (h : g.Results rs) {r : Result} (hr : r.exec ∉ rs.map Result.exec)
    (hb : r.exec ∈ g.branches.map Execution.id) (hst : r.status.terminal) :
    g.Results (rs ++ [r]) where
  nodup := by
    rw [List.map_append, List.nodup_append]
    refine ⟨h.nodup, by simp, ?_⟩
    rintro x hx y hy rfl
    rw [List.map_singleton, List.mem_singleton] at hy
    exact hr (hy ▸ hx)
  branch := by
    intro q hq
    rcases List.mem_append.1 hq with hq | hq
    · exact h.branch q hq
    · exact List.mem_singleton.1 hq ▸ hb
  terminal := by
    intro q hq
    rcases List.mem_append.1 hq with hq | hq
    · exact h.terminal q hq
    · exact List.mem_singleton.1 hq ▸ hst

theorem execution?_withResults (x : ℕ) :
    (db.withResults rs).execution? x = (db.execution? x).map (applyResults rs) :=
  Table.get_map fun e => (applyResults_same rs e).id

theorem parent_withResults (h : g.Results rs) :
    (db.withResults rs).execution? g.parent.id = some g.parent := by
  rw [execution?_withResults, g.parentFound, Option.map_some, applyResults_of_notMem h.parent]

theorem branch_withResults {b : Execution} (hb : b ∈ g.branches) :
    (db.withResults rs).execution? b.id = some (applyResults rs b) := by
  rw [execution?_withResults, g.wf.execution?_of_mem (mem_branches.1 hb).1, Option.map_some]

theorem terminal_iff (h : g.Results rs) {b : Execution} (hb : b ∈ g.branches) :
    (applyResults rs b).status.terminal ↔ b.id ∈ rs.map Result.exec := by
  by_cases hm : b.id ∈ rs.map Result.exec
  · obtain ⟨r, hr, hid⟩ := List.mem_map.1 hm
    rw [applyResults_of_mem h.nodup hr hid]
    exact iff_of_true (h.terminal r hr) hm
  · obtain ⟨hmem, hpar⟩ := mem_branches.1 hb
    rw [applyResults_of_notMem hm, (g.branchRunning b hmem hpar).1]
    simp [ExecStatus.terminal, hm]

/-- Every branch has a result exactly if the test of the claim succeeds. -/
theorem all_terminal_iff (h : g.Results rs) :
    ((db.withResults rs).executions.all fun e =>
      e.parentExecutionId != some g.parent.id || e.status.terminal) = true ↔ g.Complete rs := by
  simp only [Db.withResults, List.all_map, List.all_eq_true, Function.comp_apply, Bool.or_eq_true,
    bne_iff_ne, ne_eq, (applyResults_same rs _).parentExecutionId]
  constructor
  · intro hall b hb
    obtain ⟨hmem, hpar⟩ := mem_branches.1 hb
    exact (terminal_iff h hb).1 ((hall b hmem).resolve_left (not_not.2 hpar))
  · intro hall e he
    by_cases hpar : e.parentExecutionId = some g.parent.id
    · have hb := mem_branches.2 ⟨he, hpar⟩
      exact .inr ((terminal_iff h hb).2 (hall e hb))
    · exact .inl hpar

theorem withResults_append {r : Result} (hr : r.exec ∉ rs.map Result.exec) :
    ((db.withResults rs).setExecution r.exec fun e =>
      { e with status := r.status, output := some r.output }).note
        (.recorded r.exec r.status r.output) = db.withResults (rs ++ [r]) := by
  have hexec : Table.modify Execution.id r.exec
      (fun e => { e with status := r.status, output := some r.output })
      (db.executions.map (applyResults rs)) = db.executions.map (applyResults (rs ++ [r])) := by
    rw [Table.modify, List.map_map]
    refine List.map_congr_left fun e _ => ?_
    simp only [applyResults_append hr, Function.comp_apply, (applyResults_same rs e).id]
  simp only [Db.withResults, Db.setExecution, Db.note, hexec]
  simp [Result.event]

/-- Listing the branches after a change of rows in place. -/
theorem listed_map {t u : Db} {f : Execution → Execution} (hf : ∀ e, SameExecution e (f e))
    (h : u.executions = t.executions.map f) (inst parent : ℕ) :
    (u.listStepExecutions inst).filter (fun e => e.parentExecutionId = some parent) =
      ((t.listStepExecutions inst).filter fun e => e.parentExecutionId = some parent).map f := by
  have hfilter : u.executions.filter (fun e => e.instanceId = inst) =
      (t.executions.filter fun e => e.instanceId = inst).map f := by
    rw [h, List.filter_map]
    congr 2
    funext e
    simp [(hf e).instanceId]
  rw [Db.listStepExecutions, Db.listStepExecutions, hfilter,
    ← List.map_insertionSort (fun a b : Execution => a.startedAt ≤ b.startedAt)
      (fun a b : Execution => a.startedAt ≤ b.startedAt)]
  · rw [List.filter_map]
    congr 2
    funext e
    simp [(hf e).parentExecutionId]
  · intro a _ b _
    rw [(hf a).startedAt, (hf b).startedAt]

/-- When the join is claimed, the branches listed are the branches with their results. -/
theorem listed_claimed :
    ((g.claimed rs).listStepExecutions g.row.id).filter
      (fun e => e.parentExecutionId = some g.parent.id) = g.rows rs := by
  have h1 : ((db.withResults rs).listStepExecutions g.row.id).filter
      (fun e => e.parentExecutionId = some g.parent.id) = g.rows rs :=
    listed_map (applyResults_same rs) rfl _ _
  have h2 : ((g.claimed rs).listStepExecutions g.row.id).filter
      (fun e => e.parentExecutionId = some g.parent.id) =
        (((db.withResults rs).listStepExecutions g.row.id).filter
          fun e => e.parentExecutionId = some g.parent.id).map
            fun e => if e.id = g.parent.id then { e with status := .resuming } else e :=
    listed_map (fun e => by split <;> exact ⟨rfl, rfl, rfl, rfl, rfl, rfl, rfl, rfl, fun _ h => h⟩)
      rfl _ _
  rw [h2, h1]
  -- the parent is none of them
  conv_rhs => rw [← List.map_id (g.rows rs)]
  refine List.map_congr_left fun e he => ?_
  obtain ⟨b, hb, rfl⟩ := List.mem_map.1 he
  rw [(applyResults_same rs b).id, if_neg (id_ne_parent hb), id]

theorem rows_terminal (h : g.Results rs) (hc : g.Complete rs) {e : Execution} (he : e ∈ g.rows rs) :
    e.status.terminal := by
  obtain ⟨b, hb, rfl⟩ := List.mem_map.1 he
  exact (terminal_iff h hb).2 (hc b hb)

theorem rows_ne_nil : g.rows rs ≠ [] := by
  obtain ⟨b, hb, hpar⟩ := g.nonempty
  exact List.ne_nil_of_mem (List.mem_map_of_mem (mem_branches.2 ⟨hb, hpar⟩))

/-- **The transaction of a branch callback.**  A branch that has a result keeps it; the
last branch to get one claims the join. -/
theorem recordBranch_withResults (h : g.Results rs) (hopen : ¬ g.Complete rs) {b e : Execution}
    (hb : b ∈ g.branches) (he : SameExecution b e) {status : ExecStatus} {output : String}
    (hst : status.terminal) :
    (b.id ∈ rs.map Result.exec ∧
      recordBranch e g.parent.id status output (db.withResults rs) = (false, db.withResults rs)) ∨
    (b.id ∉ rs.map Result.exec ∧ g.Results (rs ++ [⟨b.id, status, output⟩]) ∧
      ((g.Complete (rs ++ [⟨b.id, status, output⟩]) ∧
        recordBranch e g.parent.id status output (db.withResults rs) =
          (true, g.claimed (rs ++ [⟨b.id, status, output⟩]))) ∨
      (¬ g.Complete (rs ++ [⟨b.id, status, output⟩]) ∧
        recordBranch e g.parent.id status output (db.withResults rs) =
          (false, db.withResults (rs ++ [⟨b.id, status, output⟩]))))) := by
  obtain ⟨hmem, hpar⟩ := mem_branches.1 hb
  have hinst : e.instanceId = g.row.id := by
    obtain ⟨-, hinst⟩ := mem_listStepExecutions.1 (List.mem_filter.1 hb).1
    exact he.instanceId.trans hinst
  have hlive : ((db.withResults rs).instance? e.instanceId).any (fun i => i.status = .running) := by
    rw [hinst]
    show (db.instance? g.row.id).any _
    simp [g.found, g.running]
  have hparent : ((db.withResults rs).execution? g.parent.id).any
    (fun e => e.status = .running) := by
    simp [parent_withResults h, g.parentRunning]
  have hterm : ∀ rs, g.Results rs → ((db.withResults rs).executions.all fun e =>
      e.parentExecutionId != some g.parent.id || e.status.terminal) = decide (g.Complete rs) :=
    fun rs h => by rw [Bool.eq_iff_iff, all_terminal_iff h, decide_eq_true_iff]
  by_cases hm : b.id ∈ rs.map Result.exec
  · refine .inl ⟨hm, ?_⟩
    have hnot : ((db.withResults rs).execution? e.id).any
      (fun e => e.status = .running) = false := by
      have := (terminal_iff h hb).2 hm
      rw [he.id, branch_withResults hb, Option.any_some]
      cases hs : (applyResults rs b).status <;> simp_all [ExecStatus.terminal]
    unfold recordBranch
    simp only [hnot, Bool.false_and, if_false, hterm rs h, hopen, decide_false, Bool.and_false,
      Bool.false_eq_true]
  · have hrs : g.Results (rs ++ [⟨b.id, status, output⟩]) :=
      h.append hm (List.mem_map_of_mem hb) hst
    refine .inr ⟨hm, hrs, ?_⟩
    have hrun : ((db.withResults rs).execution? b.id).any (fun e => e.status = .running) := by
      rw [branch_withResults hb, applyResults_of_notMem hm]
      simp [(g.branchRunning b hmem hpar).1]
    have hparent' : ((db.withResults (rs ++ [⟨b.id, status, output⟩])).execution? g.parent.id).any
        (fun e => e.status = .running) := by
      simp [parent_withResults hrs, g.parentRunning]
    have happ : ((db.withResults rs).setExecution b.id fun e =>
        { e with status, output := some output }).note (.recorded b.id status output) =
          db.withResults (rs ++ [⟨b.id, status, output⟩]) :=
      withResults_append (r := ⟨b.id, status, output⟩) hm
    by_cases hc : g.Complete (rs ++ [⟨b.id, status, output⟩])
    · refine .inl ⟨hc, ?_⟩
      unfold recordBranch
      simp only [hrun, hlive, hparent, Bool.and_self, if_true, he.id, happ, hparent', hterm _ hrs,
        hc, decide_true]
      rfl
    · refine .inr ⟨hc, ?_⟩
      unfold recordBranch
      simp only [hrun, hlive, hparent, Bool.and_self, if_true, he.id, happ, hparent', hterm _ hrs,
        hc, decide_false, Bool.and_false, Bool.false_eq_true, if_false]

end State

end BranchGroup

/-! ## Where groups come from -/

/-- The row of the `k`-th branch. -/
theorem branchRows_getElem? {inst parent startedAt id : ℕ} {flow : String}
    {bs : List (Step × PreparedTask)} {k : ℕ} :
    (branchRows inst flow parent startedAt bs id)[k]? = bs[k]?.map fun b =>
      { id := id + k, instanceId := inst, flowName := flow, stepId := b.1.id
        taskId := some b.2.taskId, parentExecutionId := some parent, status := .running
        startedAt } := by
  induction bs generalizing id k with
  | nil => rfl
  | cons b bs ih =>
      cases k with
      | zero => rfl
      | succ k =>
          rw [branchRows, List.getElem?_cons_succ, List.getElem?_cons_succ, ih]
          simp [Nat.add_comm 1, Nat.add_assoc]

theorem columns_of_branchRows {inst parent startedAt id : ℕ} {flow : String}
    {bs : List (Step × PreparedTask)} {k : ℕ} {b : Step × PreparedTask} {e : Execution}
    (hb : bs[k]? = some b) (he : (branchRows inst flow parent startedAt bs id)[k]? = some e) :
    e.taskId = some b.2.taskId ∧ e.stepId = b.1.id := by
  rw [branchRows_getElem?, hb, Option.map_some, Option.some.injEq] at he
  subst he
  exact ⟨rfl, rfl⟩

theorem taskId_of_mem_branchRows {inst parent startedAt id : ℕ} {flow : String}
    {bs : List (Step × PreparedTask)} {e : Execution}
    (he : e ∈ branchRows inst flow parent startedAt bs id) :
    ∃ b ∈ bs, e.taskId = some b.2.taskId := by
  obtain ⟨k, hk⟩ := List.getElem?_of_mem he
  obtain ⟨b, hb, rfl⟩ := Option.map_eq_some_iff.1 (branchRows_getElem?.symm.trans hk)
  exact ⟨b, List.mem_of_getElem? hb, rfl⟩

/-- Every step of the body has a row. -/
theorem exists_mem_branchRows {inst parent startedAt id : ℕ} {flow : String} {body : List Step}
    {prepared : List PreparedTask} (hlen : prepared.length = body.length) {b : Step}
    (hb : b ∈ body) :
    ∃ e ∈ branchRows inst flow parent startedAt (body.zip prepared) id, e.stepId = b.id := by
  obtain ⟨k, hk⟩ := List.getElem?_of_mem hb
  obtain ⟨hlt, -⟩ := List.getElem?_eq_some_iff.1 hk
  obtain ⟨p, hp⟩ : ∃ p, prepared[k]? = some p := ⟨_, List.getElem?_eq_getElem (hlen ▸ hlt)⟩
  have hz : (body.zip prepared)[k]? = some (b, p) := List.getElem?_zip_eq_some.2 ⟨hk, hp⟩
  exact ⟨_, List.mem_of_getElem? (branchRows_getElem?.trans (by rw [hz]; rfl)), rfl⟩

/-- Branches with one column in common are one branch, if the column tells the branches
of the step apart. -/
theorem eq_of_branchRows {α : Type} {inst parent startedAt id : ℕ} {flow : String}
    {bs : List (Step × PreparedTask)} {key : Step × PreparedTask → α} {col : Execution → α}
    (hcol : ∀ (k : ℕ) b e, bs[k]? = some b →
      (branchRows inst flow parent startedAt bs id)[k]? = some e → col e = key b)
    (hnd : (bs.map key).Nodup) {e f : Execution}
    (he : e ∈ branchRows inst flow parent startedAt bs id)
    (hf : f ∈ branchRows inst flow parent startedAt bs id) (h : col e = col f) : e = f := by
  obtain ⟨k, hk⟩ := List.getElem?_of_mem he
  obtain ⟨l, hl⟩ := List.getElem?_of_mem hf
  obtain ⟨b, hb, -⟩ := Option.map_eq_some_iff.1 (branchRows_getElem?.symm.trans hk)
  obtain ⟨c, hc, -⟩ := Option.map_eq_some_iff.1 (branchRows_getElem?.symm.trans hl)
  have hkl : k = l := by
    refine (List.getElem?_inj (l := bs.map key) ?_ hnd).1 ?_
    · simpa using (List.getElem?_eq_some_iff.1 hb).1
    · rw [List.getElem?_map, List.getElem?_map, hb, hc, Option.map_some, Option.map_some,
        ← hcol k b e hb hk, ← hcol l c f hc hl, h]
  subst hkl
  exact Option.some.inj (hk.symm.trans hl)

section Rows

variable {t : Db} {inst : ℕ} {flow stepId : String} {bs : List (Step × PreparedTask)}

/-- A row under the new parent is the row of a branch. -/
theorem mem_branchRows_of_parent (ht : WellFormed t) {e : Execution}
    (he : e ∈ t.executions ++ groupRows inst flow stepId bs t.nextId t.clock)
    (hpar : e.parentExecutionId = some t.nextId) :
    e ∈ branchRows inst flow t.nextId t.clock bs (t.nextId + 1) := by
  rcases List.mem_append.1 he with he | he
  · obtain ⟨_, -, -, hp⟩ := ht.executions e he
    obtain ⟨p, hp', -⟩ := (hp _ hpar).1.belongs
    have := ht.executionIds p (Table.mem_of_get hp')
    rw [Table.key_of_get hp'] at this
    omega
  · rcases List.mem_cons.1 he with rfl | he
    · cases hpar
    · exact he

theorem get_groupRows (ht : WellFormed t) :
    Table.get Execution.id (t.executions ++ groupRows inst flow stepId bs t.nextId t.clock)
      t.nextId = some
        { id := t.nextId, instanceId := inst, flowName := flow, stepId
          status := .running, startedAt := t.clock } := by
  have hnone : Table.get Execution.id t.executions t.nextId = none := by
    rw [Table.get, List.find?_eq_none]
    intro e he
    have := ht.executionIds e he
    simp only [decide_eq_true_eq]
    omega
  rw [Table.get_append, hnone]
  simp [groupRows, Table.get]

end Rows

/-- **Publishing a parallel step makes a group**, of as many branches as the step has:
the instance stands at the step, and its tasks are new. -/
theorem publishGroup_group {inst index : ℕ} {flow : String} {step : Step} {d : Definition}
    {row : Instance} {prepared : List PreparedTask} {t w : Db} {ids : List ℕ} (ht : WellFormed t)
    (hrow : t.instance? inst = some row) (hrun : row.status = .running)
    (hd : row.definition = some d) (hflow : row.currentFlow = flow)
    (hindex : row.currentStepIndex = index) (hstep : d.stepAt flow index = some step)
    (hty : step.stepType = .parallel) (hlen : prepared.length = step.body.length)
    (hnd : (prepared.map PreparedTask.taskId).Nodup)
    (hnew : ∀ e ∈ t.executions, ∀ p ∈ prepared, e.taskId ≠ some p.taskId)
    (h : publishGroup inst flow step.id (step.body.zip prepared) t = .ok (ids, w)) :
    ∃ g : BranchGroup w, g.row.id = inst ∧ g.parent.stepId = step.id ∧
      ∀ b ∈ step.body, ∃ e ∈ g.branches, e.stepId = b.id := by
  have hr : t.Runs inst d := ⟨row, hrow, hd⟩
  have hw := ht.wellTargeted hr
  obtain ⟨hf, htop, f, hfl, hmem⟩ := stepAt_top hstep
  have hwf := (publishGroup_moves (c := Scope.all) ht trivial hr hf
    (Definition.stands_of_stepAt hstep)
    (fun b hb => Definition.stands_of_body hstep (List.of_mem_zip hb).1) htop
    (hw.findStep_of_stepAt hstep) hty h).1.2
  obtain ⟨-, rfl⟩ := publishGroup_ok ht h
  have hid : row.id = inst := Table.key_of_get hrow
  have hsteps : (step.body.map Step.id).Nodup :=
    ((hw.ids_nodup flow f hfl).sublist (collectIds_body_sublist hmem)).sublist
      (map_id_sublist_collectIds _)
  have hzip1 : (step.body.zip prepared).map (fun b => b.1.id) = step.body.map Step.id :=
    calc (step.body.zip prepared).map (fun b => b.1.id)
        = ((step.body.zip prepared).map Prod.fst).map Step.id := by rw [List.map_map]; rfl
      _ = step.body.map Step.id := by rw [List.map_fst_zip hlen.ge]
  have hzip2 : (step.body.zip prepared).map (fun b => some b.2.taskId) =
      (prepared.map PreparedTask.taskId).map some :=
    calc (step.body.zip prepared).map (fun b => some b.2.taskId)
        = (((step.body.zip prepared).map Prod.snd).map PreparedTask.taskId).map some := by
          rw [List.map_map, List.map_map]; rfl
      _ = (prepared.map PreparedTask.taskId).map some := by rw [List.map_snd_zip hlen.le]
  let g : BranchGroup _ :=
    { row := { row with currentExecutionId := some t.nextId }
      d, index
      parent := { id := t.nextId, instanceId := inst, flowName := flow, stepId := step.id
                  status := .running, startedAt := t.clock }
      wf := hwf
      found := by
        rw [Db.instance?_setInstance]
        · show (t.instance? row.id).map _ = _
          rw [hid, hrow, Option.map_some, if_pos rfl, ← hid]
        · exact fun _ => rfl
      running := hrun
      definition := hd
      currentFlow := hflow
      currentStepIndex := hindex
      currentExecutionId := rfl
      stepIndex := hw.stepIndex_of_stepAt hstep
      parentFound := get_groupRows ht
      parentInstance := hid.symm
      parentRunning := rfl
      nonempty := by
        obtain ⟨b, hb⟩ := List.exists_mem_of_ne_nil _ (hw.branches flow f hfl step hmem hty)
        obtain ⟨e, he, -⟩ := exists_mem_branchRows hlen hb
        exact ⟨e, List.mem_append_right _ (List.mem_cons_of_mem _ he),
          (mem_branchRows he).2.2.2.2.1⟩
      branchRunning := by
        intro b hb hpar
        have hb := mem_branchRows_of_parent ht hb hpar
        obtain ⟨c, -, htask⟩ := taskId_of_mem_branchRows hb
        exact ⟨(mem_branchRows hb).2.2.2.2.2.1, by rw [htask]; rfl⟩
      alone := by
        intro b hb hpar e he htask
        have hb := mem_branchRows_of_parent ht hb hpar
        obtain ⟨c, hc, hctask⟩ := taskId_of_mem_branchRows hb
        rcases List.mem_append.1 he with he | he
        · exact absurd (htask.trans hctask) (hnew e he c.2 (List.of_mem_zip hc).2)
        · rcases List.mem_cons.1 he with rfl | he
          · exact absurd (htask.trans hctask) (by simp)
          · exact eq_of_branchRows (fun k b e hb he => (columns_of_branchRows hb he).1)
              (hzip2 ▸ hnd.map (Option.some_injective _)) he hb htask
      distinct := by
        intro b hb hpar c hc hcpar hstep
        exact eq_of_branchRows (fun k b e hb he => (columns_of_branchRows hb he).2) (hzip1 ▸ hsteps)
          (mem_branchRows_of_parent ht hc hcpar) (mem_branchRows_of_parent ht hb hpar) hstep }
  refine ⟨g, hid, rfl, fun b hb => ?_⟩
  obtain ⟨e, he, hstep⟩ := exists_mem_branchRows hlen hb
  exact ⟨e, BranchGroup.mem_branches.2
    ⟨List.mem_append_right _ (List.mem_cons_of_mem _ he), (mem_branchRows he).2.2.2.2.1⟩, hstep⟩

end XpressClaw
