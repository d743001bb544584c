import XpressClaw.Lib.Handover
import XpressClaw.Workflow.Targets

/-!
# Completing an ordinary step

`on_task_completed` reads which executions of the task are running, and writes them
several transactions later.  Nothing stops a second callback from reading in between:
`two_callbacks_advance_twice` is a schedule of two callbacks that finish one execution
twice and dispatch its successor twice.

* `completed_once_in_turn` — as long as the callbacks that have begun take turns while
  the execution is live, it is finished once, and left at most once.
-/

namespace XpressClaw

open Lib InstanceManager

/-! ## What is counted -/

/-- The event is a status written to the execution by `update_step_status`. -/
def Event.marks (x : ℕ) : Event → Bool
  | .marked e _ => e = x
  | _ => false

/-- The event is the engine leaving the execution. -/
def Event.leaves (x : ℕ) : Event → Bool
  | .advanced e _ => e = x
  | _ => false

namespace Db

/-- How often `update_step_status` wrote the execution. -/
def marks (db : Db) (x : ℕ) : ℕ := db.log.countP (Event.marks x)

/-- How often the engine left the execution. -/
def advances (db : Db) (x : ℕ) : ℕ := db.log.countP (Event.leaves x)

/-- The execution can be found by its task. -/
def Live (db : Db) (x : ℕ) : Prop :=
  ∃ e, db.execution? x = some e ∧ (e.status = .running ∨ e.status = .waitingForIdle)

/-- Since `db`, the execution was finished once and left at most once, or nothing
happened to it yet. -/
def Once (db : Db) (x : ℕ) (t : Db) : Prop :=
  (t.Live x ∧ t.marks x = db.marks x ∧ t.advances x = db.advances x) ∨
    (¬ t.Live x ∧ t.marks x = db.marks x + 1 ∧ t.advances x ≤ db.advances x + 1)

theorem live_iff_any {db : Db} {x : ℕ} : db.Live x ↔
    (db.execution? x).any fun e => e.status = .running || e.status = .waitingForIdle := by
  cases h : db.execution? x <;> simp [Live, h]

instance (db : Db) (x : ℕ) : Decidable (db.Live x) := decidable_of_iff _ live_iff_any.symm

end Db

/-- Everything but one execution that exists already. -/
def Scope.except (x base : ℕ) (h : x < base) : Scope :=
  ⟨fun _ => True, fun id => id ≠ x, base, fun _ _ => trivial, fun id hid => by omega⟩

section Except

variable {x base : ℕ} {h : x < base} {s t : Db}

theorem Frame.countP_log {p : Event → Bool} (hf : Frame (Scope.except x base h) s t)
    (hp : ∀ ev, ev.within (· ≠ x) → p ev = false) : t.log.countP p = s.log.countP p := by
  obtain ⟨new, hnew, hin⟩ := hf.log
  rw [hnew, List.countP_append]
  have : new.countP p = 0 := by
    rw [List.countP_eq_zero]
    intro ev hev
    simp [hp ev (hin ev hev)]
  omega

theorem Frame.marks_eq (hf : Frame (Scope.except x base h) s t) : t.marks x = s.marks x := by
  refine hf.countP_log fun ev hev => ?_
  cases ev <;> simp_all [Event.marks, Event.within]

theorem Frame.advances_eq (hf : Frame (Scope.except x base h) s t) :
    t.advances x = s.advances x := by
  refine hf.countP_log fun ev hev => ?_
  cases ev <;> simp_all [Event.leaves, Event.within]

theorem Frame.live_iff {e : Execution} (hf : Frame (Scope.except x base h) s t)
    (he : s.execution? x = some e) : t.Live x ↔ s.Live x := by
  obtain ⟨f, hf', hk⟩ := hf.execution? he
  have hid : e.id = x := Table.key_of_get he
  have hst := (hk.2 fun hn => hn hid).1
  constructor
  · rintro ⟨g, hg, hlive⟩
    rw [hf', Option.some.injEq] at hg
    subst hg
    exact ⟨e, he, hst ▸ hlive⟩
  · rintro ⟨g, hg, hlive⟩
    rw [he, Option.some.injEq] at hg
    subst hg
    exact ⟨f, hf', hst.symm ▸ hlive⟩

end Except

/-! ## The execution that is watched -/

/-- A live execution of its own, that is, not the branch of a parallel group. -/
structure Watched (db : Db) where
  row : Execution
  task : ℕ
  found : db.execution? row.id = some row
  known : row.id < db.nextId
  taskId : row.taskId = some task
  alone : row.parentExecutionId = none

namespace Watched

variable {db : Db} (w : Watched db)

/-- What a callback that does not have the execution keeps to. -/
def rules : Rules where
  own := Scope.except w.row.id db.nextId w.known
  others := Scope.all
  inst_sub := fun _ _ => trivial
  exec_sub := fun _ _ => trivial
  also := fun t => Frame Scope.all db t ∧ db.Once w.row.id t
  also_keep := by
    rintro s t ⟨hds, honce⟩ hf
    refine ⟨hds.trans hf.toAll, ?_⟩
    obtain ⟨e, he, -⟩ := hds.execution? w.found
    rw [Db.Once, hf.marks_eq, hf.advances_eq, hf.live_iff he]
    exact honce

/-- What the callback that has the execution keeps to: it may write it, and nobody
else does. -/
def holder : Protocol Db where
  Inv := w.rules.Inv
  Rely := Frame w.rules.own
  Guar := Frame Scope.all
  refl := .refl
  trans := .trans

theorem handover : Handover w.rules.protocol w.holder fun _ => True where
  shared := w.rules.shared
  free := fun _ hg ht _ => ⟨hg, ht⟩
  held := fun _ hg ht => ⟨ht, hg⟩
  untaken := fun _ _ => trivial

variable {w} {s t : Db}

theorem execution?_of_inv (hs : w.rules.Inv s) :
    ∃ e, s.execution? w.row.id = some e ∧ SameExecution w.row e := by
  obtain ⟨e, he, hk⟩ := hs.also.1.execution? w.found
  exact ⟨e, he, hk.1⟩

theorem covers : w.rules.Covers := by
  have hne : ∀ (t : Db) inst ty id, w.rules.Inv t → t.ParentExec inst ty id → id ≠ w.row.id := by
    rintro t inst ty id ht ⟨d, flow, stepId, step, ⟨e, he, -, -, -, htask⟩, -⟩ rfl
    obtain ⟨f, hf, hsame⟩ := execution?_of_inv ht
    rw [he, Option.some.injEq] at hf
    subst hf
    rw [hsame.taskId, w.taskId] at htask
    cases htask
  refine ⟨fun t inst id ht _ hp => hne t inst .loop id ht hp, fun t e p ht hsaw _ hp => ?_⟩
  obtain ⟨⟨_, -, -, hpar⟩, -⟩ := hsaw
  exact hne t e.instanceId .parallel p ht (hpar p hp).2

/-! ## The callback that has the execution -/

variable {α β : Type}

/-- The execution is still live, and nothing was counted. -/
def Fresh (w : Watched db) (t : Db) : Prop := t.Live w.row.id

/-- The execution is finished, and the engine did not leave it yet. -/
def Finished (w : Watched db) (t : Db) : Prop :=
  ¬ t.Live w.row.id ∧ t.marks w.row.id = db.marks w.row.id + 1 ∧
    t.advances w.row.id = db.advances w.row.id

theorem Fresh.keep (hs : w.rules.Inv s) (hf : Frame w.rules.own s t) (h : w.Fresh s) :
    w.Fresh t := by
  obtain ⟨e, he, -⟩ := execution?_of_inv hs
  exact (Frame.live_iff (h := w.known) hf he).2 h

theorem Finished.keep (hs : w.rules.Inv s) (hf : Frame w.rules.own s t) (h : w.Finished s) :
    w.Finished t := by
  obtain ⟨e, he, -⟩ := execution?_of_inv hs
  rw [Finished, Frame.marks_eq (h := w.known) hf, Frame.advances_eq (h := w.known) hf,
    Frame.live_iff (h := w.known) hf he]
  exact h

/-- No postcondition for the holder. -/
abbrev done : Except Err β → Db → Prop := fun _ _ => True

theorem hold_bind {p : Run α} {g : α → Run β} {Q : Except Err α → Db → Prop}
    (hs : w.rules.Inv s) (hp : p.Ok w.holder s Q)
    (hg : ∀ a t, w.rules.Inv t → Frame Scope.all s t → Q (.ok a) t → (g a).Ok w.holder t done) :
    (p.bind g).Ok w.holder s done := by
  refine Prog.ok_bind hs ((Prog.Ok.along (V := Frame Scope.all) hp Frame.trans
    (fun h => Frame.toAll h) fun h => h).weaken ?_)
  rintro r t ht ⟨hq, hst⟩
  cases r with
  | ok a => exact hg a t ht hst hq
  | error e => trivial

theorem hold_keeps {A : Db → Prop} {p : Run α} {Q : α → Db → Prop}
    (hA : ∀ {s t}, w.rules.Inv s → Frame w.rules.own s t → A s → A t) (hs : w.rules.Inv s)
    (h : Keeps w.rules s p Q) (hAs : A s) :
    p.Ok w.holder s fun r t => (∀ a, r = .ok a → Q a t) ∧ A t := by
  -- `A` may need the invariant where it held, so that is carried along
  refine (Prog.Ok.mono (A := fun t => w.rules.Inv t ∧ A t) (keeps_iff.1 h) ⟨hs, hAs⟩
    ?_ ?_ ?_).weaken
    fun r t _ hq => ⟨hq.1, hq.2.2⟩
  · exact fun hs hst ht => ⟨hst.toAll, ht, hA hs.1 hst hs.2⟩
  · exact fun hs _ => hs.1
  · exact fun hs _ hst ht => ⟨hst.toAll, ht, ht, hA hs.1 hst hs.2⟩

theorem hold_rest {p : Run α} {Q : α → Db → Prop} (hs : w.rules.Inv s) (h : Keeps w.rules s p Q) :
    p.Ok w.holder s done :=
  (hold_keeps (A := fun _ => True) (fun _ _ _ => trivial) hs h trivial).weaken
  fun _ _ _ _ => trivial

/-- The one write that finishes the execution. -/
theorem hold_mark {x : ℕ} {status : ExecStatus} {output : Option String} (hx : x = w.row.id)
    (hst : status.terminal) (hg : status = .completed → s.Gated x) (hs : w.rules.Inv s)
    (hfresh : w.Fresh s) :
    (updateStepStatus x status output).Ok w.holder s fun _ t => w.Finished t := by
  subst hx
  refine Prog.ok_write fun t hst' ht => ?_
  have hm : Moves Scope.all t
      ((t.setExecution w.row.id fun e => { e with status, output }).note
        (.marked w.row.id status)) := by
    have h1 : Moves Scope.all t (t.setExecution w.row.id fun e => { e with status, output }) :=
      Moves.setExecution ht.wf (.inl trivial)
      (fun e => ⟨rfl, rfl, rfl, rfl, rfl, rfl, rfl, rfl, fun _ h => h⟩)
        fun e he hid h => h.finish ht.wf he hst fun hdone => hid ▸ (hg hdone).later hst'
    exact h1.trans (Moves.note h1.2 trivial trivial)
  have hcount := (ht.also.2.resolve_right fun h => h.1 (Fresh.keep hs hst' hfresh)).2
  have hfin : w.Finished
      ((t.setExecution w.row.id fun e => { e with status, output }).note
        (.marked w.row.id status)) := by
    refine ⟨?_, ?_, ?_⟩
    · rintro ⟨f, hf, hlive⟩
      obtain ⟨e, he, -⟩ := execution?_of_inv ht
      rw [Db.execution?_note, Db.execution?_setExecution, he] at hf
      · simp only [Option.map_some, if_pos, Option.some.injEq] at hf
        subst hf
        rcases hlive with rfl | rfl <;> cases hst
      · exact fun _ => rfl
    · rw [← hcount.1]
      simp [Db.marks, Event.marks]
    · rw [← hcount.2]
      simp [Db.advances, Event.leaves]
  have hinv : w.rules.Inv
      ((t.setExecution w.row.id fun e => { e with status, output }).note
        (.marked w.row.id status)) :=
    ⟨hm.2, ht.base.trans hm.1.nextId, ht.also.1.trans hm.1,
      .inr ⟨hfin.1, hfin.2.1, hfin.2.2.le.trans (Nat.le_succ _)⟩⟩
  exact ⟨hm.1, hinv, fun u hu _ => Finished.keep hinv hu hfin⟩

/-- The one time the engine leaves the execution. -/
theorem hold_leave {x : ℕ} {leave : Leave} (hx : x = w.row.id) (hs : w.rules.Inv s)
    (hfin : w.Finished s) : (record (.advanced x leave)).Ok w.holder s done := by
  subst hx
  refine Prog.ok_write fun t hst ht => ?_
  have hm : Moves Scope.all t (t.note (.advanced w.row.id leave)) :=
    Moves.note ht.wf trivial trivial
  obtain ⟨h1, h2, h3⟩ := Finished.keep hs hst hfin
  refine ⟨hm.1, ⟨hm.2, ht.base.trans hm.1.nextId, ht.also.1.trans hm.1, .inr ⟨h1, ?_, ?_⟩⟩,
    fun _ _ _ => trivial⟩
  · rw [← h2]
    simp [Db.marks, Event.marks]
  · rw [← h3]
    simp [Db.advances, Event.leaves]

section Complete

variable {next : StepFn} {exec : Execution} {c : Completion} {task : ℕ}

theorem hold_failStep {vars : Vars} {message : String} (hnext : NextKeeps w.rules next)
    (hx : exec.id = w.row.id) (hs : w.rules.Inv s) (hfin : w.Finished s) (h : c.Ready s exec)
    (hvars : c.d.Allows vars) : (failStep next exec.id c vars message).Ok w.holder s done := by
  unfold failStep
  split
  · rename_i herr
    refine hold_bind hs (hold_leave hx hs hfin) fun _ t ht hst _ => ?_
    exact hold_rest ht (hnext t c.row.id "on_error" 0 c.d c.row.triggerData vars ht trivial
      (h.runs.later hst) herr hvars)
  · refine hold_bind hs (hold_leave hx hs hfin) fun _ t ht _ _ => ?_
    exact hold_rest ht (updateStatus_keeps trivial)

theorem hold_cancel {output : String} (hx : exec.id = w.row.id) (hs : w.rules.Inv s)
    (hfin : w.Finished s) (h : c.Ready s exec) :
    ((record (.advanced exec.id .cancelled)).bind fun _ =>
      cancelSourceTaskInstance c.row output).Ok w.holder s done := by
  refine hold_bind hs (hold_leave hx hs hfin) fun _ t ht hst _ => ?_
  exact hold_rest ht (cancelSourceTaskInstance_keeps covers ht trivial (h.later hst))

theorem hold_completeStep {env : Env} (hnext : NextKeeps w.rules next) (hx : exec.id = w.row.id)
    (hs : w.rules.Inv s) (hfresh : w.Fresh s) (h : c.Ready s exec) :
    (completeStep env next exec task c).Ok w.holder s done := by
  refine hold_bind hs (hold_mark hx (c.persisted_terminal task) (h.persisted task) hs hfresh)
    fun _ t ht hst hfin => ?_
  have h' := h.later hst
  split
  · exact hold_cancel hx ht hfin h'
  have hvars := h.vars.insert (v := stepValue (c.d.findStep exec.flowName exec.stepId)
    (parseTaskOutput env c.output)) h.mem_names
  refine hold_bind ht (hold_keeps Finished.keep ht (saveVariableStore_keeps trivial h'.runs hvars)
    hfin) ?_
  rintro _ u hu htu ⟨-, hfin⟩
  have hu' := h'.later htu
  split
  · split
    · rename_i ls hls
      refine hold_bind hu (hold_keeps Finished.keep hu
        (updateStepStatus_keeps (hu'.loopParent covers hu trivial hls) rfl nofun) hfin) ?_
      rintro _ v hv huv ⟨-, hfin⟩
      refine hold_bind hv (hold_keeps Finished.keep hv (clearLoopState_keeps trivial) hfin) ?_
      rintro _ x hx' hvx ⟨-, hfin⟩
      exact hold_failStep hnext hx hx' hfin (hu'.later (huv.trans hvx)) hvars
    · exact hold_failStep hnext hx hu hfin hu' hvars
  split
  · rename_i ls hls
    have hls' : c.row.loopState = some ls := (Option.filter_eq_some_iff.1 hls).1
    have hok := (hu'.row.loopOk h.definition hls').advance
    have hWl : w.rules.own.exec ls.parentExecutionId := hu'.loopParent covers hu trivial hls'
    refine hold_bind hu (hold_keeps Finished.keep hu
      (updateLoopState_keeps trivial hu'.runs hok) hfin) ?_
    rintro _ v hv huv ⟨-, hfin⟩
    refine hold_bind hv (hold_leave hx hv hfin) fun _ x hx' hvx _ => ?_
    exact hold_rest hx' (continueLoop_keeps hnext hx' trivial hWl
      (hu'.runs.later (huv.trans hvx)) (hok.later (huv.trans hvx)) hvars)
  · refine hold_bind hu (hold_leave hx hu hfin) fun _ v hv huv _ => ?_
    exact hold_rest hv (hnext v c.row.id exec.flowName _ c.d c.row.triggerData _ hv trivial
      (hu'.runs.later huv) h.flow hvars)

theorem hold_completeSourceGate {env : Env} (hnext : NextKeeps w.rules next)
    (hx : exec.id = w.row.id) (hs : w.rules.Inv s) (hfresh : w.Fresh s) (h : c.Ready s exec) :
    (completeSourceGate env next exec task c).Ok w.holder s done := by
  refine hold_bind hs (hold_keeps (Q := anything) Fresh.keep hs
    (Keeps.read fun _ _ _ _ _ _ => trivial) hfresh) ?_
  rintro active t ht hst ⟨-, hfresh⟩
  split
  · exact Prog.ok_pure fun _ _ _ => trivial
  have hsource : "source_task" ∈ c.d.names := by simp [Definition.names]
  refine hold_bind ht (hold_keeps Fresh.keep ht (saveVariableStore_keeps trivial
    (h.runs.later hst) (h.vars.insert hsource)) hfresh) ?_
  rintro _ u hu htu ⟨-, hfresh⟩
  have hgate := (h.later (hst.trans htu)).persisted task
  refine hold_bind hu (hold_mark hx (c.persisted_terminal task) hgate hu hfresh)
    fun _ v hv huv hfin => ?_
  have h' := h.later ((hst.trans htu).trans huv)
  split
  · exact hold_cancel hx hv hfin h'
  split
  · exact hold_failStep hnext hx hv hfin h' (h.vars.insert hsource)
  · refine hold_bind hv (hold_leave hx hv hfin) fun _ x hx' hvx _ => ?_
    exact hold_rest hx' (hnext x c.row.id exec.flowName 0 c.d c.row.triggerData _ hx' trivial
      (h'.runs.later hvx) h.flow (h.vars.insert hsource))

/-- A held continuation that is dispatched is as live as before. -/
theorem hold_dispatch {host : Host} {prompt : String} {x : ℕ} (hx : x = w.row.id)
    (hs : w.rules.Inv s) :
    (dispatchWaitingContinuation host x task prompt).Ok w.holder s done := by
  subst hx
  refine hold_bind (Q := done) hs (Prog.ok_tx (fun t => Frame.refl t) ?_
    fun _ _ _ _ _ _ _ _ => trivial)
    fun _ t ht _ _ => hold_rest ht (getStepExecution_keeps ht)
  intro t hst ht a u hu
  cases hd : dispatchWaiting host w.row.id task prompt t with
  | error e => simp [hd, Except.map] at hu
  | ok v =>
    simp only [hd, Except.map, Except.ok.injEq, Prod.mk.injEq] at hu
    obtain ⟨-, rfl⟩ := hu
    have hm : Moves Scope.all t v := dispatchWaiting_moves ht.wf trivial hd
    refine ⟨hm.1, ⟨hm.2, ht.base.trans hm.1.nextId, ht.also.1.trans hm.1, ?_⟩,
      fun _ _ _ => trivial⟩
    rcases dispatchWaiting_cases hd with rfl | ⟨agent, attempt, message, u, hu, rfl⟩
    · exact ht.also.2
    · have hmu : Moves w.rules.own t u :=
        Moves.aside ht.wf (dispatchContinuation_aside hu)
      have honce := (w.rules.also_keep ht.also hmu.1).2
      have hlive : (u.setExecution w.row.id (resumed attempt message)).Live w.row.id ↔
          u.Live w.row.id := by
        rw [Db.Live, Db.Live, Db.execution?_setExecution]
        · cases u.execution? w.row.id with
          | none => simp
          | some e =>
            simp only [Option.map_some, if_pos, Option.some.injEq, exists_eq_left']
            unfold resumed
            split <;> simp_all
        · exact fun e => (resumed_same attempt message e).id
      rw [Db.Once, hlive]
      exact honce

theorem hold_completeIdleContinuation {host : Host} (hnext : NextKeeps w.rules next)
    (hx : exec.id = w.row.id) (hs : w.rules.Inv s) (hfresh : w.Fresh s) (h : c.Ready s exec)
    (hidle : exec.status = .waitingForIdle) :
    (completeIdleContinuation host next exec task c).Ok w.holder s done := by
  unfold completeIdleContinuation
  split
  · refine hold_bind hs (hold_mark hx (c.persisted_terminal task) (h.persisted task) hs hfresh)
      fun _ t ht hst hfin => ?_
    exact hold_cancel hx ht hfin (h.later hst)
  split
  · refine hold_bind hs (hold_mark hx rfl nofun hs hfresh) fun _ t ht hst hfin => ?_
    exact hold_failStep hnext hx ht hfin (h.later hst) h.vars
  refine hold_bind hs (hold_keeps Fresh.keep hs
    (Keeps.lookup (h.continueStep hidle) (Q := anything) fun _ _ _ _ _ => trivial) hfresh)
      fun step t ht hst hq => ?_
  have hfresh := hq.2
  dsimp only
  generalize Context.renderTemplate host.toEnv (step.prompt.getD "")
    (Context.buildContext c.row.triggerData c.d.globals c.vars) = prompt
  split
  · refine hold_bind ht (hold_mark hx rfl nofun ht hfresh) fun _ u hu _ _ => ?_
    refine hold_bind hu (hold_keeps (A := fun _ => True) (fun _ _ _ => trivial) hu
      (updateStatus_keeps trivial) trivial) fun _ _ _ _ _ => ?_
    exact Prog.ok_fail fun _ _ _ => trivial
  · refine hold_bind ht (hold_dispatch hx ht) fun _ _ _ _ _ => ?_
    exact Prog.ok_pure fun _ _ _ => trivial

theorem hold_completeContinue {host : Host} {again : String → String → ℕ → Run Unit}
    {attempt : Option ℕ} (hnext : NextKeeps w.rules next) (hx : exec.id = w.row.id)
    (hs : w.rules.Inv s) (hfresh : w.Fresh s) (h : c.Ready s exec)
    (hagain : ∀ status output owned t, w.rules.Inv t → w.Fresh t → SawExecution t exec →
      (again status output owned).Ok w.holder t done) :
    (completeContinue host next again exec task c attempt).Ok w.holder s done := by
  unfold completeContinue
  split
  · exact Prog.ok_fail fun _ _ _ => trivial
  split
  · split
    · exact Prog.ok_pure fun _ _ _ => trivial
    · exact hold_completeStep hnext hx hs hfresh h
  split
  · exact Prog.ok_pure fun _ _ _ => trivial
  refine hold_bind hs (hold_keeps Fresh.keep hs
    (Keeps.aside terminalAttemptCompletion_aside) hfresh) ?_
  rintro r t ht hst ⟨-, hfresh⟩
  cases r with
  | none => exact Prog.ok_pure fun _ _ _ => trivial
  | some r =>
    dsimp only
    split
    · exact hagain _ _ _ t ht hfresh (h.exec.later hst)
    · exact hold_completeStep hnext hx ht hfresh (h.later hst)

theorem hold_completeWith {host : Host} {again : String → String → ℕ → Run Unit}
    {status output : String} {attempt : Option ℕ} (hnext : NextKeeps w.rules next)
    (hx : exec.id = w.row.id) (hs : w.rules.Inv s) (hfresh : w.Fresh s) (hsaw : SawExecution s exec)
    (hagain : ∀ status output owned t, w.rules.Inv t → w.Fresh t → SawExecution t exec →
      (again status output owned).Ok w.holder t done) :
    (completeWith host next again exec task status output attempt).Ok w.holder s done := by
  refine hold_bind hs (hold_keeps Fresh.keep hs (getInstance_keeps hs) hfresh) ?_
  rintro row t ht hst ⟨hrow, hfresh⟩
  obtain ⟨hid, hrow⟩ := hrow row rfl
  split
  swap
  · exact Prog.ok_pure fun _ _ _ => trivial
  refine hold_bind ht (hold_keeps Fresh.keep ht (definitionForInstance_keeps hrow) hfresh) ?_
  rintro d u hu htu ⟨hd, hfresh⟩
  refine hold_bind hu (hold_keeps Fresh.keep hu
    (loadVariableStore_keeps hu ((hrow.later htu).runs (hd d rfl))) hfresh) ?_
  rintro vars v hv huv ⟨hvars, hfresh⟩
  have htv := htu.trans huv
  refine hold_bind hv (hold_keeps Fresh.keep hv (commandCompletion_keeps hv
    (hid ▸ (hrow.later htv).runs (hd d rfl)) (hsaw.later (hst.trans htv))) hfresh) ?_
  rintro ⟨status, output⟩ x hx' hvx ⟨hgate, hfresh⟩
  have htx := (htu.trans huv).trans hvx
  have h : Completion.Ready x exec ⟨row, d, vars, status, output⟩ :=
    ⟨hrow.later htx, hid, hd d rfl, hvars vars rfl,
      fun hdone => hgate _ rfl (Completion.stepStatus_completed hdone), hsaw.later (hst.trans htx)⟩
  have halone : exec.parentExecutionId = none := by
    obtain ⟨-, f, hf, hsame⟩ := hsaw
    obtain ⟨e, he, hsame'⟩ := execution?_of_inv hs
    rw [hx, he, Option.some.injEq] at hf
    subst hf
    rw [← hsame.parentExecutionId, hsame'.parentExecutionId, w.alone]
  dsimp only
  rw [halone]
  dsimp only
  split
  · exact hold_completeSourceGate hnext hx hx' hfresh h
  split
  · rename_i hidle
    exact hold_completeIdleContinuation hnext hx hx' hfresh h hidle
  split
  · exact hold_completeContinue hnext hx hx' hfresh h hagain
  · exact hold_completeStep hnext hx hx' hfresh h

theorem hold_onExecutionTaskCompleted {host : Host} {status output : String} {attempt : Option ℕ}
    (hnext : NextKeeps w.rules next) (hx : exec.id = w.row.id) (hs : w.rules.Inv s)
    (hfresh : w.Fresh s) (hsaw : SawExecution s exec) :
    (onExecutionTaskCompleted host next exec task status output attempt).Ok w.holder s done := by
  refine hold_completeWith hnext hx hs hfresh hsaw fun _ _ _ t ht hfresh' ht' => ?_
  exact hold_completeWith hnext hx ht hfresh' ht' fun _ _ _ _ _ _ _ => trivial

theorem free_completeEach {host : Host} {status output : String} {es : List Execution}
    (hnext : NextKeeps w.rules next) (hs : w.rules.Inv s) (hsaw : ∀ e ∈ es, SawExecution s e)
    (hx : w.row.id ∉ es.map Execution.id) :
    Keeps w.rules s (completeEach
      (fun e => onExecutionTaskCompleted host next e task status output none) es) anything := by
  refine completeEach_keeps hs fun e he t hst ht => ?_
  have hne : e.id ≠ w.row.id := fun h => hx (h ▸ List.mem_map_of_mem he)
  exact onExecutionTaskCompleted_keeps hnext covers ht trivial hne ((hsaw e he).later hst)

theorem hold_completeEach {host : Host} {status output : String} {es : List Execution}
    (hnext : NextKeeps w.rules next) (hs : w.rules.Inv s) (hnd : (es.map Execution.id).Nodup)
    (hsaw : ∀ e ∈ es, SawExecution s e) (hfresh : w.row.id ∈ es.map Execution.id → w.Fresh s) :
    (completeEach (fun e => onExecutionTaskCompleted host next e task status output none) es).Ok
      w.holder s done := by
  induction es generalizing s with
  | nil => exact Prog.ok_pure fun _ _ _ => trivial
  | cons e es ih =>
    rw [List.map_cons, List.nodup_cons] at hnd
    have hsaw' : ∀ t, Frame Scope.all s t → ∀ f ∈ es, SawExecution t f := fun t hst f hf =>
      (hsaw f (List.mem_cons_of_mem _ hf)).later hst
    by_cases hx : e.id = w.row.id
    · -- the watched one; it does not come again
      have hlater : w.row.id ∉ es.map Execution.id := hx ▸ hnd.1
      refine hold_bind (Q := done) hs (Prog.ok_attempt (hold_onExecutionTaskCompleted hnext hx hs
        (hfresh (by simp [hx])) (hsaw e (List.mem_cons_self ..)))) fun r t ht hst _ => ?_
      refine hold_bind ht (hold_rest ht (free_completeEach hnext ht (hsaw' t hst) hlater)) ?_
      exact fun _ _ _ _ _ => Prog.ok_pure fun _ _ _ => trivial
    · have hkeep : ∀ {s t}, w.rules.Inv s → Frame w.rules.own s t →
          (w.row.id ∈ es.map Execution.id → w.Fresh s) →
          w.row.id ∈ es.map Execution.id → w.Fresh t :=
        fun hs hst h hmem => Fresh.keep hs hst (h hmem)
      refine hold_bind hs (hold_keeps hkeep hs (onExecutionTaskCompleted_keeps hnext covers hs
        trivial hx (hsaw e (List.mem_cons_self ..))).attempt
        fun h => hfresh (List.mem_cons_of_mem _ h)) ?_
      rintro r t ht hst ⟨-, hfresh'⟩
      refine hold_bind ht (ih ht hnd.2 (hsaw' t hst) hfresh') ?_
      exact fun _ _ _ _ _ => Prog.ok_pure fun _ _ _ => trivial

end Complete

/-! ## Callbacks that take turns -/

/-- A callback that takes the execution finds it live, and has something left to do. -/
def Taken (w : Watched db) (_ t : Db) (p : Run Unit) : Prop := t.Live w.row.id ∧ ¬ p.Ended

section Found

variable {host : Host} {next : StepFn} {task : ℕ} {status output : String} {es : List Execution}

theorem free_completeFound (hnext : NextKeeps w.rules next) (hs : w.rules.Inv s)
    (hsaw : ∀ e ∈ es, SawExecution s e) (hx : w.row.id ∉ es.map Execution.id) :
    Keeps w.rules s (completeFound host next task status output es) anything :=
  completeFound_keeps hnext covers hs fun e he =>
    ⟨hsaw e he, trivial, fun h => hx (h ▸ List.mem_map_of_mem he)⟩

theorem hold_completeFound (hnext : NextKeeps w.rules next) (hs : w.rules.Inv s)
    (hnd : (es.map Execution.id).Nodup) (hsaw : ∀ e ∈ es, SawExecution s e) (hfresh : w.Fresh s) :
    (completeFound host next task status output es).Ok w.holder s done := by
  refine hold_bind hs (hold_completeEach hnext hs hnd hsaw fun _ => hfresh) fun errors _ _ _ _ => ?_
  split
  · exact Prog.ok_pure fun _ _ _ => trivial
  · exact Prog.ok_fail fun _ _ _ => trivial

/-- One callback: it takes the execution with its lookup, or leaves it alone. -/
theorem onTaskCompleted_takes (hnext : NextKeeps w.rules next) :
    (onTaskCompleted host next task status output).Takes w.rules.protocol w.holder w.Taken done s
      done := by
  rw [onTaskCompleted_eq]
  intro t _ ht
  refine ⟨ht, Frame.refl t, ?_⟩
  have hsaw : ∀ e ∈ t.runningByTask task, SawExecution t e := fun e he =>
    sawExecution_of_mem_runningByTask ht.wf he
  by_cases hx : w.row.id ∈ (t.runningByTask task).map Execution.id
  · have hlive : t.Live w.row.id := by
      obtain ⟨e, he, hid⟩ := List.mem_map.1 hx
      obtain ⟨hmem, -, hlive, -⟩ := mem_runningByTask.1 he
      exact ⟨e, hid ▸ ht.wf.execution?_of_mem hmem, hlive⟩
    refine .inr ⟨⟨hlive, ?_⟩, ht,
      hold_completeFound hnext ht (runningByTask_nodup ht.wf task) hsaw hlive⟩
    show ¬ Prog.Ended (completeFound host next task status output (t.runningByTask task))
    cases hr : t.runningByTask task with
    | nil => simp [hr] at hx
    | cons e es => exact fun h => h
  · refine .inl ⟨Frame.refl t, Prog.Ok.takes w.rules.shared ?_⟩
    exact (keeps_iff.1 (free_completeFound hnext ht hsaw hx)).weaken fun _ _ _ _ => trivial

end Found

end Watched

/-- Callbacks for one task, one for each status and output that it is reported with. -/
def callbacks (host : Host) (fuel : ℕ) (db : Db) (task : ℕ) (results : List (String × String)) :
    Sys Db Err Unit :=
  ⟨db, results.map fun r => onTaskCompleted host (executeStep host fuel) task r.1 r.2⟩

/-- While the execution is live, at most one of the callbacks that have begun is still
under way. -/
def TakeTurns (c : Sys Db Err Unit) (x : ℕ) (schedule : List ℕ) : Prop :=
  ∀ before after, schedule = before ++ after → (c.sched before).store.Live x →
    ∀ i ∈ before, ∀ j ∈ before, ∀ p q, (c.sched before).threads[i]? = some p →
      (c.sched before).threads[j]? = some q → ¬ p.Ended → ¬ q.Ended → i = j

/-- **Finished once, left at most once.**  In every run of callbacks for the task of a
step that is not a parallel branch, from any reachable state, in which the callbacks
take turns while the execution is live. -/
theorem completed_once_in_turn {host : Host} {db : Db} (hdb : Reachable host db) (fuel : ℕ)
    {e : Execution} {task : ℕ} (he : e ∈ db.executions) (htask : e.taskId = some task)
    (hparent : e.parentExecutionId = none) (hlive : db.Live e.id)
    (results : List (String × String)) (schedule : List ℕ)
    (hturns : TakeTurns (callbacks host fuel db task results) e.id schedule) :
    db.Once e.id ((callbacks host fuel db task results).sched schedule).store := by
  have hwf := hdb.wellFormed
  let w : Watched db :=
    ⟨e, task, hwf.execution?_of_mem he, hwf.executionIds e he, htask, hparent⟩
  have hinv : w.rules.Inv db := ⟨hwf, le_rfl, Frame.refl db, .inl ⟨hlive, rfl, rfl⟩⟩
  have hfree : ∀ (j : ℕ) (p : Run Unit),
    (callbacks host fuel db task results).threads[j]? = some p →
      p.Takes w.rules.protocol w.holder w.Taken Watched.done db Watched.done := by
    intro j p hp
    obtain ⟨r, -, rfl⟩ := List.mem_map.1 (List.mem_of_getElem? hp)
    exact Watched.onTaskCompleted_takes (executeStep_keeps host fuel)
  refine (Sys.sched_handover (c := callbacks host fuel db task results)
    (Q := fun _ => Watched.done) w.handover
    (fun _ _ _ _ _ _ _ _ => trivial) hinv trivial hfree schedule ?_).inv.also.2
  rintro before i after hsched ⟨f, k, hi, htaken, hrest⟩ - j hj hne p hp
  -- after the lookup the execution is still live, and two callbacks would be under way
  by_contra hp'
  have hstep : (callbacks host fuel db task results).sched (before ++ [i]) =
      ⟨f ((callbacks host fuel db task results).sched before).store,
        ((callbacks host fuel db task results).sched before).threads.set i
          (k ((callbacks host fuel db task results).sched before).store)⟩ := by
    rw [Sys.sched_append, Sys.sched_cons, Sys.sched_nil, Sys.step, hi]
  have hlt : i < ((callbacks host fuel db task results).sched before).threads.length :=
    (List.getElem?_eq_some_iff.1 hi).1
  have := hturns (before ++ [i]) after (by simp [hsched])
  rw [hstep] at this
  refine hne (this htaken j (by simp [hj]) i (by simp) p _ ?_ (List.getElem?_set_self hlt) hp' hrest)
  rw [List.getElem?_set_ne (Ne.symm hne)]
  exact hp

/-! ## Two callbacks that do not take turns -/

/-- Two task steps, one after the other. -/
def twoSteps : Definition where
  name := "two steps"
  flows := [("main", ⟨[{ id := "first", agent := some "coder" },
    { id := "second", agent := some "coder" }]⟩)]

/-- The workflow is saved, and its agent exists. -/
def twoStepsDb : Db where
  workflows := [{ id := 0, name := "two steps", definition := twoSteps }]
  work := { agents := [{ id := "coder" }] }
  nextId := 1

theorem twoStepsDb_initial : twoStepsDb.Initial plainHost.toEnv where
  workflows := by
    intro w hw
    obtain rfl := List.mem_singleton.1 hw
    rfl
  instances := rfl
  executions := rfl
  log := rfl

/-- One start of it. -/
def firstStepRunning : Db :=
  (calls plainHost 5 twoStepsDb [.start 0 (.obj []) {} none] (List.replicate 40 0)).store

theorem firstStepRunning_reachable : Reachable plainHost firstStepRunning :=
  ⟨twoStepsDb, 5, _, _, twoStepsDb_initial, rfl⟩

/-- The row of its first step. -/
def firstStep : Execution where
  id := 3
  instanceId := 1
  flowName := "main"
  stepId := "first"
  taskId := some 2
  status := .running
  startedAt := 0

theorem firstStep_mem : firstStep ∈ firstStepRunning.executions := by
  have h : firstStepRunning.executions = [firstStep] := by decide +kernel
  simp [h]

/-- Both callbacks look the execution up before either writes it: it is finished twice,
left twice, and its successor runs twice. -/
theorem two_callbacks_advance_twice :
    Reachable plainHost firstStepRunning ∧ firstStep ∈ firstStepRunning.executions ∧
      firstStepRunning.Live 3 ∧
      ¬ firstStepRunning.Once 3 ((callbacks plainHost 5 firstStepRunning 2
        [("completed", "a"), ("completed", "b")]).sched
          ([0, 1] ++ List.replicate 14 0 ++ List.replicate 14 1)).store ∧
      (((callbacks plainHost 5 firstStepRunning 2 [("completed", "a"), ("completed", "b")]).sched
        ([0, 1] ++ List.replicate 14 0 ++ List.replicate 14 1)).store.executions.filter
          fun e => e.stepId = "second" && e.status = .running).length = 2 := by
  refine ⟨firstStepRunning_reachable, firstStep_mem, by decide +kernel, ?_, by decide +kernel⟩
  unfold Db.Once
  decide +kernel

theorem firstStep_turns : TakeTurns
    (callbacks plainHost 5 firstStepRunning 2 [("completed", "a"), ("completed", "b")]) 3
      (List.replicate 15 0 ++ [1]) := by
  intro before after h hlive i hi j hj p q _ _ _ _
  rcases List.eq_nil_or_concat after with rfl | ⟨rest, k, rfl⟩
  · -- the execution is finished when the second callback begins
    rw [List.append_nil] at h
    rw [← h] at hlive
    exact absurd hlive (by decide +kernel)
  · rw [List.concat_eq_append, ← List.append_assoc] at h
    have hzero : ∀ i ∈ before, i = 0 := fun i hi =>
      List.eq_of_mem_replicate ((List.append_inj' h rfl).1 ▸ List.mem_append_left rest hi)
    rw [hzero i hi, hzero j hj]

/-- Two callbacks one after the other finish the execution once. -/
theorem firstStep_completed_once :
    ¬ ((callbacks plainHost 5 firstStepRunning 2 [("completed", "a"), ("completed", "b")]).sched
      (List.replicate 15 0 ++ [1])).store.Live 3 ∧
    firstStepRunning.Once 3 ((callbacks plainHost 5 firstStepRunning 2
      [("completed", "a"), ("completed", "b")]).sched (List.replicate 15 0 ++ [1])).store :=
  ⟨by decide +kernel, completed_once_in_turn firstStepRunning_reachable 5 firstStep_mem rfl rfl
    (by decide +kernel) _ _ firstStep_turns⟩

end XpressClaw
