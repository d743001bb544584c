import XpressClaw.Workflow.KeepsCallbacks

/-!
# The transactions of the engine

The modules before say what each call may rely on while others run.  Here the question is
coarser: which transactions there are at all.  All but a few are `Plain`: they leave a
finished instance finished, a workflow row as it is, and the columns of a command alone.
`Commit` names the exceptions — a cancellation, the start of an instance, the two
transactions of a command runner — and `Op.prog_each` says that no call commits anything
else.  That holds of every database, whatever its rows are, so nothing before it implies
it; what stays beside the rows is taken from `Aside`.
-/

namespace XpressClaw

open Lib InstanceManager

/-! ## Plain transactions -/

/-- The events that only an exception records. -/
def Event.tracked : Event → Bool
  | .scheduled _ _ _ _ => true
  | .granted _ => true
  | _ => false

/-- Workflow ids are keys, and those drawn here are below the counter. -/
structure Db.Keyed (s : Db) : Prop where
  nodup : (s.workflows.map WorkflowRecord.id).Nodup
  below : ∀ w ∈ s.workflows, w.id < s.nextId

/-- An instance that has its final status keeps it. -/
def Lasting (s t : Db) (inst : ℕ) : Prop :=
  ∀ i, s.instance? inst = some i → i.status.active = false →
    ∃ j, t.instance? inst = some j ∧ j.status = i.status

/-- What a transaction that is no exception does.  `T` are the workflows it may edit; an
edit moves the revision on. -/
structure Plain (T : ℕ → Prop) (s t : Db) : Prop where
  workflows : ∀ id w, s.workflow? id = some w →
    ∃ w', t.workflow? id = some w' ∧ (w' = w ∨ T id ∧ w.revision < w'.revision)
  keyed : s.Keyed → t.Keyed
  lasting : ∀ inst, Lasting s t inst
  commands : ∀ id e, s.execution? id = some e → ∃ f, t.execution? id = some f ∧
    f.commandResult = e.commandResult ∧ f.commandStartedAt = e.commandStartedAt
  log : t.log.filter Event.tracked = s.log.filter Event.tracked

section

variable {T : ℕ → Prop} {s t u : Db}

theorem Lasting.refl (s : Db) (inst : ℕ) : Lasting s s inst := fun i hi _ => ⟨i, hi, rfl⟩

theorem Lasting.trans {inst : ℕ} (h : Lasting s t inst) (h' : Lasting t u inst) :
    Lasting s u inst := by
  intro i hi hact
  obtain ⟨j, hj, hij⟩ := h i hi hact
  obtain ⟨k, hk, hjk⟩ := h' j hj (hij ▸ hact)
  exact ⟨k, hk, hjk.trans hij⟩

theorem Lasting.of_eq {inst : ℕ} (h : t.instance? inst = s.instance? inst) : Lasting s t inst :=
  fun i hi _ => ⟨i, h.trans hi, rfl⟩

theorem Plain.refl (s : Db) : Plain T s s :=
  ⟨fun _ w hw => ⟨w, hw, .inl rfl⟩, fun h => h, Lasting.refl s, fun _ e he =>
    ⟨e, he, rfl, rfl⟩, rfl⟩

theorem Plain.trans (h : Plain T s t) (h' : Plain T t u) : Plain T s u where
  workflows := by
    intro id w hw
    obtain ⟨w', hw', h1⟩ := h.workflows id w hw
    obtain ⟨w'', hw'', h2⟩ := h'.workflows id w' hw'
    refine ⟨w'', hw'', ?_⟩
    rcases h1 with rfl | ⟨hT, h1⟩
    · exact h2
    · rcases h2 with rfl | ⟨-, h2⟩
      · exact .inr ⟨hT, h1⟩
      · exact .inr ⟨hT, h1.trans h2⟩
  keyed := fun hs => h'.keyed (h.keyed hs)
  lasting := fun inst => (h.lasting inst).trans (h'.lasting inst)
  commands := by
    intro id e he
    obtain ⟨f, hf, h1, h2⟩ := h.commands id e he
    obtain ⟨g, hg, h3, h4⟩ := h'.commands id f hf
    exact ⟨g, hg, h3.trans h1, h4.trans h2⟩
  log := h'.log.trans h.log

theorem Db.Keyed.of_eq (hs : s.Keyed) (hw : t.workflows = s.workflows) (hn : s.nextId ≤ t.nextId) :
    t.Keyed :=
  ⟨hw ▸ hs.nodup, fun w h => (hs.below w (hw ▸ h)).trans_le hn⟩

theorem Plain.of_workflows (hw : t.workflows = s.workflows) (hn : s.nextId ≤ t.nextId)
    (hl : ∀ inst, Lasting s t inst)
    (hc : ∀ id e, s.execution? id = some e → ∃ f, t.execution? id = some f ∧
      f.commandResult = e.commandResult ∧ f.commandStartedAt = e.commandStartedAt)
    (hlog : t.log.filter Event.tracked = s.log.filter Event.tracked) : Plain T s t where
  workflows := fun id w h => ⟨w, by rwa [Db.workflow?, hw], .inl rfl⟩
  keyed := fun hs => hs.of_eq hw hn
  lasting := hl
  commands := hc
  log := hlog

theorem Plain.aside (h : Aside s t) : Plain T s t := by
  obtain ⟨hw, hi, ⟨g, hg, he⟩, hl, hn⟩ := h
  refine .of_workflows hw hn (fun _ => .of_eq (by rw [Db.instance?, hi, Db.instance?])) ?_
    (by rw [hl])
  intro id e hget
  refine ⟨g e, ?_, (hg e).commandResult, (hg e).commandStartedAt⟩
  rw [Db.execution?, he, Table.get_map fun e => (hg e).same.id, ← Db.execution?, hget]
  rfl

theorem Plain.note (s : Db) {ev : Event} (h : ev.tracked = false) : Plain T s (s.note ev) :=
  .of_workflows rfl le_rfl (fun _ => .of_eq rfl) (fun _ e he => ⟨e, he, rfl, rfl⟩)
    (by simp [List.filter_append, h])

theorem Plain.setInstance {id : ℕ} {g : Instance → Instance} (hid : ∀ i, (g i).id = i.id)
    (hg : ∀ i, s.instance? id = some i → i.status.active = false → (g i).status = i.status) :
    Plain T s (s.setInstance id g) := by
  refine .of_workflows rfl le_rfl (fun inst i hi hact => ?_) (fun _ e he => ⟨e, he, rfl, rfl⟩) rfl
  rw [s.instance?_setInstance hid, hi]
  by_cases h : inst = id
  · subst h
    exact ⟨g i, by simp, hg i hi hact⟩
  · exact ⟨i, by simp [h], rfl⟩

theorem Plain.setExecution {id : ℕ} {g : Execution → Execution} (hid : ∀ e, (g e).id = e.id)
    (hg : ∀ e, (g e).commandResult = e.commandResult ∧
      (g e).commandStartedAt = e.commandStartedAt) :
    Plain T s (s.setExecution id g) := by
  refine .of_workflows rfl le_rfl (fun _ => .of_eq rfl) (fun x e he => ?_) rfl
  rw [s.execution?_setExecution hid, he]
  by_cases h : x = id
  · exact ⟨g e, by simp [h], hg e⟩
  · exact ⟨e, by simp [h], rfl, rfl⟩

theorem Plain.appendExecutions {rows : List Execution} {n : ℕ} (hn : s.nextId ≤ n) :
    Plain T s { s with executions := s.executions ++ rows, nextId := n } :=
  .of_workflows rfl hn (fun _ => .of_eq rfl)
    (fun _ e he => ⟨e, Table.get_append_of_some he, rfl, rfl⟩) rfl

theorem Plain.insertExecution (row : ℕ → ℕ → Execution) : Plain T s (s.insertExecution row) :=
  .appendExecutions (Nat.le_succ _)

theorem active_of_accepts {inst : ℕ} {i : Instance} (h : s.instanceAcceptsWork inst = .ok ())
    (hi : s.instance? inst = some i) : i.status.active = true := by
  unfold Db.instanceAcceptsWork at h
  rw [hi] at h
  obtain ⟨-, -, h⟩ := bind_ok h
  dsimp only at h
  split at h
  all_goals
    obtain ⟨-, -, h⟩ := bind_ok h
    obtain ⟨-, -, h⟩ := bind_ok h
    exact Definition.require_ok h

theorem Plain.setAccepting {id : ℕ} {g : Instance → Instance} (hid : ∀ i, (g i).id = i.id)
    (h : s.instanceAcceptsWork id = .ok ()) : Plain T s (s.setInstance id g) :=
  .setInstance hid fun i hi hact => by
    rw [active_of_accepts h hi] at hact
    cases hact

end

/-! ## The kinds of transactions -/

/-- The transactions of the engine.  `T` are the workflows that may be edited and `S` the
rows that an occurrence may be claimed with. -/
inductive Commit (host : Host) (T : ℕ → Prop) (S : WorkflowRecord → Prop) : (Db → Db) → Prop where
  | plain {f : Db → Db} (h : ∀ s, Plain T s (f s)) : Commit host T S f
  | cancelStatus {f : Db → Db} (inst : ℕ) (message : Option String)
      (h : (updateStatus inst .cancelled message).next? = some f) : Commit host T S f
  | cancelInstance {f : Db → Db} (inst : ℕ)
      (h : (XpressClaw.cancelInstance host inst).next? = some f) : Commit host T S f
  | createInstance {f : Db → Db} (n : NewInstance)
      (hn : ∀ seen triggeredAt, n.occurrence = some (seen, triggeredAt) → S seen)
      (h : (XpressClaw.createInstance n).next? = some f) : Commit host T S f
  | beginCommand {f : Db → Db} (exec : ℕ)
      (h : (XpressClaw.beginCommand exec).next? = some f) : Commit host T S f
  | saveResult {f : Db → Db} (exec : ℕ) (result : CommandResult)
      (h : (XpressClaw.saveResult exec result).next? = some f) : Commit host T S f

section

variable {host : Host} {T : ℕ → Prop} {S : WorkflowRecord → Prop} {α : Type}

theorem each_read {q : Db → α} : (Prog.read q : Run α).Each (Commit host T S) :=
  Prog.each_read (.plain Plain.refl)

theorem each_fetch {q : Db → Option α} {e : Err} : (fetch q e).Each (Commit host T S) :=
  each_read.bind fun _ => Prog.each_orFail

theorem each_write {u : Db → Db} (h : ∀ s, Plain T s (u s)) :
    (Prog.write u : Run Unit).Each (Commit host T S) :=
  Prog.each_write (.plain h)

theorem each_aside {p : Run α} (h : p.Each Aside.Always) : p.Each (Commit host T S) :=
  h.mono fun _ hf => .plain fun s => .aside (hf s)

theorem each_tx {t : Db → Except Err (α × Db)} (h : ∀ s a s', t s = .ok (a, s') → Plain T s s') :
    (Prog.tx t : Run α).Each (Commit host T S) :=
  (Prog.each_tx Plain.refl h).mono fun _ => .plain

theorem each_update {t : Db → Except Err Db} (h : ∀ s s', t s = .ok s' → Plain T s s') :
    (update t).Each (Commit host T S) :=
  (update_each Plain.refl h).mono fun _ => .plain

theorem final_update_cases {I : Db → Prop} {t : Db → Except Err Db} {s : Db} (herr : I s)
    (hok : ∀ s', t s = .ok s' → I s') : I ((update t).final s) := by
  refine Prog.final_tx_cases herr fun a s' h => ?_
  cases ht : t s with
  | ok s'' =>
    rw [ht] at h
    cases h
    exact hok s' ht
  | error e =>
    rw [ht] at h
    cases h

theorem each_record {ev : Event} (h : ev.tracked = false) :
    (record ev).Each (Commit host T S) :=
  each_write fun s => Plain.note s h

theorem each_ignore {p : Run α} (h : p.Each (Commit host T S)) :
    (ignore p).Each (Commit host T S) :=
  h.attempt.bind fun _ => Prog.each_ret

theorem each_ret_bind {β : Type} {r : Except Err α} {g : α → Run β}
    (h : ∀ a, (g a).Each (Commit host T S)) :
    ((Prog.ret r : Run α) >>= g).Each (Commit host T S) :=
  Prog.each_ret.bind h

/-! ## The instance manager -/

theorem getInstance_each {id : ℕ} : (getInstance id).Each (Commit host T S) := each_fetch

theorem getStepExecution_each {id : ℕ} : (getStepExecution id).Each (Commit host T S) := each_fetch

theorem loadVariableStore_each {id : ℕ} :
    (loadVariableStore id).Each (Commit host T S) := each_fetch

theorem setActiveStatus_each {id : ℕ} {status : InstanceStatus} :
    (setActiveStatus id status).Each (Commit host T S) := by
  refine each_update fun s s' h => ?_
  obtain ⟨⟨⟩, hacc, h⟩ := bind_ok h
  cases h
  exact Plain.setAccepting (fun _ => rfl) hacc

theorem updateStatus_each {id : ℕ} {status : InstanceStatus} {m : Option String} :
    (updateStatus id status m).Each (Commit host T S) := by
  by_cases hc : status = .cancelled
  · subst hc
    exact Prog.each_act.2 ⟨.cancelStatus id m rfl, fun _ => Prog.each_ret⟩
  · refine each_update fun s s' h => ?_
    obtain ⟨⟨⟩, hacc, h⟩ := bind_ok h
    rw [statusAllowed, if_neg hc] at hacc
    cases h
    exact Plain.setAccepting (fun _ => rfl) hacc

theorem completeInstance_each {id : ℕ} : (completeInstance id).Each (Commit host T S) :=
  updateStatus_each

theorem setInstance_each {id : ℕ} {g : Instance → Instance}
    (hg : ∀ i, (g i).id = i.id ∧ (g i).status = i.status) :
    (Prog.write fun db => db.setInstance id g : Run Unit).Each (Commit host T S) :=
  each_write fun _ => Plain.setInstance (fun i => (hg i).1) fun i _ _ => (hg i).2

theorem setCurrentPosition_each {id index : ℕ} {flow : String} :
    (setCurrentPosition id flow index).Each (Commit host T S) :=
  setInstance_each fun _ => ⟨rfl, rfl⟩

theorem saveVariableStore_each {id : ℕ} {vars : Vars} :
    (saveVariableStore id vars).Each (Commit host T S) :=
  setInstance_each fun _ => ⟨rfl, rfl⟩

theorem updateLoopState_each {id : ℕ} {state : Option LoopState} :
    (updateLoopState id state).Each (Commit host T S) :=
  setInstance_each fun _ => ⟨rfl, rfl⟩

theorem updateStepStatus_each {id : ℕ} {status : ExecStatus} {output : Option String} :
    (updateStepStatus id status output).Each (Commit host T S) := by
  refine each_write fun s => Plain.trans ?_ (Plain.note _ rfl)
  exact Plain.setExecution (fun _ => rfl) fun _ => ⟨rfl, rfl⟩

theorem markStepRunning_each {id : ℕ} : (markStepRunning id).Each (Commit host T S) := by
  refine each_update fun s s' h => ?_
  obtain ⟨-, -, h⟩ := bind_ok h
  cases h
  exact Plain.setExecution (fun _ => rfl) fun _ => ⟨rfl, rfl⟩

theorem createStepExecution_each {inst : ℕ} {flow stepId : String} :
    (createStepExecution inst flow stepId).Each (Commit host T S) := by
  refine Prog.Each.bind (each_tx fun s a s' h => ?_) fun _ => getStepExecution_each
  obtain ⟨-, -, h⟩ := bind_ok h
  cases h
  exact Plain.insertExecution _

theorem createTaskExecutionInTransaction_plain {s s' : Db} {inst task id : ℕ}
    {flow stepId : String}
    (h : createTaskExecutionInTransaction s inst flow stepId task = .ok (id, s')) :
    Plain T s s' := by
  obtain ⟨-, -, h⟩ := bind_ok h
  cases h
  exact Plain.insertExecution _

theorem createTaskExecution_each {inst task : ℕ} {flow stepId : String} :
    (createTaskExecution inst flow stepId task).Each (Commit host T S) := by
  refine Prog.Each.bind (each_tx fun s a s' h => ?_) fun _ => getStepExecution_each
  obtain ⟨⟨id, w⟩, hw, h⟩ := bind_ok h
  cases h
  exact (createTaskExecutionInTransaction_plain hw).trans
    (Plain.setInstance (fun _ => rfl) fun _ _ _ => rfl)

theorem createLoopTaskExecution_each {inst task : ℕ} {flow stepId : String} {state : LoopState} :
    (createLoopTaskExecution inst flow stepId task state).Each (Commit host T S) := by
  refine Prog.Each.bind (each_tx fun s a s' h => ?_) fun _ => getStepExecution_each
  obtain ⟨⟨id, w⟩, hw, h⟩ := bind_ok h
  cases h
  exact (createTaskExecutionInTransaction_plain hw).trans
    (Plain.setInstance (fun _ => rfl) fun _ _ _ => rfl)

theorem createContinuationExecution_each {inst task : ℕ} {flow stepId prompt : String} :
    (createContinuationExecution host inst flow stepId task prompt).Each (Commit host T S) := by
  refine Prog.Each.bind (each_tx fun s a s' h => ?_) fun _ => getStepExecution_each
  obtain ⟨-, -, h⟩ := bind_ok h
  split at h
  · cases h
    exact Plain.refl s
  · split at h
    · cases h
    · split at h
      · cases h
      · obtain ⟨⟨id, w⟩, hw, h⟩ := bind_ok h
        have hp : Plain T s w := createTaskExecutionInTransaction_plain hw
        dsimp only at h
        split at h
        · cases h
          exact hp.trans (Plain.setExecution (fun _ => rfl) fun _ => ⟨rfl, rfl⟩)
        · obtain ⟨⟨r, v⟩, hv, h⟩ := bind_ok h
          cases h
          exact (hp.trans (Plain.aside (dispatchContinuation_aside hv))).trans
            (Plain.setExecution (fun _ => rfl) fun _ => ⟨rfl, rfl⟩)

theorem dispatchWaitingContinuation_each {exec task : ℕ} {prompt : String} :
    (dispatchWaitingContinuation host exec task prompt).Each (Commit host T S) := by
  refine Prog.Each.bind (each_update fun s s' h => ?_) fun _ => getStepExecution_each
  rcases dispatchWaiting_cases h with rfl | ⟨agent, attempt, message, v, hv, rfl⟩
  · exact Plain.refl s'
  · refine (Plain.aside (dispatchContinuation_aside hv)).trans
      (Plain.setExecution (fun e => ?_) fun e => ?_)
    · exact (resumed_same attempt message e).id
    · unfold resumed
      split <;> exact ⟨rfl, rfl⟩

theorem createAgentWaitExecution_each {inst : ℕ} {flow stepId : String} {state : WaitState} :
    (createAgentWaitExecution inst flow stepId state).Each (Commit host T S) := by
  refine Prog.Each.bind (each_tx fun s a s' h => ?_) fun _ => getStepExecution_each
  obtain ⟨⟨⟩, hacc, h⟩ := bind_ok h
  obtain ⟨v, hv, h⟩ := bind_ok h
  cases h
  have hside := bindInstanceToAgentProject_aside hv
  have hp : Plain T s v := Plain.aside hside
  refine (hp.trans (Plain.insertExecution _)).trans (Plain.setInstance (fun _ => rfl) ?_)
  intro i hi hact
  rw [active_of_accepts hacc
    (by rw [← hi, Db.instance?, Db.instance?, Db.insertExecution, hside.instances])]
    at hact
  cases hact

theorem claimWait_each {exec : ℕ} {output : String} :
    (claimWait exec output).Each (Commit host T S) := by
  refine each_tx fun s a s' h => ?_
  obtain ⟨-, -, h⟩ := bind_ok h
  split at h
  · split at h
    · cases h
      exact Plain.setExecution (fun _ => rfl) fun _ => ⟨rfl, rfl⟩
    · cases h
      exact Plain.refl s
  · cases h
    exact Plain.refl s

/-! ## Executing steps -/

/-- The step function commits nothing else. -/
def NextEach (K : (Db → Db) → Prop) (next : StepFn) : Prop :=
  ∀ inst flow index d trigger vars, (next inst flow index d trigger vars).Each K

/-- Starting a workflow commits nothing else. -/
def StartEach (K : (Db → Db) → Prop) (start : ℕ → Json → Run Unit) : Prop :=
  ∀ workflow trigger, (start workflow trigger).Each K

variable {next : StepFn} {start : ℕ → Json → Run Unit} {env : Env}

theorem lookup_each {o : Option α} {m : String} : (lookup o m).Each (Commit host T S) := by
  cases o with
  | some a => exact Prog.each_ret
  | none => exact (each_record rfl).bind fun _ => Prog.each_fail

theorem resolveGoto_each (hnext : NextEach (Commit host T S) next)
    (hstart : StartEach (Commit host T S) start) {inst : ℕ} {target flow : String} {d : Definition}
    {trigger : Json} {vars : Vars} :
    (resolveGoto next start inst target flow d trigger vars).Each (Commit host T S) := by
  refine (each_record rfl).bind fun _ => ?_
  split
  · exact lookup_each.bind fun _ => hnext ..
  · exact setCurrentPosition_each.bind fun _ => hnext ..
  · exact lookup_each.bind fun _ => hnext ..
  · refine each_read.bind fun found => ?_
    cases found with
    | some id => exact (hstart ..).bind fun _ => completeInstance_each
    | none => exact completeInstance_each
  · exact lookup_each

theorem dispatchTaskStep_each {step : Step} {prepared : PreparedTask} {exec : Execution} :
    (dispatchTaskStep step prepared exec).Each (Commit host T S) := by
  refine (each_aside TaskQueue.ensureEnqueued_aside).attempt.bind fun r => ?_
  cases r with
  | ok _ => exact Prog.each_ret
  | error e =>
    exact (each_ignore (each_aside TaskBoard.updateStatus_aside)).bind fun _ =>
      (each_ignore updateStepStatus_each).bind fun _ => Prog.each_fail

theorem executeTaskStep_each {inst : ℕ} {flow : String} {step : Step} {ctx : Json} :
    (executeTaskStep env inst flow step ctx).Each (Commit host T S) :=
  (each_aside prepareTaskStep_aside).bind fun _ =>
    createTaskExecution_each.bind fun _ => dispatchTaskStep_each

theorem executeContinueStep_each {inst : ℕ} {flow : String} {step : Step} {ctx : Json} :
    (executeContinueStep host inst flow step ctx).Each (Commit host T S) := by
  refine getInstance_each.bind fun row => ?_
  split
  · exact Prog.each_fail
  · dsimp only
    split
    · exact updateStatus_each.bind fun _ => Prog.each_fail
    · exact createContinuationExecution_each.bind fun _ => Prog.each_ret

theorem insertBranches_plain {inst parent : ℕ} {flow : String}
    {branches : List (Step × PreparedTask)} {s s' : Db} {ids : List ℕ}
    (h : insertBranches inst flow parent branches s = .ok (ids, s')) : Plain T s s' := by
  induction branches generalizing s ids with
  | nil =>
    cases h
    exact Plain.refl _
  | cons b rest ih =>
    obtain ⟨⟨id, w⟩, hw, h⟩ := bind_ok h
    obtain ⟨⟨ids', v⟩, hv, h⟩ := bind_ok h
    cases h
    refine Plain.trans ?_ (ih hv)
    exact (createTaskExecutionInTransaction_plain hw).trans
      (Plain.setExecution (fun _ => rfl) fun _ => ⟨rfl, rfl⟩)

theorem executeParallelStep_each {inst : ℕ} {flow : String} {step : Step} {ctx : Json} :
    (executeParallelStep env inst flow step ctx).Each (Commit host T S) := by
  refine (Prog.each_collect fun _ _ => (each_aside prepareTaskStep_aside)).bind fun prepared => ?_
  refine Prog.Each.bind (each_tx fun s a s' h => ?_) fun ids => ?_
  · obtain ⟨-, -, h⟩ := bind_ok h
    refine Plain.trans ?_ (insertBranches_plain h)
    exact (Plain.insertExecution _).trans (Plain.setInstance (fun _ => rfl) fun _ _ _ => rfl)
  · exact Prog.each_forEach fun _ _ => getStepExecution_each.bind fun _ => dispatchTaskStep_each

theorem executeWaitStep_each {inst : ℕ} {flow : String} {step : Step} {ctx : Json} :
    (executeWaitStep env inst flow step ctx).Each (Commit host T S) := by
  refine (each_aside resolveStepAgent_aside).bind fun agent => each_ret_bind fun resource => ?_
  refine (each_aside waitBoundary_aside).bind fun startedAt => each_ret_bind fun timeout => ?_
  exact createAgentWaitExecution_each.bind fun _ => Prog.each_ret

theorem executeSinkStep_each (hnext : NextEach (Commit host T S) next) {inst index : ℕ}
    {flow : String} {step : Step} {d : Definition} {trigger : Json} {vars : Vars} :
    (executeSinkStep next inst flow index step d trigger vars).Each (Commit host T S) :=
  createStepExecution_each.bind fun _ => updateStepStatus_each.bind fun _ => hnext ..

theorem executeWhenStep_each (hnext : NextEach (Commit host T S) next)
    (hstart : StartEach (Commit host T S) start) {inst index : ℕ} {flow : String} {step : Step}
    {d : Definition} {trigger : Json} {vars : Vars} {ctx : Json} :
    (executeWhenStep env next start inst flow index step d trigger vars ctx).Each
      (Commit host T S) := by
  refine each_ret_bind fun resolved => createStepExecution_each.bind fun exec =>
    updateStepStatus_each.bind fun _ => ?_
  split
  · split
    · exact hnext ..
    · exact resolveGoto_each hnext hstart
  · exact hnext ..

theorem executeJumpStep_each (hnext : NextEach (Commit host T S) next)
    (hstart : StartEach (Commit host T S) start) {inst : ℕ} {flow : String} {step : Step}
    {d : Definition} {trigger : Json} {vars : Vars} :
    (executeJumpStep next start inst flow step d trigger vars).Each (Commit host T S) :=
  createStepExecution_each.bind fun _ => updateStepStatus_each.bind fun _ =>
    resolveGoto_each hnext hstart

theorem completeLoop_each (hnext : NextEach (Commit host T S) next) {inst : ℕ} {state : LoopState}
    {d : Definition} {trigger : Json} {vars : Vars} :
    (completeLoop env next inst state d trigger vars).Each (Commit host T S) :=
  saveVariableStore_each.bind fun _ => updateLoopState_each.bind fun _ =>
    updateStepStatus_each.bind fun _ => hnext ..

theorem continueLoop_each (hnext : NextEach (Commit host T S) next) {inst : ℕ} {state : LoopState}
    {d : Definition} {trigger : Json} {vars : Vars} :
    (continueLoop env next inst state d trigger vars).Each (Commit host T S) := by
  refine lookup_each.bind fun loopStep => ?_
  split
  · exact completeLoop_each hnext
  · dsimp only
    split
    · exact saveVariableStore_each.bind fun _ => updateLoopState_each.bind fun _ =>
        (each_aside prepareTaskStep_aside).bind fun _ => createLoopTaskExecution_each.bind fun _ =>
          dispatchTaskStep_each
    · exact completeLoop_each hnext

theorem executeLoopStep_each (hnext : NextEach (Commit host T S) next) {inst index : ℕ}
    {flow : String} {step : Step} {d : Definition} {trigger : Json} {vars : Vars} {ctx : Json} :
    (executeLoopStep env next inst flow index step d trigger vars ctx).Each (Commit host T S) :=
  createStepExecution_each.bind fun _ => markStepRunning_each.bind fun _ => continueLoop_each hnext

theorem executeKind_each (hnext : NextEach (Commit host T S) next)
    (hstart : StartEach (Commit host T S) start) {inst index : ℕ} {flow : String} {step : Step}
    {d : Definition} {trigger : Json} {vars : Vars} :
    (executeKind host next start inst flow index step d trigger vars).Each (Commit host T S) := by
  unfold executeKind
  dsimp only
  split
  · exact executeParallelStep_each
  · exact executeContinueStep_each
  · exact executeWaitStep_each
  · exact executeSinkStep_each hnext
  · exact executeWhenStep_each hnext hstart
  · exact executeLoopStep_each hnext
  · exact executeJumpStep_each hnext hstart
  · exact executeTaskStep_each
  · exact executeTaskStep_each
  · exact executeTaskStep_each

theorem executeStepInner_each (hnext : NextEach (Commit host T S) next)
    (hstart : StartEach (Commit host T S) start) :
    NextEach (Commit host T S) (executeStepInner host next start) := by
  intro inst flow index d trigger vars
  refine lookup_each.bind fun f => ?_
  split
  · exact completeInstance_each
  · refine each_read.bind fun attempts => ?_
    split
    · exact updateStatus_each.bind fun _ => Prog.each_fail
    · exact setCurrentPosition_each.bind fun _ => executeKind_each hnext hstart

theorem failOnError_each {inst : ℕ} {p : Run Unit} (h : p.Each (Commit host T S)) :
    (failOnError inst p).Each (Commit host T S) := by
  refine h.attempt.bind fun r => ?_
  cases r with
  | ok _ => exact Prog.each_ret
  | error e =>
    refine each_read.bind fun row => ?_
    cases row with
    | none => exact Prog.each_fail
    | some i =>
      dsimp only
      split
      · exact (each_ignore updateStatus_each).bind fun _ => Prog.each_fail
      · exact Prog.each_fail

theorem startInstanceInContext_each (hnext : NextEach (Commit host T S) next) {workflow : ℕ}
    {trigger : Json} {context : WorkflowContext} {creator : Option String} {source : Option Task}
    {occurrence : Option (WorkflowRecord × String)}
    (hS : ∀ seen triggeredAt, occurrence = some (seen, triggeredAt) → S seen) :
    (startInstanceInContext env next workflow trigger context creator source occurrence).Each
      (Commit host T S) := by
  refine each_fetch.bind fun w => each_ret_bind fun context => ?_
  split
  · exact Prog.each_fail
  · refine each_ret_bind fun trigger => ?_
    refine (each_read.bind fun _ => Prog.each_ret).bind fun project => ?_
    refine (each_aside ensureProject_aside).bind fun _ => each_ret_bind fun frozen => ?_
    obtain ⟨d, frozen, changed⟩ := frozen
    refine (each_aside checkAgents_aside).bind fun _ => Prog.each_orFail.bind fun flow => ?_
    refine Prog.Each.bind (Prog.each_act.2
      ⟨.createInstance _ hS rfl, fun _ => Prog.each_ret⟩) fun id => ?_
    refine getInstance_each.bind fun row => ?_
    split
    · exact Prog.each_ret
    · exact loadVariableStore_each.bind fun vars => (hnext ..).bind fun _ => Prog.each_ret

theorem startInstance_each (hnext : NextEach (Commit host T S) next) :
    StartEach (Commit host T S) (startInstance env next) :=
  fun _ _ => (startInstanceInContext_each hnext fun _ _ h => by cases h).bind fun _ => Prog.each_ret

theorem executeStep_each (host : Host) (fuel : ℕ) :
    NextEach (Commit host T S) (executeStep host fuel) := by
  induction fuel with
  | zero => exact fun _ _ _ _ _ _ => Prog.each_stall
  | succ fuel ih =>
    exact fun _ _ _ _ _ _ => failOnError_each
      (executeStepInner_each ih (startInstance_each ih) ..)

/-! ## Callbacks -/

theorem definitionForInstance_each {i : Instance} :
    (definitionForInstance i).Each (Commit host T S) := by
  unfold definitionForInstance
  split
  · exact Prog.each_ret
  · exact each_fetch.bind fun _ => Prog.each_ret

theorem joinParallel_each (hnext : NextEach (Commit host T S) next) {parent : Execution}
    {row : Instance} {d : Definition} {index : ℕ} {branches : List Execution} :
    (joinParallel env next parent row d index branches).Each (Commit host T S) := by
  refine loadVariableStore_each.bind fun stored => ?_
  refine Prog.Each.bind (each_write fun s => Plain.trans ?_ (Plain.note _ rfl)) fun _ => ?_
  · exact Plain.setInstance (fun _ => rfl) fun _ _ _ => rfl
  · refine updateStepStatus_each.bind fun _ => ?_
    split
    · exact (each_record rfl).bind fun _ => hnext ..
    · split
      · exact (each_record rfl).bind fun _ => hnext ..
      · exact (each_record rfl).bind fun _ => updateStatus_each

theorem finishParallel_each (hnext : NextEach (Commit host T S) next) {parent : ℕ} :
    (finishParallel env next parent).Each (Commit host T S) := by
  refine getStepExecution_each.bind fun parent => getInstance_each.bind fun row => ?_
  split
  · refine definitionForInstance_each.bind fun d => lookup_each.bind fun index => ?_
    split
    · refine each_read.bind fun execs => ?_
      dsimp only
      split
      · exact Prog.each_ret
      · exact joinParallel_each hnext
    · exact Prog.each_ret
  · exact Prog.each_ret

theorem recordBranch_plain {exec : Execution} {parent : ℕ} {status : ExecStatus} {output : String}
    (s : Db) : Plain T s (recordBranch exec parent status output s).2 := by
  have hstep : ∀ {t u : Db} {id : ℕ} {status : ExecStatus} (output : Option String) (ev : Event),
      ev.tracked = false → Plain T s t →
      u = (t.setExecution id fun e => { e with status, output := output.or e.output }).note ev →
      Plain T s u := by
    rintro t u id status output ev hev ht rfl
    refine Plain.trans ?_ (Plain.note _ hev)
    exact ht.trans (Plain.setExecution (fun _ => rfl) fun _ => ⟨rfl, rfl⟩)
  unfold recordBranch
  dsimp only
  split_ifs
  · exact hstep none (.claimed parent) rfl
      (hstep (some output) (.recorded exec.id status output) rfl (Plain.refl s) rfl) rfl
  · exact hstep (some output) (.recorded exec.id status output) rfl (Plain.refl s) rfl
  · exact hstep none (.claimed parent) rfl (Plain.refl s) rfl
  · exact Plain.refl s

theorem completeParallelBranch_each (hnext : NextEach (Commit host T S) next) {exec : Execution}
    {parent : ℕ} {status : ExecStatus} {output : String} :
    (completeParallelBranch env next exec parent status output).Each (Commit host T S) := by
  refine Prog.Each.bind (each_tx fun s a s' h => ?_) fun claimed => ?_
  · have hs' : s' = (recordBranch exec parent status output s).2 := by
      rw [Except.ok.inj h]
    rw [hs']
    exact recordBranch_plain s
  · split
    · exact finishParallel_each hnext
    · exact Prog.each_ret

theorem cancelSourceTaskInstance_each {row : Instance} {output : String} :
    (cancelSourceTaskInstance row output).Each (Commit host T S) := by
  unfold cancelSourceTaskInstance
  split
  · exact updateStepStatus_each.bind fun _ => updateLoopState_each.bind fun _ => updateStatus_each
  · exact updateStatus_each

theorem failStep_each (hnext : NextEach (Commit host T S) next) {exec : ℕ} {c : Completion}
    {vars : Vars} {message : String} :
    (failStep next exec c vars message).Each (Commit host T S) := by
  unfold failStep
  split
  · exact (each_record rfl).bind fun _ => hnext ..
  · exact (each_record rfl).bind fun _ => updateStatus_each

theorem completeSourceGate_each (hnext : NextEach (Commit host T S) next) {exec : Execution}
    {task : ℕ} {c : Completion} :
    (completeSourceGate env next exec task c).Each (Commit host T S) := by
  refine each_read.bind fun active => ?_
  split
  · exact Prog.each_ret
  · refine saveVariableStore_each.bind fun _ => updateStepStatus_each.bind fun _ => ?_
    split
    · exact (each_record rfl).bind fun _ => cancelSourceTaskInstance_each
    · split
      · exact failStep_each hnext
      · exact (each_record rfl).bind fun _ => hnext ..

theorem completeIdleContinuation_each (hnext : NextEach (Commit host T S) next) {exec : Execution}
    {task : ℕ} {c : Completion} :
    (completeIdleContinuation host next exec task c).Each (Commit host T S) := by
  unfold completeIdleContinuation
  split
  · exact updateStepStatus_each.bind fun _ => (each_record rfl).bind fun _ =>
      cancelSourceTaskInstance_each
  · split
    · exact updateStepStatus_each.bind fun _ => failStep_each hnext
    · refine lookup_each.bind fun step => ?_
      dsimp only
      split
      · exact updateStepStatus_each.bind fun _ => updateStatus_each.bind fun _ => Prog.each_fail
      · exact dispatchWaitingContinuation_each.bind fun _ => Prog.each_ret

theorem completeStep_each (hnext : NextEach (Commit host T S) next) {exec : Execution} {task : ℕ}
    {c : Completion} : (completeStep env next exec task c).Each (Commit host T S) := by
  refine updateStepStatus_each.bind fun _ => ?_
  split
  · exact (each_record rfl).bind fun _ => cancelSourceTaskInstance_each
  · refine saveVariableStore_each.bind fun _ => ?_
    split
    · split
      · exact updateStepStatus_each.bind fun _ => updateLoopState_each.bind fun _ =>
          failStep_each hnext
      · exact failStep_each hnext
    · split
      · exact updateLoopState_each.bind fun _ => (each_record rfl).bind fun _ =>
          continueLoop_each hnext
      · exact (each_record rfl).bind fun _ => hnext ..

theorem commandCompletion_each {d : Definition} {exec : Execution} {status output : String} :
    (commandCompletion env d exec status output).Each (Commit host T S) := by
  unfold commandCompletion
  split
  · split
    · exact each_fetch.bind fun _ => Prog.each_ret
    · exact Prog.each_ret
  · exact Prog.each_ret

theorem completeWith_each (hnext : NextEach (Commit host T S) next)
    {again : String → String → ℕ → Run Unit}
    (hagain : ∀ status output owned, (again status output owned).Each (Commit host T S))
    {exec : Execution} {task : ℕ} {status output : String} {attempt : Option ℕ} :
    (completeWith host next again exec task status output attempt).Each (Commit host T S) := by
  refine getInstance_each.bind fun row => ?_
  split
  · refine definitionForInstance_each.bind fun d => loadVariableStore_each.bind fun vars =>
      commandCompletion_each.bind fun r => ?_
    obtain ⟨status, output⟩ := r
    dsimp only
    split
    · exact completeParallelBranch_each hnext
    · split
      · exact completeSourceGate_each hnext
      · split
        · exact completeIdleContinuation_each hnext
        · split
          · unfold completeContinue
            split
            · exact Prog.each_fail
            · split
              · split
                · exact Prog.each_ret
                · exact completeStep_each hnext
              · split
                · exact Prog.each_ret
                · refine (each_aside terminalAttemptCompletion_aside).bind fun r => ?_
                  split
                  · exact Prog.each_ret
                  · split
                    · exact hagain ..
                    · exact completeStep_each hnext
          · exact completeStep_each hnext
  · exact Prog.each_ret

theorem onExecutionTaskCompleted_each (hnext : NextEach (Commit host T S) next) {exec : Execution}
    {task : ℕ} {status output : String} {attempt : Option ℕ} :
    (onExecutionTaskCompleted host next exec task status output attempt).Each (Commit host T S) :=
  completeWith_each hnext fun _ _ _ => completeWith_each hnext fun _ _ _ => Prog.each_stall

theorem completeEach_each {p : Execution → Run Unit}
    (hp : ∀ e, (p e).Each (Commit host T S)) (es : List Execution) :
    (completeEach p es).Each (Commit host T S) := by
  induction es with
  | nil => exact Prog.each_ret
  | cons e es ih => exact (hp e).attempt.bind fun _ => ih.bind fun _ => Prog.each_ret

theorem onTaskCompleted_each (hnext : NextEach (Commit host T S) next) {task : ℕ}
    {status output : String} :
    (onTaskCompleted host next task status output).Each (Commit host T S) := by
  refine each_read.bind fun execs => ?_
  refine (completeEach_each (fun _ => onExecutionTaskCompleted_each hnext) _).bind fun errors => ?_
  split
  · exact Prog.each_ret
  · exact Prog.each_fail

theorem onAttemptCompleted_each (hnext : NextEach (Commit host T S) next) {task attempt : ℕ}
    {status output : String} :
    (onAttemptCompleted host next task attempt status output).Each (Commit host T S) := by
  refine each_read.bind fun execs => ?_
  refine (completeEach_each (fun _ => onExecutionTaskCompleted_each hnext) _).bind fun errors => ?_
  split
  · exact Prog.each_ret
  · exact Prog.each_fail

theorem advanceCompletedWait_each (hnext : NextEach (Commit host T S) next)
    (hstart : StartEach (Commit host T S) start) {exec : Execution} {step : Step} {d : Definition}
    {trigger : Json} {vars : Vars} :
    (advanceCompletedWait env next start exec step d trigger vars).Each (Commit host T S) := by
  unfold advanceCompletedWait
  split
  · split
    · exact Prog.each_fail
    · exact (each_record rfl).bind fun _ => resolveGoto_each hnext hstart
  · exact lookup_each.bind fun _ => (each_record rfl).bind fun _ => hnext ..

theorem finishWaitExecution_each (hnext : NextEach (Commit host T S) next)
    (hstart : StartEach (Commit host T S) start) {id : ℕ} :
    (finishWaitExecution env next start id).Each (Commit host T S) := by
  refine getStepExecution_each.bind fun exec => ?_
  split
  · refine getInstance_each.bind fun row => ?_
    split
    · refine setActiveStatus_each.bind fun _ => definitionForInstance_each.bind fun d =>
        lookup_each.bind fun step => ?_
      split
      · refine loadVariableStore_each.bind fun stored => saveVariableStore_each.bind fun _ => ?_
        split
        · exact updateStepStatus_each.bind fun _ => updateStatus_each
        · exact updateStepStatus_each.bind fun _ => advanceCompletedWait_each hnext hstart
      · exact Prog.each_fail
    · exact Prog.each_ret
  · exact Prog.each_ret

theorem resumeWaitExecution_each (hnext : NextEach (Commit host T S) next)
    (hstart : StartEach (Commit host T S) start) {id : ℕ} {payload : Json} :
    (resumeWaitExecution env next start id payload).Each (Commit host T S) := by
  refine claimWait_each.bind fun claimed => ?_
  split
  · exact finishWaitExecution_each hnext hstart
  · exact Prog.each_ret

/-! ## Recovery -/

theorem rollUp_each (hnext : NextEach (Commit host T S) next) (fuel : ℕ) (task : Option ℕ) :
    (rollUp host next fuel task).Each (Commit host T S) := by
  induction fuel generalizing task with
  | zero =>
    cases task with
    | none => exact Prog.each_ret
    | some task => exact Prog.each_stall
  | succ fuel ih =>
    cases task with
    | none => exact Prog.each_ret
    | some task =>
      refine Prog.Each.bind (each_tx fun s a s' h => ?_) fun done => ?_
      · split at h
        · cases h
        · cases h
          exact Plain.aside (.setWork s _)
      · split
        · exact Prog.each_ret
        · refine each_read.bind fun output =>
            (each_ignore (onTaskCompleted_each hnext)).bind fun _ =>
              (each_aside TaskBoard.get_aside).bind fun now => ?_
          split
          · exact (ih _).bind fun _ => Prog.each_ret
          · exact Prog.each_ret

theorem recoverableTaskStatus_each (hnext : NextEach (Commit host T S) next) {fuel task : ℕ}
    {taskStatus : TaskStatus} {execStatus : ExecStatus} :
    (recoverableTaskStatus host next fuel task taskStatus execStatus).Each (Commit host T S) := by
  rcases recoverableTaskStatus_cases host next fuel task taskStatus execStatus with ⟨_, h⟩ | h
  · rw [h]
    exact Prog.each_ret
  rw [h, recoverUnsettled]
  refine each_read.bind fun active => ?_
  split
  · refine each_read.bind fun latest => ?_
    split
    · refine each_read.bind fun output => ?_
      split
      · exact (each_aside TaskBoard.updateStatus_aside).bind fun _ => Prog.each_ret
      · refine (rollUp_each hnext _ _).bind fun completed => ?_
        split
        · exact (each_aside TaskBoard.get_aside).bind fun _ => Prog.each_ret
        · exact Prog.each_ret
    · exact Prog.each_ret
  · split
    · exact each_read.bind fun _ => Prog.each_ret
    · exact Prog.each_ret

theorem executePosition_each (hnext : NextEach (Commit host T S) next) {d : Definition}
    {i : Instance} : (executePosition next d i).Each (Commit host T S) :=
  loadVariableStore_each.bind fun _ => hnext ..

theorem recoverBranch_each (hnext : NextEach (Commit host T S) next) {fuel : ℕ}
    {child : Execution} : (recoverBranch host next fuel child).Each (Commit host T S) := by
  unfold recoverBranch
  split
  · exact Prog.each_fail
  · refine (each_aside TaskBoard.get_aside).bind fun t =>
      (recoverableTaskStatus_each hnext).bind fun r => ?_
    split
    · exact each_read.bind fun _ => onExecutionTaskCompleted_each hnext
    · split
      · exact each_aside TaskQueue.ensureEnqueued_aside
      · exact Prog.each_ret

theorem recoverParallel_each (hnext : NextEach (Commit host T S) next) {fuel : ℕ} {i : Instance} :
    (recoverParallel host next fuel i).Each (Commit host T S) := by
  refine definitionForInstance_each.bind fun d => ?_
  split
  · refine each_read.bind fun execs => ?_
    split
    · exact (executePosition_each hnext).bind fun _ => Prog.each_ret
    · exact (Prog.each_forEach fun _ _ => recoverBranch_each hnext).bind fun _ =>
        (finishParallel_each hnext).bind fun _ => Prog.each_ret
  · exact Prog.each_ret

theorem recoverCommandExecution_each (hnext : NextEach (Commit host T S) next) {i : Instance} :
    (recoverCommandExecution host next i).Each (Commit host T S) := by
  refine definitionForInstance_each.bind fun d => ?_
  split
  · split
    · exact (executePosition_each hnext).bind fun _ => Prog.each_ret
    · refine getStepExecution_each.bind fun exec => ?_
      split
      · split
        · exact (onExecutionTaskCompleted_each hnext).bind fun _ => Prog.each_ret
        · exact Prog.each_ret
      · exact Prog.each_ret
  · exact Prog.each_ret

theorem recoverTask_each (hnext : NextEach (Commit host T S) next) {fuel : ℕ} {exec : Execution}
    {task : ℕ} : (recoverTask host next fuel exec task).Each (Commit host T S) := by
  refine each_read.bind fun found => ?_
  split
  · exact Prog.each_ret
  · refine (recoverableTaskStatus_each hnext).bind fun r => ?_
    split
    · exact each_read.bind fun _ => each_ignore (onTaskCompleted_each hnext)
    · split
      · exact each_ignore (each_aside TaskQueue.ensureEnqueued_aside)
      · exact Prog.each_ret

theorem recoverContinuation_each (hnext : NextEach (Commit host T S) next) {fuel : ℕ}
    {exec : Execution} {task attempt : ℕ} :
    (recoverContinuation host next fuel exec task attempt).Each (Commit host T S) := by
  refine each_read.bind fun found => each_read.bind fun output => ?_
  split
  · exact each_ignore (onExecutionTaskCompleted_each hnext)
  · exact each_ignore (onExecutionTaskCompleted_each hnext)
  · refine (each_aside terminalAttemptCompletion_aside).attempt.bind fun r => ?_
    split
    · split
      · exact recoverTask_each hnext
      · exact each_ignore (onExecutionTaskCompleted_each hnext)
    · exact Prog.each_ret
    · exact Prog.each_ret

theorem recoverLoop_each (hnext : NextEach (Commit host T S) next) {i : Instance}
    {state : LoopState} : (recoverLoop host next i state).Each (Commit host T S) := by
  unfold recoverLoop
  split
  · refine each_read.bind fun found => ?_
    split
    · exact Prog.each_ret
    · split
      · exact Prog.each_ret
      · split
        · exact each_read.bind fun _ => each_ignore (onExecutionTaskCompleted_each hnext)
        · exact Prog.each_ret
  · exact definitionForInstance_each.bind fun _ => loadVariableStore_each.bind fun _ =>
      each_ignore (continueLoop_each hnext)

theorem recoverCurrent_each (hnext : NextEach (Commit host T S) next) {fuel : ℕ} {i : Instance}
    {exec : Execution} : (recoverCurrent host next fuel i exec).Each (Commit host T S) := by
  unfold recoverCurrent
  split
  · split
    · exact recoverContinuation_each hnext
    · exact recoverTask_each hnext
  · split
    · exact recoverLoop_each hnext
    · exact Prog.each_ret

theorem recoverWait_each (hnext : NextEach (Commit host T S) next)
    (hstart : StartEach (Commit host T S) start) {i : Instance} {d : Definition}
    {execs : List Execution} :
    (recoverWait host next start i d execs).Each (Commit host T S) := by
  unfold recoverWait
  split
  · exact Prog.each_ret
  · split
    · exact Prog.each_ret
    · exact loadVariableStore_each.bind fun _ =>
        each_ignore (advanceCompletedWait_each hnext hstart)

theorem recoverSettled_each (hnext : NextEach (Commit host T S) next)
    (hstart : StartEach (Commit host T S) start) {fuel : ℕ} {i : Instance}
    {execs : List Execution} :
    (recoverSettled host next start fuel i execs).Each (Commit host T S) := by
  refine definitionForInstance_each.bind fun d => ?_
  split
  · exact recoverWait_each hnext hstart
  · split
    · exact recoverWait_each hnext hstart
    · refine each_read.bind fun found => ?_
      split
      · exact recoverWait_each hnext hstart
      · refine (recoverableTaskStatus_each hnext).bind fun r => ?_
        split
        · exact recoverWait_each hnext hstart
        · exact each_read.bind fun _ => each_ignore (onExecutionTaskCompleted_each hnext)

theorem recoverInstance_each (hnext : NextEach (Commit host T S) next)
    (hstart : StartEach (Commit host T S) start) {fuel : ℕ} {i : Instance} :
    (recoverInstance host next start fuel i).Each (Commit host T S) := by
  refine each_read.bind fun execs => ?_
  refine Prog.Each.bind ?_ fun handled => ?_
  · unfold recoverPosition
    split
    · refine (recoverParallel_each hnext).bind fun parallel => ?_
      split
      · exact Prog.each_ret
      · exact recoverCommandExecution_each hnext
    · exact Prog.each_ret
  · split
    · exact Prog.each_ret
    · split
      · exact each_ignore (finishWaitExecution_each hnext hstart)
      · split
        · exact recoverCurrent_each hnext
        · exact recoverSettled_each hnext hstart

/-! ## Attaching, planning and the runner of commands -/

theorem attachDefaultWorkflows_each (hnext : NextEach (Commit host T S) next) {task : ℕ} :
    (attachDefaultWorkflows env next task).Each (Commit host T S) := by
  refine (each_aside TaskBoard.get_aside).bind fun t => ?_
  split
  · exact Prog.each_ret
  · refine each_read.bind fun defaults => Prog.each_forEach fun w _ => each_ignore ?_
    refine each_read.bind fun found => ?_
    split
    · exact Prog.each_ret
    · exact (startInstanceInContext_each hnext fun _ _ h => by cases h).bind fun _ => Prog.each_ret

theorem startScheduledInstance_each (hnext : NextEach (Commit host T S) next)
    {seen : WorkflowRecord} {at_ : String} (hS : S seen) :
    (startScheduledInstance env next seen at_).Each (Commit host T S) := by
  unfold startScheduledInstance
  split
  · exact Prog.each_fail
  · refine (startInstanceInContext_each hnext ?_).bind fun _ => Prog.each_ret
    rintro _ _ ⟨⟩
    exact hS

theorem checkScheduledRows_each (hnext : NextEach (Commit host T S) next) {now : ℕ}
    {ws : List WorkflowRecord} (hS : ∀ w ∈ ws, S w) :
    (Prog.forEach ws (checkScheduledWorkflow env next now)).Each (Commit host T S) := by
  refine Prog.each_forEach fun w hw => ?_
  unfold checkScheduledWorkflow
  split
  · exact Prog.each_ret
  · split
    · exact Prog.each_ret
    · split
      · exact each_ignore (startScheduledInstance_each hnext (hS w hw))
      · exact Prog.each_ret

/-- An edit of one row that moves its revision on. -/
theorem modifyWorkflow_plain {s : Db} {id : ℕ} {g : WorkflowRecord → WorkflowRecord} (hT : T id)
    (hid : ∀ w, (g w).id = w.id) (hrev : ∀ w, w.revision < (g w).revision) :
    Plain T s { s with workflows := Table.modify WorkflowRecord.id id g s.workflows } := by
  refine ⟨fun x w hw => ?_, fun hs => ⟨?_, fun w hw => ?_⟩, fun _ => .of_eq rfl,
    fun _ e he => ⟨e, he, rfl, rfl⟩, rfl⟩
  · rw [Db.workflow?, Table.get_modify hid, ← Db.workflow?, hw]
    by_cases hx : x = id
    · exact ⟨g w, by simp [hx], .inr ⟨hx ▸ hT, hrev w⟩⟩
    · exact ⟨w, by simp [hx], .inl rfl⟩
  · rw [Table.map_key_modify hid]
    exact hs.nodup
  · rcases Table.mem_modify hw with ⟨hw, -⟩ | ⟨w₀, hw₀, -, rfl⟩
    · exact hs.below w hw
    · rw [hid]
      exact hs.below w₀ hw₀

theorem editRow_plain {s s' : Db} {id : ℕ} {g : Db → WorkflowRecord → WorkflowRecord}
    (hT : T id) (h : editRow id g s = .ok s') (hid : ∀ w, (g s w).id = w.id)
    (hrev : ∀ w, w.revision < (g s w).revision) : Plain T s s' := by
  unfold editRow at h
  split at h
  · cases h
  · cases h
    exact modifyWorkflow_plain hT hid hrev

/-- A new row under an id that is not taken. -/
theorem insertWorkflow_plain {s : Db} {w : WorkflowRecord} {n : ℕ} (hn : s.nextId ≤ n)
    (hw : w.id < n) (hfresh : s.Keyed → s.workflow? w.id = none) :
    Plain T s { s with workflows := s.workflows ++ [w], nextId := n } := by
  refine ⟨fun x w' hw' => ⟨w', Table.get_append_of_some hw', .inl rfl⟩, fun hs => ⟨?_, ?_⟩,
    fun _ => .of_eq rfl, fun _ e he => ⟨e, he, rfl, rfl⟩, rfl⟩
  · rw [List.map_append, List.map_singleton]
    refine List.nodup_append.2 ⟨hs.nodup, List.nodup_singleton _, ?_⟩
    rintro a ha b hb rfl
    rw [List.mem_singleton] at hb
    have hnone := hfresh hs
    rw [← hb, Db.workflow?, ← Option.not_isSome_iff_eq_none, Table.get_isSome_iff] at hnone
    exact hnone ha
  · intro v hv
    rcases List.mem_append.1 hv with hv | hv
    · exact (hs.below v hv).trans_le hn
    · rw [List.mem_singleton.1 hv]
      exact hw

theorem workflow?_nextId {s : Db} (hs : s.Keyed) : s.workflow? s.nextId = none := by
  rw [Db.workflow?, Table.get, List.find?_eq_none]
  intro w hw
  have := hs.below w hw
  simp only [decide_eq_true_eq]
  omega

theorem createWorkflow_each {name yaml : String} {description : Option String} {d : Definition} :
    (createWorkflow env name description yaml d).Each (Commit host T S) :=
  each_ret_bind fun _ => each_write fun _ =>
    insertWorkflow_plain (Nat.le_succ _) (Nat.lt_succ_self _) workflow?_nextId

theorem updateWorkflow_each {id : ℕ} {yaml : String} {d : Definition} (hT : T id) :
    (updateWorkflow env id yaml d).Each (Commit host T S) := by
  refine each_ret_bind fun _ => each_fetch.bind fun previous => each_ret_bind fun _ => ?_
  exact each_update fun _ _ h => editRow_plain hT h (fun _ => rfl) fun _ => Nat.lt_succ_self _

theorem setEnabled_each {id : ℕ} {enabled : Bool} (hT : T id) :
    (setEnabled env id enabled).Each (Commit host T S) :=
  each_update fun _ _ h => editRow_plain hT h (fun _ => rfl) fun _ => Nat.lt_succ_self _

theorem setDefaultForTasks_each {id : ℕ} {b : Bool} (hT : T id) :
    (setDefaultForTasks env id b).Each (Commit host T S) := by
  refine each_read.bind fun record => each_ret_bind fun _ => ?_
  exact each_update fun _ _ h => editRow_plain hT h (fun _ => rfl) fun _ => Nat.lt_succ_self _

theorem updateForAgent_each {id revision : ℕ} {agent : String}
    {yaml : Option (String × Definition)} {enabled : Option Bool} (hT : T id) :
    (updateForAgent env id agent revision yaml enabled).Each (Commit host T S) := by
  refine each_update fun s s' h => ?_
  obtain ⟨project, -, h⟩ := bind_ok h
  split at h
  · cases h
  · obtain ⟨-, -, h⟩ := bind_ok h
    dsimp only at h
    obtain ⟨-, -, h⟩ := bind_ok h
    exact editRow_plain hT h (fun _ => rfl) fun _ => Nat.lt_succ_self _

theorem importWorkflow_plain {project : String} {p : PortableWorkflow} {s : Db} (hT : T p.id) :
    Plain T s (importWorkflow project s p) := by
  unfold importWorkflow
  split
  · rename_i hnone
    exact insertWorkflow_plain (le_max_left _ _) ((Nat.lt_succ_self _).trans_le (le_max_right _ _))
      fun _ => hnone
  · split
    · exact modifyWorkflow_plain hT (fun _ => rfl) fun _ => Nat.lt_succ_self _
    · exact Plain.refl s

theorem importWorkflows_each {project : String} {ps : List PortableWorkflow}
    (hT : ∀ p ∈ ps, T p.id) : (importWorkflows env project ps).Each (Commit host T S) := by
  refine each_ret_bind fun _ => each_write fun s => ?_
  induction ps generalizing s with
  | nil => exact Plain.refl s
  | cons p ps ih =>
    exact (importWorkflow_plain (hT p (List.mem_cons_self ..))).trans
      (ih (fun q hq => hT q (List.mem_cons_of_mem _ hq)) _)

theorem External.apply_plain (x : External) (s : Db) : Plain T s (x.apply s) := by
  cases x with
  | work f => exact Plain.aside (.setWork s _)
  | clock now => exact Plain.aside (.rest rfl rfl rfl rfl le_rfl)
  | adopt exec attempt => exact Plain.setExecution (fun _ => rfl) fun _ => ⟨rfl, rfl⟩
  | context inst project conversation =>
    exact Plain.setInstance (fun _ => rfl) fun _ _ _ => rfl

/-- The workflows a call may edit. -/
def Op.edits (op : Op) (id : ℕ) : Prop :=
  match op with
  | .updateWorkflow w _ _ => w = id
  | .setEnabled w _ => w = id
  | .setDefaultForTasks w _ => w = id
  | .updateForAgent w _ _ _ _ => w = id
  | .importWorkflows _ ps => ∃ p ∈ ps, p.id = id
  | _ => False

/-- **Every call commits transactions of these kinds only.**  A pass of the schedule runner
claims occurrences with any rows it may have read, and no other call claims any. -/
theorem Op.prog_each (host : Host) (fuel : ℕ) (op : Op) (hT : ∀ id, op.edits id → T id)
    (hS : ∀ now w, op = .checkScheduled now → S w) :
    (op.prog host fuel).Each (Commit host T S) := by
  have hnext : NextEach (Commit host T S) (executeStep host fuel) := executeStep_each host fuel
  have hstart : StartEach (Commit host T S) (startInstance host.toEnv (executeStep host fuel)) :=
    startInstance_each hnext
  cases op with
  | createWorkflow name description yaml d => exact createWorkflow_each
  | updateWorkflow id yaml d => exact updateWorkflow_each (hT id rfl)
  | setEnabled id enabled => exact setEnabled_each (hT id rfl)
  | setDefaultForTasks id b => exact setDefaultForTasks_each (hT id rfl)
  | updateForAgent id agent revision yaml enabled => exact updateForAgent_each (hT id rfl)
  | importWorkflows project ps => exact importWorkflows_each fun p hp => hT p.id ⟨p, hp, rfl⟩
  | checkScheduled now =>
    exact each_read.bind fun _ => checkScheduledRows_each hnext fun w _ => hS now w rfl
  | start workflow trigger context creator =>
    exact (startInstanceInContext_each hnext fun _ _ h => by cases h).bind fun _ => Prog.each_ret
  | attachDefaults task => exact attachDefaultWorkflows_each hnext
  | taskCompleted task status output => exact onTaskCompleted_each hnext
  | attemptCompleted task attempt status output => exact onAttemptCompleted_each hnext
  | resumeWait exec payload => exact resumeWaitExecution_each hnext hstart
  | timeoutWait exec => exact resumeWaitExecution_each hnext hstart
  | recover =>
    exact each_read.bind fun _ => Prog.each_forEach fun _ _ => recoverInstance_each hnext hstart
  | cancel inst => exact Prog.each_act.2 ⟨.cancelInstance inst rfl, fun _ => Prog.each_ret⟩
  | beginCommand exec =>
    exact Prog.Each.bind (Prog.each_act.2 ⟨.beginCommand exec rfl, fun _ => Prog.each_ret⟩)
      fun _ => Prog.each_ret
  | saveResult exec result =>
    exact Prog.each_act.2 ⟨.saveResult exec result rfl, fun _ => Prog.each_ret⟩
  | external x => exact each_write x.apply_plain

end

end XpressClaw
