import XpressClaw.Workflow.Schedule

/-!
# The gate of command steps

Whoever reports the task of a command step as completed, the engine takes the outcome from
the command result saved with the execution, and the two columns that belong to it are
written once: the permission by the transaction that grants it, the result by the first
`save_result`.

* `Granted` — a grant is recorded in its row, so there is no second one.
* `command_gate` — the three facts over every interleaving of calls.
-/

namespace XpressClaw

open Lib InstanceManager

/-- The event grants the permission to run an execution's command. -/
def Event.grants (exec : ℕ) : Event → Bool
  | .granted e => e = exec
  | _ => false

/-- How often the permission to run an execution's command was granted. -/
def Db.grants (s : Db) (exec : ℕ) : ℕ := s.log.countP (Event.grants exec)

/-- A permission was granted once at most, and then the row says so. -/
def Granted (s : Db) : Prop :=
  ∀ exec, s.grants exec = 0 ∨
    s.grants exec = 1 ∧ ∃ e, s.execution? exec = some e ∧ e.commandStartedAt.isSome

/-- A transaction that grants nothing and takes no permission back. -/
structure Ungranted (s t : Db) : Prop where
  grants : ∀ exec, t.grants exec = s.grants exec
  started : ∀ id e, s.execution? id = some e → e.commandStartedAt.isSome →
    ∃ f, t.execution? id = some f ∧ f.commandStartedAt.isSome

section

variable {s t u : Db}

theorem Ungranted.refl (s : Db) : Ungranted s s := ⟨fun _ => rfl, fun _ e he h => ⟨e, he, h⟩⟩

theorem Ungranted.of_eq (he : t.executions = s.executions) (hl : t.log = s.log) : Ungranted s t :=
  ⟨fun exec => by rw [Db.grants, hl, Db.grants], fun _ e h hs => ⟨e, by rwa [Db.execution?, he], hs⟩⟩

theorem Granted.keep (hs : Granted s) (h : Ungranted s t) : Granted t := by
  intro exec
  rw [h.grants]
  rcases hs exec with hnone | ⟨hone, e, he, hstart⟩
  · exact .inl hnone
  · exact .inr ⟨hone, h.started exec e he hstart⟩

theorem grants_of_tracked (h : t.log.filter Event.tracked = s.log.filter Event.tracked)
    (exec : ℕ) : t.grants exec = s.grants exec := by
  have hall : ∀ l : List Event,
      l.countP (Event.grants exec) = (l.filter Event.tracked).countP (Event.grants exec) := by
    intro l
    rw [List.countP_filter]
    refine List.countP_congr fun ev _ => ?_
    cases ev <;> simp [Event.tracked, Event.grants]
  rw [Db.grants, Db.grants, hall, h, ← hall]

theorem Plain.ungranted {T : ℕ → Prop} (h : Plain T s t) : Ungranted s t := by
  refine ⟨grants_of_tracked h.log, fun id e he hstart => ?_⟩
  obtain ⟨f, hf, -, hf'⟩ := h.commands id e he
  exact ⟨f, hf, by rwa [hf']⟩

theorem createInstance_ungranted (n : NewInstance) (s : Db) :
    Ungranted s ((createInstance n).final s) := by
  rcases createInstance_cases n s with ⟨e, hr⟩ | ⟨project, bindings, t, u, ht, hu, hr⟩
  · rw [Prog.final, hr]
    exact Ungranted.refl s
  · rw [Prog.final, hr]
    have hgate : t.log = s.log ∧ ∃ more, t.executions = s.executions ++ more := by
      rcases insertGate_cases ht with rfl | ⟨row, rfl⟩
      · exact ⟨rfl, [], by simp [NewInstance.insert]⟩
      · exact ⟨rfl, _, rfl⟩
    have hclaim : u.executions = t.executions ∧ ∀ exec, u.grants exec = t.grants exec := by
      cases hocc : n.occurrence with
      | none =>
        rw [hocc] at hu
        cases hu
        exact ⟨rfl, fun _ => rfl⟩
      | some o =>
        rw [hocc] at hu
        obtain ⟨row, -, -, -, -, rfl⟩ := claimOccurrence_ok hu
        exact ⟨rfl, fun exec => by simp [Db.grants, Event.grants, Db.trigger]⟩
    obtain ⟨hlog, more, hmore⟩ := hgate
    refine ⟨fun exec => ?_, fun id e he hstart => ⟨e, ?_, hstart⟩⟩
    · rw [hclaim.2, Db.grants, hlog, Db.grants]
    · rw [Db.execution?, hclaim.1, hmore]
      exact Table.get_append_of_some he

/-- The permission is given to a row that had none. -/
theorem beginCommand_granted {exec : ℕ} (hs : Granted s) :
    Granted ((beginCommand exec).final s) := by
  refine Prog.final_tx_cases (I := Granted) hs fun a t h => ?_
  split at h
  · cases h
  rename_i e he
  obtain ⟨hfound, -⟩ := Option.filter_eq_some_iff.1 he
  split at h
  · cases h
    exact hs
  split at h
  · cases h
  rename_i hfresh
  cases h
  intro x
  have hrow : ∀ y, ((s.setExecution exec fun e => { e with commandStartedAt := some s.clock }).note
      (.granted exec)).execution? y = (s.execution? y).map fun e =>
        if y = exec then { e with commandStartedAt := some s.clock } else e :=
    fun y => s.execution?_setExecution (g := fun e => { e with commandStartedAt := some s.clock })
      (fun _ => rfl) y
  have hcount : ((s.setExecution exec fun e => { e with commandStartedAt := some s.clock }).note
      (.granted exec)).grants x = s.grants x + if exec = x then 1 else 0 := by
    simp [Db.grants, Event.grants, List.countP_append, List.countP_cons]
  rw [hcount, hrow]
  by_cases hx : exec = x
  · subst hx
    refine .inr ⟨?_, _, by rw [hfound, Option.map_some, if_pos rfl], rfl⟩
    rcases hs exec with h | ⟨-, f, hf, hstart⟩
    · simp [h]
    · rw [hfound, Option.some.injEq] at hf
      exact absurd (hf ▸ hstart) hfresh
  · rcases hs x with h | ⟨h, f, hf, hstart⟩
    · exact .inl (by simp [h, hx])
    · exact .inr ⟨by simp [h, hx], f, by simp [hf, Ne.symm hx], hstart⟩

end

/-- Every transaction keeps the record of grants. -/
theorem Commit.granted {host : Host} {T : ℕ → Prop} {S : WorkflowRecord → Prop} {f : Db → Db}
    (h : Commit host T S f) {s : Db} (hs : Granted s) : Granted (f s) := by
  cases h with
  | plain h => exact hs.keep (h s).ungranted
  | cancelStatus inst m h =>
    have hf : f s = (updateStatus inst .cancelled m).final s := by
      cases h
      rfl
    rw [hf]
    refine final_update_cases (I := Granted) hs fun s' h => ?_
    cases h
    exact hs.keep (.of_eq rfl rfl)
  | cancelInstance inst h =>
    have hf : f s = (XpressClaw.cancelInstance host inst).final s := by
      cases h
      rfl
    rw [hf]
    refine final_update_cases (I := Granted) hs fun s' h => ?_
    split at h
    · cases h
    rename_i i _
    obtain ⟨-, -, h⟩ := bind_ok h
    cases h
    refine hs.keep ⟨fun _ => rfl, fun id e he hstart => ⟨cancelRow i e, ?_, ?_⟩⟩
    · have hrow : Table.get Execution.id s.executions id = some e := he
      exact (Table.get_map fun r => (cancelRow_same i r).id).trans (congrArg _ hrow)
    · unfold cancelRow
      split
      · split <;> exact hstart
      · exact hstart
  | createInstance n hS h =>
    rw [Prog.final_of_next? h]
    exact hs.keep (createInstance_ungranted n s)
  | beginCommand exec h =>
    rw [Prog.final_of_next? h]
    exact beginCommand_granted hs
  | saveResult exec result h =>
    cases h
    refine hs.keep ⟨fun _ => rfl, fun id e he hstart => ?_⟩
    have hrow := @Db.execution?_setExecution s exec
      (fun e => { e with commandResult := e.commandResult.or (some result) }) (fun _ => rfl) id
    rw [he] at hrow
    refine ⟨_, hrow, ?_⟩
    dsimp only
    split <;> exact hstart

/-! ## Runs -/

/-- From one point of a run to a later one the database stays within the rules. -/
theorem calls_frame {host : Host} (fuel : ℕ) {db : Db} (hdb : db.Initial host.toEnv)
    (ops : List Op) (is js : List ℕ) :
    Frame Scope.all (calls host fuel db ops is).store
    (calls host fuel db ops (is ++ js)).store := by
  have hinv : Rules.all.Inv db := ⟨hdb.wellFormed, Nat.zero_le _, trivial⟩
  have hok : ∀ p ∈ ops.map (Op.prog host fuel), p.Ok Rules.all.protocol db fun r t =>
      ∀ a, r = .ok a → anything a t := by
    intro p hp
    obtain ⟨op, -, rfl⟩ := List.mem_map.1 hp
    exact keeps_iff.1 (Op.prog_keeps host fuel op hinv)
  obtain ⟨-, hi, hok'⟩ := Sys.sched_ok (c := ⟨db, ops.map (Op.prog host fuel)⟩) Rules.all.shared
    hinv hok is
  have hrun : calls host fuel db ops (is ++ js) = (calls host fuel db ops is).sched js := by
    rw [calls, Sys.sched, List.foldl_append]
    rfl
  rw [hrun]
  exact (Sys.sched_ok Rules.all.shared hi hok' js).1

theorem calls_granted {host : Host} (fuel : ℕ) {db : Db} (hdb : db.Initial host.toEnv)
    (ops : List Op) (is : List ℕ) : Granted (calls host fuel db ops is).store := by
  have heach : ∀ p ∈ ops.map (Op.prog host fuel),
      p.Each (Commit host (fun _ => True) fun _ => True) := by
    intro p hp
    obtain ⟨op, -, rfl⟩ := List.mem_map.1 hp
    exact Op.prog_each host fuel op (fun _ _ => trivial) fun _ _ _ => trivial
  have hinit : Granted db := fun exec => .inl (by rw [Db.grants, hdb.log]; rfl)
  exact (Sys.sched_each (I := Granted) (c := ⟨db, _⟩) heach (fun _ hf _ hs => hf.granted hs) hinit
    is).1

/-- **The command gate.**  In every interleaving of any calls, an execution of a command
step that is completed has a saved result that succeeds under the step's `allow_failure`;
the permission to run it was granted at most once; and a saved result stays as it is. -/
theorem command_gate (host : Host) (fuel : ℕ) (db : Db) (hdb : db.Initial host.toEnv)
    (ops : List Op) (is js : List ℕ) (exec : ℕ) (e : Execution)
    (he : (calls host fuel db ops is).store.execution? exec = some e) :
    (∀ i d step, (calls host fuel db ops is).store.instance? e.instanceId = some i →
      i.definition = some d → d.findStep e.flowName e.stepId = some step →
      step.stepType = .command → e.status = .completed →
      ∃ r, e.commandResult = some r ∧ r.succeeds step.allowFailure = true) ∧
    (calls host fuel db ops is).store.grants exec ≤ 1 ∧
    ∀ r, e.commandResult = some r →
      ∃ f, (calls host fuel db ops (is ++ js)).store.execution? exec = some f ∧
        f.commandResult = some r := by
  refine ⟨fun i d step hi hd hfind hty hdone => ?_, ?_, fun r hr => ?_⟩
  · obtain ⟨d', hr, hp, -⟩ := (calls_wellFormed fuel hdb ops is).executions e (Table.mem_of_get he)
    obtain rfl := hr.unique ⟨i, hi, hd⟩
    exact hp.command hdone step hfind hty
  · rcases calls_granted fuel hdb ops is exec with h | ⟨h, -⟩
    · omega
    · omega
  · obtain ⟨f, hf, hk⟩ := (calls_frame fuel hdb ops is js).execution? he
    exact ⟨f, hf, hk.1.commandResult r hr⟩

/-- A workflow of one command. -/
def checking : Definition where
  name := "checking"
  flows := [("main", ⟨[
    { id := "check", stepType := .command, agent := some "coder", command := some "make" }]⟩)]

/-- The workflow is saved, and its agent exists. -/
def checkingDb : Db where
  workflows := [{ id := 0, name := "checking", definition := checking }]
  work := { agents := [{ id := "coder" }] }
  nextId := 1

/-- The command runs and passes, and its task is reported as completed. -/
def checkingCalls : List Op :=
  [.start 0 (.obj []) {} none, .beginCommand 3, .saveResult 3 { exitCode := some 0 },
    .taskCompleted 2 "completed" ""]

/-- The calls, one after the other. -/
def checkingSchedule : List ℕ := List.replicate 40 0 ++ [1, 2] ++ List.replicate 8 3

theorem checkingDb_initial : checkingDb.Initial plainHost.toEnv where
  workflows := by
    intro w hw
    obtain rfl := List.mem_singleton.1 hw
    rfl
  instances := rfl
  executions := rfl
  log := rfl

set_option maxRecDepth 4000 in
theorem checking_definition :
    ((calls plainHost 5 checkingDb checkingCalls checkingSchedule).store.instance? 1).bind
      Instance.definition = some checking := rfl

/-- The command's execution is completed, with a result that succeeds. -/
theorem checked_with_result :
    ∃ e, (calls plainHost 5 checkingDb checkingCalls checkingSchedule).store.execution? 3 = some e ∧
      e.status = .completed ∧ ∃ r, e.commandResult = some r ∧ r.succeeds false = true := by
  let e := ((calls plainHost 5 checkingDb checkingCalls checkingSchedule).store.execution? 3).get
    (by decide +kernel)
  have he : (calls plainHost 5 checkingDb checkingCalls checkingSchedule).store.execution? 3 =
    some e := (Option.some_get _).symm
  have hdone : e.status = .completed := by decide +kernel
  have hat : e.instanceId = 1 ∧ e.flowName = "main" ∧ e.stepId = "check" := by decide +kernel
  obtain ⟨i, hi, hd⟩ := Option.bind_eq_some_iff.1 checking_definition
  obtain ⟨hgate, -, -⟩ := command_gate plainHost 5 checkingDb checkingDb_initial checkingCalls
    checkingSchedule [] 3 e he
  rw [hat.1, hat.2.1, hat.2.2] at hgate
  exact ⟨e, he, hdone, hgate i checking _ hi hd rfl rfl hdone⟩

end XpressClaw
