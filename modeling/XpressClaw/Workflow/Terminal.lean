import XpressClaw.Workflow.Commits
import XpressClaw.Workflow.Targets

/-!
# Final instance statuses

An instance that is completed, failed or cancelled has no way on: whatever writes its
status asks first whether it still accepts work.  The one exception is a cancellation,
which asks nothing, so that a completed or failed instance can become cancelled
(`completed_becomes_cancelled`).

`final_status_lasts` says that this is the only exception, in every interleaving: along any
run in which no cancellation is committed while its instance is completed or failed, every
final status stays.
-/

namespace XpressClaw

open Lib InstanceManager

/-- The next transaction of the thread cancels the instance: it is the one of
`cancel_instance`, or an `update_status` to `cancelled`. -/
def Cancels (host : Host) (p : Run Unit) (inst : ℕ) : Prop :=
  p.next? = (cancelInstance host inst).next? ∨
    ∃ message, p.next? = (updateStatus inst .cancelled message).next?

/-- Along the schedule, no thread that is about to cancel an instance commits while that
instance is completed or failed. -/
def CancelsInTime (host : Host) (c : Sys Db Err Unit) (schedule : List ℕ) : Prop :=
  ∀ is i, is ++ [i] <+: schedule → ∀ p, (c.sched is).threads[i]? = some p →
    ∀ inst, Cancels host p inst → ∀ row, (c.sched is).store.instance? inst = some row →
      row.status ≠ .completed ∧ row.status ≠ .failed

section

variable {host : Host} {T : ℕ → Prop} {S : WorkflowRecord → Prop} {s : Db}

/-- A cancellation leaves the other instances alone, and a cancelled one cancelled. -/
theorem Lasting.cancel {t : Db} {inst x : ℕ} {m : Option String}
    (ht : t.instance? x = s.instance? x)
    (hx : x = inst → ∀ i, s.instance? x = some i → i.status ≠ .completed ∧ i.status ≠ .failed) :
    Lasting s (t.setInstance inst fun i =>
      { i with status := .cancelled, errorMessage := m }) x := by
  intro i hi hact
  have hset := @Db.instance?_setInstance t inst
    (fun i => { i with status := .cancelled, errorMessage := m }) (fun _ => rfl) x
  rw [hset, ht, hi]
  by_cases h : x = inst
  · have hc : i.status = .cancelled := by
      obtain ⟨h1, h2⟩ := hx h i hi
      cases hst : i.status <;> simp_all [InstanceStatus.active]
    exact ⟨_, by rw [Option.map_some, if_pos h], hc.symm⟩
  · exact ⟨i, by rw [Option.map_some, if_neg h], rfl⟩

theorem updateStatus_cancelled_lasting {inst x : ℕ} {m : Option String}
    (hx : x = inst → ∀ i, s.instance? x = some i → i.status ≠ .completed ∧ i.status ≠ .failed) :
    Lasting s ((updateStatus inst .cancelled m).final s) x := by
  refine final_update_cases (I := fun t => Lasting s t x) (Lasting.refl s x) fun s' h => ?_
  cases h
  exact Lasting.cancel rfl hx

theorem cancelInstance_lasting {inst x : ℕ}
    (hx : x = inst → ∀ i, s.instance? x = some i → i.status ≠ .completed ∧ i.status ≠ .failed) :
    Lasting s ((cancelInstance host inst).final s) x := by
  refine final_update_cases (I := fun t => Lasting s t x) (Lasting.refl s x) fun s' h => ?_
  split at h
  · cases h
  · obtain ⟨-, -, h⟩ := bind_ok h
    cases h
    exact Lasting.cancel rfl hx

/-- What `create_instance` does: nothing, or an instance is inserted, with its source gate
and the claim of its occurrence. -/
theorem createInstance_cases (n : NewInstance) (s : Db) :
    (∃ e, (createInstance n).run s = (some (.error e), s)) ∨
    ∃ project bindings t u,
      insertGate (n.insert project bindings s) s.nextId n.startFlow n.source = .ok t ∧
      afterInsert t s.nextId n.occurrence = .ok u ∧
      (createInstance n).run s = (some (.ok s.nextId), u) := by
  rcases Prog.run_tx_cases _ s with ⟨e, -, hr⟩ | ⟨id, u, h, hr⟩
  · exact .inl ⟨e, hr⟩
  · obtain ⟨project, -, h⟩ := bind_ok h
    obtain ⟨-, -, h⟩ := bind_ok h
    obtain ⟨-, -, h⟩ := bind_ok h
    obtain ⟨bindings, -, h⟩ := bind_ok h
    split at h
    · cases h
    · obtain ⟨t, ht, h⟩ := bind_ok h
      obtain ⟨v, hv, h⟩ := bind_ok h
      cases h
      exact .inr ⟨project, bindings, t, u, ht, hv, hr⟩

theorem insertGate_cases {t : Db} {inst : ℕ} {flow : String} {source : Option Task}
    (h : insertGate s inst flow source = .ok t) : t = s ∨ ∃ row, t = s.insertExecution row := by
  cases source with
  | none =>
    cases h
    exact .inl rfl
  | some task =>
    obtain ⟨⟨id, w⟩, hw, h⟩ := bind_ok h
    cases h
    obtain ⟨-, -, hw⟩ := bind_ok hw
    cases hw
    exact .inr ⟨_, rfl⟩

/-- What `create_instance` leaves of the instances. -/
theorem createInstance_instances (n : NewInstance) (s : Db) :
    (createInstance n).final s = s ∨ ∃ project,
      ((createInstance n).final s).instances =
        s.instances ++ [n.row project s.nextId s.clock] := by
  rcases createInstance_cases n s with ⟨e, hr⟩ | ⟨project, bindings, t, u, ht, hu, hr⟩
  · exact .inl (by rw [Prog.final, hr])
  · refine .inr ⟨project, ?_⟩
    have h1 : t.instances = s.instances ++ [n.row project s.nextId s.clock] := by
      rcases insertGate_cases ht with rfl | ⟨row, rfl⟩ <;> rfl
    rw [Prog.final, hr, ← h1]
    cases hocc : n.occurrence with
    | none =>
      rw [hocc] at hu
      cases hu
      rfl
    | some o =>
      rw [hocc] at hu
      obtain ⟨row, -, -, -, -, rfl⟩ := claimOccurrence_ok hu
      rfl

theorem createInstance_lasting {n : NewInstance} (x : ℕ) :
    Lasting s ((createInstance n).final s) x := by
  rcases createInstance_instances n s with h | ⟨project, h⟩
  · rw [h]
    exact Lasting.refl s x
  · intro i hi _
    exact ⟨i, by rw [Db.instance?, h]; exact Table.get_append_of_some hi, rfl⟩

/-- One transaction keeps every final status but that of a completed or failed instance it
cancels. -/
theorem Commit.lasting {f : Db → Db} (h : Commit host T S f) {inst : ℕ}
    (hinst : some f = (XpressClaw.cancelInstance host inst).next? ∨
        (∃ m, some f = (updateStatus inst .cancelled m).next?) →
      ∀ i, s.instance? inst = some i → i.status ≠ .completed ∧ i.status ≠ .failed) :
    Lasting s (f s) inst := by
  cases h with
  | plain h => exact (h s).lasting inst
  | cancelStatus x m h =>
    have hf : f s = (updateStatus x .cancelled m).final s := by
      cases h
      rfl
    rw [hf]
    refine updateStatus_cancelled_lasting fun hx => ?_
    subst hx
    exact hinst (.inr ⟨m, h.symm⟩)
  | cancelInstance x h =>
    have hf : f s = (XpressClaw.cancelInstance host x).final s := by
      cases h
      rfl
    rw [hf]
    refine cancelInstance_lasting fun hx => ?_
    subst hx
    exact hinst (.inl h.symm)
  | createInstance n _ h =>
    rw [Prog.final_of_next? h]
    exact createInstance_lasting inst
  | beginCommand exec h =>
    rw [Prog.final_of_next? h]
    refine Prog.final_tx_cases (I := fun t => Lasting s t inst) (Lasting.refl s inst)
      fun a s' h => ?_
    split at h
    · cases h
    · split at h
      · cases h
        exact Lasting.refl s inst
      · split at h
        · cases h
        · cases h
          exact .of_eq rfl
  | saveResult exec result h =>
    cases h
    exact .of_eq rfl

end

/-! ## Runs -/

section

variable {host : Host} {T : ℕ → Prop} {S : WorkflowRecord → Prop}

/-- Along a run whose cancellations come in time, every final status stays. -/
theorem sched_lasting {c : Sys Db Err Unit} (hc : ∀ p ∈ c.threads, p.Each (Commit host T S))
    {schedule : List ℕ} (hcancel : CancelsInTime host c schedule) (inst : ℕ) :
    Lasting c.store (c.sched schedule).store inst := by
  induction schedule generalizing c with
  | nil => exact Lasting.refl _ inst
  | cons i is ih =>
    obtain ⟨hstep, hc'⟩ := Sys.step_each hc i
    have hrest : CancelsInTime host (c.step i) is := by
      intro js j hjs p hp x hx row hrow
      refine hcancel (i :: js) j ?_ p hp x hx row hrow
      rw [List.cons_append]
      exact List.cons_prefix_cons.2 ⟨rfl, hjs⟩
    refine Lasting.trans ?_ (ih hc' hrest)
    rcases hstep with hstep | ⟨f, p, hp, hnext, hf, hstep⟩
    · rw [hstep]
      exact Lasting.refl _ inst
    · rw [hstep]
      refine hf.lasting fun hx row hrow => ?_
      refine hcancel [] i (by simp) p hp inst ?_ row hrow
      rw [Cancels, hnext]
      exact hx

end

/-- **Final statuses are absorbing, cancellations of finished instances apart.**  From any
state of any run on, as long as no cancellation commits while its instance is completed or
failed, an instance that is completed, failed or cancelled keeps its status. -/
theorem final_status_lasts (host : Host) (fuel : ℕ) (db : Db) (ops : List Op) (is js : List ℕ)
    (hcancel : CancelsInTime host (calls host fuel db ops is) js) (inst : ℕ) (i : Instance)
    (hi : (calls host fuel db ops is).store.instance? inst = some i)
    (hfinal : i.status = .completed ∨ i.status = .failed ∨ i.status = .cancelled) :
    ∃ j, (calls host fuel db ops (is ++ js)).store.instance? inst = some j ∧
      j.status = i.status := by
  have hthreads : ∀ p ∈ (calls host fuel db ops is).threads,
      p.Each (Commit host (fun _ => True) fun _ => True) := by
    refine (Sys.sched_each (I := fun _ => True) ?_ (fun _ _ _ _ => trivial) trivial is).2
    intro p hp
    obtain ⟨op, -, rfl⟩ := List.mem_map.1 hp
    exact Op.prog_each host fuel op (fun _ _ => trivial) fun _ _ _ => trivial
  have hrun : (calls host fuel db ops (is ++ js)) = (calls host fuel db ops is).sched js := by
    rw [calls, Sys.sched, List.foldl_append]
    rfl
  have hact : i.status.active = false := by
    rcases hfinal with h | h | h <;> rw [h] <;> rfl
  rw [hrun]
  exact sched_lasting hthreads hcancel inst i hi hact

/-- A database with one running instance. -/
def loneInstance (inst : ℕ) : Db := { instances := [{ id := inst, workflowId := 0 }] }

/-- What the next transaction of a program makes of that instance. -/
def effect (p : Run Unit) (inst : ℕ) : Option (Option InstanceStatus) :=
  p.next?.map fun f => ((f (loneInstance inst)).instance? inst).map Instance.status

/-- A thread about to cancel an instance would cancel that one. -/
theorem Cancels.effect_eq {host : Host} {p : Run Unit} {inst : ℕ} (h : Cancels host p inst) :
    effect p inst = some (some .cancelled) := by
  rcases h with h | ⟨m, h⟩
  · rw [effect, h]
    simp [loneInstance, Prog.next?, cancelInstance, update, Prog.tx, Db.instance?, Table.get,
      Db.setInstance, Table.modify, runningContinuation, checkOption, Except.map, bind,
      Except.bind, Db.setWork]
  · rw [effect, h]
    simp [loneInstance, Prog.next?, updateStatus, statusAllowed, update, Prog.tx, Db.instance?,
      Table.get, Db.setInstance, Table.modify, Except.map, bind, Except.bind]

/-- `cancel_instance` cancels no other instance. -/
theorem Cancels.eq {host : Host} {k inst : ℕ} (h : Cancels host (cancelInstance host k) inst) :
    inst = k := by
  by_contra hne
  have hlone : effect (cancelInstance host k) inst = some (some .running) := by
    simp [effect, loneInstance, Prog.next?, cancelInstance, update, Prog.tx, Db.instance?,
      Table.get, Except.map, hne]
  rw [h.effect_eq] at hlone
  cases hlone

/-! ## A completed instance that is cancelled -/

/-- A workflow that ends at once. -/
def notifying : Definition where
  name := "notifying"
  flows := [("main", ⟨[{ id := "notify", stepType := .sink }]⟩)]

/-- The workflow is saved. -/
def notifyingDb : Db where
  workflows := [{ id := 0, name := "notifying", definition := notifying }]
  nextId := 1

/-- The workflow is started, which completes it, and then it is cancelled. -/
def notifyingCalls : List Op := [.start 0 (.obj []) {} none, .cancel 1]

/-- **A completed instance becomes cancelled.** -/
theorem completed_becomes_cancelled :
    notifyingDb.Initial plainHost.toEnv ∧
    ((calls plainHost 5 notifyingDb notifyingCalls (List.replicate 40 0)).store.instance? 1).map
      Instance.status = some .completed ∧
    ((calls plainHost 5 notifyingDb notifyingCalls (List.replicate 40 0 ++ [1])).store.instance?
      1).map Instance.status = some .cancelled := by
  refine ⟨⟨?_, rfl, rfl, rfl⟩, by decide +kernel, by decide +kernel⟩
  intro w hw
  obtain rfl := List.mem_singleton.1 hw
  rfl

/-- A workflow that waits for an agent. -/
def working : Definition where
  name := "working"
  flows := [("main", ⟨[{ id := "work", agent := some "coder" }]⟩)]

/-- Both workflows are saved, and the agent exists. -/
def bothDb : Db where
  workflows := [{ id := 0, name := "notifying", definition := notifying },
    { id := 1, name := "working", definition := working }]
  work := { agents := [{ id := "coder" }] }
  nextId := 2

/-- Both workflows are started, and the second run is cancelled. -/
def bothCalls : List Op := [.start 0 (.obj []) {} none, .start 1 (.obj []) {} none, .cancel 4]

/-- The calls before the cancellation. -/
def bothStarted : List ℕ := List.replicate 40 0 ++ List.replicate 40 1

/-- The completed instance stays completed while the running one is cancelled. -/
theorem completed_survives_cancel :
    CancelsInTime plainHost (calls plainHost 5 bothDb bothCalls bothStarted) [2] ∧
    ((calls plainHost 5 bothDb bothCalls bothStarted).store.instance? 4).map Instance.status =
      some .running ∧
    ((calls plainHost 5 bothDb bothCalls (bothStarted ++ [2])).store.instance? 4).map
      Instance.status = some .cancelled ∧
    ∃ j, (calls plainHost 5 bothDb bothCalls (bothStarted ++ [2])).store.instance? 2 = some j ∧
      j.status = .completed := by
  have hstatus : ((calls plainHost 5 bothDb bothCalls bothStarted).store.instance? 4).map
      Instance.status = some .running := by decide +kernel
  have hcancel : CancelsInTime plainHost (calls plainHost 5 bothDb bothCalls bothStarted) [2] := by
    intro is i hpre p hp inst hc row hrow
    obtain ⟨rfl, rfl⟩ : is = [] ∧ i = 2 := by
      rcases is with _ | ⟨j, is⟩
      · simpa using hpre
      · have := hpre.length_le
        simp at this
    have hthread : (calls plainHost 5 bothDb bothCalls bothStarted).threads[2]? =
        some (cancelInstance plainHost 4) := Sys.threads_sched_of_notMem (by decide +kernel)
    rw [Sys.sched_nil] at hp hrow
    rw [hthread, Option.some.injEq] at hp
    subst hp
    rw [← hc.eq, hrow, Option.map_some, Option.some.injEq] at hstatus
    simp [hstatus]
  let row := ((calls plainHost 5 bothDb bothCalls bothStarted).store.instance? 2).get
    (by decide +kernel)
  have hrow : row.status = .completed := by decide +kernel
  obtain ⟨j, hj, hst⟩ := final_status_lasts plainHost 5 bothDb bothCalls bothStarted [2] hcancel 2
    row (Option.some_get _).symm (.inl hrow)
  exact ⟨hcancel, hstatus, by decide +kernel, j, hj, hst.trans hrow⟩

end XpressClaw
