import XpressClaw.Workflow.Aside

/-!
# Rules for pieces of the engine

`Moves c s t`: the database went from `s` to `t` within the scope `c` and the
invariant still holds.  There is one lemma for each way the engine writes; a
transaction is a chain of them.

`Keeps ρ s p Q`: whatever the threads allowed by `ρ` commit from `s` on, every
transaction of `p` stays within `ρ.own` and keeps the invariant, and a result `a`
satisfies `Q a`.  The rules follow the program constructors.
-/

namespace XpressClaw

open Lib

/-- One or more writes within a scope that keep the invariant. -/
def Moves (c : Scope) (s t : Db) : Prop := Frame c s t ∧ WellFormed t

namespace Moves

variable {c : Scope} {s t u : Db}

theorem refl (hs : WellFormed s) : Moves c s s := ⟨.refl s, hs⟩

theorem trans (h : Moves c s t) (h' : Moves c t u) : Moves c s u := ⟨h.1.trans h'.1, h'.2⟩

theorem aside (hs : WellFormed s) (h : Aside s t) : Moves c s t := by
  obtain ⟨hw, hi, ⟨g, hg, he⟩, hl, hn⟩ := h
  have hf : Frame c s t :=
    ⟨hn, hi ▸ .refl KeepsInstance.refl _,
      ⟨g, [], by simp [he], fun e _ => ⟨(hg e).same, fun _ => ⟨(hg e).status, (hg e).output⟩⟩,
        by simp⟩, [], by simp [hl], by simp⟩
  refine ⟨hf, hs.step hf (fun w h => hs.workflows w (hw ▸ h)) (fun j hj => .inl (hi ▸ hj)) ?_
    (fun ev hev => .inl (hl ▸ hev)) (hi ▸ hs.instancesNodup) ?_⟩
  · intro f hf'
    rw [he] at hf'
    obtain ⟨e, hmem, rfl⟩ := List.mem_map.1 hf'
    exact .inr (((hs.executions e hmem).congr (hg e).same (hg e).status).later hf)
  · have hid : Execution.id ∘ g = Execution.id := funext fun e => (hg e).same.id
    rw [he, List.map_map, hid]
    exact hs.executionsNodup

theorem note (hs : WellFormed s) {ev : Event} (hin : ev.within c.exec) (hr : ev.Resolved) :
    Moves c s (s.note ev) := by
  have hf : Frame c s (s.note ev) :=
    ⟨le_rfl, .refl KeepsInstance.refl _, .refl KeepsExecution.refl _, [ev], rfl, by simpa using hin⟩
  refine ⟨hf, hs.step hf hs.workflows (fun j hj => .inl hj) (fun f hf => .inl hf) ?_
    hs.instancesNodup hs.executionsNodup⟩
  intro e he
  rcases List.mem_append.1 he with he | he
  · exact .inl he
  · exact .inr (List.mem_singleton.1 he ▸ hr)

/-- A change of one instance. -/
theorem setInstance (hs : WellFormed s) {id : ℕ} {g : Instance → Instance} (hV : c.inst id)
    (hg : ∀ i, SameInstance i (g i))
    (hok : ∀ i ∈ s.instances, i.id = id → InstanceOk s i → InstanceOk s (g i)) :
    Moves c s (s.setInstance id g) := by
  have hf : Frame c s (s.setInstance id g) := by
    refine ⟨le_rfl, .modify KeepsInstance.refl ?_, .refl KeepsExecution.refl _, [],
      by simp [Db.setInstance], by simp⟩
    intro i _ hi
    exact ⟨hg i, fun hn => absurd hV (hi ▸ hn)⟩
  refine ⟨hf, hs.step hf hs.workflows ?_ (fun f hf => .inl hf) (fun ev hev => .inl hev) ?_
    hs.executionsNodup⟩
  · intro j hj
    rcases Table.mem_modify hj with ⟨hj, -⟩ | ⟨i, hi, hid, rfl⟩
    · exact .inl hj
    · exact .inr ((hok i hi hid (hs.instances i hi)).later hf)
  · rw [Db.setInstance, Table.map_key_modify fun i => (hg i).id]
    exact hs.instancesNodup

/-- A change of one execution.  Outside of the scope only columns that no frame
speaks about may change. -/
theorem setExecution (hs : WellFormed s) {id : ℕ} {g : Execution → Execution}
    (hW : c.exec id ∨ ∀ e, (g e).status = e.status ∧ (g e).output = e.output)
    (hg : ∀ e, SameExecution e (g e))
    (hok : ∀ e ∈ s.executions, e.id = id → ExecutionOk s e → ExecutionOk s (g e)) :
    Moves c s (s.setExecution id g) := by
  have hf : Frame c s (s.setExecution id g) := by
    refine ⟨le_rfl, .refl KeepsInstance.refl _, .modify KeepsExecution.refl ?_, [],
      by simp [Db.setExecution], by simp⟩
    intro e _ he
    exact ⟨hg e, fun hn => hW.elim (fun h => absurd h (he ▸ hn)) fun h => h e⟩
  refine ⟨hf, hs.step hf hs.workflows (fun j hj => .inl hj) ?_ (fun ev hev => .inl hev)
    hs.instancesNodup ?_⟩
  · intro f hf'
    rcases Table.mem_modify hf' with ⟨hf', -⟩ | ⟨e, he, hid, rfl⟩
    · exact .inl hf'
    · exact .inr ((hok e he hid (hs.executions e he)).later hf)
  · rw [Db.setExecution, Table.map_key_modify fun e => (hg e).id]
    exact hs.executionsNodup

/-- A new execution. -/
theorem insertExecution (hs : WellFormed s) {row : ℕ → ℕ → Execution}
    (hid : (row s.nextId s.clock).id = s.nextId)
    (hV : c.inst (row s.nextId s.clock).instanceId)
    (hpar : (row s.nextId s.clock).parentExecutionId = none)
    (hok : ExecutionOk s (row s.nextId s.clock)) : Moves c s (s.insertExecution row) := by
  have hf : Frame c s (s.insertExecution row) := by
    refine ⟨Nat.le_succ _, .refl KeepsInstance.refl _, .append KeepsExecution.refl ?_, [],
      by simp [Db.insertExecution], by simp⟩
    intro e he
    obtain rfl := List.mem_singleton.1 he
    refine ⟨hid.ge, ?_, hV, by simp [hpar]⟩
    rw [hid]
    exact Nat.lt_succ_self _
  refine ⟨hf, hs.step hf hs.workflows (fun j hj => .inl hj) ?_ (fun ev hev => .inl hev)
    hs.instancesNodup ?_⟩
  · intro e he
    rcases List.mem_append.1 he with he | he
    · exact .inl he
    · exact .inr (List.mem_singleton.1 he ▸ hok.later hf)
  · rw [Db.insertExecution, List.map_append, List.map_singleton, hid]
    refine List.nodup_append.2 ⟨hs.executionsNodup, List.nodup_singleton _, ?_⟩
    intro a ha b hb
    obtain ⟨e, he, rfl⟩ := List.mem_map.1 ha
    have := hs.executionIds e he
    have := List.mem_singleton.1 hb
    omega

/-- Several new executions at once; they may name each other as parents. -/
theorem appendExecutions (hs : WellFormed s) {rows : List Execution} {n : ℕ} (hn : s.nextId ≤ n)
    (hrows : ∀ e ∈ rows, s.nextId ≤ e.id ∧ e.id < n ∧ c.inst e.instanceId ∧
      ∀ p, e.parentExecutionId = some p → s.nextId ≤ p)
    (hnd : (rows.map Execution.id).Nodup)
    (hok : ∀ e ∈ rows, ExecutionOk { s with executions := s.executions ++ rows, nextId := n } e) :
    Moves c s { s with executions := s.executions ++ rows, nextId := n } := by
  have hf : Frame c s { s with executions := s.executions ++ rows, nextId := n } :=
    ⟨hn, .refl KeepsInstance.refl _, .append KeepsExecution.refl hrows, [], by simp, by simp⟩
  refine ⟨hf, hs.step hf hs.workflows (fun j hj => .inl hj) ?_ (fun ev hev => .inl hev)
    hs.instancesNodup ?_⟩
  · intro e he
    rcases List.mem_append.1 he with he | he
    · exact .inl he
    · exact .inr (hok e he)
  · rw [List.map_append]
    refine List.nodup_append.2 ⟨hs.executionsNodup, hnd, ?_⟩
    intro a ha b hb
    obtain ⟨e, he, rfl⟩ := List.mem_map.1 ha
    obtain ⟨f, hf', rfl⟩ := List.mem_map.1 hb
    have := hs.executionIds e he
    have := (hrows f hf').1
    omega

/-- A new instance. -/
theorem insertInstance (hs : WellFormed s) {row : Instance} {b : List (ℕ × String × String)}
    (hid : row.id = s.nextId) (hok : InstanceOk s row) :
    Moves c s { s with
      instances := s.instances ++ [row], bindings := s.bindings ++ b, nextId := s.nextId + 1 } := by
  have hf : Frame c s { s with
      instances := s.instances ++ [row], bindings := s.bindings ++ b, nextId := s.nextId + 1 } := by
    refine ⟨Nat.le_succ _, .append KeepsInstance.refl ?_, .refl KeepsExecution.refl _, [],
      by simp, by simp⟩
    intro j hj
    obtain rfl := List.mem_singleton.1 hj
    exact ⟨hid.ge, by rw [hid]; exact Nat.lt_succ_self _⟩
  refine ⟨hf, hs.step hf hs.workflows ?_ (fun e he => .inl he) (fun ev hev => .inl hev) ?_
    hs.executionsNodup⟩
  · intro j hj
    rcases List.mem_append.1 hj with hj | hj
    · exact .inl hj
    · exact .inr (List.mem_singleton.1 hj ▸ hok.later hf)
  · rw [List.map_append, List.map_singleton, hid]
    refine List.nodup_append.2 ⟨hs.instancesNodup, List.nodup_singleton _, ?_⟩
    intro a ha b hb
    obtain ⟨i, hi, rfl⟩ := List.mem_map.1 ha
    have := hs.instanceIds i hi
    have := List.mem_singleton.1 hb
    omega

theorem setWorkflows (hs : WellFormed s) {ws : List WorkflowRecord} {n : ℕ} (hn : s.nextId ≤ n)
    (hw : ∀ w ∈ ws, w.definition.WellTargeted) :
    Moves c s { s with workflows := ws, nextId := n } := by
  have hf : Frame c s { s with workflows := ws, nextId := n } :=
    ⟨hn, .refl KeepsInstance.refl _, .refl KeepsExecution.refl _, [], by simp, by simp⟩
  exact ⟨hf, hs.step hf hw (fun j hj => .inl hj) (fun f hf => .inl hf) (fun ev hev => .inl hev)
    hs.instancesNodup hs.executionsNodup⟩

end Moves

theorem instance?_append {s : Db} (hs : WellFormed s) {row : Instance} (hid : row.id = s.nextId) :
    Table.get Instance.id (s.instances ++ [row]) s.nextId = some row := by
  have hnone : Table.get Instance.id s.instances s.nextId = none := by
    rw [Table.get, List.find?_eq_none]
    intro i hi
    have := hs.instanceIds i hi
    simp only [decide_eq_true_eq]
    omega
  rw [Table.get_append, hnone]
  simp [Table.get, hid]

theorem execution?_insertExecution {s : Db} (hs : WellFormed s) {row : ℕ → ℕ → Execution}
    (hid : (row s.nextId s.clock).id = s.nextId) :
    (s.insertExecution row).execution? s.nextId = some (row s.nextId s.clock) := by
  rw [Db.execution?, Db.insertExecution, Table.get_append]
  have hnone : Table.get Execution.id s.executions s.nextId = none := by
    rw [Table.get, List.find?_eq_none]
    intro e he
    have := hs.executionIds e he
    simp only [decide_eq_true_eq]
    omega
  rw [hnone]
  simp [Table.get, hid]

/-! ## Programs -/

/-- What a thread may write, what the others may write meanwhile, and an invariant
that this thread needs besides. -/
structure Rules where
  own : Scope
  others : Scope
  inst_sub : ∀ id, own.inst id → others.inst id
  exec_sub : ∀ id, own.exec id → others.exec id
  also : Db → Prop
  also_keep : ∀ {s t}, also s → Frame own s t → also t

/-- What holds whenever a thread under these rules commits. -/
structure Rules.Inv (ρ : Rules) (s : Db) : Prop where
  wf : WellFormed s
  base : ρ.own.base ≤ s.nextId
  also : ρ.also s

/-- The rules as a protocol. -/
def Rules.protocol (ρ : Rules) : Protocol Db where
  Inv := ρ.Inv
  Rely := Frame ρ.others
  Guar := Frame ρ.own
  refl := .refl
  trans := .trans

theorem Rules.shared (ρ : Rules) : ρ.protocol.Shared := fun h => h.mono ρ.inst_sub ρ.exec_sub

/-- The program stays within the rules, and its result satisfies `Q`. -/
def Keeps {α : Type} (ρ : Rules) (s : Db) (p : Run α) (Q : α → Db → Prop) : Prop :=
  p.Ok ρ.protocol s fun r t => ∀ a, r = .ok a → Q a t

/-- No postcondition. -/
def anything {α : Type} : α → Db → Prop := fun _ _ => True

section

variable {ρ : Rules} {s : Db} {α β : Type} {Q : α → Db → Prop}

theorem Rules.Inv.moves {t : Db} (h : ρ.Inv s) (hm : Moves ρ.own s t) : ρ.Inv t :=
  ⟨hm.2, h.base.trans hm.1.nextId, ρ.also_keep h.also hm.1⟩

theorem Keeps.pure {a : α} (h : ∀ t, Frame ρ.others s t → ρ.Inv t → Q a t) :
    Keeps ρ s (Prog.ret (.ok a)) Q := by
  intro t hst hi b hb
  cases hb
  exact h t hst hi

theorem Keeps.fail {e : Err} : Keeps ρ s (Prog.fail e : Run α) Q := by
  intro t hst hi b hb
  cases hb

theorem Keeps.ret {r : Except Err α} (h : ∀ a, r = .ok a → ∀ t, Frame ρ.others s t → ρ.Inv t →
    Q a t) : Keeps ρ s (Prog.ret r) Q := by
  intro t hst hi b hb
  exact h b hb t hst hi

/-- A program beside the rows of the engine keeps any rules. -/
theorem Keeps.aside {p : Run α} (h : p.Each Aside.Always) : Keeps ρ s p anything :=
  (h.ok ρ.shared fun _ hf t _ hi =>
    have hm := Moves.aside hi.wf (hf t)
    ⟨hm.1, hi.moves hm⟩).weaken fun _ _ _ _ _ _ => trivial

theorem Keeps.stall : Keeps ρ s (Prog.stall : Run α) Q := trivial

theorem Keeps.mono {Q' : α → Db → Prop} {p : Run α} (h : Keeps ρ s p Q)
    (hQ : ∀ a t, Frame ρ.others s t → ρ.Inv t → Q a t → Q' a t) : Keeps ρ s p Q' :=
  Prog.Ok.imp ρ.shared h fun _ t hst hi hq a ha => hQ a t hst hi (hq a ha)

theorem Keeps.weaken {p : Run α} (h : Keeps ρ s p Q) : Keeps ρ s p anything :=
  h.mono fun _ _ _ _ _ => trivial

theorem Keeps.bind {p : Run α} {g : α → Run β} {R : β → Db → Prop} (hs : ρ.Inv s)
    (hp : Keeps ρ s p Q)
    (hg : ∀ a t, Frame ρ.others s t → ρ.Inv t → Q a t → Keeps ρ t (g a) R) :
    Keeps ρ s (p.bind g) R := by
  refine Prog.ok_bind hs (Prog.Ok.imp ρ.shared hp ?_)
  intro r t hst hi hq
  cases r with
  | ok a => exact hg a t hst hi (hq a rfl)
  | error e => exact fun a ha => by cases ha

theorem Keeps.read {q : Db → α}
    (h : ∀ t, Frame ρ.others s t → ρ.Inv t → ∀ u, Frame ρ.others t u → ρ.Inv u → Q (q t) u) :
    Keeps ρ s (Prog.read q) Q := by
  refine Prog.ok_read (fun t => Frame.refl t) ?_
  intro t hst hi u htu hu a ha
  cases ha
  exact h t hst hi u htu hu

theorem Keeps.fetch {q : Db → Option α} {e : Err} (hs : ρ.Inv s)
    (h : ∀ t, Frame ρ.others s t → ρ.Inv t → ∀ a, q t = some a →
      ∀ u, Frame ρ.others t u → ρ.Inv u → Q a u) : Keeps ρ s (fetch q e) Q := by
  refine Keeps.bind hs (Q := fun o u => ∀ a, o = some a →
    ∀ v, Frame ρ.others u v → ρ.Inv v → Q a v) (Keeps.read ?_) ?_
  · intro t hst hi u htu _ a ha v huv hv
    exact h t hst hi a ha v (htu.trans huv) hv
  · intro o t hst hi hq
    cases o with
    | none => exact Keeps.fail
    | some a => exact Keeps.pure fun u htu hu => hq a rfl u htu hu

theorem Keeps.write {f : Db → Db}
    (h : ∀ t, Frame ρ.others s t → ρ.Inv t → Moves ρ.own t (f t)) :
    Keeps ρ s (Prog.write f) anything := by
  refine Prog.ok_write ?_
  intro t hst hi
  have hm := h t hst hi
  exact ⟨hm.1, hi.moves hm, fun _ _ _ _ _ => trivial⟩

theorem Keeps.tx {f : Db → Except Err (α × Db)}
    (h : ∀ t, Frame ρ.others s t → ρ.Inv t → ∀ a w, f t = .ok (a, w) →
      Moves ρ.own t w ∧ ∀ u, Frame ρ.others w u → ρ.Inv u → Q a u) :
    Keeps ρ s (Prog.tx f) Q := by
  refine Prog.ok_tx (fun t => Frame.refl t) ?_ ?_
  · intro t hst hi a w hw
    obtain ⟨hm, hq⟩ := h t hst hi a w hw
    refine ⟨hm.1, hi.moves hm, ?_⟩
    intro u hwu hu b hb
    cases hb
    exact hq u hwu hu
  · intro t hst hi e he u htu hu a ha
    cases ha

theorem Keeps.update {f : Db → Except Err Db}
    (h : ∀ t, Frame ρ.others s t → ρ.Inv t → ∀ w, f t = .ok w → Moves ρ.own t w) :
    Keeps ρ s (update f) anything := by
  refine Keeps.tx fun t hst hi a w hw => ?_
  cases hf : f t with
  | error e => rw [hf] at hw; cases hw
  | ok w' =>
    rw [hf] at hw
    cases hw
    exact ⟨h t hst hi w hf, fun _ _ _ => trivial⟩

theorem Keeps.attempt {p : Run α} (h : Keeps ρ s p Q) : Keeps ρ s p.attempt anything :=
  Prog.ok_attempt (Prog.Ok.weaken h fun _ _ _ _ _ _ => trivial)

theorem Keeps.ignore {p : Run α} (hs : ρ.Inv s) (h : Keeps ρ s p Q) :
    Keeps ρ s (ignore p) anything :=
  h.attempt.bind hs fun _ _ _ _ _ => Keeps.pure fun _ _ _ => trivial

theorem Keeps.record {ev : Event} (hin : ev.within ρ.own.exec) (hr : ev.Resolved) :
    Keeps ρ s (record ev) anything :=
  Keeps.write fun _ _ hi => Moves.note hi.wf hin hr

theorem Keeps.lookup {o : Option α} {m : String} (h : o.isSome)
    (hQ : ∀ a, o = some a → ∀ t, Frame ρ.others s t → ρ.Inv t → Q a t) :
    Keeps ρ s (lookup o m) Q := by
  cases o with
  | none => cases h
  | some a => exact Keeps.pure (hQ a rfl)

theorem Keeps.forEach {g : α → Run Unit} {l : List α}
    (hs : ρ.Inv s) (h : ∀ a ∈ l, ∀ t, Frame ρ.others s t → ρ.Inv t → Keeps ρ t (g a) anything) :
    Keeps ρ s (Prog.forEach l g) anything := by
  induction l generalizing s with
  | nil => exact Keeps.pure fun _ _ _ => trivial
  | cons a l ih =>
    refine Keeps.bind hs (h a (List.mem_cons_self ..) s (Frame.refl s) hs) ?_
    intro _ t hst hi _
    exact ih hi fun b hb u htu hu => h b (List.mem_cons_of_mem _ hb) u (hst.trans htu) hu

theorem Keeps.collect {g : α → Run β} {l : List α} (hs : ρ.Inv s)
    (h : ∀ a ∈ l, ∀ t, Frame ρ.others s t → ρ.Inv t → Keeps ρ t (g a) anything) :
    Keeps ρ s (Prog.collect l g) anything := by
  induction l generalizing s with
  | nil => exact Keeps.pure fun _ _ _ => trivial
  | cons a l ih =>
    refine Keeps.bind hs (h a (List.mem_cons_self ..) s (Frame.refl s) hs) ?_
    intro _ t hst hi _
    refine Keeps.bind hi (ih hi fun b hb u htu hu =>
      h b (List.mem_cons_of_mem _ hb) u (hst.trans htu) hu) ?_
    intro _ u _ _ _
    exact Keeps.pure fun _ _ _ => trivial

theorem keeps_iff {p : Run α} :
    Keeps ρ s p Q ↔ p.Ok ρ.protocol s fun r t => ∀ a, r = .ok a → Q a t := Iff.rfl

end

attribute [irreducible] Keeps

end XpressClaw
