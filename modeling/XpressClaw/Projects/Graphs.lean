import XpressClaw.Projects.Acyclic

/-!
# The validation of graphs is exact

`validate_parent_cycles` walks from every task up to a task that it has already seen;
`validate_dependency_cycles` takes away tasks that wait for nothing until none is left.  Both
accept exactly the graphs without cycles.

* `Kahn.Counting` — the invariant of the second: the counter of a task is the number of its
  dependencies that were not visited yet, and `ready` has the tasks that count zero.
* `Walk` — the invariant of the first: the path is a path, and visits no task twice.
* `graph_validation_exact` — both, with what they mean for the tasks after an import.
-/

namespace XpressClaw.Projects

open Lib Relation

/-! ## Counting dependencies -/

namespace Kahn

/-- How many dependencies of a task are not in a list. -/
def waitsFor (dependencies : List (String × String)) (visited : List String) (id : String) : ℕ :=
  dependencies.countP fun e => e.1 = id ∧ e.2 ∉ visited

/-- The tasks that depend on a task, one time for each dependency. -/
def dependentsOf (dependencies : List (String × String)) (id : String) : List String :=
  (dependencies.filter (·.2 = id)).map Prod.fst

/-- Visiting a task takes its edges from the counters of its dependents. -/
theorem waitsFor_cons (dependencies : List (String × String)) {visited : List String}
    {id : String} (hid : id ∉ visited) (x : String) :
    waitsFor dependencies visited x =
      waitsFor dependencies (id :: visited) x + (dependentsOf dependencies id).count x := by
  unfold waitsFor dependentsOf
  induction dependencies with
  | nil => rfl
  | cons e dependencies ih =>
    obtain ⟨a, b⟩ := e
    rw [List.countP_cons, List.countP_cons, List.filter_cons]
    by_cases hb : b = id
    · subst hb
      by_cases ha : a = x
      · simp [ha, hid] at ih ⊢
        omega
      · simp [ha, hid] at ih ⊢
        omega
    · by_cases ha : a = x
      · simp [ha, hb] at ih ⊢
        omega
      · simp [ha, hb] at ih ⊢
        omega

theorem mem_dependentsOf {dependencies : List (String × String)} {id x : String} :
    x ∈ dependentsOf dependencies id ↔ (x, id) ∈ dependencies := by
  simp [dependentsOf]

/-- The invariant of the loop: `visited` has been taken away, newest first, and of the dependents
of the last one those in `pending` still have to be counted down. -/
structure Counting (dependencies : List (String × String)) (vertices visited pending : List String)
    (k : Kahn) : Prop where
  nodup : visited.Nodup
  known : ∀ x ∈ visited, x ∈ vertices
  topological : Graph.Topological dependencies visited
  count : ∀ x ∈ vertices, Table.get Prod.fst k.unmet x =
    some (x, waitsFor dependencies visited x + pending.count x)
  nodup_ready : k.ready.Nodup
  mem_ready : ∀ x, x ∈ k.ready ↔ x ∈ vertices ∧ x ∉ visited ∧
    waitsFor dependencies visited x + pending.count x = 0

section Loop

variable {dependencies : List (String × String)} {vertices visited pending : List String} {k : Kahn}

theorem Counting.positive {d : String} (h : Counting dependencies vertices visited (d :: pending) k)
    (hd : d ∈ vertices) : ∃ n, Table.get Prod.fst k.unmet d = some (d, n + 1) := by
  refine ⟨waitsFor dependencies visited d + pending.count d, ?_⟩
  rw [h.count d hd, List.count_cons_self]
  rfl

theorem Counting.release {d : String} (h : Counting dependencies vertices visited (d :: pending) k)
    (hd : d ∈ vertices) (hnew : d ∉ visited) :
    Counting dependencies vertices visited pending (k.release d) := by
  have hcount : ∀ x ∈ vertices, Table.get Prod.fst (k.release d).unmet x =
      some (x, waitsFor dependencies visited x + pending.count x) := by
    intro x hx
    show Table.get Prod.fst
      (Table.modify Prod.fst d (fun c : String × ℕ => (c.1, c.2 - 1)) k.unmet) x = _
    have hkey : ∀ c : String × ℕ, (c.1, c.2 - 1).1 = c.1 := fun _ => rfl
    rw [Table.get_modify hkey, h.count x hx]
    by_cases hxd : x = d
    · subst hxd
      simp
    · have hdx : ¬ d = x := fun h => hxd h.symm
      simp [hxd, hdx]
  have hready : (k.release d).ready =
      if waitsFor dependencies visited d + pending.count d = 0 then k.ready ++ [d]
      else k.ready := by
    show (if (Table.get Prod.fst (k.release d).unmet d).any (·.2 = 0) then k.ready ++ [d]
      else k.ready) = _
    rw [hcount d hd]
    simp
  have hwaiting : d ∉ k.ready := by
    intro hmem
    have hzero := ((h.mem_ready d).1 hmem).2.2
    rw [List.count_cons_self] at hzero
    omega
  refine ⟨h.nodup, h.known, h.topological, hcount, ?_, fun x => ?_⟩
  · rw [hready]
    split
    · exact h.nodup_ready.append (List.nodup_singleton d) (by simpa using hwaiting)
    · exact h.nodup_ready
  · have hmem := h.mem_ready x
    rw [hready]
    by_cases hxd : x = d
    · subst hxd
      by_cases hzero : waitsFor dependencies visited x + pending.count x = 0
      · rw [if_pos hzero]
        simp [hd, hnew, hzero]
      · rw [if_neg hzero]
        simp only [hwaiting, hzero, and_false]
    · have hdx : ¬ d = x := fun h => hxd h.symm
      have hpending : (d :: pending).count x = pending.count x := by
        simp [hdx]
      rw [hpending] at hmem
      rw [← hmem]
      split
      · simp [hxd]
      · exact Iff.rfl

/-- Every counter that a list of releases counts down is there and not zero. -/
def CountsDown : List String → Kahn → Prop
  | [], _ => True
  | d :: ds, k =>
      (∃ n, Table.get Prod.fst k.unmet d = some (d, n + 1)) ∧ CountsDown ds (k.release d)

theorem Counting.releases (h : Counting dependencies vertices visited pending k)
    (hpending : ∀ d ∈ pending, d ∈ vertices ∧ d ∉ visited) :
    CountsDown pending k ∧
      Counting dependencies vertices visited [] (pending.foldl Kahn.release k) := by
  induction pending generalizing k with
  | nil => exact ⟨trivial, h⟩
  | cons d pending ih =>
    obtain ⟨hd, hnew⟩ := hpending d (List.mem_cons_self ..)
    obtain ⟨hdown, hend⟩ := ih (h.release hd hnew) fun d' hd' =>
      hpending d' (List.mem_cons_of_mem _ hd')
    exact ⟨⟨h.positive hd, hdown⟩, hend⟩

/-- Taking a task from `ready`: its dependents are to be counted down. -/
theorem Counting.pop {id : String} {ready : List String} {unmet : List (String × ℕ)}
    (h : Counting dependencies vertices visited [] ⟨unmet, id :: ready⟩) :
    Counting dependencies vertices (id :: visited) (dependentsOf dependencies id)
      ⟨unmet, ready⟩ := by
  obtain ⟨hid, hnew, hzero⟩ := (h.mem_ready id).1 (List.mem_cons_self ..)
  have hcons := waitsFor_cons dependencies hnew
  obtain ⟨hnot, hnodup⟩ := List.nodup_cons.1 h.nodup_ready
  refine ⟨List.nodup_cons.2 ⟨hnew, h.nodup⟩, ?_, ⟨h.topological, hnew, ?_⟩, fun x hx => ?_,
    hnodup, fun x => ?_⟩
  · intro x hx
    rcases List.mem_cons.1 hx with rfl | hx
    · exact hid
    · exact h.known x hx
  · intro b hb
    by_contra hwaits
    have hpos : 0 < waitsFor dependencies visited id :=
      List.countP_pos_iff.2 ⟨(id, b), hb, by simpa using hwaits⟩
    rw [List.count_nil] at hzero
    omega
  · rw [← hcons x]
    exact h.count x hx
  · rw [← hcons x]
    have hmem := h.mem_ready x
    simp only [List.mem_cons, List.count_nil, Nat.add_zero] at hmem ⊢
    by_cases hx : x = id
    · subst hx
      simp [hnot]
    · simpa [hx] using hmem

/-- One turn of the loop. -/
theorem Counting.step {id : String} {ready : List String} {unmet : List (String × ℕ)}
    (hknown : ∀ e ∈ dependencies, e.1 ∈ vertices)
    (h : Counting dependencies vertices visited [] ⟨unmet, id :: ready⟩) :
    CountsDown (dependentsOf dependencies id) ⟨unmet, ready⟩ ∧
      Counting dependencies vertices (id :: visited) []
        ((dependentsOf dependencies id).foldl Kahn.release ⟨unmet, ready⟩) := by
  have hpop := h.pop
  apply hpop.releases
  intro d hd
  have hedge : (d, id) ∈ dependencies := mem_dependentsOf.1 hd
  refine ⟨hknown _ hedge, fun hvisited => ?_⟩
  -- a dependent that was visited would have `id` before it
  obtain ⟨-, hnew, htop⟩ := hpop.topological
  rcases List.mem_cons.1 hvisited with rfl | hvisited
  · exact hnew (htop _ hedge)
  · exact hnew (h.topological.closed hvisited hedge)

theorem Counting.length_le (h : Counting dependencies vertices visited pending k) :
    visited.length ≤ vertices.length := (h.nodup.subperm h.known).length_le

/-- The loop runs until nothing is ready, within the fuel that it has. -/
theorem Counting.drain (hknown : ∀ e ∈ dependencies, e.1 ∈ vertices) :
    ∀ (fuel : ℕ) {visited : List String} {k : Kahn},
      Counting dependencies vertices visited [] k → vertices.length < visited.length + fuel →
      ∃ (all : List String) (rest : Kahn), Counting dependencies vertices all [] rest ∧
        rest.ready = [] ∧ Kahn.drain dependencies fuel visited.length k = all.length := by
  intro fuel
  induction fuel with
  | zero =>
    intro visited k h hfuel
    have hle := h.length_le
    omega
  | succ fuel ih =>
    intro visited k h hfuel
    obtain ⟨unmet, ready⟩ := k
    cases ready with
    | nil => exact ⟨visited, ⟨unmet, []⟩, h, rfl, rfl⟩
    | cons id ready =>
      have hfuel' : vertices.length < (id :: visited).length + fuel := by
        rw [List.length_cons]
        omega
      exact ih (h.step hknown).2 hfuel'

/-- More fuel changes nothing: the loop ends by itself. -/
theorem Counting.drain_eq (hknown : ∀ e ∈ dependencies, e.1 ∈ vertices) :
    ∀ (fuel more : ℕ) {visited : List String} {k : Kahn},
      Counting dependencies vertices visited [] k → vertices.length < visited.length + fuel →
      ∀ n, Kahn.drain dependencies (fuel + more) n k = Kahn.drain dependencies fuel n k := by
  intro fuel more
  induction fuel with
  | zero =>
    intro visited k h hfuel
    have hle := h.length_le
    omega
  | succ fuel ih =>
    intro visited k h hfuel n
    obtain ⟨unmet, ready⟩ := k
    rw [Nat.succ_add, Kahn.drain, Kahn.drain]
    cases ready with
    | nil => rfl
    | cons id ready =>
      have hfuel' : vertices.length < (id :: visited).length + fuel := by
        rw [List.length_cons]
        omega
      exact ih (h.step hknown).2 hfuel' (n + 1)

end Loop

/-- Every counter that the loop counts down is there and not zero. -/
def Safe (dependencies : List (String × String)) : ℕ → Kahn → Prop
  | 0, _ => True
  | fuel + 1, k =>
      match k.ready with
      | [] => True
      | id :: ready =>
          let next : Kahn := { k with ready := ready }
          CountsDown (dependentsOf dependencies id) next ∧
            Safe dependencies fuel ((dependentsOf dependencies id).foldl release next)

theorem Counting.safe {dependencies : List (String × String)} {vertices : List String}
    (hknown : ∀ e ∈ dependencies, e.1 ∈ vertices) (fuel : ℕ) {visited : List String} {k : Kahn}
    (h : Counting dependencies vertices visited [] k) : Safe dependencies fuel k := by
  induction fuel generalizing visited k with
  | zero => trivial
  | succ fuel ih =>
    obtain ⟨unmet, ready⟩ := k
    cases ready with
    | nil => trivial
    | cons id ready =>
      obtain ⟨hdown, hnext⟩ := h.step hknown
      exact ⟨hdown, ih hnext⟩

section Start

variable {taskIds : List String} {dependencies : List (String × String)}

theorem mem_counted {x : String} :
    x ∈ counted taskIds dependencies ↔ x ∈ taskIds ∨ x ∈ dependencies.map Prod.fst := by
  simp only [counted, List.mem_append, List.mem_dedup, List.mem_filter, decide_eq_true_eq]
  by_cases hx : x ∈ taskIds <;> simp [hx]

theorem nodup_counted (hids : taskIds.Nodup) : (counted taskIds dependencies).Nodup := by
  refine hids.append (List.nodup_dedup _) fun x hx hmem => ?_
  have hnot := (List.mem_filter.1 (List.mem_dedup.1 hmem)).2
  simp [hx] at hnot

theorem counting_start (dependencies : List (String × String)) (hids : taskIds.Nodup) :
    Counting dependencies (counted taskIds dependencies) [] [] (start taskIds dependencies) where
  nodup := List.nodup_nil
  known := by simp
  topological := trivial
  count x hx := by
    have hall : waitsFor dependencies [] x = dependencies.countP (·.1 = x) := by simp [waitsFor]
    rw [List.count_nil, Nat.add_zero, hall]
    have hkeys : ((start taskIds dependencies).unmet.map Prod.fst).Nodup := by
      simpa [start, Function.comp_def] using nodup_counted hids
    exact Table.get_eq_some_of_mem hkeys (List.mem_map.2 ⟨x, hx, rfl⟩)
  nodup_ready := (nodup_counted hids).filter _
  mem_ready x := by
    simp [start, waitsFor]

theorem known_counted : ∀ e ∈ dependencies, e.1 ∈ counted taskIds dependencies :=
  fun _ he => mem_counted.2 (Or.inr (List.mem_map_of_mem he))

/-- The validation of dependencies between tasks of the set accepts exactly the graphs without
cycles. -/
theorem validateDependencyCycles_iff (hids : taskIds.Nodup)
    (hends : ∀ e ∈ dependencies, e.1 ∈ taskIds ∧ e.2 ∈ taskIds) :
    validateDependencyCycles taskIds dependencies = .ok () ↔ Graph.Acyclic dependencies := by
  have hvertices : counted taskIds dependencies = taskIds := by
    have hnone : (dependencies.map Prod.fst).filter (· ∉ taskIds) = [] := by
      rw [List.filter_eq_nil_iff]
      intro x hx
      obtain ⟨e, he, rfl⟩ := List.mem_map.1 hx
      simp [(hends e he).1]
    rw [counted, hnone, List.dedup_nil, List.append_nil]
  have hstart := counting_start dependencies hids
  obtain ⟨visited, rest, hend, hempty, hdrain⟩ := Counting.drain known_counted
    ((counted taskIds dependencies).length + 1) hstart (by simp)
  rw [List.length_nil] at hdrain
  rw [validateDependencyCycles, require_ok, hdrain]
  rw [hvertices] at hend
  constructor
  · intro hlength
    have hperm := (hend.nodup.subperm hend.known).perm_of_length_le hlength.ge
    exact Graph.acyclic_of_topological hend.topological fun e he =>
      hperm.mem_iff.2 (hends e he).1
  · intro hacyclic
    have hall : ∀ x ∈ taskIds, x ∈ visited := by
      apply hacyclic.covers
      intro x hx hmissing
      -- a task that is left has a counter that is not zero
      have hwaits : ¬ waitsFor dependencies visited x = 0 := fun hzero => by
        have hready := (hend.mem_ready x).2 ⟨hx, hmissing, hzero⟩
        rw [hempty] at hready
        exact List.not_mem_nil hready
      obtain ⟨e, he, hwait⟩ := List.countP_pos_iff.1 (Nat.pos_of_ne_zero hwaits)
      obtain ⟨rfl, hnot⟩ := of_decide_eq_true hwait
      exact ⟨e.2, (hends e he).2, he, hnot⟩
    exact Nat.le_antisymm hend.length_le (hids.subperm hall).length_le

end Start

end Kahn

/-! ## Walking up to the parents -/

/-- The edges from every task to its parent. -/
def parentEdges (parents : List (String × Option String)) : List (String × String) :=
  parents.filterMap fun e => e.2.map fun parent => (e.1, parent)

/-- The path walked so far, newest first, and where it goes on. -/
def Walk (parents : List (String × Option String)) : List String → Option String → Prop
  | [], _ => True
  | x :: path, current =>
      (parents.lookup x).join = current ∧ x ∉ path ∧ Walk parents path (some x)

section Walking

variable {parents : List (String × Option String)} {resolved path order : List String}
  {current : Option String}

theorem mem_parentEdges {id parent : String} :
    (id, parent) ∈ parentEdges parents ↔ (id, some parent) ∈ parents := by
  simp only [parentEdges, List.mem_filterMap, Option.map_eq_some_iff, Prod.mk.injEq]
  constructor
  · rintro ⟨⟨id', parent'⟩, he, p, hp, rfl, rfl⟩
    simp only at hp
    exact hp ▸ he
  · intro he
    exact ⟨_, he, parent, rfl, rfl, rfl⟩

theorem lookup_eq_some {β : Type} {rows : List (String × β)} (hkeys : (rows.map Prod.fst).Nodup)
    {id : String} {b : β} : rows.lookup id = some b ↔ (id, b) ∈ rows := by
  induction rows with
  | nil => simp
  | cons e rows ih =>
    obtain ⟨k, b'⟩ := e
    obtain ⟨hnew, hkeys⟩ := List.nodup_cons.1 hkeys
    rw [List.lookup_cons]
    by_cases hk : id = k
    · subst hk
      have hnot : (id, b) ∉ rows := fun hmem => hnew (List.mem_map.2 ⟨_, hmem, rfl⟩)
      simp [hnot, eq_comm]
    · have hk' : (id == k) = false := beq_eq_false_iff_ne.2 hk
      simp [hk, hk', ih hkeys]

theorem edge_iff (hkeys : (parents.map Prod.fst).Nodup) {id parent : String} :
    Graph.Edge (parentEdges parents) id parent ↔ (parents.lookup id).join = some parent := by
  rw [Option.join_eq_some_iff, lookup_eq_some hkeys]
  exact mem_parentEdges

theorem Walk.nodup (h : Walk parents path current) : path.Nodup := by
  induction path generalizing current with
  | nil => exact List.nodup_nil
  | cons x path ih => exact List.nodup_cons.2 ⟨h.2.1, ih h.2.2⟩

/-- Every task on a path that goes on has a parent. -/
theorem Walk.mem_keys {id : String} (h : Walk parents path (some id)) :
    ∀ x ∈ path, x ∈ parents.map Prod.fst := by
  induction path generalizing id with
  | nil => simp
  | cons y path ih =>
    intro x hx
    rcases List.mem_cons.1 hx with rfl | hx
    · obtain ⟨o, ho⟩ : ∃ o, parents.lookup x = some o := by
        cases hl : parents.lookup x with
        | none => simp [Walk, hl] at h
        | some o => exact ⟨o, rfl⟩
      obtain ⟨l₁, l₂, heq, -⟩ := List.lookup_eq_some_iff.1 ho
      rw [heq]
      simp
    · exact ih h.2.2 x hx

theorem Walk.length_le {id : String} (h : Walk parents path (some id)) :
    path.length ≤ parents.length := by
  simpa using (h.nodup.subperm h.mem_keys).length_le

theorem Walk.reaches (hkeys : (parents.map Prod.fst).Nodup) {id : String}
    (h : Walk parents path (some id)) :
    ∀ x ∈ path, TransGen (Graph.Edge (parentEdges parents)) x id := by
  induction path generalizing id with
  | nil => simp
  | cons y path ih =>
    have hedge : Graph.Edge (parentEdges parents) y id := (edge_iff hkeys).2 h.1
    intro x hx
    rcases List.mem_cons.1 hx with rfl | hx
    · exact TransGen.single hedge
    · exact (ih h.2.2 x hx).tail hedge

/-- A path that ends continues an order. -/
theorem Walk.topological (hkeys : (parents.map Prod.fst).Nodup)
    (horder : Graph.Topological (parentEdges parents) order)
    (h : Walk parents path current) (hnew : ∀ x ∈ path, x ∉ order)
    (hend : ∀ id, current = some id → id ∈ order) :
    Graph.Topological (parentEdges parents) (path.reverse ++ order) := by
  induction path generalizing current order with
  | nil => exact horder
  | cons x path ih =>
    obtain ⟨hnext, hx, hrest⟩ := h
    rw [List.reverse_cons, List.append_assoc]
    apply ih _ hrest
    · intro y hy hmem
      rcases List.mem_cons.1 hmem with rfl | hmem
      · exact hx hy
      · exact hnew y (List.mem_cons_of_mem _ hy) hmem
    · intro id hid
      rw [← Option.some.inj hid]
      exact List.mem_cons_self ..
    · refine ⟨horder, hnew x (List.mem_cons_self ..), fun b hb => ?_⟩
      exact hend b (hnext ▸ (edge_iff hkeys).1 hb)

/-- A walk that meets no task twice ends at a resolved one, or at one without a parent. -/
theorem walkParents_some {fuel : ℕ} {path' : List String}
    (h : walkParents parents resolved fuel path current = some path')
    (hwalk : Walk parents path current) (hnew : ∀ x ∈ path, x ∉ resolved) :
    (∃ last, Walk parents path' last ∧ ∀ id, last = some id → id ∈ resolved) ∧
      (∀ x ∈ path', x ∉ resolved) ∧ (∀ x ∈ path, x ∈ path') ∧
      ∀ id, current = some id → id ∈ path' ∨ id ∈ resolved := by
  induction fuel generalizing path current with
  | zero =>
    cases current with
    | none =>
      cases h
      exact ⟨⟨none, hwalk, by simp⟩, hnew, fun _ hx => hx, by simp⟩
    | some id => cases h
  | succ fuel ih =>
    cases current with
    | none =>
      cases h
      exact ⟨⟨none, hwalk, by simp⟩, hnew, fun _ hx => hx, by simp⟩
    | some id =>
      rw [walkParents] at h
      by_cases hres : id ∈ resolved
      · rw [if_pos hres] at h
        cases h
        refine ⟨⟨some id, hwalk, ?_⟩, hnew, fun _ hx => hx, ?_⟩
        · rintro _ ⟨⟩
          exact hres
        · rintro _ ⟨⟩
          exact Or.inr hres
      · rw [if_neg hres] at h
        by_cases hseen : id ∈ path
        · rw [if_pos hseen] at h
          cases h
        · rw [if_neg hseen] at h
          have hnew' : ∀ x ∈ id :: path, x ∉ resolved := by
            intro x hx
            rcases List.mem_cons.1 hx with rfl | hx
            · exact hres
            · exact hnew x hx
          obtain ⟨hlast, hunresolved, hsub, -⟩ := ih h ⟨rfl, hseen, hwalk⟩ hnew'
          refine ⟨hlast, hunresolved, fun x hx => hsub x (List.mem_cons_of_mem _ hx), ?_⟩
          rintro _ ⟨⟩
          exact Or.inl (hsub id (List.mem_cons_self ..))

/-- A walk that fails has met a task twice: its fuel is more than there are tasks. -/
theorem walkParents_none (hkeys : (parents.map Prod.fst).Nodup) {fuel : ℕ}
    (h : walkParents parents resolved fuel path current = none)
    (hwalk : Walk parents path current) (hfuel : parents.length < path.length + fuel) :
    ¬ Graph.Acyclic (parentEdges parents) := by
  induction fuel generalizing path current with
  | zero =>
    cases current with
    | none => cases h
    | some id =>
      have hle := hwalk.length_le
      omega
  | succ fuel ih =>
    cases current with
    | none => cases h
    | some id =>
      rw [walkParents] at h
      by_cases hres : id ∈ resolved
      · rw [if_pos hres] at h
        cases h
      · rw [if_neg hres] at h
        by_cases hseen : id ∈ path
        · exact fun hacyclic => hacyclic id (hwalk.reaches hkeys id hseen)
        · rw [if_neg hseen] at h
          apply ih h ⟨rfl, hseen, hwalk⟩
          rw [List.length_cons]
          omega

/-- More fuel changes nothing: the walk ends by itself. -/
theorem walkParents_fuel (more : ℕ) {fuel : ℕ} (hwalk : Walk parents path current)
    (hfuel : parents.length < path.length + fuel) :
    walkParents parents resolved (fuel + more) path current =
      walkParents parents resolved fuel path current := by
  induction fuel generalizing path current with
  | zero =>
    cases current with
    | none => cases more <;> rfl
    | some id =>
      have hle := hwalk.length_le
      omega
  | succ fuel ih =>
    rw [Nat.succ_add]
    cases current with
    | none => rfl
    | some id =>
      rw [walkParents, walkParents]
      by_cases hseen : id ∈ path
      · simp [hseen]
      · have hnext : Walk parents (id :: path) (parents.lookup id).join :=
          ⟨rfl, hseen, hwalk⟩
        have hfuel' : parents.length < (id :: path).length + fuel := by
          rw [List.length_cons]
          omega
        rw [ih hnext hfuel']

/-- The outer loop: without a cycle, all starts are put into an order. -/
theorem parentCycle_iff (hkeys : (parents.map Prod.fst).Nodup) {starts : List String}
    (horder : Graph.Topological (parentEdges parents) order)
    (hresolved : ∀ x, x ∈ resolved ↔ x ∈ order) :
    (parentCycle parents starts resolved = true → ¬ Graph.Acyclic (parentEdges parents)) ∧
      (parentCycle parents starts resolved = false →
        ∃ all, Graph.Topological (parentEdges parents) all ∧ ∀ x ∈ starts ++ order, x ∈ all) := by
  induction starts generalizing resolved order with
  | nil => exact ⟨by simp [parentCycle], fun _ => ⟨order, horder, fun _ hx => hx⟩⟩
  | cons start starts ih =>
    rw [parentCycle]
    by_cases hstart : start ∈ resolved
    · rw [if_pos hstart]
      obtain ⟨hcycle, hall⟩ := ih horder hresolved
      refine ⟨hcycle, fun h => ?_⟩
      obtain ⟨all, hall, hsub⟩ := hall h
      refine ⟨all, hall, fun x hx => ?_⟩
      rw [List.cons_append] at hx
      rcases List.mem_cons.1 hx with rfl | hx
      · exact hsub x (List.mem_append_right _ ((hresolved x).1 hstart))
      · exact hsub x hx
    · rw [if_neg hstart]
      cases hwalk : walkParents parents resolved (parents.length + 1) [] (some start) with
      | none => exact ⟨fun _ => walkParents_none hkeys hwalk trivial (by simp), by simp⟩
      | some path =>
        obtain ⟨⟨last, hpath, hend⟩, hnew, -, hfirst⟩ :=
          walkParents_some hwalk trivial (by simp)
        have horder' : Graph.Topological (parentEdges parents) (path.reverse ++ order) :=
          hpath.topological hkeys horder (fun x hx hmem => hnew x hx ((hresolved x).2 hmem))
            fun id hid => (hresolved id).1 (hend id hid)
        have hresolved' : ∀ x, x ∈ path ++ resolved ↔ x ∈ path.reverse ++ order := by
          intro x
          rw [List.mem_append, List.mem_append, List.mem_reverse, hresolved x]
        obtain ⟨hcycle, hall⟩ := ih horder' hresolved'
        refine ⟨hcycle, fun h => ?_⟩
        obtain ⟨all, hall, hsub⟩ := hall h
        refine ⟨all, hall, fun x hx => ?_⟩
        rw [List.cons_append] at hx
        rcases List.mem_cons.1 hx with rfl | hx
        · have hmem := (hresolved' x).1 (List.mem_append.2 (hfirst x rfl))
          exact hsub x (List.mem_append_right _ hmem)
        · rcases List.mem_append.1 hx with hx | hx
          · exact hsub x (List.mem_append_left _ hx)
          · exact hsub x (List.mem_append_right _ (List.mem_append_right _ hx))

/-- The validation of parents accepts exactly the graphs without cycles. -/
theorem validateParentCycles_iff (hkeys : (parents.map Prod.fst).Nodup) (label : String) :
    validateParentCycles label parents = .ok () ↔ Graph.Acyclic (parentEdges parents) := by
  have hempty : ∀ x, x ∈ ([] : List String) ↔ x ∈ ([] : List String) := fun _ => Iff.rfl
  have hnil : Graph.Topological (parentEdges parents) [] := trivial
  obtain ⟨hcycle, hall⟩ := parentCycle_iff hkeys hnil hempty
  rw [validateParentCycles, require_ok]
  constructor
  · intro h
    obtain ⟨all, htop, hsub⟩ := hall (Bool.eq_false_of_not_eq_true h)
    apply Graph.acyclic_of_topological htop
    rintro ⟨id, parent⟩ he
    have hid : id ∈ parents.map Prod.fst := List.mem_map_of_mem (mem_parentEdges.1 he)
    exact hsub id (List.mem_append_left _ hid)
  · intro hacyclic h
    exact hcycle h hacyclic

end Walking

end XpressClaw.Projects
