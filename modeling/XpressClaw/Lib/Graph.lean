import Mathlib.Data.Finset.Card
import Mathlib.Logic.Relation
import Mathlib.Order.WellFounded
import Mathlib.Data.Fintype.Order

/-!
# Finite graphs

A finite graph is the list of its edges.  The file has a depth-first search over such a list
and says what it decides, and it has the rules by which a graph that grows edge by edge stays
without cycles.

* `search`, `reaches` — depth-first search with a stack and a set of visited vertices;
  `reaches_iff` says that it finds the target exactly when there is a path.
* `Acyclic.insert` — an edge whose end does not reach its start closes no cycle.
* `acyclic_iff_edges` — a graph has no cycle exactly when no edge's end reaches its start.
* `Acyclic.exists_free` — without cycles, no finite set of vertices can only point at itself.
* `Topological` — a list, newest first, in which every vertex comes after those it points to;
  `acyclic_of_topological` and `Acyclic.covers` say that a graph has no cycle exactly when such
  a list can be continued until it has every vertex.
-/

namespace Lib.Graph

open Relation

variable {α : Type}

/-- The relation of a list of edges. -/
def Edge (edges : List (α × α)) (a b : α) : Prop := (a, b) ∈ edges

/-- There is a path, possibly without any edge. -/
abbrev Reaches (edges : List (α × α)) : α → α → Prop := ReflTransGen (Edge edges)

/-- No vertex is on a cycle. -/
def Acyclic (edges : List (α × α)) : Prop := ∀ a, ¬ TransGen (Edge edges) a a

/-! ## Search -/

section Search

variable [DecidableEq α]

/-- The ends of the edges that start at a vertex. -/
def successors (edges : List (α × α)) (a : α) : List α :=
  (edges.filter fun e => e.1 = a).map Prod.snd

theorem mem_successors {edges : List (α × α)} {a b : α} :
    b ∈ successors edges a ↔ Edge edges a b := by
  simp [successors, Edge]

/-- Depth-first search: take the top of the stack; when it was not seen before, put its
successors on the stack. -/
def search (edges : List (α × α)) (target : α) : ℕ → List α → List α → Bool
  | _, _, [] => false
  | 0, _, _ :: _ => false
  | fuel + 1, visited, current :: stack =>
      if current = target then true
      else if current ∈ visited then search edges target fuel visited stack
      else search edges target fuel (current :: visited) (successors edges current ++ stack)

/-- Is there a path from `start` to `target`? -/
def reaches (edges : List (α × α)) (start target : α) : Bool :=
  search edges target (edges.length + 1) [] [start]

/-- How often the search still takes a vertex from the stack. -/
def pending (edges : List (α × α)) (visited stack : List α) : ℕ :=
  stack.length + edges.countP fun e => e.1 ∉ visited

/-- Visiting a vertex moves its edges from the unseen ones onto the stack. -/
theorem countP_visit (edges : List (α × α)) {visited : List α} {a : α} (ha : a ∉ visited) :
    (edges.countP fun e => e.1 ∉ a :: visited) + (successors edges a).length =
      edges.countP fun e => e.1 ∉ visited := by
  simp only [successors, List.length_map]
  induction edges with
  | nil => rfl
  | cons e edges ih =>
    rw [List.countP_cons, List.countP_cons, List.filter_cons]
    by_cases he : e.1 = a
    · have hseen : ¬ e.1 ∉ a :: visited := by simp [he]
      have hnew : e.1 ∉ visited := he ▸ ha
      simp only [decide_eq_true hnew, decide_eq_false hseen, decide_eq_true he, if_true,
        List.length_cons, Bool.false_eq_true, if_false]
      omega
    · have hsame : (e.1 ∉ a :: visited) = (e.1 ∉ visited) := by simp [he]
      simp only [hsame, decide_eq_false he, Bool.false_eq_true, if_false]
      omega

/-- What the search finds is reached from the stack. -/
theorem exists_of_search {edges : List (α × α)} {target : α} :
    ∀ {fuel : ℕ} {visited stack : List α}, search edges target fuel visited stack = true →
      ∃ s ∈ stack, Reaches edges s target := by
  intro fuel
  induction fuel with
  | zero =>
    intro visited stack h
    cases stack with
    | nil => simp [search] at h
    | cons s stack => simp [search] at h
  | succ fuel ih =>
    intro visited stack h
    cases stack with
    | nil => simp [search] at h
    | cons current stack =>
      rw [search] at h
      by_cases hc : current = target
      · exact ⟨current, List.mem_cons_self .., hc ▸ ReflTransGen.refl⟩
      · rw [if_neg hc] at h
        by_cases hv : current ∈ visited
        · rw [if_pos hv] at h
          obtain ⟨s, hs, hr⟩ := ih h
          exact ⟨s, List.mem_cons_of_mem _ hs, hr⟩
        · rw [if_neg hv] at h
          obtain ⟨s, hs, hr⟩ := ih h
          rcases List.mem_append.1 hs with hs | hs
          · exact ⟨current, List.mem_cons_self .., ReflTransGen.head (mem_successors.1 hs) hr⟩
          · exact ⟨s, List.mem_cons_of_mem _ hs, hr⟩

omit [DecidableEq α] in
/-- A set of vertices that edges do not lead out of contains all that it reaches. -/
theorem mem_of_reaches {edges : List (α × α)} {visited : List α}
    (hclosed : ∀ v ∈ visited, ∀ w, Edge edges v w → w ∈ visited) {a b : α} (ha : a ∈ visited)
    (h : Reaches edges a b) : b ∈ visited := by
  induction h with
  | refl => exact ha
  | tail _ hstep ih => exact hclosed _ ih _ hstep

/-- A search that is not cut off and finds nothing has nothing to find.  The invariant is the
one of depth-first search: the successors of visited vertices are visited or on the stack. -/
theorem not_reaches_of_search {edges : List (α × α)} {target : α} :
    ∀ {fuel : ℕ} {visited stack : List α}, pending edges visited stack ≤ fuel →
      (∀ v ∈ visited, v ≠ target ∧ ∀ w, Edge edges v w → w ∈ visited ∨ w ∈ stack) →
      search edges target fuel visited stack = false →
      ∀ s, s ∈ visited ∨ s ∈ stack → ¬ Reaches edges s target := by
  -- with an empty stack the visited vertices are closed under edges
  have hempty : ∀ {visited : List α},
      (∀ v ∈ visited, v ≠ target ∧ ∀ w, Edge edges v w → w ∈ visited ∨ w ∈ ([] : List α)) →
      ∀ s, s ∈ visited ∨ s ∈ ([] : List α) → ¬ Reaches edges s target := by
    intro visited hinv s hs hr
    have hs' : s ∈ visited := by simpa using hs
    have hclosed : ∀ v ∈ visited, ∀ w, Edge edges v w → w ∈ visited := by
      intro v hv w hw
      simpa using (hinv v hv).2 w hw
    exact (hinv target (mem_of_reaches hclosed hs' hr)).1 rfl
  intro fuel
  induction fuel with
  | zero =>
    intro visited stack hfuel hinv _
    cases stack with
    | nil => exact hempty hinv
    | cons s stack => simp [pending] at hfuel
  | succ fuel ih =>
    intro visited stack hfuel hinv h
    cases stack with
    | nil => exact hempty hinv
    | cons current stack =>
      rw [search] at h
      by_cases hc : current = target
      · rw [if_pos hc] at h
        cases h
      · rw [if_neg hc] at h
        by_cases hv : current ∈ visited
        · rw [if_pos hv] at h
          have hfuel' : pending edges visited stack ≤ fuel := by
            simp only [pending, List.length_cons] at hfuel ⊢
            omega
          have hinv' : ∀ v ∈ visited, v ≠ target ∧
              ∀ w, Edge edges v w → w ∈ visited ∨ w ∈ stack := by
            intro v hmem
            refine ⟨(hinv v hmem).1, fun w hw => ?_⟩
            rcases (hinv v hmem).2 w hw with hw | hw
            · exact Or.inl hw
            · rcases List.mem_cons.1 hw with rfl | hw
              · exact Or.inl hv
              · exact Or.inr hw
          intro s hs
          apply ih hfuel' hinv' h
          rcases hs with hs | hs
          · exact Or.inl hs
          · rcases List.mem_cons.1 hs with rfl | hs
            · exact Or.inl hv
            · exact Or.inr hs
        · rw [if_neg hv] at h
          have hfuel' :
              pending edges (current :: visited)
                (successors edges current ++ stack) ≤ fuel := by
            have hcount := countP_visit edges hv
            simp only [pending, List.length_cons, List.length_append] at hfuel ⊢
            omega
          have hinv' : ∀ v ∈ current :: visited, v ≠ target ∧ ∀ w, Edge edges v w →
              w ∈ current :: visited ∨ w ∈ successors edges current ++ stack := by
            intro v hmem
            rcases List.mem_cons.1 hmem with rfl | hmem
            · exact ⟨hc, fun w hw => Or.inr (List.mem_append_left _ (mem_successors.2 hw))⟩
            · refine ⟨(hinv v hmem).1, fun w hw => ?_⟩
              rcases (hinv v hmem).2 w hw with hw | hw
              · exact Or.inl (List.mem_cons_of_mem _ hw)
              · rcases List.mem_cons.1 hw with rfl | hw
                · exact Or.inl (List.mem_cons_self ..)
                · exact Or.inr (List.mem_append_right _ hw)
          intro s hs
          apply ih hfuel' hinv' h
          rcases hs with hs | hs
          · exact Or.inl (List.mem_cons_of_mem _ hs)
          · rcases List.mem_cons.1 hs with rfl | hs
            · exact Or.inl (List.mem_cons_self ..)
            · exact Or.inr (List.mem_append_right _ hs)

/-- The search decides whether there is a path. -/
theorem reaches_iff {edges : List (α × α)} {a b : α} :
    reaches edges a b = true ↔ Reaches edges a b := by
  constructor
  · intro h
    obtain ⟨s, hs, hr⟩ := exists_of_search h
    rwa [← List.mem_singleton.1 hs]
  · intro h
    by_contra hne
    have hfalse : search edges b (edges.length + 1) [] [a] = false :=
      Bool.eq_false_of_not_eq_true hne
    have hfuel : pending edges [] [a] ≤ edges.length + 1 := by
      have hle : (edges.countP fun e => e.1 ∉ ([] : List α)) ≤ edges.length := List.countP_le_length
      simp only [pending, List.length_cons, List.length_nil]
      omega
    exact not_reaches_of_search hfuel (by simp) hfalse a (by simp) h

end Search

/-! ## Graphs without cycles -/

theorem Edge.mono {edges more : List (α × α)} (hsub : ∀ e ∈ edges, e ∈ more) {a b : α}
    (h : Edge edges a b) : Edge more a b := hsub _ h

theorem Acyclic.mono {edges more : List (α × α)} (hsub : ∀ e ∈ edges, e ∈ more)
    (h : Acyclic more) : Acyclic edges :=
  fun a hcycle => h a (TransGen.mono (fun _ _ => Edge.mono hsub) _ _ hcycle)

theorem acyclic_nil : Acyclic ([] : List (α × α)) := by
  intro a hcycle
  cases hcycle with
  | single h => cases h
  | tail _ h => cases h

/-- A path in a graph with one more edge either does without it or leads up to it and on
from it. -/
theorem transGen_insert {edges more : List (α × α)} {a b : α}
    (hsub : ∀ e ∈ more, e = (a, b) ∨ e ∈ edges) {x y : α} (h : TransGen (Edge more) x y) :
    TransGen (Edge edges) x y ∨ (Reaches edges x a ∧ Reaches edges b y) := by
  induction h with
  | single h =>
    rcases hsub _ h with he | he
    · obtain ⟨rfl, rfl⟩ := Prod.mk.inj he
      exact Or.inr ⟨ReflTransGen.refl, ReflTransGen.refl⟩
    · exact Or.inl (TransGen.single he)
  | tail _ h ih =>
    rcases hsub _ h with he | he
    · obtain ⟨rfl, rfl⟩ := Prod.mk.inj he
      rcases ih with ih | ⟨ih, _⟩
      · exact Or.inr ⟨ih.to_reflTransGen, ReflTransGen.refl⟩
      · exact Or.inr ⟨ih, ReflTransGen.refl⟩
    · rcases ih with ih | ⟨hx, hy⟩
      · exact Or.inl (ih.tail he)
      · exact Or.inr ⟨hx, hy.tail he⟩

/-- An edge whose end does not reach its start closes no cycle. -/
theorem Acyclic.insert {edges more : List (α × α)} {a b : α} (h : Acyclic edges)
    (hsub : ∀ e ∈ more, e = (a, b) ∨ e ∈ edges) (hab : ¬ Reaches edges b a) : Acyclic more := by
  intro x hcycle
  rcases transGen_insert hsub hcycle with hx | ⟨hxa, hbx⟩
  · exact h x hx
  · exact hab (hbx.trans hxa)

/-- From a vertex where no edge starts, only the vertex itself is reached. -/
theorem not_reaches_of_sink {edges : List (α × α)} {a b : α} (hsink : ∀ e ∈ edges, e.1 ≠ b)
    (hab : a ≠ b) : ¬ Reaches edges b a := by
  intro h
  rcases ReflTransGen.cases_head h with heq | ⟨c, hbc, _⟩
  · exact hab heq.symm
  · exact hsink _ hbc rfl

/-- A graph has no cycle exactly when no edge's end reaches its start. -/
theorem acyclic_iff_edges {edges : List (α × α)} :
    Acyclic edges ↔ ∀ e ∈ edges, ¬ Reaches edges e.2 e.1 := by
  constructor
  · intro h e he hr
    exact h e.1 (TransGen.head' he hr)
  · intro h a hcycle
    obtain ⟨b, hab, hba⟩ := TransGen.head'_iff.1 hcycle
    exact h _ hab hba

/-- Without cycles, some vertex of any set has no edge into the set. -/
theorem Acyclic.exists_free {edges : List (α × α)} (h : Acyclic edges) {s : List α}
    (hs : s ≠ []) : ∃ a ∈ s, ∀ b, Edge edges a b → b ∉ s := by
  let below : {x // x ∈ s} → {x // x ∈ s} → Prop := fun x y => TransGen (Edge edges) y.1 x.1
  have htrans : IsTrans _ below := ⟨fun _ _ _ hxy hyz => hyz.trans hxy⟩
  have hirrefl : Std.Irrefl below := ⟨fun x hx => h x.1 hx⟩
  have hfinite : Finite {x // x ∈ s} := List.finite_toSet s
  have hwf : WellFounded below := Finite.wellFounded_of_trans_of_irrefl below
  obtain ⟨a, ha⟩ := List.exists_mem_of_ne_nil s hs
  obtain ⟨m, -, hm⟩ := hwf.has_min Set.univ ⟨⟨a, ha⟩, trivial⟩
  refine ⟨m.1, m.2, fun b hb hbs => ?_⟩
  exact hm ⟨b, hbs⟩ trivial (TransGen.single hb)

/-! ## Topological orders -/

/-- Every vertex of the list, newest first, points only at vertices before it. -/
def Topological (edges : List (α × α)) : List α → Prop
  | [] => True
  | a :: order => Topological edges order ∧ a ∉ order ∧ ∀ b, Edge edges a b → b ∈ order

namespace Topological

variable {edges : List (α × α)} {order : List α}

/-- What a part of an order points at is in that part. -/
theorem closed (h : Topological edges order) {a b : α} (ha : a ∈ order) (hab : Edge edges a b) :
    b ∈ order := by
  induction order with
  | nil => cases ha
  | cons c order ih =>
    apply List.mem_cons_of_mem
    rcases List.mem_cons.1 ha with rfl | ha
    · exact h.2.2 b hab
    · exact ih h.1 ha

theorem not_cyclic (h : Topological edges order) {a : α} (ha : a ∈ order) :
    ¬ TransGen (Edge edges) a a := by
  induction order with
  | nil => cases ha
  | cons c order ih =>
    rcases List.mem_cons.1 ha with rfl | ha
    · intro hcycle
      obtain ⟨b, hab, hba⟩ := TransGen.head'_iff.1 hcycle
      have hb : b ∈ order := h.2.2 b hab
      exact h.2.1 (mem_of_reaches (fun v hv w hvw => h.1.closed hv hvw) hb hba)
    · exact ih h.1 ha

theorem of_append {newer : List α} (h : Topological edges (newer ++ order)) :
    Topological edges order := by
  induction newer with
  | nil => exact h
  | cons a newer ih => exact ih h.1

end Topological

/-- A graph whose vertices have a topological order has no cycle. -/
theorem acyclic_of_topological {edges : List (α × α)} {order : List α}
    (h : Topological edges order) (hall : ∀ e ∈ edges, e.1 ∈ order) : Acyclic edges := by
  intro a hcycle
  obtain ⟨b, hab, -⟩ := TransGen.head'_iff.1 hcycle
  exact h.not_cyclic (hall _ hab) hcycle

/-- Without cycles, a list is only stuck when it has every vertex: each vertex it lacks would
have to point at another one that it lacks. -/
theorem Acyclic.covers {edges : List (α × α)} (h : Acyclic edges) {vertices order : List α}
    (hstuck : ∀ a ∈ vertices, a ∉ order → ∃ b ∈ vertices, Edge edges a b ∧ b ∉ order) :
    ∀ a ∈ vertices, a ∈ order := by
  classical
  by_contra hmissing
  push Not at hmissing
  obtain ⟨a, ha, hao⟩ := hmissing
  have hne : vertices.filter (· ∉ order) ≠ [] :=
    List.ne_nil_of_mem (List.mem_filter.2 ⟨ha, decide_eq_true hao⟩)
  obtain ⟨m, hm, hfree⟩ := h.exists_free hne
  obtain ⟨hm, hmo⟩ := List.mem_filter.1 hm
  obtain ⟨b, hb, hmb, hbo⟩ := hstuck m hm (of_decide_eq_true hmo)
  exact hfree b hmb (List.mem_filter.2 ⟨hb, decide_eq_true hbo⟩)

end Lib.Graph
