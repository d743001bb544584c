import XpressClaw.Workflow.Engine

/-!
# The names of a definition

The variables of an instance are kept under names, and its executions carry the name of a step.
Both come from the definition that the instance runs.

* `Definition.names` — the names a variable can have.
* `Definition.Allows` — variables that have names of the definition.
* `Definition.Stands` — a step of a flow, or the gate of a source task.
-/

namespace XpressClaw

namespace Definition

variable (d : Definition)

/-- The ids of all steps, bodies included. -/
def stepNames : List String := d.flows.flatMap fun f => collectIds f.2.steps

/-- The variables that loops run over their items. -/
def loopVars : List String :=
  d.flows.flatMap fun f => (f.2.steps.filter (·.stepType = .loop)).map fun s => s.asVar.getD "item"

/-- The names that the variables of a run can have. -/
def names : List String :=
  d.globals.map Prod.fst ++ d.stepNames ++ d.loopVars ++ ["source_task", sourceTaskStepId]

/-- The variables have names of the definition. -/
def Allows (vars : Vars) : Prop := ∀ v ∈ vars, v.1 ∈ d.names

/-- The step is one of the flow, or the gate of a source task. -/
def Stands (flow stepId : String) : Prop :=
  stepId = sourceTaskStepId ∨ ∃ f, d.flow? flow = some f ∧ stepId ∈ collectIds f.steps

variable {d}

theorem mem_names_of_stands {flow stepId : String} (h : d.Stands flow stepId) :
    stepId ∈ d.names := by
  unfold names
  rcases h with rfl | ⟨f, hf, hid⟩
  · simp
  · have hmem : stepId ∈ d.stepNames :=
      List.mem_flatMap.2 ⟨(flow, f), d.mem_flows_of_flow? hf, hid⟩
    simp [hmem]

theorem mem_names_of_globals {v : String × Json} (h : v ∈ d.globals) : v.1 ∈ d.names := by
  have hmem : v.1 ∈ d.globals.map Prod.fst := List.mem_map_of_mem h
  simp only [names, List.mem_append]
  exact .inl (.inl (.inl hmem))

theorem mem_names_of_stepAt {flow : String} {i : ℕ} {s : Step} (h : d.stepAt flow i = some s)
    (hty : s.stepType = .loop) : s.asVar.getD "item" ∈ d.names := by
  rw [stepAt, Option.bind_eq_some_iff] at h
  obtain ⟨f, hf, hs⟩ := h
  have hmem : s.asVar.getD "item" ∈ d.loopVars := by
    refine List.mem_flatMap.2 ⟨(flow, f), d.mem_flows_of_flow? hf, ?_⟩
    exact List.mem_map_of_mem (List.mem_filter.2 ⟨List.mem_of_getElem? hs, by simpa using hty⟩)
  simp [names, hmem]

theorem stands_of_stepAt {flow : String} {i : ℕ} {s : Step} (h : d.stepAt flow i = some s) :
    d.Stands flow s.id := by
  rw [stepAt, Option.bind_eq_some_iff] at h
  obtain ⟨f, hf, hs⟩ := h
  exact .inr ⟨f, hf, mem_collectIds_of_mem (List.mem_of_getElem? hs)⟩

theorem stands_of_body {flow : String} {i : ℕ} {s b : Step} (h : d.stepAt flow i = some s)
    (hb : b ∈ s.body) : d.Stands flow b.id := by
  rw [stepAt, Option.bind_eq_some_iff] at h
  obtain ⟨f, hf, hs⟩ := h
  refine .inr ⟨f, hf, ?_⟩
  exact (collectIds_body_sublist (List.mem_of_getElem? hs)).subset (mem_collectIds_of_mem hb)

/-- What a search finds is one of the ids it searched. -/
theorem collectIds_find (id : String) : ∀ ss : List Step, ∀ s, findStepInList id ss = some s →
    ∀ k ∈ s.ids, k ∈ collectIds ss := by
  refine (Step.nested_induction
    (M := fun s => ∀ found, s.find id = some found → ∀ k ∈ found.ids, k ∈ s.ids)
    (L := fun ss => ∀ s, findStepInList id ss = some s → ∀ k ∈ s.ids, k ∈ collectIds ss)
    ?_ ?_ ?_).2
  · intro s ih found h k hk
    rw [Step.find_eq] at h
    split at h
    · obtain rfl := Option.some.inj h
      exact hk
    · rw [Step.ids_eq]
      exact List.mem_cons_of_mem _ (ih found h k hk)
  · intro s h
    cases h
  · intro s ss hs hss found h k hk
    rw [findStepInList_cons, Option.or_eq_some_iff] at h
    rw [collectIds, List.mem_append]
    rcases h with h | ⟨-, h⟩
    · exact .inl (hs found h k hk)
    · exact .inr (hss found h k hk)

theorem stands_of_findStep {flow stepId : String} {s : Step} (h : d.findStep flow stepId = some s)
    {b : Step} (hb : b ∈ s.body) : d.Stands flow b.id := by
  rw [findStep, Option.bind_eq_some_iff] at h
  obtain ⟨f, hf, hs⟩ := h
  refine .inr ⟨f, hf, collectIds_find stepId f.steps s hs _ ?_⟩
  rw [Step.ids_eq]
  exact List.mem_cons_of_mem _ (mem_collectIds_of_mem hb)

theorem Allows.insert {vars : Vars} {k : String} {v : Json} (h : d.Allows vars) (hk : k ∈ d.names) :
    d.Allows (Vars.insert vars k v) := by
  intro w hw
  rcases Vars.mem_insert hw with rfl | hw
  · exact hk
  · exact h w hw

theorem Allows.erase {vars : Vars} (k : String) (h : d.Allows vars) :
    d.Allows (Vars.erase vars k) :=
  fun v hv => h v (List.mem_of_mem_filter hv)

end Definition

theorem initialVariables_allows (d : Definition) (source : Option Task) :
    d.Allows (initialVariables d source) := by
  have hglobals : d.Allows d.globals := fun v hv => Definition.mem_names_of_globals hv
  cases source with
  | none => exact hglobals
  | some task => exact hglobals.insert (by simp [Definition.names])

end XpressClaw
