import XpressClaw.Workflow.Planning
import XpressClaw.Workflow.Render

/-!
# Workflows that run for every task

A default workflow starts by itself whenever a task is created.  Its primary agent input
is bound to the task's agent, and `validate_default_task_trigger` accepts a definition only
if, with a sentinel in place of that agent, every agent input and every agent selector
comes out as the sentinel.

* `Definition.primaryAgent` — the name of the input that is bound to the task's agent.
* `Definition.selectors` — the agent selectors of all steps, nested ones among them.
* `Definition.resolveAgentBindings_all_iff` — when every binding is to one agent.
* `validateDefaultTaskTrigger_ok` — what an accepted definition does with the sentinel.
* `Definition.Twin` — the inputs of one definition for two agents.
-/

namespace XpressClaw

open Lib Context

namespace Definition

/-- The first primary agent input, which is bound to the task's agent. -/
def primaryAgent (d : Definition) : Option String :=
  (d.inputs.find? fun i => i.2.inputType = .agent && i.2.primary).map Prod.fst

/-- The input has a value in a run for a task. -/
def Given (d : Definition) (name : String) : Prop :=
  d.primaryAgent = some name ∨ ∃ i ∈ d.inputs, i.1 = name ∧ i.2.default_.isSome = true

instance (d : Definition) (name : String) : Decidable (d.Given name) :=
  inferInstanceAs (Decidable (_ ∨ _))

end Definition

/-! ## The selectors of nested steps -/

/-- The selector that freezing renders for a step, if it renders one. -/
def Step.selector? (s : Step) : Option String :=
  if s.stepType = .step ∨ s.stepType = .wait ∨ s.stepType = .command then
    (s.agent.map Text.trim).filter fun a => a ≠ ""
  else none

mutual
/-- The selectors of a step and of what it contains. -/
def Step.selectors : Step → List String
  | s@(⟨_, _, _, _, _, _, _, _, _, _, _, _, body, _, _, _, _, _⟩) =>
      s.selector?.toList ++ selectorsOf body

/-- The selectors of a list of steps, bodies included. -/
def selectorsOf : List Step → List String
  | [] => []
  | s :: ss => s.selectors ++ selectorsOf ss
end

/-- The selectors of every flow. -/
def Definition.selectors (d : Definition) : List String :=
  d.flows.flatMap fun f => selectorsOf f.2.steps

/-- What a selector is rendered to. -/
def selected (env : Env) (ctx : Json) (selector : String) : String :=
  Text.trim (renderTemplate env selector ctx)

/-- The text can be an agent id: freezing takes it for one. -/
structure Concrete (a : String) : Prop where
  ne : a ≠ ""
  mention : Text.startsWith a "@" = false
  placeholder : Text.contains a "\x7b\x7b" = false

theorem Step.selectors_eq (s : Step) : s.selectors = s.selector?.toList ++ selectorsOf s.body := by
  cases s
  rfl

section Freezing

variable {env : Env} {flow a : String} {ctx : Json} {requireAll : Bool}

/-- What freezing adds to the bindings are bindings to one agent. -/
def Adds (a : String) (acc acc' : Freeze) : Prop :=
  acc.bindings ⊆ acc'.bindings ∧ ∀ b ∈ acc'.bindings, b ∈ acc.bindings ∨ b.2 = a

theorem Adds.refl (acc : Freeze) : Adds a acc acc := ⟨List.Subset.refl _, fun _ h => Or.inl h⟩

theorem Adds.trans {acc acc' acc'' : Freeze} (h : Adds a acc acc') (h' : Adds a acc' acc'') :
    Adds a acc acc'' := by
  refine ⟨List.Subset.trans h.1 h'.1, fun b hb => ?_⟩
  rcases h'.2 b hb with hb | hb
  · exact h.2 b hb
  · exact Or.inr hb

/-- A selector that is rendered to an agent adds a binding to it. -/
theorem freezeAgent_of_selected (ha : Concrete a) {s : Step}
    (h : ∀ selector ∈ s.selector?, selected env ctx selector = a) (acc : Freeze) :
    ∃ agent acc', freezeAgent env flow ctx requireAll s acc = .ok (agent, acc') ∧
      Adds a acc acc' := by
  rw [freezeAgent]
  rw [Step.selector?] at h
  split
  · next htype =>
      rw [if_pos htype] at h
      cases hselector : (s.agent.map Text.trim).filter fun a => a ≠ "" with
      | none => exact ⟨_, _, rfl, .refl acc⟩
      | some configured =>
        have hagent : Text.trim (renderTemplate env configured ctx) = a := h configured hselector
        have hadds : ∀ changed, Adds a acc ⟨(s!"step '{flow}.{s.id}'", a) :: acc.bindings, changed⟩ := by
          refine fun _ => ⟨List.subset_cons_self _ _, fun b hb => ?_⟩
          rcases List.mem_cons.1 hb with rfl | hb
          · exact Or.inr rfl
          · exact Or.inl hb
        simp only [hagent, ha.ne, ha.mention, ha.placeholder, false_or,
          Bool.false_eq_true, if_false]
        split
        · exact ⟨_, _, rfl, hadds _⟩
        · exact ⟨_, _, rfl, hadds _⟩
  · exact ⟨_, _, rfl, .refl acc⟩

/-- When every selector must resolve, each one resolves to a text that is bound. -/
theorem selected_of_freezeAgent {s : Step} {agent : Option String} {acc acc' : Freeze}
    (h : freezeAgent env flow ctx true s acc = .ok (agent, acc')) :
    acc.bindings ⊆ acc'.bindings ∧ ∀ selector ∈ s.selector?, ∃ source,
      (source, selected env ctx selector) ∈ acc'.bindings := by
  rw [freezeAgent] at h
  rw [Step.selector?]
  split at h
  · next htype =>
      rw [if_pos htype]
      split at h
      · next hselector =>
          cases h
          rw [hselector]
          simp
      · next configured hselector =>
          rw [hselector]
          dsimp only at h
          split at h
          · cases h
          · split at h
            · cases h
              simp [selected]
            · cases h
              simp [selected]
  · next htype =>
      cases h
      simp [htype]

/-- Selectors that are all rendered to one agent add bindings to that agent only. -/
theorem freezeSteps_of_selected (ha : Concrete a) :
    ∀ ss, (∀ selector ∈ selectorsOf ss, selected env ctx selector = a) → ∀ acc, ∃ ss' acc',
      freezeSteps env flow ctx requireAll ss acc = .ok (ss', acc') ∧ Adds a acc acc' := by
  refine (Step.nested_induction
    (M := fun s => (∀ selector ∈ s.selectors, selected env ctx selector = a) → ∀ acc, ∃ s' acc',
      s.freeze env flow ctx requireAll acc = .ok (s', acc') ∧ Adds a acc acc')
    (L := fun ss => (∀ selector ∈ selectorsOf ss, selected env ctx selector = a) →
      ∀ acc, ∃ ss' acc',
      freezeSteps env flow ctx requireAll ss acc = .ok (ss', acc') ∧ Adds a acc acc') ?_ ?_ ?_).2
  · intro s ih h acc
    rw [Step.selectors_eq] at h
    have hagent : ∀ selector ∈ s.selector?, selected env ctx selector = a :=
      fun selector hselector => h selector (by simp [Option.mem_def.1 hselector])
    obtain ⟨agent, acc', hown, hadds⟩ :=
      @freezeAgent_of_selected env flow a ctx requireAll ha s hagent acc
    obtain ⟨body, acc'', hbody, hadds'⟩ := ih (fun sel hsel => h sel (by simp [hsel])) acc'
    cases s
    rw [Step.freeze, hown]
    dsimp only
    rw [hbody]
    exact ⟨_, _, rfl, hadds.trans hadds'⟩
  · exact fun _ acc => ⟨_, _, rfl, .refl acc⟩
  · intro s ss hs hss h acc
    rw [selectorsOf] at h
    obtain ⟨s', acc', hone, hadds⟩ := hs (fun sel hsel => h sel (by simp [hsel])) acc
    obtain ⟨ss', acc'', hrest, hadds'⟩ := hss (fun sel hsel => h sel (by simp [hsel])) acc'
    rw [freezeSteps, hone]
    dsimp only
    rw [hrest]
    exact ⟨_, _, rfl, hadds.trans hadds'⟩

theorem selected_of_freezeSteps : ∀ ss acc ss' acc',
    freezeSteps env flow ctx true ss acc = .ok (ss', acc') →
      acc.bindings ⊆ acc'.bindings ∧ ∀ selector ∈ selectorsOf ss, ∃ source,
        (source, selected env ctx selector) ∈ acc'.bindings := by
  refine (Step.nested_induction
    (M := fun s => ∀ acc s' acc', s.freeze env flow ctx true acc = .ok (s', acc') →
      acc.bindings ⊆ acc'.bindings ∧ ∀ selector ∈ s.selectors, ∃ source,
        (source, selected env ctx selector) ∈ acc'.bindings)
    (L := fun ss => ∀ acc ss' acc', freezeSteps env flow ctx true ss acc = .ok (ss', acc') →
      acc.bindings ⊆ acc'.bindings ∧ ∀ selector ∈ selectorsOf ss, ∃ source,
        (source, selected env ctx selector) ∈ acc'.bindings) ?_ ?_ ?_).2
  · intro s ih acc s' acc' h
    rw [Step.selectors_eq]
    cases s
    rw [Step.freeze] at h
    split at h
    · cases h
    · next hown =>
        split at h
        · cases h
        · next hbody =>
            cases h
            obtain ⟨hsub, hmem⟩ := selected_of_freezeAgent hown
            obtain ⟨hsub', hmem'⟩ := ih _ _ _ hbody
            refine ⟨List.Subset.trans hsub hsub', fun sel hsel => ?_⟩
            rcases List.mem_append.1 hsel with hsel | hsel
            · obtain ⟨source, hsource⟩ := hmem sel (Option.mem_toList.1 hsel)
              exact ⟨source, hsub' hsource⟩
            · exact hmem' sel hsel
  · intro acc ss' acc' h
    cases h
    simp [selectorsOf]
  · intro s ss hs hss acc ss' acc' h
    rw [selectorsOf]
    rw [freezeSteps] at h
    split at h
    · cases h
    · next hone =>
        split at h
        · cases h
        · next hrest =>
            cases h
            obtain ⟨hsub, hmem⟩ := hs _ _ _ hone
            obtain ⟨hsub', hmem'⟩ := hss _ _ _ hrest
            refine ⟨List.Subset.trans hsub hsub', fun sel hsel => ?_⟩
            rcases List.mem_append.1 hsel with hsel | hsel
            · obtain ⟨source, hsource⟩ := hmem sel hsel
              exact ⟨source, hsub' hsource⟩
            · exact hmem' sel hsel

theorem freezeFlows_of_selected (ha : Concrete a) (fs : List (String × Flow))
    (h : ∀ selector ∈ fs.flatMap fun f => selectorsOf f.2.steps, selected env ctx selector = a)
    (acc : Freeze) :
    ∃ fs' acc', freezeFlows env ctx requireAll fs acc = .ok (fs', acc') ∧ Adds a acc acc' := by
  induction fs generalizing acc with
  | nil => exact ⟨_, _, rfl, .refl acc⟩
  | cons f fs ih =>
    rw [List.flatMap_cons] at h
    obtain ⟨steps, acc', hone, hadds⟩ := @freezeSteps_of_selected env f.1 a ctx requireAll ha
      f.2.steps (fun sel hsel => h sel (List.mem_append_left _ hsel)) acc
    obtain ⟨fs', acc'', hrest, hadds'⟩ :=
      ih (fun sel hsel => h sel (List.mem_append_right _ hsel)) acc'
    rw [freezeFlows, hone]
    dsimp only
    rw [hrest]
    exact ⟨_, _, rfl, hadds.trans hadds'⟩

theorem selected_of_freezeFlows {fs fs' : List (String × Flow)} {acc acc' : Freeze}
    (h : freezeFlows env ctx true fs acc = .ok (fs', acc')) :
    acc.bindings ⊆ acc'.bindings ∧
      ∀ selector ∈ fs.flatMap fun f => selectorsOf f.2.steps, ∃ source,
        (source, selected env ctx selector) ∈ acc'.bindings := by
  induction fs generalizing acc fs' acc' with
  | nil =>
    cases h
    simp
  | cons f fs ih =>
    rw [freezeFlows] at h
    split at h
    · cases h
    · next hone =>
        split at h
        · cases h
        · next hrest =>
            cases h
            obtain ⟨hsub, hmem⟩ := selected_of_freezeSteps _ _ _ _ hone
            obtain ⟨hsub', hmem'⟩ := ih hrest
            refine ⟨List.Subset.trans hsub hsub', fun sel hsel => ?_⟩
            rcases List.mem_append.1 (List.flatMap_cons .. ▸ hsel) with hsel | hsel
            · obtain ⟨source, hsource⟩ := hmem sel hsel
              exact ⟨source, hsub' hsource⟩
            · exact hmem' sel hsel

end Freezing

namespace Definition

theorem resolveAgentBindings_of_selected {env : Env} {d : Definition} {ctx : Json} {a : String}
    (ha : Concrete a) (h : ∀ selector ∈ d.selectors, selected env ctx selector = a)
    (requireAll : Bool) :
    ∃ r, d.resolveAgentBindings env ctx requireAll = .ok r ∧ ∀ b ∈ r.2.1, b.2 = a := by
  have hflows : ∃ fs' acc', freezeFlows env ctx requireAll d.flows {} = .ok (fs', acc') ∧
      Adds a {} acc' := freezeFlows_of_selected ha d.flows h {}
  obtain ⟨fs', acc', hflows, hadds⟩ := hflows
  rw [resolveAgentBindings]
  split
  · next hfail =>
      rw [hflows] at hfail
      cases hfail
  · next hflows' =>
      rw [hflows] at hflows'
      cases hflows'
      refine ⟨_, rfl, fun b hb => ?_⟩
      rcases hadds.2 b (List.mem_dedup.1 hb) with hb | hb
      · cases hb
      · exact hb

/-- **Resolving the bindings.**  Every binding is to one agent exactly when every selector
is rendered to that agent. -/
theorem resolveAgentBindings_all_iff {env : Env} {d : Definition} {ctx : Json} {a : String}
    (ha : Concrete a) :
    (∃ r, d.resolveAgentBindings env ctx true = .ok r ∧ ∀ b ∈ r.2.1, b.2 = a) ↔
      ∀ selector ∈ d.selectors, selected env ctx selector = a := by
  constructor
  · rintro ⟨r, hr, hall⟩ selector hselector
    rw [resolveAgentBindings] at hr
    split at hr
    · cases hr
    · next hflows =>
        cases hr
        obtain ⟨source, hsource⟩ := (selected_of_freezeFlows hflows).2 selector hselector
        exact hall (source, selected env ctx selector) (List.mem_dedup.2 hsource)
  · exact fun h => resolveAgentBindings_of_selected ha h true

/-! ## The inputs for two agents -/

variable {d : Definition} {a b : String}

/-- What a run for a task provides: the task's agent for the primary agent input. -/
def provided (d : Definition) (a : String) : Vars :=
  (d.primaryAgent.map fun name => (name, Json.str a)).toList

/-- The inputs of runs for two agents: the primary agent input is the agent, every other
input is the same. -/
structure Twin (d : Definition) (a b : String) (x y : Vars) : Prop where
  other : ∀ k, d.primaryAgent ≠ some k → Vars.get? x k = Vars.get? y k
  primary : ∀ k, d.primaryAgent = some k →
    Vars.get? x k = some (.str a) ∧ Vars.get? y k = some (.str b)
  given : ∀ k, (Vars.get? x k).isSome = true ↔ d.Given k

theorem get?_provided (k : String) :
    Vars.get? (d.provided a) k = if d.primaryAgent = some k then some (.str a) else none := by
  rw [provided]
  cases d.primaryAgent with
  | none => rfl
  | some name =>
    rw [Option.map_some, Option.toList_some, Vars.get?_cons]
    simp [Vars.get?]

theorem exists_input_of_primaryAgent {k : String} (h : d.primaryAgent = some k) :
    ∃ i ∈ d.inputs, i.1 = k := by
  obtain ⟨i, hi, hk⟩ := Option.map_eq_some_iff.1 h
  exact ⟨i, List.mem_of_find?_eq_some hi, hk⟩

theorem validateValue_str {input : Input} {name : String}
    (h : input.validateValue name (.str a) = .ok ()) (hb : Text.isBlank b = false) :
    input.validateValue name (.str b) = .ok () := by
  obtain ⟨inputType, required, default_, primary⟩ := input
  cases inputType <;> simp_all [Input.validateValue]

/-- The rounds of `resolve_inputs` for two agents. -/
theorem resolveEach_twin (hb : Text.isBlank b = false) (is : List (String × Input))
    {acc acc' r : Vars} (h : resolveEach (d.provided a) is acc = .ok r)
    (hother : ∀ k, d.primaryAgent ≠ some k → Vars.get? acc k = Vars.get? acc' k)
    (hprimary : ∀ k, d.primaryAgent = some k → Vars.get? acc k = some (.str a) →
      Vars.get? acc' k = some (.str b))
    (hvalue : ∀ k v, d.primaryAgent = some k → Vars.get? acc k = some v → v = .str a) :
    ∃ r', resolveEach (d.provided b) is acc' = .ok r' ∧
      (∀ k, d.primaryAgent ≠ some k → Vars.get? r k = Vars.get? r' k) ∧
      (∀ k, d.primaryAgent = some k → Vars.get? r k = some (.str a) →
        Vars.get? r' k = some (.str b)) ∧
      (∀ k v, d.primaryAgent = some k → Vars.get? r k = some v → v = .str a) ∧
      ∀ k, (Vars.get? r k).isSome = true ↔ (Vars.get? acc k).isSome = true ∨
        ∃ i ∈ is, i.1 = k ∧ (d.primaryAgent = some k ∨ i.2.default_.isSome = true) := by
  induction is generalizing acc acc' with
  | nil =>
    cases h
    exact ⟨acc', rfl, hother, hprimary, hvalue, by simp⟩
  | cons i is ih =>
    obtain ⟨name, input⟩ := i
    rw [resolveEach, get?_provided] at h ⊢
    by_cases hname : d.primaryAgent = some name
    · -- the input is bound to the task's agent
      rw [if_pos hname, Option.some_or] at h ⊢
      dsimp only at h ⊢
      obtain ⟨⟨⟩, hvalid, hrest⟩ := bind_ok h
      rw [validateValue_str hvalid hb]
      have hk : ∀ k, d.primaryAgent = some k → k = name := by
        intro k hk
        rw [hname] at hk
        exact (Option.some.inj hk).symm
      obtain ⟨r', hr', h₁, h₂, h₃, h₄⟩ := @ih _ (Vars.insert acc' name (.str b)) hrest
        (fun k hne => by
          have : k ≠ name := fun h => hne (h ▸ hname)
          rw [Vars.get?_insert, Vars.get?_insert, if_neg this, if_neg this, hother k hne])
        (fun k hp _ => by rw [Vars.get?_insert, if_pos (hk k hp)])
        (fun k v hp hv => by
          rw [Vars.get?_insert, if_pos (hk k hp)] at hv
          exact (Option.some.inj hv).symm)
      refine ⟨r', hr', h₁, h₂, h₃, fun k => ?_⟩
      rw [h₄, Vars.get?_insert]
      by_cases hkn : k = name
      · subst hkn
        simp [hname]
      · simp [hkn, Ne.symm hkn]
    · rw [if_neg hname, Option.none_or] at h ⊢
      cases hdefault : input.default_ with
      | some value =>
        rw [hdefault] at h
        dsimp only at h ⊢
        obtain ⟨⟨⟩, hvalid, hrest⟩ := bind_ok h
        rw [hvalid]
        have hk : ∀ k, d.primaryAgent = some k → k ≠ name := fun k hp h => hname (h ▸ hp)
        obtain ⟨r', hr', h₁, h₂, h₃, h₄⟩ := @ih _ (Vars.insert acc' name value) hrest
          (fun k hne => by rw [Vars.get?_insert, Vars.get?_insert, hother k hne])
          (fun k hp hv => by
            rw [Vars.get?_insert, if_neg (hk k hp)] at hv ⊢
            exact hprimary k hp hv)
          (fun k v hp hv => by
            rw [Vars.get?_insert, if_neg (hk k hp)] at hv
            exact hvalue k v hp hv)
        refine ⟨r', hr', h₁, h₂, h₃, fun k => ?_⟩
        rw [h₄, Vars.get?_insert]
        by_cases hkn : k = name
        · subst hkn
          simp [hdefault]
        · simp [hkn, Ne.symm hkn]
      | none =>
        rw [hdefault] at h
        dsimp only at h ⊢
        split at h
        · cases h
        · next hrequired =>
            rw [if_neg hrequired]
            obtain ⟨r', hr', h₁, h₂, h₃, h₄⟩ := ih h hother hprimary hvalue
            refine ⟨r', hr', h₁, h₂, h₃, fun k => ?_⟩
            rw [h₄]
            by_cases hkn : k = name
            · subst hkn
              simp [hdefault, hname]
            · simp [Ne.symm hkn]

theorem resolveDefaultTaskInputs_ok (ha : Text.isBlank a = false) {inputs : Json} :
    d.resolveDefaultTaskInputs (some a) = .ok inputs ↔
      d.resolveInputs (.obj (d.provided a)) = .ok inputs := by
  unfold resolveDefaultTaskInputs provided primaryAgent
  cases d.inputs.find? fun i => i.2.inputType = .agent && i.2.primary with
  | none =>
    simp only [Option.map_none, Option.toList_none]
    cases d.resolveInputs (.obj []) <;> simp
  | some i =>
    simp only [ha, Bool.false_eq_true, if_false, Option.map_some, Option.toList_some]
    cases d.resolveInputs (.obj [(i.1, .str a)]) <;> simp

theorem resolveInputs_provided (hne : d.inputs.isEmpty = false) :
    d.resolveInputs (.obj (d.provided a)) =
      (resolveEach (d.provided a) d.inputs []).map .obj := by
  have hknown : (d.provided a).find? (fun f => (d.input? f.1).isNone) = none := by
    rw [List.find?_eq_none]
    intro f hf
    rw [provided, Option.mem_toList] at hf
    obtain ⟨name, hname, rfl⟩ := Option.map_eq_some_iff.1 hf
    obtain ⟨i, hi, rfl⟩ := exists_input_of_primaryAgent hname
    have hsome : (d.input? i.1).isSome = true := by
      rw [input?, Option.isSome_map, Table.get_isSome_iff]
      exact List.mem_map_of_mem hi
    simp [Option.isSome_iff_ne_none.1 hsome]
  rw [resolveInputs, if_neg (by simp [hne])]
  simp only [Json.asObject]
  rw [hknown]

/-- **Two agents, one definition.**  When the inputs of a run can be resolved for one agent,
they can be resolved for every agent, and differ in the primary agent input only. -/
theorem resolveDefaultTaskInputs_twin (ha : Text.isBlank a = false) (hb : Text.isBlank b = false)
    {inputs : Json} (h : d.resolveDefaultTaskInputs (some a) = .ok inputs) :
    ∃ x y, inputs = .obj x ∧ d.resolveDefaultTaskInputs (some b) = .ok (.obj y) ∧
      d.Twin a b x y := by
  rw [resolveDefaultTaskInputs_ok ha] at h
  simp only [resolveDefaultTaskInputs_ok hb]
  by_cases hempty : d.inputs.isEmpty = true
  · have hinputs : d.inputs = [] := List.isEmpty_iff.1 hempty
    have hprimary : d.primaryAgent = none := by
      rw [primaryAgent, hinputs]
      rfl
    have hprovided : ∀ a, d.provided a = [] := fun a => by rw [provided, hprimary]; rfl
    rw [resolveInputs, if_pos hempty, hprovided] at h ⊢
    cases h
    refine ⟨[], [], rfl, rfl, fun _ _ => rfl, ?_, ?_⟩
    · simp [hprimary]
    · simp [Given, hprimary, hinputs, Vars.get?]
  · have hne : d.inputs.isEmpty = false := by simpa using hempty
    rw [resolveInputs_provided hne] at h ⊢
    cases hr : resolveEach (d.provided a) d.inputs [] with
    | error e => rw [hr] at h; cases h
    | ok x =>
      rw [hr] at h
      cases h
      obtain ⟨y, hy, hother, hprimary, hvalue, hgiven⟩ := @resolveEach_twin d a b hb d.inputs
        [] [] x hr (fun _ _ => rfl) (by simp [Vars.get?]) (by simp [Vars.get?])
      rw [hy]
      have hgiven' : ∀ k, (Vars.get? x k).isSome = true ↔ d.Given k := by
        intro k
        rw [hgiven, Given]
        constructor
        · rintro (h | ⟨i, hi, rfl, hp | hdefault⟩)
          · simp [Vars.get?] at h
          · exact Or.inl hp
          · exact Or.inr ⟨i, hi, rfl, hdefault⟩
        · rintro (hp | ⟨i, hi, rfl, hdefault⟩)
          · obtain ⟨i, hi, rfl⟩ := exists_input_of_primaryAgent hp
            exact Or.inr ⟨i, hi, rfl, Or.inl hp⟩
          · exact Or.inr ⟨i, hi, rfl, Or.inr hdefault⟩
      refine ⟨x, y, rfl, rfl, hother, fun k hp => ?_, hgiven'⟩
      obtain ⟨v, hv⟩ := Option.isSome_iff_exists.1 ((hgiven' k).2 (Or.inl hp))
      obtain rfl := hvalue k v hp hv
      exact ⟨hv, hprimary k hp hv⟩

end Definition

theorem checkOption_ok {α : Type} {check : α → Except Err Unit} {o : Option α}
    (h : checkOption check o = .ok ()) : ∀ v ∈ o, check v = .ok () := by
  rintro v rfl
  exact h

/-- An accepted definition resolves its inputs, its agent inputs and its bindings to the
sentinel. -/
theorem validateDefaultTaskTrigger_ok {env : Env} {d : Definition}
    (h : validateDefaultTaskTrigger env d = .ok ()) :
    ∃ inputs, d.resolveDefaultTaskInputs (some taskAgentSentinel) = .ok inputs ∧
      (∀ i ∈ d.inputs, i.2.inputType = .agent → ∀ agent, inputs.get? i.1 = some (.str agent) →
        agent = taskAgentSentinel) ∧
      ∃ r, d.resolveAgentBindings env (buildContext inputs d.globals []) true = .ok r ∧
        ∀ b ∈ r.2.1, b.2 = taskAgentSentinel := by
  obtain ⟨⟨⟩, -, h⟩ := bind_ok h
  obtain ⟨inputs, hinputs, h⟩ := bind_ok h
  obtain ⟨⟨⟩, hagents, h⟩ := bind_ok h
  obtain ⟨⟨d', bindings, changed⟩, hbindings, h⟩ := bind_ok h
  refine ⟨inputs, hinputs, fun i hi htype agent hagent => ?_, _, hbindings, fun b hb => ?_⟩
  · have hcheck := Definition.checkAll_ok hagents i hi
    rw [if_pos htype, hagent] at hcheck
    exact Definition.require_ok (checkOption_ok hcheck agent rfl)
  · by_contra hne
    cases hfind : (bindings.insertionSort bindingLe).find? fun b => b.2 ≠ taskAgentSentinel with
    | none =>
      have hmem : b ∈ bindings.insertionSort bindingLe :=
        (List.perm_insertionSort _ _).mem_iff.2 hb
      simpa [hne] using List.find?_eq_none.1 hfind b hmem
    | some c =>
      have := checkOption_ok h c hfind
      cases this

end XpressClaw
