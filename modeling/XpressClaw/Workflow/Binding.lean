import Mathlib.Data.List.Dedup
import XpressClaw.Workflow.Targets

/-!
# Frozen agent bindings

`resolve_agent_bindings` renders every agent selector that is known when a run starts and
writes the agent's id in its place.  The id is text again, and every dispatch renders it
once more, in a context that step outputs keep changing.

* `Context.hasReference` — an `@` directly before a letter, a digit or an underscore: what a
  second rendering may replace.
* `Step.StaysFrozen` — every later resolution of the step names the agent.
* `stays_frozen_iff` — exactly when it does.
-/

namespace XpressClaw

open Lib

/-! ## Rendering a text again -/

namespace Context

/-- The text has a reference: `@` and a character that an identifier can start with. -/
def hasReference : List Char → Bool
  | [] => false
  | c :: cs => (c = '@' && cs.head?.any isIdentStart) || hasReference cs

variable {env : Env} {ctx : Json}

theorem findSub_eq_none {p cs : List Char}
    (h : Text.containsList p cs = false) : findSub p cs = none := by
  induction cs with
  | nil => simpa [Text.containsList, findSub] using h
  | cons c cs ih =>
    rw [Text.containsList, Bool.or_eq_false_iff] at h
    simp [findSub, h.1, ih h.2]

theorem renderBraces_eq_self {cs : List Char} (h : Text.containsList ['{', '{'] cs = false)
    (fuel : ℕ) : renderBraces env ctx fuel cs = cs := by
  cases fuel with
  | zero => rfl
  | succ fuel => simp [renderBraces, findSub_eq_none h]

/-- Without references the second pass changes nothing. -/
theorem renderAt_eq_self {cs : List Char} (h : hasReference cs = false) (fuel : ℕ) :
    renderAt env ctx fuel cs = cs := by
  induction fuel generalizing cs with
  | zero => rfl
  | succ fuel ih =>
    cases cs with
    | nil => rfl
    | cons c cs =>
      simp only [hasReference, Bool.or_eq_false_iff, Bool.and_eq_false_imp,
        decide_eq_true_eq] at h
      have hc : ¬ (c = '@' ∧ (cs.head?.any isIdentStart) = true) := by
        rintro ⟨rfl, hany⟩
        simp [h.1 rfl] at hany
      rw [renderAt, if_neg hc, ih h.2]

theorem renderTemplate_eq_self {s : String} (hb : Text.contains s "\x7b\x7b" = false)
    (hr : hasReference s.toList = false) : renderTemplate env s ctx = s := by
  have hbraces : renderBraces env ctx (s.toList.length + 1) s.toList = s.toList :=
    renderBraces_eq_self hb _
  simp only [renderTemplate, hbraces]
  rw [renderAt_eq_self hr]
  exact String.ofList_toList

/-- An object that has a value at the end of a path. -/
def nest : List String → Json → Json
  | [], v => v
  | p :: ps, v => .obj [(p, nest ps v)]

theorem follow_nest (path : List String) (v : Json) : follow path (nest path v) = some v := by
  induction path with
  | nil => rfl
  | cons p ps ih => simp [nest, follow, Json.get?, ih]

theorem follow_buildContext (trigger : Json) (globals : Vars) (p : String) (ps : List String)
    (v : Json) : follow (p :: ps) (buildContext trigger globals [(p, nest ps v)]) = some v := by
  have hget : ∀ vs : Vars, (Json.obj (Vars.insert vs p (nest ps v))).get? p = some (nest ps v) := by
    intro vs
    show Vars.get? (Vars.insert vs p (nest ps v)) p = _
    rw [Vars.get?_insert, if_pos rfl]
  rw [follow]
  show ((Json.obj (Vars.insert _ p (nest ps v))).get? p).bind _ = _
  rw [hget, Option.bind_some, follow_nest]

theorem splitAux_ne_nil (sep : Char) (cs acc : List Char) : Text.splitAux sep cs acc ≠ [] := by
  induction cs generalizing acc with
  | nil => simp [Text.splitAux]
  | cons c cs ih =>
    rw [Text.splitAux]
    split
    · simp
    · exact ih _

theorem path_ne_nil {c : Char} {cs : List Char} (hc : isIdentStart c = true) :
    (((c :: cs).takeWhile isIdentChar).reverse.dropWhile (· == '.')).reverse ≠ [] := by
  have hident : isIdentChar c = true := by
    simp only [isIdentStart] at hc
    simp only [isIdentChar, hc, Bool.true_or]
  have hdot : c ≠ '.' := by
    rintro rfl
    simp [isIdentStart] at hc
  intro h
  have hall := List.rdropWhile_eq_nil_iff.1 h
  have := hall c (by simp [hident])
  simp [hdot] at this

/-- A text with a reference can be rendered to any length: there is a path whose value is
inserted. -/
theorem exists_path_of_hasReference {cs : List Char} (h : hasReference cs = true) {fuel : ℕ}
    (hfuel : cs.length < fuel) : ∃ p ps, ∀ ctx s, follow (p :: ps) ctx = some (.str s) →
      s.toList.length ≤ (renderAt env ctx fuel cs).length := by
  induction fuel generalizing cs with
  | zero => omega
  | succ fuel ih =>
    cases cs with
    | nil => simp [hasReference] at h
    | cons c cs =>
      by_cases hc : c = '@' ∧ (cs.head?.any isIdentStart) = true
      · -- the reference stands here
        cases cs with
        | nil => simp at hc
        | cons a cs =>
          have ha : isIdentStart a = true := by simpa using hc.2
          have hpath : (((a :: cs).takeWhile isIdentChar).reverse.dropWhile
              (· == '.')).reverse ≠ [] := path_ne_nil ha
          generalize hp : (((a :: cs).takeWhile isIdentChar).reverse.dropWhile
            (· == '.')).reverse = path at hpath
          obtain ⟨p, ps, hsplit⟩ := List.exists_cons_of_ne_nil
            (splitAux_ne_nil '.' (Text.trimStartMatches '@' (String.ofList path)).toList [])
          refine ⟨p, ps, fun ctx s hs => ?_⟩
          have hres : resolveVariable (String.ofList path) ctx = some (.str s) := by
            rw [resolveVariable, Text.splitChar, hsplit, hs]
          have hempty : path.isEmpty = false := by simpa using hpath
          simp only [renderAt, if_pos hc, hp, hempty, hres, valueToString]
          simp
      · -- it stands further on
        have hrest : hasReference cs = true := by
          rw [hasReference, Bool.or_eq_true] at h
          refine h.resolve_left fun h => hc ?_
          simpa using h
        obtain ⟨p, ps, hp⟩ := ih hrest (by simpa using hfuel)
        refine ⟨p, ps, fun ctx s hs => ?_⟩
        rw [renderAt, if_neg hc, List.length_cons]
        exact (hp ctx s hs).trans (Nat.le_succ _)

/-- In some later context a text with a reference is rendered to a longer one. -/
theorem exists_longer (env : Env) {s : String} (hb : Text.contains s "\x7b\x7b" = false)
    (hr : hasReference s.toList = true) (trigger : Json) (globals : Vars) :
    ∃ vars, s.toList.length <
      (renderTemplate env s (buildContext trigger globals vars)).toList.length := by
  have hpath : ∃ p ps, ∀ ctx v, follow (p :: ps) ctx = some (.str v) →
      v.toList.length ≤ (renderAt env ctx (s.toList.length + 1) s.toList).length :=
    exists_path_of_hasReference hr (Nat.lt_succ_self _)
  obtain ⟨p, ps, hp⟩ := hpath
  let long := String.ofList (List.replicate (s.toList.length + 1) 'x')
  refine ⟨[(p, nest ps (.str long))], ?_⟩
  have hlen := hp _ long (follow_buildContext trigger globals p ps (.str long))
  have hbraces : ∀ ctx, renderBraces env ctx (s.toList.length + 1) s.toList = s.toList :=
    fun ctx => renderBraces_eq_self hb _
  simp only [renderTemplate, hbraces, String.toList_ofList]
  rw [String.toList_ofList, List.length_replicate] at hlen
  omega

end Context

/-! ## What freezing does to a step -/

section Freeze

variable {env : Env} {flow : String} {ctx : Json} {requireAll : Bool}

/-- A step as freezing leaves it, with the bindings recorded when it was done. -/
def FreezesTo (env : Env) (flow : String) (ctx : Json) (requireAll : Bool) (s s' : Step)
    (bindings : List (String × String)) : Prop :=
  ∃ acc acc' agent body, freezeAgent env flow ctx requireAll s acc = .ok (agent, acc') ∧
    s' = { s with agent, body } ∧ acc'.bindings ⊆ bindings

/-- Every step that a lookup finds is found again, frozen. -/
def Refreezes (env : Env) (flow : String) (ctx : Json) (requireAll : Bool)
    (find find' : String → Option Step) (bindings : List (String × String)) : Prop :=
  ∀ id, (find id = none → find' id = none) ∧
    ∀ s, find id = some s → ∃ s', find' id = some s' ∧
      FreezesTo env flow ctx requireAll s s' bindings

theorem FreezesTo.mono {s s' : Step} {bs cs : List (String × String)}
    (h : FreezesTo env flow ctx requireAll s s' bs) (hsub : bs ⊆ cs) :
    FreezesTo env flow ctx requireAll s s' cs := by
  obtain ⟨acc, acc', agent, body, h1, h2, h3⟩ := h
  exact ⟨acc, acc', agent, body, h1, h2, fun b hb => hsub (h3 hb)⟩

theorem Refreezes.mono {f f' : String → Option Step} {bs cs : List (String × String)}
    (h : Refreezes env flow ctx requireAll f f' bs) (hsub : bs ⊆ cs) :
    Refreezes env flow ctx requireAll f f' cs := by
  refine fun id => ⟨(h id).1, fun s hs => ?_⟩
  obtain ⟨s', hs', hf⟩ := (h id).2 s hs
  exact ⟨s', hs', hf.mono hsub⟩

theorem freezeAgent_mono {s : Step} {acc acc' : Freeze} {agent : Option String}
    (h : freezeAgent env flow ctx requireAll s acc = .ok (agent, acc')) :
    acc.bindings ⊆ acc'.bindings := by
  unfold freezeAgent at h
  split at h
  · split at h
    · cases h
      exact List.Subset.refl _
    · dsimp only at h
      split at h
      · split at h
        · cases h
        · cases h
          exact List.Subset.refl _
      · split at h
        · cases h
          exact List.subset_cons_self _ _
        · cases h
          exact List.subset_cons_self _ _
  · cases h
    exact List.Subset.refl _

theorem Step.freeze_ok {s s' : Step} {acc acc' : Freeze}
    (h : s.freeze env flow ctx requireAll acc = .ok (s', acc')) : ∃ agent acc₁ body,
      freezeAgent env flow ctx requireAll s acc = .ok (agent, acc₁) ∧
      freezeSteps env flow ctx requireAll s.body acc₁ = .ok (body, acc') ∧
      s' = { s with agent, body } := by
  cases s
  rw [Step.freeze] at h
  split at h
  · cases h
  · rename_i h1
    split at h
    · cases h
    · rename_i h2
      cases h
      exact ⟨_, _, _, h1, h2, rfl⟩

/-- Freezing keeps the ids, so every lookup finds the frozen step in the place of the old
one. -/
theorem freezeSteps_refreezes : ∀ ss acc ss' acc',
    freezeSteps env flow ctx requireAll ss acc = .ok (ss', acc') →
      acc.bindings ⊆ acc'.bindings ∧ Refreezes env flow ctx requireAll
        (fun id => findStepInList id ss) (fun id => findStepInList id ss') acc'.bindings := by
  refine (Step.nested_induction
    (M := fun s => ∀ acc s' acc', s.freeze env flow ctx requireAll acc = .ok (s', acc') →
      acc.bindings ⊆ acc'.bindings ∧ Refreezes env flow ctx requireAll
        (fun id => s.find id) (fun id => s'.find id) acc'.bindings)
    (L := fun ss => ∀ acc ss' acc',
      freezeSteps env flow ctx requireAll ss acc = .ok (ss', acc') →
      acc.bindings ⊆ acc'.bindings ∧ Refreezes env flow ctx requireAll
        (fun id => findStepInList id ss) (fun id => findStepInList id ss') acc'.bindings)
    ?_ ?_ ?_).2
  · intro s ih acc s' acc' h
    obtain ⟨agent, acc₁, body, h1, h2, rfl⟩ := Step.freeze_ok h
    obtain ⟨hsub, hbody⟩ := ih _ _ _ h2
    refine ⟨List.Subset.trans (freezeAgent_mono h1) hsub, fun id => ?_⟩
    simp only [Step.find_eq]
    by_cases hid : s.id = id
    · rw [if_pos hid, if_pos hid]
      refine ⟨by simp, fun x hx => ?_⟩
      obtain rfl := Option.some.inj hx
      exact ⟨_, rfl, acc, acc₁, agent, body, h1, rfl, hsub⟩
    · rw [if_neg hid, if_neg hid]
      exact hbody id
  · intro acc ss' acc' h
    cases h
    exact ⟨List.Subset.refl _, fun id => ⟨fun _ => rfl, fun s hs => by cases hs⟩⟩
  · intro s ss hs hss acc ss' acc' h
    rw [freezeSteps] at h
    split at h
    · cases h
    · rename_i s₁ acc₁ h1
      split at h
      · cases h
      · rename_i ss₁ acc₂ h2
        cases h
        obtain ⟨hsub₁, hfind₁⟩ := hs _ _ _ h1
        obtain ⟨hsub₂, hfind₂⟩ := hss _ _ _ h2
        refine ⟨List.Subset.trans hsub₁ hsub₂, fun id => ?_⟩
        simp only [findStepInList_cons]
        cases hcase : s.find id with
        | none =>
          have hnone : s₁.find id = none := (hfind₁ id).1 hcase
          rw [hnone, Option.none_or, Option.none_or]
          exact hfind₂ id
        | some x =>
          obtain ⟨x', hx', hf⟩ := (hfind₁ id).2 x hcase
          have hsome : s₁.find id = some x' := hx'
          rw [hsome, Option.some_or, Option.some_or]
          refine ⟨by simp, fun y hy => ?_⟩
          obtain rfl := Option.some.inj hy
          exact ⟨x', rfl, hf.mono hsub₂⟩

theorem freezeFlows_refreezes {fs fs' : List (String × Flow)} {acc acc' : Freeze}
    (h : freezeFlows env ctx requireAll fs acc = .ok (fs', acc')) :
    acc.bindings ⊆ acc'.bindings ∧ ∀ name f, Table.get Prod.fst fs name = some (name, f) →
      ∃ f', Table.get Prod.fst fs' name = some (name, f') ∧ Refreezes env name ctx requireAll
        (fun id => findStepInList id f.steps) (fun id => findStepInList id f'.steps)
        acc'.bindings := by
  induction fs generalizing fs' acc with
  | nil =>
    cases h
    exact ⟨List.Subset.refl _, fun name f hf => by cases hf⟩
  | cons g fs ih =>
    obtain ⟨n, g⟩ := g
    rw [freezeFlows] at h
    split at h
    · cases h
    · rename_i steps acc₁ h1
      split at h
      · cases h
      · rename_i fs₁ acc₂ h2
        cases h
        obtain ⟨hsub₁, hsteps⟩ := freezeSteps_refreezes _ _ _ _ h1
        obtain ⟨hsub₂, hflows⟩ := ih h2
        refine ⟨List.Subset.trans hsub₁ hsub₂, fun name f hf => ?_⟩
        by_cases hn : n = name
        · subst hn
          obtain rfl : g = f := by simpa [Table.get] using hf
          exact ⟨⟨steps⟩, by simp [Table.get], hsteps.mono hsub₂⟩
        · have hf' : Table.get Prod.fst fs name = some (name, f) := by
            simpa [Table.get, hn] using hf
          obtain ⟨f', hget, hre⟩ := hflows name f hf'
          exact ⟨f', by simpa [Table.get, hn] using hget, hre⟩

end Freeze

/-! ## Later resolutions -/

/-- The agent that the selector of a step is resolved to in the context of the start. -/
def Step.ResolvesTo (env : Env) (initial : Json) (s : Step) (agentId : String) : Prop :=
  (s.stepType = .step ∨ s.stepType = .wait ∨ s.stepType = .command) ∧
  ∃ configured, ((s.agent.map Text.trim).filter fun a => a ≠ "") = some configured ∧
    agentId = Text.trim (Context.renderTemplate env configured initial) ∧
    ¬ (agentId = "" ∨ Text.startsWith agentId "@" ∨ Text.contains agentId "\x7b\x7b")

/-- Every later resolution of the step names the agent: the one at each dispatch, and for a
command the one of its runner. -/
def Step.StaysFrozen (env : Env) (trigger : Json) (globals : Vars) (s : Step) (agentId : String) :
    Prop :=
  ∀ vars, resolveStepAgent env s (Context.buildContext trigger globals vars) = pure agentId ∧
    (s.stepType = .command →
      commandAgent env s (Context.buildContext trigger globals vars) = agentId)

section Later

variable {env : Env} {flow : String} {ctx : Json} {requireAll : Bool} {s s' : Step}
  {agentId : String} {bindings : List (String × String)}

/-- A resolved selector is replaced by the id, or it was the id but for white space. -/
theorem FreezesTo.agent (h : FreezesTo env flow ctx requireAll s s' bindings)
    (hs : s.ResolvesTo env ctx agentId) :
    (s!"step '{flow}.{s.id}'", agentId) ∈ bindings ∧ s'.stepType = s.stepType ∧
      (s.agent.map Text.trim = some agentId ∧ s'.agent = s.agent ∨
        s.agent.map Text.trim ≠ some agentId ∧ s'.agent = some agentId) := by
  obtain ⟨acc, acc', agent, body, hfreeze, rfl, hsub⟩ := h
  obtain ⟨hty, configured, hconf, rfl, hres⟩ := hs
  obtain ⟨htrim, -⟩ := Option.filter_eq_some_iff.1 hconf
  unfold freezeAgent at hfreeze
  rw [if_pos hty, hconf] at hfreeze
  simp only [if_neg hres] at hfreeze
  rw [htrim]
  split at hfreeze
  · rename_i heq
    cases hfreeze
    refine ⟨hsub (List.mem_cons_self ..), rfl, .inl ⟨?_, rfl⟩⟩
    rw [← heq]
  · rename_i hne
    cases hfreeze
    refine ⟨hsub (List.mem_cons_self ..), rfl, .inr ⟨?_, rfl⟩⟩
    simpa using hne

theorem Step.ResolvesTo.trimmed (h : s.ResolvesTo env ctx agentId) :
    Text.trim agentId = agentId ∧ agentId ≠ "" ∧ Text.startsWith agentId "@" = false ∧
      Text.contains agentId "\x7b\x7b" = false := by
  obtain ⟨-, configured, -, rfl, hres⟩ := h
  simp only [not_or, Bool.not_eq_true] at hres
  exact ⟨Text.trim_trim _, hres⟩

/-- A step that names the id resolves to what the id is rendered to. -/
theorem resolveStepAgent_eq_pure {ctx : Json} (htrim : s.agent.map Text.trim = some agentId)
    (hne : agentId ≠ "") :
    resolveStepAgent env s ctx = pure agentId →
      Context.renderTemplate env agentId ctx = agentId := by
  intro h
  have hsel : ((s.agent.map Text.trim).filter fun a => a ≠ "") = some agentId := by
    simp [htrim, hne]
  unfold resolveStepAgent at h
  rw [hsel] at h
  simp only at h
  split at h
  · cases h
  · injection h with h
    injection h

theorem resolveStepAgent_of_noReference (htrim : s.agent.map Text.trim = some agentId)
    (hid : Text.trim agentId = agentId) (hne : agentId ≠ "")
    (hat : Text.startsWith agentId "@" = false)
    (hb : Text.contains agentId "\x7b\x7b" = false)
    (hr : Context.hasReference agentId.toList = false) (ctx : Json) :
    resolveStepAgent env s ctx = pure agentId := by
  have hsel : ((s.agent.map Text.trim).filter fun a => a ≠ "") = some agentId := by
    simp [htrim, hne]
  have hblank : ¬ Text.isBlank agentId = true := by
    intro h
    rw [Text.trim_of_isBlank h] at hid
    exact hne hid.symm
  unfold resolveStepAgent
  rw [hsel]
  simp only [Context.renderTemplate_eq_self hb hr]
  rw [if_neg]
  simp [hat, hb, hblank]

/-- The text of a command's selector, rendered again, is the id when there is no white space
around it. -/
theorem agent_eq_of_commandAgent {raw : String} {trigger : Json} {globals : Vars}
    (hagent : s.agent = some raw) (htrim : Text.trim raw = agentId)
    (hb : Text.contains agentId "\x7b\x7b" = false)
    (h : ∀ vars, commandAgent env s (Context.buildContext trigger globals vars) = agentId) :
    raw = agentId := by
  have hraw : Text.contains raw "\x7b\x7b" = false := by
    rw [← Text.contains_trim (by decide) (by simp [Text.isWhitespace]), htrim]
    exact hb
  simp only [commandAgent, hagent, Option.getD_some] at h
  cases hr : Context.hasReference raw.toList with
  | false => rw [← h [], Context.renderTemplate_eq_self hraw hr]
  | true =>
    obtain ⟨vars, hlong⟩ := Context.exists_longer env hraw hr trigger globals
    rw [h vars, ← htrim] at hlong
    have := Text.length_trim_le raw
    omega

/-- What decides whether a frozen step stays frozen. -/
theorem FreezesTo.staysFrozen_iff {trigger : Json} {globals : Vars}
    (h : FreezesTo env flow ctx requireAll s s' bindings) (hs : s.ResolvesTo env ctx agentId) :
    s'.StaysFrozen env trigger globals agentId ↔ Context.hasReference agentId.toList = false ∧
      (s.stepType = .command → s.agent.map Text.trim = some agentId → s.agent = some agentId) := by
  obtain ⟨-, hty, hagent⟩ := h.agent hs
  obtain ⟨hid, hne, hat, hb⟩ := hs.trimmed
  have htrim : s'.agent.map Text.trim = some agentId := by
    rcases hagent with ⟨h1, h2⟩ | ⟨-, h2⟩
    · rw [h2, h1]
    · rw [h2, Option.map_some, hid]
  constructor
  · intro hfrozen
    refine ⟨?_, fun hcmd hraw => ?_⟩
    · by_contra hr
      rw [Bool.not_eq_false] at hr
      obtain ⟨vars, hlong⟩ := Context.exists_longer env hb hr trigger globals
      rw [resolveStepAgent_eq_pure htrim hne (hfrozen vars).1] at hlong
      exact lt_irrefl _ hlong
    · have hsame : s'.agent = s.agent := by
        rcases hagent with ⟨-, h2⟩ | ⟨h1, -⟩
        · exact h2
        · exact absurd hraw h1
      obtain ⟨raw, hr, htrim'⟩ := Option.map_eq_some_iff.1 hraw
      have hall := fun vars => (hfrozen vars).2 (hty.trans hcmd)
      rw [hr, agent_eq_of_commandAgent (hsame.trans hr) htrim' hb hall]
  · rintro ⟨hr, hraw⟩ vars
    refine ⟨resolveStepAgent_of_noReference htrim hid hne hat hb hr _, fun hcmd => ?_⟩
    have hself : s'.agent = some agentId := by
      rcases hagent with ⟨h1, h2⟩ | ⟨-, h2⟩
      · exact h2.trans (hraw (hty.symm.trans hcmd) h1)
      · exact h2
    rw [commandAgent, hself, Option.getD_some, Context.renderTemplate_eq_self hb hr]

end Later

/-- **When a frozen binding stays frozen.**  For every definition and every start, a step
whose selector is resolved to an agent is recorded with it, and every later resolution names
that agent if and only if the id has no reference and, for a command, the selector is not the
id with white space around it. -/
theorem stays_frozen_iff (env : Env) (d d' : Definition) (trigger : Json)
    (requireAll changed : Bool)
    (bindings : List (String × String))
    (h : d.resolveAgentBindings env (Context.buildContext trigger d.globals []) requireAll =
      .ok (d', bindings, changed))
    (flow stepId agentId : String) (s : Step) (hfind : d.findStep flow stepId = some s)
    (hs : s.ResolvesTo env (Context.buildContext trigger d.globals []) agentId) :
    (s!"step '{flow}.{s.id}'", agentId) ∈ bindings ∧
    ∃ s', d'.findStep flow stepId = some s' ∧
      (s'.StaysFrozen env trigger d'.globals agentId ↔
        Context.hasReference agentId.toList = false ∧
          (s.stepType = .command → s.agent.map Text.trim = some agentId →
            s.agent = some agentId)) := by
  rw [Definition.resolveAgentBindings] at h
  split at h
  · cases h
  · rename_i flows acc hflows
    cases h
    obtain ⟨f, hf, hstep⟩ := Option.bind_eq_some_iff.1 hfind
    obtain ⟨⟨name, g⟩, hget, rfl⟩ := Option.map_eq_some_iff.1 hf
    obtain rfl : name = flow := Table.key_of_get hget
    obtain ⟨-, hall⟩ := freezeFlows_refreezes hflows
    obtain ⟨f', hget', hre⟩ := hall name g hget
    obtain ⟨s', hs', hfreeze⟩ := (hre stepId).2 s hstep
    refine ⟨List.mem_dedup.2 (hfreeze.agent hs).1, s', ?_, hfreeze.staysFrozen_iff hs⟩
    show (Option.map Prod.snd (Table.get Prod.fst flows name)).bind _ = _
    rw [hget', Option.map_some, Option.bind_some]
    exact hs'

/-- A workflow with a task for the agent that a run is started with, and a command whose
selector has white space around it. -/
def spaced : Definition where
  name := "spaced"
  inputs := [("who", { inputType := .agent })]
  flows := [("main", ⟨[
    { id := "work", agent := some "@who" },
    { id := "check", stepType := .command, agent := some " coder ", command := some "make" }]⟩)]

/-- The inputs of a run of it. -/
def spacedInputs : Json := .obj [("who", .str "coder")]

/-- The definition that the run works with. -/
def spacedFrozen : Definition where
  name := "spaced"
  inputs := [("who", { inputType := .agent })]
  flows := [("main", ⟨[
    { id := "work", agent := some "coder" },
    { id := "check", stepType := .command, agent := some " coder ", command := some "make" }]⟩)]

theorem spaced_resolves : spaced.resolveAgentBindings plainHost.toEnv
    (Context.buildContext spacedInputs spaced.globals []) true =
      .ok (spacedFrozen, [("step 'main.check'", "coder"), ("step 'main.work'", "coder")], true) := by
  rfl

/-- **A frozen command that its runner resolves to another agent.**  The selector ` coder ` is
resolved to `coder`, and the runner of the command renders the white space too. -/
theorem spaced_command_differs : ∃ s s' bindings,
    spaced.resolveAgentBindings plainHost.toEnv
      (Context.buildContext spacedInputs spaced.globals []) true =
      .ok (spacedFrozen, bindings, true) ∧
    spaced.findStep "main" "check" = some s ∧
    s.ResolvesTo plainHost.toEnv (Context.buildContext spacedInputs spaced.globals []) "coder" ∧
    spacedFrozen.findStep "main" "check" = some s' ∧
    commandAgent plainHost.toEnv s' (Context.buildContext spacedInputs spacedFrozen.globals []) =
      " coder " ∧
    ¬ s'.StaysFrozen plainHost.toEnv spacedInputs spacedFrozen.globals "coder" := by
  refine ⟨_, _, _, spaced_resolves, rfl,
    ⟨.inr (.inr rfl), "coder", by decide, by decide, by decide⟩, rfl, by decide, ?_⟩
  intro h
  exact absurd ((h []).2 rfl) (by decide)

/-- The task of the workflow stays with its agent. -/
theorem spaced_work_stays : ∃ s', spacedFrozen.findStep "main" "work" = some s' ∧
    s'.StaysFrozen plainHost.toEnv spacedInputs spacedFrozen.globals "coder" := by
  obtain ⟨-, s', hfind, hiff⟩ := stays_frozen_iff plainHost.toEnv spaced spacedFrozen spacedInputs
    true true _ spaced_resolves "main" "work" "coder" _ rfl
    ⟨.inl rfl, "@who", by decide, by decide, by decide⟩
  exact ⟨s', hfind, hiff.2 ⟨by decide, by decide⟩⟩

end XpressClaw
