import XpressClaw.Workflow.Probe

/-!
# Default workflows and the agents of tasks

* `TaskAgent` — an agent id that a selector can be rendered to.
* `Follows` — a selector that inserts the agent, clear of any `@`.
* `selected_of_follows` — such a selector comes out as the agent of every task.
* `exists_unknown` — an agent that no name in a context has in it.
* `default_task_follows_iff` — which accepted definitions follow the agent of every task.
-/

namespace XpressClaw

open Lib Context

/-! ## Agent ids -/

/-- A non-blank agent id without `@`, `{{` or outer white space. -/
structure TaskAgent (a : String) : Prop where
  nonblank : Text.isBlank a = false
  mention : '@' ∉ a.toList
  placeholder : Text.contains a "\x7b\x7b" = false
  trimmed : Text.trim a = a

theorem TaskAgent.concrete {a : String} (h : TaskAgent a) : Concrete a where
  ne := by
    rintro rfl
    exact absurd h.nonblank (by decide)
  mention := by
    rw [Text.startsWith, Bool.eq_false_iff]
    intro hprefix
    obtain ⟨rest, hrest⟩ := List.isPrefixOf_iff_prefix.1 hprefix
    exact h.mention (hrest ▸ List.mem_append_left _ (by decide))
  placeholder := h.placeholder

theorem isWhitespace_of_isIdentStart {c : Char} (h : isIdentStart c = true) :
    Text.isWhitespace c = false := by
  have hrange : 48 ≤ c.toNat ∧ c.toNat ≤ 122 := by
    have hval : c.toNat = c.val.toNat := rfl
    have hbounds : 'A'.val.toNat = 65 ∧ 'Z'.val.toNat = 90 ∧ 'a'.val.toNat = 97 ∧
        'z'.val.toNat = 122 ∧ '0'.val.toNat = 48 ∧ '9'.val.toNat = 57 ∧ '_'.toNat = 95 := by decide
    delta isIdentStart Char.isAlphanum Char.isAlpha Char.isUpper Char.isLower Char.isDigit at h
    simp only [Bool.or_eq_true, Bool.and_eq_true, decide_eq_true_eq, beq_iff_eq, ge_iff_le,
      UInt32.le_iff_toNat_le] at h
    rcases h with ((h | h) | h) | rfl
    · omega
    · omega
    · omega
    · omega
  simp only [Text.isWhitespace, Bool.or_eq_false_iff, Bool.and_eq_false_iff,
    decide_eq_false_iff_not,
    beq_eq_false_iff_ne]
  omega

theorem containsList_braces {cs : List Char} (h : '{' ∉ cs) :
    Text.containsList ['{', '{'] cs = false := by
  induction cs with
  | nil => rfl
  | cons c cs ih =>
    rw [List.mem_cons, not_or] at h
    rw [Text.containsList, ih h.2]
    simp [List.isPrefixOf, h.1]

theorem trim_of_no_whitespace {a : String} (h : ∀ c ∈ a.toList, Text.isWhitespace c = false) :
    Text.trim a = a := by
  have hkeep : ∀ cs : List Char, (∀ c ∈ cs, Text.isWhitespace c = false) →
      cs.dropWhile Text.isWhitespace = cs := by
    intro cs hcs
    cases cs with
    | nil => rfl
    | cons c cs => simp [hcs c (List.mem_cons_self ..)]
  apply String.toList_injective
  rw [Text.toList_trim, hkeep _ h, List.rdropWhile, hkeep _ (by simpa using h), List.reverse_reverse]

theorem Probe.taskAgent {a : String} (h : Probe a.toList) (hne : a.toList ≠ []) : TaskAgent a where
  nonblank := by
    obtain ⟨c, cs, hcs⟩ := List.exists_cons_of_ne_nil hne
    have hc : isIdentStart c = true := h c (hcs ▸ List.mem_cons_self ..)
    simp [Text.isBlank, hcs, isWhitespace_of_isIdentStart hc]
  mention := fun hmem => absurd (h _ hmem) (by decide)
  placeholder := containsList_braces fun hmem => absurd (h _ hmem) (by decide)
  trimmed := trim_of_no_whitespace fun c hc => isWhitespace_of_isIdentStart (h c hc)

/-! ## Trimming what is written around an agent -/

section Trim

variable {a b : String} {l r out : List Char}

/-- What is trimmed off around a probe is white space. -/
theorem whitespace_around (h : Text.trim (String.ofList (l ++ a.toList ++ r)) = a) :
    (∀ c ∈ l, Text.isWhitespace c = true) ∧ ∀ c ∈ r, Text.isWhitespace c = true := by
  obtain ⟨pre, post, hpre, hpost, heq⟩ :=
    Text.exists_toList_eq_trim (String.ofList (l ++ a.toList ++ r))
  rw [h, String.toList_ofList] at heq
  have hnone : ∀ cs : List Char, (∀ c ∈ cs, Text.isWhitespace c = true) →
      cs.filter (fun c => !Text.isWhitespace c) = [] := by
    intro cs hcs
    rw [List.filter_eq_nil_iff]
    intro c hc
    simp [hcs c hc]
  have hlength := congrArg (fun cs => (cs.filter fun c => !Text.isWhitespace c).length) heq
  simp only [List.filter_append, hnone pre hpre, hnone post hpost, List.length_append,
    List.length_nil] at hlength
  have hl : l.filter (fun c => !Text.isWhitespace c) = [] :=
    List.eq_nil_of_length_eq_zero (by omega)
  have hr : r.filter (fun c => !Text.isWhitespace c) = [] :=
    List.eq_nil_of_length_eq_zero (by omega)
  rw [List.filter_eq_nil_iff] at hl hr
  exact ⟨by simpa using hl, by simpa using hr⟩

/-- White space around an agent id is trimmed off. -/
theorem trim_around (hl : ∀ c ∈ l, Text.isWhitespace c = true)
    (hr : ∀ c ∈ r, Text.isWhitespace c = true) (hb : TaskAgent b) :
    Text.trim (String.ofList (l ++ b.toList ++ r)) = b := by
  have hdrop : b.toList.dropWhile Text.isWhitespace = b.toList := by
    rw [← hb.trimmed]
    exact Text.dropWhile_trim b
  have hrdrop : b.toList.rdropWhile Text.isWhitespace = b.toList := by
    have := Text.toList_trim b
    rwa [hb.trimmed, hdrop, eq_comm] at this
  have hne : b.toList ≠ [] := by
    intro hnil
    have := hb.nonblank
    rw [Text.isBlank, hnil] at this
    cases this
  apply String.toList_injective
  rw [Text.toList_trim, String.toList_ofList, List.append_assoc, List.dropWhile_append_of_pos hl,
    List.dropWhile_append, hdrop]
  have hfalse : b.toList.isEmpty = false := by simpa using hne
  rw [if_neg (by simp [hfalse]), List.rdropWhile, List.reverse_append,
    List.dropWhile_append_of_pos (by simpa using hr)]
  exact hrdrop

theorem mem_of_trim {c : Char} (hc : Text.isWhitespace c = false)
    (h : Text.trim (String.ofList out) = a) (hmem : c ∈ out) : c ∈ a.toList := by
  obtain ⟨pre, post, hpre, hpost, heq⟩ := Text.exists_toList_eq_trim (String.ofList out)
  rw [h, String.toList_ofList] at heq
  rw [heq, List.mem_append, List.mem_append] at hmem
  rcases hmem with (hmem | hmem) | hmem
  · rw [hpre c hmem] at hc
    cases hc
  · exact hmem
  · rw [hpost c hmem] at hc
    cases hc

/-- A text with a hole that is trimmed to a probe is trimmed to whatever fills the hole. -/
theorem trim_fill (ha : Probe a.toList) (hne : a.toList ≠ []) (hb : TaskAgent b)
    {u : List (Option Char)} (hole : none ∈ u)
    (h : Text.trim (String.ofList (fill a.toList u)) = a) :
    Text.trim (String.ofList (fill b.toList u)) = b := by
  obtain ⟨u₁, u₂, rfl⟩ := List.append_of_mem hole
  rw [fill_append, fill_cons_none, ← List.append_assoc] at h ⊢
  obtain ⟨hl, hr⟩ := whitespace_around h
  obtain ⟨c, cs, hcs⟩ := List.exists_cons_of_ne_nil hne
  have hc : c ∈ a.toList := hcs ▸ List.mem_cons_self ..
  have hsolid : ∀ t : List (Option Char), (∀ c ∈ fill a.toList t, Text.isWhitespace c = true) →
      fill b.toList t = fill a.toList t := by
    intro t ht
    apply fill_of_none_notMem
    intro hmem
    have hblank := ht c (List.mem_flatMap.2 ⟨none, hmem, hc⟩)
    rw [isWhitespace_of_isIdentStart (ha c hc)] at hblank
    cases hblank
  rw [hsolid u₁ hl, hsolid u₂ hr]
  exact trim_around hl hr hb

end Trim

/-! ## Selectors -/

/-- The selector inserts the primary agent input, and no `@` runs into it. -/
def Follows (env : Env) (d : Definition) (ctx : Json) (selector : String) : Prop :=
  meetsAgent (holed env d ctx selector) = false ∧
    (none ∈ holed env d ctx selector ∨ mentionsAgent d (scan ctx 0
      (renderBraces env ctx (selector.toList.length + 1) selector.toList)) = true)

instance (env : Env) (d : Definition) (ctx : Json) (selector : String) :
    Decidable (Follows env d ctx selector) := inferInstanceAs (Decidable (_ ∧ _))

theorem selected_eq (env : Env) (ctx : Json) (selector : String) : selected env ctx selector =
    Text.trim (String.ofList (secondPass env ctx
      (renderBraces env ctx (selector.toList.length + 1) selector.toList))) := by
  rw [selected, renderTemplate, renderAt_eq (Nat.lt_succ_self _)]
  rfl

section Selectors

variable {env : Env} {d : Definition} {a b selector : String} {x y : Vars}

theorem selected_clean (ha : Probe a.toList) {ctx : Json} (h : selected env ctx selector = a) :
    '@' ∉ secondPass env ctx (renderBraces env ctx (selector.toList.length + 1) selector.toList) ∧
      '{' ∉ secondPass env ctx
        (renderBraces env ctx (selector.toList.length + 1) selector.toList) := by
  rw [selected_eq] at h
  constructor
  · intro hmem
    exact absurd (ha _ (mem_of_trim (by decide) h hmem)) (by decide)
  · intro hmem
    exact absurd (ha _ (mem_of_trim (by decide) h hmem)) (by decide)

/-- What stands between the two passes of a selector that comes out as a probe. -/
theorem renderBraces_holed (hobject : ∀ fs, '{' ∈ (env.renderJson (.obj fs)).toList)
    (hx : x.Sorted) (hy : y.Sorted) (htwin : d.Twin a b x y) (ha : Probe a.toList)
    (h : selected env (d.initialContext x) selector = a) :
    renderBraces env (d.initialContext x) (selector.toList.length + 1) selector.toList =
        fill a.toList (holed env d (d.initialContext x) selector) ∧
      renderBraces env (d.initialContext y) (selector.toList.length + 1) selector.toList =
        fill b.toList (holed env d (d.initialContext x) selector) ∧
      '@' ∉ secondPass env (d.initialContext x)
        (fill a.toList (holed env d (d.initialContext x) selector)) ∧
      '{' ∉ secondPass env (d.initialContext x)
        (fill a.toList (holed env d (d.initialContext x) selector)) := by
  obtain ⟨hat, hbrace⟩ := selected_clean ha h
  have hpasses := renderBraces_twin hobject hx hy htwin (selector.toList.length + 1)
    (fun hmem => hbrace (brace_mem_secondPass hmem))
  rw [hpasses.1] at hat hbrace
  exact ⟨hpasses.1, hpasses.2, hat, hbrace⟩

/-- The rendering for a task's agent fills the holes that the sentinel filled. -/
theorem selected_twin (hobject : ∀ fs, '{' ∈ (env.renderJson (.obj fs)).toList)
    (hx : x.Sorted) (hy : y.Sorted) (htwin : d.Twin a b x y) (ha : Probe a.toList)
    (hb : '@' ∉ b.toList) (h : selected env (d.initialContext x) selector = a)
    (hmeets : meetsAgent (holed env d (d.initialContext x) selector) = false) :
    ∃ u, selected env (d.initialContext x) selector =
        Text.trim (String.ofList (fill a.toList u)) ∧
      selected env (d.initialContext y) selector = Text.trim (String.ofList (fill b.toList u)) ∧
      (none ∈ u ↔ none ∈ holed env d (d.initialContext x) selector ∨
        mentionsAgent d (scan (d.initialContext x) 0 (renderBraces env (d.initialContext x)
          (selector.toList.length + 1) selector.toList)) = true) := by
  obtain ⟨hbx, hby, hat, hbrace⟩ := renderBraces_holed hobject hx hy htwin ha h
  obtain ⟨u, hux, huy, hu⟩ := secondPass_twin hobject hx hy htwin
    (fun hmem => absurd (ha _ hmem) (by decide)) hb _ le_rfl hmeets hat hbrace
  refine ⟨u, ?_, ?_, ?_⟩
  · rw [selected_eq, hbx, hux]
  · rw [selected_eq, hby, huy]
  · rw [hu, hbx]

/-- **Selectors that follow.**  A selector that comes out as the sentinel and inserts the
agent, clear of any `@`, comes out as the agent of every task. -/
theorem selected_of_follows (hobject : ∀ fs, '{' ∈ (env.renderJson (.obj fs)).toList)
    (hx : x.Sorted) (hy : y.Sorted) (htwin : d.Twin a b x y) (ha : Probe a.toList)
    (hne : a.toList ≠ []) (hb : TaskAgent b)
    (h : selected env (d.initialContext x) selector = a)
    (hfollows : Follows env d (d.initialContext x) selector) :
    selected env (d.initialContext y) selector = b := by
  obtain ⟨u, hux, huy, hu⟩ :=
    selected_twin hobject hx hy htwin ha hb.mention h hfollows.1
  rw [huy]
  exact trim_fill ha hne hb (hu.2 hfollows.2) (hux ▸ h)

/-- A selector that comes out as an agent that no name has in it follows. -/
theorem follows_of_selected (hobject : ∀ fs, '{' ∈ (env.renderJson (.obj fs)).toList)
    (hx : x.Sorted) (hy : y.Sorted) (htwin : d.Twin a b x y) (ha : Probe a.toList)
    (hb : Probe b.toList) (hne : b.toList ≠ []) (hab : a ≠ b)
    (hfresh : ∀ q : List Char, b.toList <:+: q → '@' ∉ q →
      resolveVariable (String.ofList q) (d.initialContext y) = none)
    (h : selected env (d.initialContext x) selector = a)
    (h' : selected env (d.initialContext y) selector = b) :
    Follows env d (d.initialContext x) selector := by
  have hat' : '@' ∉ b.toList := fun hmem => absurd (hb _ hmem) (by decide)
  have hmeets : meetsAgent (holed env d (d.initialContext x) selector) = false := by
    by_contra hmeets
    rw [Bool.not_eq_false] at hmeets
    obtain ⟨hbx, hby, hat, hbrace⟩ := renderBraces_holed hobject hx hy htwin ha h
    have hleft := secondPass_fresh hobject hx hy htwin
      (fun hmem => absurd (ha _ hmem) (by decide)) hb hne hfresh _ le_rfl hmeets hat hbrace
    rw [selected_eq, hby] at h'
    exact hat' (mem_of_trim (by decide) h' hleft)
  refine ⟨hmeets, ?_⟩
  obtain ⟨u, hux, huy, hu⟩ := selected_twin hobject hx hy htwin ha hat' h hmeets
  by_contra hnone
  have hsame : fill a.toList u = fill b.toList u :=
    fill_of_none_notMem fun hmem => hnone (hu.1 hmem)
  apply hab
  rw [← h, ← h', hux, huy, hsame]

end Selectors

/-! ## Agents that no name has in it -/

/-- The names on the paths of a value are of bounded length. -/
theorem exists_bound : ∀ v : Json, ∃ n, ∀ ps w, follow ps v = some w →
    ∀ p ∈ ps, p.toList.length ≤ n := by
  have hleaf : ∀ v : Json, (∀ p, v.get? p = none) → ∃ n, ∀ ps w, follow ps v = some w →
      ∀ p ∈ ps, p.toList.length ≤ n := by
    intro v hv
    refine ⟨0, fun ps w h => ?_⟩
    cases ps with
    | nil => simp
    | cons p ps =>
      rw [follow, hv] at h
      cases h
  refine @Json.rec
    (fun v => ∃ n, ∀ ps w, follow ps v = some w → ∀ p ∈ ps, p.toList.length ≤ n)
    (fun _ => True)
    (fun fs => ∃ n, ∀ f ∈ fs, f.1.toList.length ≤ n ∧
      ∀ ps w, follow ps f.2 = some w → ∀ p ∈ ps, p.toList.length ≤ n)
    (fun f => ∃ n, ∀ ps w, follow ps f.2 = some w → ∀ p ∈ ps, p.toList.length ≤ n)
    ?null ?bool ?num ?str ?arr ?obj ?anil ?acons ?fnil ?fcons ?mk
  case null => exact hleaf _ fun _ => rfl
  case bool => exact fun b => hleaf _ fun _ => rfl
  case num => exact fun q => hleaf _ fun _ => rfl
  case str => exact fun s => hleaf _ fun _ => rfl
  case arr => exact fun xs _ => hleaf _ fun _ => rfl
  case obj =>
    rintro fs ⟨n, hn⟩
    refine ⟨n, fun ps w h => ?_⟩
    cases ps with
    | nil => simp
    | cons p ps =>
      rw [follow, Json.get?] at h
      obtain ⟨v, hv, hrest⟩ := Option.bind_eq_some_iff.1 h
      obtain ⟨f, hf, rfl⟩ := Option.map_eq_some_iff.1 hv
      have hkey : f.1 = p := by simpa using List.find?_some hf
      have hmem := List.mem_of_find?_eq_some hf
      intro p' hp'
      rcases List.mem_cons.1 hp' with rfl | hp'
      · exact hkey ▸ (hn f hmem).1
      · exact (hn f hmem).2 ps w hrest p' hp'
  case anil => trivial
  case acons => intros; trivial
  case fnil => exact ⟨0, by simp⟩
  case fcons =>
    rintro f fs ⟨m, hm⟩ ⟨n, hn⟩
    refine ⟨max (max m f.1.toList.length) n, fun g hg => ?_⟩
    rcases List.mem_cons.1 hg with rfl | hg
    · refine ⟨by omega, fun ps w h p hp => ?_⟩
      have := hm ps w h p hp
      omega
    · refine ⟨?_, fun ps w h p hp => ?_⟩
      · have := (hn g hg).1
        omega
      · have := (hn g hg).2 ps w h p hp
        omega
  case mk => exact fun k v ih => ih

/-- A stretch without separators lies in one piece. -/
theorem exists_infix_splitAux {b : List Char} {sep : Char} (hb : sep ∉ b) (cs acc : List Char)
    (h : b <:+: acc.reverse ++ cs) : ∃ p ∈ Text.splitAux sep cs acc, b <:+: p.toList := by
  induction cs generalizing acc with
  | nil =>
    rw [List.append_nil] at h
    exact ⟨_, List.mem_singleton.2 rfl, by rwa [String.toList_ofList]⟩
  | cons c cs ih =>
    rw [Text.splitAux]
    split
    · next hsep =>
        subst hsep
        have hparts : b <:+: acc.reverse ∨ b <:+: cs := by
          obtain ⟨l, r, heq⟩ := h
          rw [List.append_assoc, List.append_eq_append_iff] at heq
          rcases heq with ⟨l', hl', heq⟩ | ⟨l', hl', heq⟩
          · rcases List.append_eq_append_iff.1 heq.symm with ⟨r', hr', heq'⟩ | ⟨r', hr', heq'⟩
            · cases r' with
              | nil => exact Or.inl ⟨l, [], by simp [hl', hr']⟩
              | cons e r' =>
                rw [List.cons_append, List.cons.injEq] at heq'
                exact absurd (by rw [hr', ← heq'.1]; simp) hb
            · exact Or.inl ⟨l, r', by rw [hl', hr', List.append_assoc]⟩
          · cases l' with
            | nil =>
              rw [List.nil_append] at heq
              cases b with
              | nil => exact Or.inl (List.nil_infix)
              | cons e b =>
                rw [List.cons_append, List.cons.injEq] at heq
                exact absurd (by simp [heq.1]) hb
            | cons e l' =>
              rw [List.cons_append, List.cons.injEq] at heq
              exact Or.inr ⟨l', r, by rw [heq.2, List.append_assoc]⟩
        rcases hparts with hparts | hparts
        · exact ⟨_, List.mem_cons_self .., by rwa [String.toList_ofList]⟩
        · obtain ⟨p, hp, hin⟩ := ih [] (by simpa using hparts)
          exact ⟨p, List.mem_cons_of_mem _ hp, hin⟩
    · exact ih (c :: acc) (by simpa using h)

/-- There is an agent that no name in a context has in it, whoever the context is for. -/
theorem exists_unknown (d : Definition) (a : String) {x : Vars} (hx : x.Sorted) :
    ∃ b : String, Probe b.toList ∧ b.toList ≠ [] ∧ (∀ c ∈ b.toList, c = 'x') ∧
      ∀ y : Vars, y.Sorted → d.Twin a b x y → ∀ q : List Char, b.toList <:+: q → '@' ∉ q →
        resolveVariable (String.ofList q) (d.initialContext y) = none := by
  obtain ⟨n, hn⟩ := exists_bound (d.initialContext x)
  have hall : ∀ c ∈ (String.ofList (List.replicate (n + 1) 'x')).toList, c = 'x' := by
    rw [String.toList_ofList]
    exact fun c hc => List.eq_of_mem_replicate hc
  refine ⟨String.ofList (List.replicate (n + 1) 'x'), fun c hc => ?_, ?_, hall, ?_⟩
  · rw [hall c hc]
    decide
  · rw [String.toList_ofList]
    simp
  · intro y hy htwin q hq hat
    rw [String.toList_ofList] at hq
    by_contra hfound
    -- the path is found for the one agent as it is for the other
    have hfound' : ∃ w, resolveVariable (String.ofList q) (d.initialContext x) = some w := by
      rcases Definition.resolveVariable_twin hx hy htwin (String.ofList q) with
        ⟨-, hv, -⟩ | ⟨-, hsame⟩ | ⟨-, fs, gs, hv, -⟩
      · exact ⟨_, hv⟩
      · rw [← hsame] at hfound
        exact Option.ne_none_iff_exists'.1 hfound
      · exact ⟨_, hv⟩
    obtain ⟨w, hw⟩ := hfound'
    have htrim : Text.trimStartMatches '@' (String.ofList q) = String.ofList q := by
      rw [Text.trimStartMatches, String.toList_ofList]
      cases q with
      | nil => rfl
      | cons c q =>
        have hc : c ≠ '@' := fun h => hat (h ▸ List.mem_cons_self ..)
        simp [hc]
    rw [resolveVariable, htrim, Text.splitChar, String.toList_ofList] at hw
    obtain ⟨p, hp, hin⟩ := @exists_infix_splitAux (List.replicate (n + 1) 'x') '.'
      (by simp) q [] hq
    have hlong := hin.length_le
    have hshort := hn _ w hw p hp
    rw [List.length_replicate] at hlong
    omega

/-! ## The result -/

namespace Definition

/-- The inputs of a run for a task can be resolved, and every agent input and every binding
is the task's agent, whether or not the run has a project. -/
def FollowsTask (env : Env) (d : Definition) (agent : String) : Prop :=
  ∃ inputs, d.resolveDefaultTaskInputs (some agent) = .ok inputs ∧
    (∀ i ∈ d.inputs, i.2.inputType = .agent → ∀ v, inputs.get? i.1 = some v → v = .str agent) ∧
    ∀ requireAll, ∃ r,
      d.resolveAgentBindings env (buildContext inputs d.globals []) requireAll = .ok r ∧
        ∀ b ∈ r.2.1, b.2 = agent

/-- The context in which the check renders the selectors. -/
def sentinelContext (d : Definition) : Json :=
  match d.resolveDefaultTaskInputs (some taskAgentSentinel) with
  | .ok inputs => buildContext inputs d.globals []
  | .error _ => .null

/-- Only the primary one of the agent inputs has a value, and every selector inserts it. -/
structure InsertsTaskAgent (env : Env) (d : Definition) : Prop where
  inputs : ∀ i ∈ d.inputs, i.2.inputType = .agent → d.Given i.1 → d.primaryAgent = some i.1
  selectors : ∀ selector ∈ d.selectors, Follows env d d.sentinelContext selector

theorem sentinel_probe : Probe taskAgentSentinel.toList := by
  have hall : taskAgentSentinel.toList.all isIdentStart = true := by decide +kernel
  exact List.all_eq_true.1 hall

theorem sentinel_ne_nil : taskAgentSentinel.toList ≠ [] := by decide

variable {env : Env} {d : Definition}

/-- What an accepted definition resolves to for the sentinel, and for the agent of any task. -/
theorem exists_twin (hok : validateDefaultTaskTrigger env d = .ok ()) : ∃ x : Vars, x.Sorted ∧
    d.sentinelContext = d.initialContext x ∧
    (∀ i ∈ d.inputs, i.2.inputType = .agent → ∀ agent, Vars.get? x i.1 = some (.str agent) →
      agent = taskAgentSentinel) ∧
    (∀ selector ∈ d.selectors, selected env (d.initialContext x) selector = taskAgentSentinel) ∧
    ∀ a, TaskAgent a → ∃ y : Vars, y.Sorted ∧ d.Twin taskAgentSentinel a x y ∧
      d.resolveDefaultTaskInputs (some a) = .ok (.obj y) := by
  have hsentinel : TaskAgent taskAgentSentinel := sentinel_probe.taskAgent sentinel_ne_nil
  obtain ⟨inputs, hinputs, hagents, hbindings⟩ := validateDefaultTaskTrigger_ok hok
  obtain ⟨x, -, rfl, -, -⟩ :=
    resolveDefaultTaskInputs_twin hsentinel.nonblank hsentinel.nonblank hinputs
  refine ⟨x, resolveDefaultTaskInputs_sorted hsentinel.nonblank hinputs, ?_, hagents,
    (resolveAgentBindings_all_iff hsentinel.concrete).1 hbindings, fun a ha => ?_⟩
  · rw [sentinelContext, hinputs]
    rfl
  · obtain ⟨x', y, hx', hy, htwin⟩ :=
      resolveDefaultTaskInputs_twin hsentinel.nonblank ha.nonblank hinputs
    cases hx'
    exact ⟨y, resolveDefaultTaskInputs_sorted ha.nonblank hy, htwin, hy⟩

theorem followsTask_of_inserts (hobject : ∀ fs, '{' ∈ (env.renderJson (.obj fs)).toList)
    (hok : validateDefaultTaskTrigger env d = .ok ()) (h : d.InsertsTaskAgent env) {a : String}
    (ha : TaskAgent a) : d.FollowsTask env a := by
  obtain ⟨x, hx, hcontext, -, hselected, hruns⟩ := exists_twin hok
  obtain ⟨y, hy, htwin, hresolved⟩ := hruns a ha
  refine ⟨_, hresolved, fun i hi htype v hv => ?_, ?_⟩
  · change Vars.get? y i.1 = some v at hv
    have hgiven : d.Given i.1 := by
      rw [← htwin.given]
      by_cases hprimary : d.primaryAgent = some i.1
      · rw [(htwin.primary i.1 hprimary).1]
        rfl
      · rw [htwin.other i.1 hprimary, hv]
        rfl
    rw [(htwin.primary i.1 (h.inputs i hi htype hgiven)).2] at hv
    exact (Option.some.inj hv).symm
  · refine resolveAgentBindings_of_selected ha.concrete fun selector hselector => ?_
    exact selected_of_follows hobject hx hy htwin sentinel_probe sentinel_ne_nil ha
      (hselected selector hselector) (hcontext ▸ h.selectors selector hselector)

theorem inserts_of_followsTask (hobject : ∀ fs, '{' ∈ (env.renderJson (.obj fs)).toList)
    (hok : validateDefaultTaskTrigger env d = .ok ())
    (h : ∀ a, TaskAgent a → d.FollowsTask env a) : d.InsertsTaskAgent env := by
  obtain ⟨x, hx, hcontext, hagents, hselected, hruns⟩ := exists_twin hok
  obtain ⟨b, hb, hne, hall, hfresh⟩ := exists_unknown d taskAgentSentinel hx
  have hagent : TaskAgent b := hb.taskAgent hne
  have hdiffers : taskAgentSentinel ≠ b := by
    intro heq
    have hmem : '_' ∈ b.toList := by
      rw [← heq]
      decide
    exact absurd (hall _ hmem) (by decide)
  obtain ⟨y, hy, htwin, hresolved⟩ := hruns b hagent
  obtain ⟨inputs, hinputs, hvalues, hbindings⟩ := h b hagent
  rw [hresolved] at hinputs
  cases hinputs
  constructor
  · intro i hi htype hgiven
    by_contra hprimary
    obtain ⟨v, hv⟩ := Option.isSome_iff_exists.1 ((htwin.given i.1).2 hgiven)
    have hv' : Vars.get? y i.1 = some v := htwin.other i.1 hprimary ▸ hv
    obtain rfl : v = .str b := hvalues i hi htype v hv'
    exact hdiffers (hagents i hi htype b hv).symm
  · intro selector hselector
    rw [hcontext]
    exact follows_of_selected hobject hx hy htwin sentinel_probe hb hne hdiffers
      (hfresh y hy htwin) (hselected selector hselector)
      ((resolveAgentBindings_all_iff hagent.concrete).1 (hbindings true) selector hselector)

/-- **Which default workflows follow their task.**  An accepted definition follows the agent
of every task exactly when it has the sentinel from the primary agent input alone: no other
agent input has a value, and every selector inserts that input, with no `@` running into it. -/
theorem default_task_follows_iff (hobject : ∀ fs, '{' ∈ (env.renderJson (.obj fs)).toList)
    (hok : validateDefaultTaskTrigger env d = .ok ()) :
    (∀ a, TaskAgent a → d.FollowsTask env a) ↔ d.InsertsTaskAgent env := by
  constructor
  · exact inserts_of_followsTask hobject hok
  · intro h a ha
    exact followsTask_of_inserts hobject hok h ha

/-- Objects are written with braces; nothing else is needed of the rendering here. -/
def braceEnv : Env :=
  { textEnv with
    renderJson := fun
      | .obj _ => "\x7b\x7d"
      | _ => "null" }

theorem braceEnv_object (fs : Vars) : '{' ∈ (braceEnv.renderJson (.obj fs)).toList := by
  change '{' ∈ "\x7b\x7d".toList
  decide

/-- A workflow whose step goes to the primary agent input. -/
def followingTask : Definition where
  name := "default-policy"
  inputs := [("worker", { inputType := .agent, required := true, primary := true })]
  flows := [("main", ⟨[{ id := "check", agent := some "@worker", prompt := some "Check it" }]⟩)]

/-- Its step goes to the agent of the task. -/
theorem default_task_follows_atlas : followingTask.FollowsTask braceEnv "atlas" := by
  refine (default_task_follows_iff braceEnv_object (by decide +kernel)).2 ⟨?_, ?_⟩ "atlas"
    ⟨by decide, by decide, by decide, by decide⟩
  · decide +kernel
  · decide +kernel

/-- A workflow whose step names the sentinel itself. -/
def namingSentinel : Definition where
  name := "default-policy"
  flows := [("main", ⟨[{ id := "check", agent := some "__xpressclaw_source_task_agent__",
                         prompt := some "Check it" }]⟩)]

/-- It is accepted, and its step does not go to the agent of the task. -/
theorem default_task_names_sentinel :
    validateDefaultTaskTrigger braceEnv namingSentinel = .ok () ∧ TaskAgent "atlas" ∧
      ¬ namingSentinel.FollowsTask braceEnv "atlas" := by
  have hagent : TaskAgent "atlas" := ⟨by decide, by decide, by decide, by decide⟩
  refine ⟨by decide +kernel, hagent, ?_⟩
  rintro ⟨inputs, hinputs, -, hbindings⟩
  have hselected := (resolveAgentBindings_all_iff hagent.concrete).1 (hbindings true)
    "__xpressclaw_source_task_agent__" (by decide +kernel)
  obtain rfl : Json.obj [] = inputs := Except.ok.inj hinputs
  revert hselected
  decide +kernel

end Definition
end XpressClaw
