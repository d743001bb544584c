import XpressClaw.Workflow.TaskTrigger

/-!
# Selectors with a hole for the agent

A selector is rendered once for the sentinel and later for the agent of each task.  The two
renderings are compared through one text with holes: where the agent is inserted stands a
hole, everything else is the same.

* `Definition.ReadsAgent` — the paths under which a selector finds the primary agent input.
* `resolveVariable_twin` — what a path finds in the contexts of two agents.
* `fill` — a text with holes, filled with an agent.
* `holed` — the text between the two passes, with a hole for each inserted agent.
* `meetsAgent` — an `@` whose reference would run into an inserted agent.
-/

namespace XpressClaw

open Lib Context

/-! ## Variables of a context -/

namespace Vars

variable {vs ws : Vars} {k : String}

theorem extend_cons (vs : Vars) (f : String × Json) (fs : Vars) :
    extend vs (f :: fs) = extend (insert vs f.1 f.2) fs := rfl

theorem get?_extend_congr (h : get? vs k = get? ws k) (fs : Vars) :
    get? (extend vs fs) k = get? (extend ws fs) k := by
  induction fs generalizing vs ws with
  | nil => exact h
  | cons f fs ih =>
    rw [extend_cons, extend_cons]
    apply ih
    rw [get?_insert, get?_insert, h]

theorem get?_extend_of_none {fs : Vars} (h : get? fs k = none) :
    get? (extend vs fs) k = get? vs k := by
  induction fs generalizing vs with
  | nil => rfl
  | cons f fs ih =>
    obtain ⟨n, v⟩ := f
    rw [get?_cons] at h
    by_cases hn : n = k
    · simp [hn] at h
    · rw [if_neg hn] at h
      rw [extend_cons, ih h, get?_insert, if_neg (Ne.symm hn)]

theorem get?_extend_of_some {fs : Vars} (h : get? fs k ≠ none) :
    get? (extend vs fs) k = get? (extend ws fs) k := by
  induction fs generalizing vs ws with
  | nil => exact absurd rfl h
  | cons f fs ih =>
    obtain ⟨n, v⟩ := f
    rw [extend_cons, extend_cons]
    by_cases hn : k = n
    · apply get?_extend_congr
      rw [get?_insert, get?_insert, if_pos hn, if_pos hn]
    · rw [get?_cons, if_neg (Ne.symm hn)] at h
      exact ih h

theorem get?_extend_of_nodup {fs : Vars} (hnd : (fs.map Prod.fst).Nodup) :
    get? (extend vs fs) k = (get? fs k).or (get? vs k) := by
  induction fs generalizing vs with
  | nil => rfl
  | cons f fs ih =>
    obtain ⟨n, v⟩ := f
    rw [List.map_cons, List.nodup_cons] at hnd
    rw [extend_cons, ih hnd.2, get?_insert, get?_cons]
    by_cases hn : k = n
    · subst hn
      have hnone : get? fs k = none := by
        rw [get?, Option.map_eq_none_iff, List.find?_eq_none]
        intro f hf
        have hmem : f.1 ∈ fs.map Prod.fst := List.mem_map_of_mem hf
        have hne : f.1 ≠ k := fun h => hnd.1 (h ▸ hmem)
        simpa using hne
      simp [hnone]
    · simp [hn, Ne.symm hn]

/-- The variables are sorted by name. -/
def Sorted (vs : Vars) : Prop := vs.Pairwise fun f g => f.1 < g.1

theorem Sorted.insert (h : vs.Sorted) (n : String) (v : Json) : (vs.insert n v).Sorted := by
  unfold Sorted at h ⊢
  induction vs with
  | nil => exact List.pairwise_singleton _ _
  | cons g vs ih =>
    obtain ⟨m, w⟩ := g
    have hbelow : ∀ f ∈ vs, m < f.1 := (List.pairwise_cons.1 h).1
    rw [Vars.insert, Json.insertField]
    split
    · next heq =>
        subst heq
        exact List.pairwise_cons.2 ⟨hbelow, (List.pairwise_cons.1 h).2⟩
    · next hne =>
        split
        · next hlt =>
            refine List.pairwise_cons.2 ⟨fun f hf => ?_, h⟩
            rcases List.mem_cons.1 hf with rfl | hf
            · exact hlt
            · exact String.lt_trans hlt (hbelow f hf)
        · next hge =>
            refine List.pairwise_cons.2 ⟨fun f hf => ?_, ih (List.pairwise_cons.1 h).2⟩
            rcases mem_insert hf with rfl | hf
            · rcases Classical.em (m < n) with hlt | hnlt
              · exact hlt
              · exact absurd (String.le_antisymm (String.not_lt.1 hnlt) (String.not_lt.1 hge)) hne
            · exact hbelow f hf

theorem Sorted.nodup (h : vs.Sorted) : (vs.map Prod.fst).Nodup := by
  rw [List.Nodup, List.pairwise_map]
  refine List.Pairwise.imp ?_ h
  intro f g hlt heq
  rw [heq] at hlt
  exact String.lt_irrefl _ hlt

end Vars

namespace Definition

theorem resolveEach_sorted {provided : Vars} (is : List (String × Input)) {acc r : Vars}
    (hacc : acc.Sorted) (h : resolveEach provided is acc = .ok r) : r.Sorted := by
  induction is generalizing acc with
  | nil =>
    cases h
    exact hacc
  | cons i is ih =>
    obtain ⟨name, input⟩ := i
    rw [resolveEach] at h
    split at h
    · obtain ⟨⟨⟩, -, hrest⟩ := bind_ok h
      exact ih (hacc.insert _ _) hrest
    · split at h
      · cases h
      · exact ih hacc h

variable {d : Definition} {a b : String}

theorem resolveDefaultTaskInputs_sorted (ha : Text.isBlank a = false) {x : Vars}
    (h : d.resolveDefaultTaskInputs (some a) = .ok (.obj x)) : x.Sorted := by
  rw [resolveDefaultTaskInputs_ok ha] at h
  by_cases hempty : d.inputs.isEmpty = true
  · rw [resolveInputs, if_pos hempty] at h
    cases h
    rw [provided]
    cases d.primaryAgent with
    | none => exact List.Pairwise.nil
    | some name => exact List.pairwise_singleton _ _
  · rw [resolveInputs_provided (by simpa using hempty)] at h
    cases hr : resolveEach (d.provided a) d.inputs [] with
    | error e => rw [hr] at h; cases h
    | ok r =>
      rw [hr] at h
      cases h
      exact resolveEach_sorted d.inputs List.Pairwise.nil hr

/-! ## The contexts of two agents -/

/-- The parts of a path that a selector names. -/
def path (q : String) : List String := Text.splitChar '.' (Text.trimStartMatches '@' q)

/-- The paths under which the primary agent input is found: its name, and its place in the
trigger payload if nothing takes the name `trigger`. -/
def readsAgent (d : Definition) (q : String) : Bool :=
  d.primaryAgent.any fun name => path q = [name] ||
    (path q = ["trigger", "payload", name] && !decide (d.Given "trigger") &&
      (Vars.get? d.globals "trigger").isNone)

/-- The context of a run for a task, before any step has run. -/
def initialContext (d : Definition) (inputs : Vars) : Json :=
  buildContext (.obj inputs) d.globals []

theorem readsAgent_iff {q : String} : d.readsAgent q = true ↔ ∃ name, d.primaryAgent = some name ∧
    (path q = [name] ∨ path q = ["trigger", "payload", name] ∧ ¬ d.Given "trigger" ∧
      Vars.get? d.globals "trigger" = none) := by
  simp [readsAgent, Option.any_eq_true, and_assoc]

theorem get?_initialContext {x : Vars} (hx : x.Sorted) (p : String) :
    (d.initialContext x).get? p = (Vars.get? x p).or
      (Vars.get? (Vars.extend [("trigger", .obj [("payload", .obj x)])] d.globals) p) :=
  Vars.get?_extend_of_nodup hx.nodup

/-- **What a path finds for two agents**: the agents, the same value, or two objects. -/
theorem resolveVariable_twin {x y : Vars} (hx : x.Sorted) (hy : y.Sorted) (h : d.Twin a b x y)
    (q : String) :
    (d.readsAgent q = true ∧ resolveVariable q (d.initialContext x) = some (.str a) ∧
        resolveVariable q (d.initialContext y) = some (.str b)) ∨
      (d.readsAgent q = false ∧
        resolveVariable q (d.initialContext x) = resolveVariable q (d.initialContext y)) ∨
      (d.readsAgent q = false ∧ ∃ fs gs, resolveVariable q (d.initialContext x) = some (.obj fs) ∧
        resolveVariable q (d.initialContext y) = some (.obj gs)) := by
  have hreads : d.readsAgent q = false ↔ ¬ ∃ name, d.primaryAgent = some name ∧
      (path q = [name] ∨ path q = ["trigger", "payload", name] ∧ ¬ d.Given "trigger" ∧
        Vars.get? d.globals "trigger" = none) := by
    rw [← readsAgent_iff, Bool.not_eq_true]
  rw [resolveVariable, resolveVariable]
  change (_ ∧ follow (path q) _ = _ ∧ follow (path q) _ = _) ∨
    (_ ∧ follow (path q) _ = follow (path q) _) ∨
    (_ ∧ ∃ fs gs, follow (path q) _ = _ ∧ follow (path q) _ = _)
  obtain ⟨p, ps, hpath⟩ := List.exists_cons_of_ne_nil
    (splitAux_ne_nil '.' (Text.trimStartMatches '@' q).toList [])
  change path q = p :: ps at hpath
  rw [hreads, readsAgent_iff, hpath, follow, follow, get?_initialContext hx, get?_initialContext hy]
  by_cases hp : d.primaryAgent = some p
  · -- the path starts at the primary agent input
    obtain ⟨hxp, hyp⟩ := h.primary p hp
    rw [hxp, hyp, Option.some_or, Option.some_or, Option.bind_some, Option.bind_some]
    cases ps with
    | nil => exact Or.inl ⟨⟨p, hp, Or.inl rfl⟩, rfl, rfl⟩
    | cons p' ps =>
      refine Or.inr (Or.inl ⟨?_, rfl⟩)
      rintro ⟨name, -, hname | ⟨hname, hgiven, -⟩⟩
      · cases hname
      · cases hname
        exact hgiven (Or.inl hp)
  · have hsame := h.other p hp
    have hgiven : d.Given p ↔ (Vars.get? x p).isSome = true := (h.given p).symm
    have hfirst : ∀ name, d.primaryAgent = some name → p :: ps ≠ [name] := by
      rintro name hname heq
      cases heq
      exact hp hname
    cases hxp : Vars.get? x p with
    | some v =>
      -- another input
      rw [← hsame, hxp, Option.some_or]
      refine Or.inr (Or.inl ⟨?_, rfl⟩)
      rintro ⟨name, hname, heq | ⟨heq, hnot, -⟩⟩
      · exact hfirst name hname heq
      · cases heq
        exact hnot (hgiven.2 (by rw [hxp]; rfl))
    | none =>
      rw [← hsame, hxp, Option.none_or, Option.none_or]
      by_cases hglobal : Vars.get? d.globals p = none
      · rw [Vars.get?_extend_of_none hglobal, Vars.get?_extend_of_none hglobal, Vars.get?_cons,
          Vars.get?_cons]
        by_cases htrigger : "trigger" = p
        · -- the trigger payload
          subst htrigger
          rw [if_pos rfl, if_pos rfl, Option.bind_some, Option.bind_some]
          have hnot : ¬ d.Given "trigger" := by
            rw [hgiven, hxp]
            simp
          cases ps with
          | nil =>
            refine Or.inr (Or.inr ⟨?_, _, _, rfl, rfl⟩)
            rintro ⟨name, hname, heq | ⟨heq, -⟩⟩
            · exact hfirst name hname heq
            · cases heq
          | cons p' ps =>
            rw [follow, follow]
            by_cases hpayload : p' = "payload"
            · subst hpayload
              change (_ ∧ follow ps (.obj x) = _ ∧ follow ps (.obj y) = _) ∨
                (_ ∧ follow ps (.obj x) = follow ps (.obj y)) ∨
                (_ ∧ ∃ fs gs, follow ps (.obj x) = _ ∧ follow ps (.obj y) = _)
              cases ps with
              | nil =>
                refine Or.inr (Or.inr ⟨?_, _, _, rfl, rfl⟩)
                rintro ⟨name, -, heq | ⟨heq, -⟩⟩ <;> cases heq
              | cons k ps =>
                rw [follow, follow]
                change (_ ∧ (Vars.get? x k).bind _ = _ ∧ (Vars.get? y k).bind _ = _) ∨
                  (_ ∧ (Vars.get? x k).bind _ = (Vars.get? y k).bind _) ∨
                  (_ ∧ ∃ fs gs, (Vars.get? x k).bind _ = _ ∧ (Vars.get? y k).bind _ = _)
                by_cases hk : d.primaryAgent = some k
                · obtain ⟨hxk, hyk⟩ := h.primary k hk
                  rw [hxk, hyk, Option.bind_some, Option.bind_some]
                  cases ps with
                  | nil => exact Or.inl ⟨⟨k, hk, Or.inr ⟨rfl, hnot, hglobal⟩⟩, rfl, rfl⟩
                  | cons k' ps =>
                    refine Or.inr (Or.inl ⟨?_, rfl⟩)
                    rintro ⟨name, -, heq | ⟨heq, -⟩⟩ <;> cases heq
                · rw [h.other k hk]
                  refine Or.inr (Or.inl ⟨?_, rfl⟩)
                  rintro ⟨name, hname, heq | ⟨heq, -⟩⟩
                  · cases heq
                  · cases heq
                    exact hk hname
            · have hnone : ∀ v, (Json.obj [("payload", v)]).get? p' = none := by
                intro v
                simp [Json.get?, Ne.symm hpayload]
              rw [hnone, hnone]
              refine Or.inr (Or.inl ⟨?_, rfl⟩)
              rintro ⟨name, -, heq | ⟨heq, -⟩⟩
              · cases heq
              · cases heq
                exact hpayload rfl
        · rw [if_neg htrigger, if_neg htrigger]
          refine Or.inr (Or.inl ⟨?_, rfl⟩)
          rintro ⟨name, hname, heq | ⟨heq, -⟩⟩
          · exact hfirst name hname heq
          · cases heq
            exact htrigger rfl
      · rw [@Vars.get?_extend_of_some _ [("trigger", .obj [("payload", .obj y)])] _ _ hglobal]
        refine Or.inr (Or.inl ⟨?_, rfl⟩)
        rintro ⟨name, hname, heq | ⟨heq, -, hnone⟩⟩
        · exact hfirst name hname heq
        · cases heq
          exact hglobal hnone

end Definition
/-! ## Texts with holes -/

/-- A text with holes, filled with an agent. -/
def fill (a : List Char) (t : List (Option Char)) : List Char := t.flatMap fun
  | some c => [c]
  | none => a

/-- The rounds of `render_brace_placeholders`, with a hole where the agent is inserted. -/
def holedFrom (env : Env) (d : Definition) (ctx : Json) : ℕ → List Char → List (Option Char)
  | 0, remaining => remaining.map some
  | fuel + 1, remaining =>
      match findSub ['{', '{'] remaining with
      | none => remaining.map some
      | some (before, afterOpen) =>
          match findSub ['}', '}'] afterOpen with
          | none => remaining.map some
          | some (inner, rest) =>
              let path := Text.trimStartMatches '@' (Text.trim (String.ofList inner))
              let text := if d.readsAgent path then [none] else
                match resolveVariable path ctx with
                | some v => (valueToString env v).toList.map some
                | none => (['{', '{'] ++ inner ++ ['}', '}']).map some
              before.map some ++ text ++ holedFrom env d ctx fuel rest

/-- The text of a selector between the two passes, with a hole for each inserted agent. -/
def holed (env : Env) (d : Definition) (ctx : Json) (template : String) : List (Option Char) :=
  holedFrom env d ctx (template.toList.length + 1) template.toList

/-- Identifier characters, and then a hole. -/
def runsIntoAgent : List (Option Char) → Bool
  | [] => false
  | none :: _ => true
  | some c :: t => isIdentChar c && runsIntoAgent t

/-- Some `@` is followed by a hole, with nothing but identifier characters between. -/
def meetsAgent : List (Option Char) → Bool
  | [] => false
  | o :: t => (o = some '@' && runsIntoAgent t) || meetsAgent t

section Fill

variable {a b : List Char} {t u : List (Option Char)}

@[simp] theorem fill_nil : fill a [] = [] := rfl

@[simp] theorem fill_cons_some (c : Char) : fill a (some c :: t) = c :: fill a t := rfl

@[simp] theorem fill_cons_none : fill a (none :: t) = a ++ fill a t := rfl

@[simp] theorem fill_append : fill a (t ++ u) = fill a t ++ fill a u := List.flatMap_append

@[simp] theorem fill_map_some (cs : List Char) : fill a (cs.map some) = cs := by
  induction cs with
  | nil => rfl
  | cons c cs ih => rw [List.map_cons, fill_cons_some, ih]

theorem fill_of_none_notMem (h : none ∉ t) : fill a t = fill b t := by
  induction t with
  | nil => rfl
  | cons o t ih =>
    rw [List.mem_cons, not_or] at h
    cases o with
    | none => exact absurd rfl h.1
    | some c => rw [fill_cons_some, fill_cons_some, ih h.2]

/-- What stands before the first hole or the first character that no identifier has. -/
theorem exists_ident_append (t : List (Option Char)) :
    ∃ (w : List Char) (rest : List (Option Char)),
    t = w.map some ++ rest ∧ (∀ c ∈ w, isIdentChar c = true) ∧
    (runsIntoAgent t = true → ∃ r, rest = none :: r) ∧
    (runsIntoAgent t = false → rest = [] ∨ ∃ c r, rest = some c :: r ∧ isIdentChar c = false) := by
  induction t with
  | nil => exact ⟨[], [], rfl, by simp, by simp [runsIntoAgent], fun _ => Or.inl rfl⟩
  | cons o t ih =>
    cases o with
    | none => exact ⟨[], none :: t, rfl, by simp, fun _ => ⟨t, rfl⟩, by simp [runsIntoAgent]⟩
    | some c =>
      by_cases hc : isIdentChar c = true
      · obtain ⟨w, rest, rfl, hw, hmeets, hclear⟩ := ih
        refine ⟨c :: w, rest, rfl, ?_, ?_, ?_⟩
        · intro c' hc'
          rcases List.mem_cons.1 hc' with rfl | hc'
          · exact hc
          · exact hw c' hc'
        · simpa [runsIntoAgent, hc] using hmeets
        · simpa [runsIntoAgent, hc] using hclear
      · rw [Bool.not_eq_true] at hc
        refine ⟨[], some c :: t, rfl, by simp, by simp [runsIntoAgent, hc], ?_⟩
        exact fun _ => Or.inr ⟨c, t, rfl, hc⟩

end Fill

/-! ## The two passes for two agents -/

/-- Characters that can stand in a path and are no dot. -/
def Probe (a : List Char) : Prop := ∀ c ∈ a, isIdentStart c = true

section Passes

variable {env : Env} {d : Definition} {a b : String} {x y : Vars}

/-- The text of a value: a hole for the agent, and the same text for every other value that
is written without braces. -/
theorem valueToString_twin (hobject : ∀ fs, '{' ∈ (env.renderJson (.obj fs)).toList)
    (hx : x.Sorted) (hy : y.Sorted) (h : d.Twin a b x y) {q : String} {v : Json}
    (hv : resolveVariable q (d.initialContext x) = some v)
    (hbrace : '{' ∉ (valueToString env v).toList) :
    ∃ w u, resolveVariable q (d.initialContext y) = some w ∧
      (valueToString env v).toList = fill a.toList u ∧
      (valueToString env w).toList = fill b.toList u ∧
      u = if d.readsAgent q then [none] else (valueToString env v).toList.map some := by
  rcases Definition.resolveVariable_twin hx hy h q with
    ⟨hreads, hvx, hvy⟩ | ⟨hreads, hsame⟩ | ⟨hreads, fs, gs, hvx, -⟩
  · rw [hv] at hvx
    cases hvx
    exact ⟨_, [none], hvy, by simp [valueToString], by simp [valueToString], by simp [hreads]⟩
  · exact ⟨v, (valueToString env v).toList.map some, hsame ▸ hv, by simp, by simp, by simp [hreads]⟩
  · rw [hv] at hvx
    cases hvx
    exact absurd (hobject fs) hbrace

/-- The first pass writes one text with holes for both agents. -/
theorem renderBraces_twin (hobject : ∀ fs, '{' ∈ (env.renderJson (.obj fs)).toList)
    (hx : x.Sorted) (hy : y.Sorted) (h : d.Twin a b x y) (fuel : ℕ) {cs : List Char}
    (hbrace : '{' ∉ renderBraces env (d.initialContext x) fuel cs) :
    renderBraces env (d.initialContext x) fuel cs =
        fill a.toList (holedFrom env d (d.initialContext x) fuel cs) ∧
      renderBraces env (d.initialContext y) fuel cs =
        fill b.toList (holedFrom env d (d.initialContext x) fuel cs) := by
  induction fuel generalizing cs with
  | zero => simp [renderBraces, holedFrom]
  | succ fuel ih =>
    rw [renderBraces] at hbrace
    rw [renderBraces, renderBraces, holedFrom]
    cases hopen : findSub ['{', '{'] cs with
    | none => simp
    | some opened =>
      obtain ⟨before, afterOpen⟩ := opened
      rw [hopen] at hbrace
      dsimp only at hbrace ⊢
      cases hclose : findSub ['}', '}'] afterOpen with
      | none => simp
      | some closed =>
        obtain ⟨inner, rest⟩ := closed
        rw [hclose] at hbrace
        dsimp only at hbrace ⊢
        generalize Text.trimStartMatches '@' (Text.trim (String.ofList inner)) = q at hbrace ⊢
        cases hv : resolveVariable q (d.initialContext x) with
        | none =>
          rw [hv] at hbrace
          simp at hbrace
        | some v =>
          rw [hv] at hbrace
          simp only [List.mem_append, not_or] at hbrace
          obtain ⟨w, u, hw, hvu, hwu, rfl⟩ :=
            valueToString_twin hobject hx hy h hv hbrace.1.2
          obtain ⟨hrestx, hresty⟩ := ih hbrace.2
          rw [hw, hrestx, hresty]
          dsimp only
          rw [hwu]
          simp only [fill_append, fill_map_some]
          exact ⟨by rw [← hvu], trivial⟩

theorem takeWhile_fill {c : List Char} {w : List Char} {rest : List (Option Char)}
    (hw : ∀ c ∈ w, isIdentChar c = true)
    (hrest : rest = [] ∨ ∃ c r, rest = some c :: r ∧ isIdentChar c = false) :
    (fill c (w.map some ++ rest)).takeWhile isIdentChar = w := by
  rw [fill_append, fill_map_some, List.takeWhile_append_of_pos hw]
  rcases hrest with rfl | ⟨c, r, rfl, hc⟩
  · simp
  · simp [hc]

theorem isIdentChar_of_isIdentStart {c : Char} (h : isIdentStart c = true) :
    isIdentChar c = true := by
  rw [isIdentChar, ← isIdentStart, h, Bool.true_or]

/-- A path that runs into a probe holds all of it. -/
theorem isPrefix_pathAt {p w rest : List Char} (hp : Probe p) (hne : p ≠ [])
    (hw : ∀ c ∈ w, isIdentChar c = true) : w ++ p <+: pathAt (w ++ p ++ rest) := by
  have hall : ∀ c ∈ w ++ p, isIdentChar c = true := by
    intro c hc
    rcases List.mem_append.1 hc with hc | hc
    · exact hw c hc
    · exact isIdentChar_of_isIdentStart (hp c hc)
  rw [pathAt, List.takeWhile_append_of_pos hall, List.reverse_append, List.dropWhile_append]
  split
  · -- only dots stand behind the probe
    obtain ⟨c, p', hlast⟩ := List.exists_cons_of_ne_nil (List.reverse_ne_nil_iff.2 hne)
    have hc : c ≠ '.' := isIdentStart_ne_dot
      (hp c (List.mem_reverse.1 (hlast ▸ List.mem_cons_self ..)))
    have hstop : (w ++ p).reverse.dropWhile (· == '.') = (w ++ p).reverse := by
      rw [List.reverse_append, hlast, List.cons_append, List.dropWhile_cons]
      simp [hc]
    rw [hstop, List.reverse_reverse]
  · rw [List.reverse_append, List.reverse_reverse]
    exact List.prefix_append _ _

end Passes
end XpressClaw
