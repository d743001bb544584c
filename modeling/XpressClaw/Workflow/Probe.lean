import XpressClaw.Workflow.Holes

/-!
# What the sentinel says about every agent

A definition is accepted as a default workflow because its selectors come out as the
sentinel.  They come out as the agent of a task for the same reason only if the agent is
what they insert.

* `secondPass_twin` — one text with holes for both agents, unless an `@` meets the agent.
* `secondPass_fresh` — an `@` that meets the agent is left over for an unknown agent.
-/

namespace XpressClaw

open Lib Context

/-- What the second pass writes. -/
def secondPass (env : Env) (ctx : Json) (cs : List Char) : List Char :=
  (scan ctx 0 cs).flatMap (Written.chars env)

/-- Some `@` reference that was replaced is one to the primary agent input. -/
def mentionsAgent (d : Definition) (ws : List Written) : Bool := ws.any fun
  | .replaced path _ => d.readsAgent (String.ofList path)
  | .copied _ => false

section SecondPass

variable {env : Env} {ctx : Json} {d : Definition} {cs w rest path : List Char} {v : Json}

theorem secondPass_plain (h : '@' ∉ w) :
    secondPass env ctx (w ++ rest) = w ++ secondPass env ctx rest := by
  rw [secondPass, scan_plain h, List.flatMap_append, flatMap_copied]
  rfl

theorem secondPass_replaced (h : reference ctx cs = some (path, v)) :
    secondPass env ctx ('@' :: cs) =
      (valueToString env v).toList ++ secondPass env ctx (cs.drop path.length) := by
  rw [secondPass, scan, if_pos rfl, h]
  dsimp only
  rw [List.flatMap_cons, scan_skip]
  rfl

theorem secondPass_copied (h : reference ctx cs = none) :
    secondPass env ctx ('@' :: cs) = '@' :: secondPass env ctx cs := by
  rw [secondPass, scan, if_pos rfl, h]
  rfl

theorem mentionsAgent_plain (h : '@' ∉ w) :
    mentionsAgent d (scan ctx 0 (w ++ rest)) = mentionsAgent d (scan ctx 0 rest) := by
  rw [mentionsAgent, scan_plain h, List.any_append]
  simp [mentionsAgent]

theorem mentionsAgent_replaced (h : reference ctx cs = some (path, v)) :
    mentionsAgent d (scan ctx 0 ('@' :: cs)) = (d.readsAgent (String.ofList path) ||
      mentionsAgent d (scan ctx 0 (cs.drop path.length))) := by
  rw [scan, if_pos rfl, h]
  dsimp only
  rw [scan_skip, mentionsAgent, List.any_cons]
  rfl

theorem reference_path {r : List Char × Json} (h : reference ctx cs = some r) :
    r.1 = pathAt cs ∧ resolveVariable (String.ofList (pathAt cs)) ctx = some r.2 := by
  rw [reference] at h
  split at h
  · obtain ⟨w, hw, rfl⟩ := Option.map_eq_some_iff.1 h
    exact ⟨rfl, hw⟩
  · cases h

/-- A brace of the text is written by the second pass. -/
theorem brace_mem_scan (skip : ℕ) (h : '{' ∈ cs.drop skip) :
    .copied '{' ∈ scan ctx skip cs := by
  induction cs generalizing skip with
  | nil => simp at h
  | cons c cs ih =>
    cases skip with
    | succ skip => exact ih skip (by simpa using h)
    | zero =>
      rw [List.drop_zero] at h
      rw [scan]
      split
      · next path v hread =>
          -- no brace is in a path
          split at hread
          · next hat =>
              have hmem : '{' ∈ cs := by
                rcases List.mem_cons.1 h with h | h
                · rw [hat] at h
                  cases h
                · exact h
              have hpath : path = pathAt cs := (reference_path hread).1
              have hcs : pathAt cs ++ cs.drop (pathAt cs).length = cs :=
                (List.prefix_append_drop (pathAt_isPrefix cs)).symm
              rw [← hcs, List.mem_append] at hmem
              rcases hmem with hmem | hmem
              · exact absurd (isIdentChar_of_mem_pathAt hmem) (by decide)
              · exact List.mem_cons_of_mem _ (ih _ (hpath ▸ hmem))
          · cases hread
      · rcases List.mem_cons.1 h with rfl | h
        · exact List.mem_cons_self ..
        · exact List.mem_cons_of_mem _ (ih 0 (by simpa using h))

theorem brace_mem_secondPass (h : '{' ∈ cs) : '{' ∈ secondPass env ctx cs :=
  List.mem_flatMap.2 ⟨_, brace_mem_scan 0 (by simpa using h), List.mem_singleton.2 rfl⟩

end SecondPass

section Twin

variable {env : Env} {d : Definition} {a b : String} {x y : Vars} {t : List (Option Char)}

theorem drop_fill_append (c p : List Char) (t : List (Option Char)) :
    (fill c (p.map some ++ t)).drop p.length = fill c t := by
  rw [fill_append, fill_map_some, List.drop_left]

theorem meetsAgent_append {w : List Char} (h : '@' ∉ w) (t : List (Option Char)) :
    meetsAgent (w.map some ++ t) = meetsAgent t := by
  induction w with
  | nil => rfl
  | cons c w ih =>
    rw [List.mem_cons, not_or] at h
    rw [List.map_cons, List.cons_append, meetsAgent, ih h.2]
    simp [Ne.symm h.1]

/-- The reference behind an `@` that meets no hole is the same for every agent. -/
theorem exists_reference (h : runsIntoAgent t = false) : ∃ p t', t = p.map some ++ t' ∧ '@' ∉ p ∧
    ∃ start : Bool, ∀ (c : List Char) (ctx : Json), reference ctx (fill c t) =
      if start then (resolveVariable (String.ofList p) ctx).map fun v => (p, v) else none := by
  obtain ⟨w, rest, rfl, hw, -, hclear⟩ := exists_ident_append t
  have hrest := hclear h
  have hpath : ∀ c, pathAt (fill c (w.map some ++ rest)) = pathAt w := by
    intro c
    rw [pathAt, pathAt, takeWhile_fill hw hrest, List.takeWhile_eq_self_iff.2 hw]
  obtain ⟨w', hw'⟩ : ∃ w', pathAt w ++ w' = w := pathAt_isPrefix w
  refine ⟨pathAt w, w'.map some ++ rest, ?_, at_notMem_pathAt, w.head?.any isIdentStart, ?_⟩
  · rw [← List.append_assoc, ← List.map_append, hw']
  · intro c ctx
    have hhead : (fill c (w.map some ++ rest)).head?.any isIdentStart =
        w.head?.any isIdentStart := by
      rw [fill_append, fill_map_some]
      cases w with
      | cons c w => rfl
      | nil =>
        rcases hrest with rfl | ⟨c', r, rfl, hc'⟩
        · rfl
        · rw [isIdentChar, Bool.or_eq_false_iff] at hc'
          simpa [isIdentStart] using hc'.1
    rw [reference, hhead, hpath]

/-- The second pass for two agents, at the same `@`. -/
theorem reference_twin (hobject : ∀ fs, '{' ∈ (env.renderJson (.obj fs)).toList)
    (hx : x.Sorted) (hy : y.Sorted) (h : d.Twin a b x y) (hruns : runsIntoAgent t = false)
    (hat : '@' ∉ secondPass env (d.initialContext x) ('@' :: fill a.toList t))
    (hbrace : '{' ∉ secondPass env (d.initialContext x) ('@' :: fill a.toList t)) :
    ∃ p t' v w u, t = p.map some ++ t' ∧ '@' ∉ p ∧
      reference (d.initialContext x) (fill a.toList t) = some (p, v) ∧
      reference (d.initialContext y) (fill b.toList t) = some (p, w) ∧
      (valueToString env v).toList = fill a.toList u ∧
      (valueToString env w).toList = fill b.toList u ∧
      (none ∈ u ↔ d.readsAgent (String.ofList p) = true) := by
  obtain ⟨p, t', ht, hp, start, href⟩ := exists_reference hruns
  cases hread : reference (d.initialContext x) (fill a.toList t) with
  | none =>
    rw [secondPass_copied hread] at hat
    exact absurd (List.mem_cons_self ..) hat
  | some r =>
    rw [@secondPass_replaced env _ _ r.1 r.2 hread, List.mem_append, not_or] at hbrace
    rw [href] at hread
    cases start with
    | false => cases hread
    | true =>
      rw [if_pos rfl] at hread
      obtain ⟨v, hv, rfl⟩ := Option.map_eq_some_iff.1 hread
      obtain ⟨w, u, hw, hvu, hwu, hu⟩ := valueToString_twin hobject hx hy h hv hbrace.1
      refine ⟨p, t', v, w, u, ht, hp, rfl, ?_, hvu, hwu, ?_⟩
      · rw [href, if_pos rfl, hw]
        rfl
      · rw [hu]
        cases d.readsAgent (String.ofList p) <;> simp

/-- **The second pass for two agents.**  Where no `@` meets the agent, it writes one text
with holes for both. -/
theorem secondPass_twin (hobject : ∀ fs, '{' ∈ (env.renderJson (.obj fs)).toList)
    (hx : x.Sorted) (hy : y.Sorted) (h : d.Twin a b x y) (ha : '@' ∉ a.toList) (hb : '@' ∉ b.toList)
    (n : ℕ) (hn : t.length ≤ n) (hmeets : meetsAgent t = false)
    (hat : '@' ∉ secondPass env (d.initialContext x) (fill a.toList t))
    (hbrace : '{' ∉ secondPass env (d.initialContext x) (fill a.toList t)) :
    ∃ u, secondPass env (d.initialContext x) (fill a.toList t) = fill a.toList u ∧
      secondPass env (d.initialContext y) (fill b.toList t) = fill b.toList u ∧
      (none ∈ u ↔ none ∈ t ∨
        mentionsAgent d (scan (d.initialContext x) 0 (fill a.toList t)) = true) := by
  induction n generalizing t with
  | zero =>
    obtain rfl : t = [] := List.eq_nil_of_length_eq_zero (by omega)
    exact ⟨[], rfl, rfl, by simp [mentionsAgent, scan]⟩
  | succ n ih =>
    cases t with
    | nil => exact ⟨[], rfl, rfl, by simp [mentionsAgent, scan]⟩
    | cons o t =>
      rw [List.length_cons] at hn
      rw [meetsAgent, Bool.or_eq_false_iff] at hmeets
      cases o with
      | none =>
        -- the agent itself is copied
        rw [fill_cons_none, secondPass_plain ha, List.mem_append, not_or] at hat hbrace
        obtain ⟨u, hux, huy, -⟩ := ih (by omega) hmeets.2 hat.2 hbrace.2
        refine ⟨none :: u, ?_, ?_, by simp⟩
        · rw [fill_cons_none, secondPass_plain ha, hux, fill_cons_none]
        · rw [fill_cons_none, secondPass_plain hb, huy, fill_cons_none]
      | some c =>
        rw [fill_cons_some] at hat hbrace
        rw [fill_cons_some, fill_cons_some]
        by_cases hc : c = '@'
        · subst hc
          have hruns : runsIntoAgent t = false := by simpa using hmeets.1
          obtain ⟨p, t', v, w, u₀, rfl, hp, hreadx, hready, hvu, hwu, hu₀⟩ :=
            reference_twin hobject hx hy h hruns hat hbrace
          rw [secondPass_replaced hreadx, drop_fill_append, List.mem_append, not_or]
            at hat hbrace
          rw [meetsAgent_append hp] at hmeets
          rw [List.length_append] at hn
          obtain ⟨u, hux, huy, hu⟩ := ih (by omega) hmeets.2 hat.2 hbrace.2
          refine ⟨u₀ ++ u, ?_, ?_, ?_⟩
          · rw [secondPass_replaced hreadx, drop_fill_append, hvu, hux, fill_append]
          · rw [secondPass_replaced hready, drop_fill_append, hwu, huy, fill_append]
          · rw [mentionsAgent_replaced hreadx, drop_fill_append, List.mem_append, hu₀, hu]
            simp only [List.mem_cons, List.mem_append, List.mem_map, reduceCtorEq, and_false,
              exists_false, false_or, Bool.or_eq_true]
            exact or_left_comm
        · have hplain : '@' ∉ [c] := by simpa using Ne.symm hc
          change '@' ∉ secondPass env _ ([c] ++ fill a.toList t) at hat
          change '{' ∉ secondPass env _ ([c] ++ fill a.toList t) at hbrace
          rw [secondPass_plain hplain, List.mem_append, not_or] at hat hbrace
          obtain ⟨u, hux, huy, hu⟩ := ih (by omega) hmeets.2 hat.2 hbrace.2
          refine ⟨some c :: u, ?_, ?_, ?_⟩
          · change secondPass env _ ([c] ++ fill a.toList t) = _
            rw [secondPass_plain hplain, hux]
            rfl
          · change secondPass env _ ([c] ++ fill b.toList t) = _
            rw [secondPass_plain hplain, huy]
            rfl
          · change _ ↔ _ ∨ mentionsAgent d (scan _ 0 ([c] ++ fill a.toList t)) = true
            rw [mentionsAgent_plain hplain]
            simpa using hu

/-- **An unknown agent.**  An `@` that meets an agent which no name has in it is left over. -/
theorem secondPass_fresh (hobject : ∀ fs, '{' ∈ (env.renderJson (.obj fs)).toList)
    (hx : x.Sorted) (hy : y.Sorted) (h : d.Twin a b x y) (ha : '@' ∉ a.toList)
    (hb : Probe b.toList) (hne : b.toList ≠ [])
    (hfresh : ∀ q : List Char, b.toList <:+: q → '@' ∉ q →
      resolveVariable (String.ofList q) (d.initialContext y) = none)
    (n : ℕ) (hn : t.length ≤ n) (hmeets : meetsAgent t = true)
    (hat : '@' ∉ secondPass env (d.initialContext x) (fill a.toList t))
    (hbrace : '{' ∉ secondPass env (d.initialContext x) (fill a.toList t)) :
    '@' ∈ secondPass env (d.initialContext y) (fill b.toList t) := by
  have hb' : '@' ∉ b.toList := fun hmem => absurd (hb _ hmem) (by decide)
  induction n generalizing t with
  | zero =>
    obtain rfl : t = [] := List.eq_nil_of_length_eq_zero (by omega)
    cases hmeets
  | succ n ih =>
    cases t with
    | nil => cases hmeets
    | cons o t =>
      rw [List.length_cons] at hn
      rw [meetsAgent, Bool.or_eq_true] at hmeets
      cases o with
      | none =>
        have hmeets : meetsAgent t = true := by simpa using hmeets
        rw [fill_cons_none, secondPass_plain ha, List.mem_append, not_or] at hat hbrace
        rw [fill_cons_none, secondPass_plain hb', List.mem_append]
        exact Or.inr (ih (by omega) hmeets hat.2 hbrace.2)
      | some c =>
        rw [fill_cons_some] at hat hbrace
        rw [fill_cons_some]
        by_cases hc : c = '@'
        · subst hc
          cases hruns : runsIntoAgent t with
          | true =>
            -- the path holds the agent, so it leads nowhere
            obtain ⟨w, rest, rfl, hw, hhole, -⟩ := exists_ident_append t
            obtain ⟨r, rfl⟩ := hhole hruns
            have hprefix : w ++ b.toList <+:
                pathAt (fill b.toList (w.map some ++ none :: r)) := by
              rw [fill_append, fill_map_some, fill_cons_none, ← List.append_assoc]
              exact isPrefix_pathAt hb hne hw
            have hnone : reference (d.initialContext y)
                (fill b.toList (w.map some ++ none :: r)) = none := by
              rw [reference, hfresh _
                ((List.suffix_append _ _).isInfix.trans hprefix.isInfix) at_notMem_pathAt]
              simp
            rw [secondPass_copied hnone]
            exact List.mem_cons_self ..
          | false =>
            obtain ⟨p, t', v, w, u, rfl, hp, hreadx, hready, -, -, -⟩ :=
              reference_twin hobject hx hy h hruns hat hbrace
            rw [secondPass_replaced hreadx, drop_fill_append, List.mem_append, not_or]
              at hat hbrace
            rw [meetsAgent_append hp, hruns] at hmeets
            rw [List.length_append] at hn
            rw [secondPass_replaced hready, drop_fill_append, List.mem_append]
            exact Or.inr (ih (by omega) (by simpa using hmeets) hat.2 hbrace.2)
        · have hmeets : meetsAgent t = true := by simpa [hc] using hmeets
          have hplain : '@' ∉ [c] := by simpa using Ne.symm hc
          change '@' ∉ secondPass env _ ([c] ++ fill a.toList t) at hat
          change '{' ∉ secondPass env _ ([c] ++ fill a.toList t) at hbrace
          rw [secondPass_plain hplain, List.mem_append, not_or] at hat hbrace
          change '@' ∈ secondPass env _ ([c] ++ fill b.toList t)
          rw [secondPass_plain hplain, List.mem_append]
          exact Or.inr (ih (by omega) hmeets hat.2 hbrace.2)

end Twin
end XpressClaw
