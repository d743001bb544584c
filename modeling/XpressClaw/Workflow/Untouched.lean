import XpressClaw.Lib.Utf8
import XpressClaw.Workflow.Render

/-!
# Templates whose references resolve to nothing

The two scanners of `render_template` run on positions: the first on byte offsets into what
remains of the template, the second on indices into its characters.  Both copy what does not
resolve back piece by piece.

* `Context.renderTemplateFrom_eq` — the loops end, no slice is taken inside a character, and
  they write what `renderTemplate` says.
* `Context.references` — the paths that the two scanners look up in a template.
* `Context.unresolved_template_untouched` — when none of these has a value, the template
  comes back as it was.
-/

namespace XpressClaw.Context

open Lib

/-! ## The loops on positions -/

/-- `render_brace_placeholders`: `remaining` is a suffix of the template, addressed by bytes,
and `result` what has been written.  Nothing where a slice panics, and nothing when the
rounds do not suffice. -/
def renderBracesFrom (env : Env) (ctx : Json) :
    ℕ → List Char → List Char → Option (List Char)
  | 0, _, _ => none
  | rounds + 1, remaining, result =>
      match Utf8.find ['{', '{'] remaining with
      | none => some (result ++ remaining)
      | some start => do
          let before ← Utf8.sliceTo remaining start
          let afterOpen ← Utf8.sliceFrom remaining (start + 2)
          match Utf8.find ['}', '}'] afterOpen with
          | some close =>
              let inner ← Utf8.sliceTo afterOpen close
              let rest ← Utf8.sliceFrom afterOpen (close + 2)
              let path := Text.trimStartMatches '@' (Text.trim (String.ofList inner))
              let text := match resolveVariable path ctx with
                | some v => (valueToString env v).toList
                | none => ['{', '{'] ++ inner ++ ['}', '}']
              renderBracesFrom env ctx rounds rest (result ++ before ++ text)
          | none =>
              let tail ← Utf8.sliceFrom remaining start
              renderBracesFrom env ctx rounds [] (result ++ before ++ tail)

/-- The first index from `i` on without an identifier character. -/
def skipIdent (chars : List Char) : ℕ → ℕ → Option ℕ
  | 0, _ => none
  | rounds + 1, i =>
      if chars[i]?.any isIdentChar then skipIdent chars rounds (i + 1) else some i

/-- The end of a path that starts at an index, less trailing dots. -/
def trimDots (chars : List Char) (pathStart : ℕ) : ℕ → ℕ
  | 0 => 0
  | pathEnd + 1 =>
      if pathStart < pathEnd + 1 ∧ chars[pathEnd]? = some '.' then
        trimDots chars pathStart pathEnd
      else pathEnd + 1

/-- `render_at_references` from an index on, with what has been written. -/
def renderAtFrom (env : Env) (ctx : Json) (chars : List Char) :
    ℕ → ℕ → List Char → Option (List Char)
  | 0, _, _ => none
  | rounds + 1, i, result =>
      match chars[i]? with
      | none => some result
      | some c =>
          if c = '@' ∧ chars[i + 1]?.any isIdentStart then do
            let stop ← skipIdent chars (chars.length + 1) (i + 1)
            let pathEnd := trimDots chars (i + 1) stop
            let path := (chars.take pathEnd).drop (i + 1)
            if path.isEmpty then renderAtFrom env ctx chars rounds pathEnd (result ++ ['@'])
            else
              let text := match resolveVariable (String.ofList path) ctx with
                | some v => (valueToString env v).toList
                | none => (chars.take pathEnd).drop i
              renderAtFrom env ctx chars rounds pathEnd (result ++ text)
          else renderAtFrom env ctx chars rounds (i + 1) (result ++ [c])

/-- `render_template`, with a round of each loop for each character and one more. -/
def renderTemplateFrom (env : Env) (template : String) (ctx : Json) : Option String := do
  let braced ← renderBracesFrom env ctx (template.toList.length + 1) template.toList []
  let text ← renderAtFrom env ctx braced (braced.length + 1) 0 []
  some (String.ofList text)

/-! ## The first loop -/

section Braces

variable {env : Env} {ctx : Json} {p cs a b : List Char}

theorem findSub_eq_some (h : findSub p cs = some (a, b)) : cs = a ++ (p ++ b) := by
  induction cs generalizing a with
  | nil =>
    rw [findSub] at h
    split at h
    next hp =>
      simp only [Option.some.injEq, Prod.mk.injEq] at h
      simp [← h.1, ← h.2, List.isEmpty_iff.1 hp]
    next => cases h
  | cons c cs ih =>
    rw [findSub] at h
    split at h
    next hp =>
      obtain ⟨r, hr⟩ := Utf8.isPrefixOf_eq_true.1 hp
      simp only [hr, List.drop_left, Option.some.injEq, Prod.mk.injEq] at h
      rw [hr, ← h.1, ← h.2, List.nil_append]
    next =>
      obtain ⟨⟨x, y⟩, hr, heq⟩ := Option.map_eq_some_iff.1 h
      simp only [Prod.mk.injEq] at heq
      obtain ⟨rfl, rfl⟩ := heq
      rw [ih hr, List.cons_append]

theorem find_eq_findSub (p cs : List Char) :
    Utf8.find p cs = (findSub p cs).map fun r => Utf8.byteLen r.1 := by
  induction cs with
  | nil => by_cases hp : p.isEmpty = true <;> simp [Utf8.find, findSub, hp]
  | cons c cs ih =>
    by_cases hp : p.isPrefixOf (c :: cs) = true
    · simp [Utf8.find, findSub, hp]
    · simp [Utf8.find, findSub, hp, ih, Function.comp_def]

theorem length_lt_of_findSub (hp : p ≠ []) (h : findSub p cs = some (a, b)) :
    b.length < cs.length := by
  have hlen := List.length_pos_iff.2 hp
  rw [findSub_eq_some h]
  simp only [List.length_append]
  omega

/-- The rounds of the first pass shorten what remains. -/
theorem renderBraces_fuel (fuel : ℕ) (h : cs.length < fuel) :
    renderBraces env ctx fuel cs = renderBraces env ctx (cs.length + 1) cs := by
  induction hn : cs.length using Nat.strong_induction_on generalizing cs fuel with
  | _ n ih =>
    subst hn
    obtain ⟨fuel, rfl⟩ : ∃ m, fuel = m + 1 := ⟨fuel - 1, by omega⟩
    rw [renderBraces, renderBraces]
    cases hopen : findSub ['{', '{'] cs with
    | none => rfl
    | some opened =>
      obtain ⟨before, afterOpen⟩ := opened
      dsimp only
      cases hclose : findSub ['}', '}'] afterOpen with
      | none => rfl
      | some closed =>
        obtain ⟨inner, rest⟩ := closed
        have hopened := length_lt_of_findSub (by simp) hopen
        have hclosed := length_lt_of_findSub (by simp) hclose
        dsimp only
        rw [ih rest.length (by omega) fuel (by omega) rfl,
          ih rest.length (by omega) cs.length (by omega) rfl]

/-- The loop on bytes writes what the first pass writes. -/
theorem renderBracesFrom_eq {rounds : ℕ} (h : cs.length < rounds) (result : List Char) :
    renderBracesFrom env ctx rounds cs result =
      some (result ++ renderBraces env ctx (cs.length + 1) cs) := by
  induction rounds generalizing cs result with
  | zero => omega
  | succ rounds ih =>
    have htwo : ∀ c : Char, c.utf8Size = 1 → Utf8.byteLen [c, c] = 2 := by
      intro c hc
      simp [hc]
    rw [renderBracesFrom, renderBraces, find_eq_findSub]
    cases hopen : findSub ['{', '{'] cs with
    | none => rfl
    | some opened =>
      obtain ⟨before, afterOpen⟩ := opened
      obtain rfl := findSub_eq_some hopen
      have hafter : Utf8.sliceFrom (before ++ (['{', '{'] ++ afterOpen))
          (Utf8.byteLen before + 2) = some afterOpen := by
        rw [← htwo '{' (by decide), ← Utf8.byteLen_append, ← List.append_assoc,
          Utf8.sliceFrom_append]
      simp only [Option.map_some, Utf8.sliceTo_append, hafter, Option.bind_eq_bind,
        Option.bind_some, find_eq_findSub ['}', '}']]
      cases hclose : findSub ['}', '}'] afterOpen with
      | none =>
        have hrounds : 0 < rounds := by
          simp only [List.length_append, List.length_cons] at h
          omega
        simp only [Option.map_none, Utf8.sliceFrom_append, Option.bind_some]
        rw [ih (by simpa using hrounds)]
        simp [renderBraces, findSub]
      | some closed =>
        obtain ⟨inner, rest⟩ := closed
        have hinner : Utf8.sliceTo afterOpen (Utf8.byteLen inner) = some inner := by
          rw [findSub_eq_some hclose, Utf8.sliceTo_append]
        have hrest : Utf8.sliceFrom afterOpen (Utf8.byteLen inner + 2) = some rest := by
          rw [findSub_eq_some hclose, ← htwo '}' (by decide), ← Utf8.byteLen_append,
            ← List.append_assoc, Utf8.sliceFrom_append]
        have hlen := length_lt_of_findSub (by simp) hclose
        have hlonger := hlen.trans (length_lt_of_findSub (by simp) hopen)
        simp only [Option.map_some, hinner, hrest, Option.bind_some]
        rw [ih (by omega), renderBraces_fuel _ hlonger]
        cases resolveVariable (Text.trimStartMatches '@' (Text.trim (String.ofList inner)))
          ctx <;> simp

end Braces

/-! ## The second loop -/

section At

variable {env : Env} {ctx : Json} {c : Char} {cs : List Char}

theorem getElem?_length_append (pre cs : List Char) : (pre ++ cs)[pre.length]? = cs.head? := by
  rw [List.getElem?_append_right (Nat.le_refl _), Nat.sub_self, List.head?_eq_getElem?]

/-- The identifier characters behind an index. -/
theorem skipIdent_append {rounds : ℕ} (pre cs : List Char) (h : cs.length < rounds) :
    skipIdent (pre ++ cs) rounds pre.length =
      some (pre.length + (cs.takeWhile isIdentChar).length) := by
  induction rounds generalizing pre cs with
  | zero => omega
  | succ rounds ih =>
    rw [skipIdent, getElem?_length_append]
    cases cs with
    | nil => simp
    | cons c cs =>
      rw [List.length_cons] at h
      by_cases hc : isIdentChar c = true
      · have hnext := ih (pre ++ [c]) cs (by omega)
        rw [List.append_assoc, List.length_append] at hnext
        simp only [List.head?_cons, Option.any_some, hc, if_true, List.takeWhile_cons_of_pos,
          List.length_cons]
        simpa [Nat.add_assoc, Nat.add_comm 1] using hnext
      · simp [hc]

/-- Trailing dots are cut off the path. -/
theorem trimDots_append (pre w rest : List Char) :
    trimDots (pre ++ (w ++ rest)) pre.length (pre.length + w.length) =
      pre.length + (w.rdropWhile (· == '.')).length := by
  induction w using List.reverseRecOn generalizing rest with
  | nil => cases hpre : pre.length <;> simp [trimDots]
  | append_singleton w c ih =>
    have hlen : pre.length + (w ++ [c]).length = (pre.length + w.length) + 1 := by simp; omega
    have hget : (pre ++ (w ++ [c] ++ rest))[pre.length + w.length]? = some c := by
      have hsplit : pre ++ (w ++ [c] ++ rest) = (pre ++ w) ++ (c :: rest) := by simp
      rw [hsplit, ← List.length_append, getElem?_length_append, List.head?_cons]
    rw [hlen, trimDots, hget]
    by_cases hc : c = '.'
    · subst hc
      rw [if_pos ⟨by omega, rfl⟩, List.rdropWhile_concat_pos _ _ _ (by simp),
        List.append_assoc w, ih]
    · rw [if_neg (by simp [hc]), List.rdropWhile_concat_neg _ _ _ (by simp [hc]), hlen]

theorem renderAt_plain (h : ¬ (c = '@' ∧ cs.head?.any isIdentStart = true)) :
    renderAt env ctx ((c :: cs).length + 1) (c :: cs) =
      c :: renderAt env ctx (cs.length + 1) cs := by
  rw [List.length_cons, renderAt, if_neg h]

theorem renderAt_reference (h : cs.head?.any isIdentStart = true) :
    renderAt env ctx (('@' :: cs).length + 1) ('@' :: cs) =
      (match resolveVariable (String.ofList (pathAt cs)) ctx with
        | some v => (valueToString env v).toList
        | none => '@' :: pathAt cs) ++
      renderAt env ctx ((cs.drop (pathAt cs).length).length + 1) (cs.drop (pathAt cs).length) := by
  have hlen : (cs.drop (pathAt cs).length).length < cs.length + 1 := by
    rw [List.length_drop]
    omega
  have hrest : renderAt env ctx (cs.length + 1) (cs.drop (pathAt cs).length) =
      renderAt env ctx ((cs.drop (pathAt cs).length).length + 1) (cs.drop (pathAt cs).length) :=
    (renderAt_eq hlen).trans (renderAt_eq (Nat.lt_succ_self _)).symm
  rw [List.length_cons, renderAt_at h]
  cases resolveVariable (String.ofList (pathAt cs)) ctx <;> simp only [hrest]

/-- The end of the path behind an `@` that stands at the end of `pre`. -/
theorem pathEnd_eq (pre cs : List Char) :
    (skipIdent (pre ++ '@' :: cs) ((pre ++ '@' :: cs).length + 1) (pre.length + 1)).map
        (trimDots (pre ++ '@' :: cs) (pre.length + 1)) =
      some (pre ++ '@' :: pathAt cs).length := by
  have hpre : pre ++ '@' :: cs = (pre ++ ['@']) ++ cs := by simp
  have hlen : pre.length + 1 = (pre ++ ['@']).length := by simp
  have hcs : cs = cs.takeWhile isIdentChar ++ cs.dropWhile isIdentChar :=
    List.takeWhile_append_dropWhile.symm
  have htrim := trimDots_append (pre ++ ['@']) (cs.takeWhile isIdentChar)
    (cs.dropWhile isIdentChar)
  rw [← hcs] at htrim
  rw [hpre, hlen, skipIdent_append _ cs (by simp only [List.length_append]; omega),
    Option.map_some, htrim]
  simp [pathAt, List.rdropWhile, Nat.add_assoc, Nat.add_comm 1]

/-- The loop on indices writes what the second pass writes. -/
theorem renderAtFrom_eq {rounds : ℕ} (pre cs : List Char) (h : cs.length < rounds)
    (result : List Char) : renderAtFrom env ctx (pre ++ cs) rounds pre.length result =
      some (result ++ renderAt env ctx (cs.length + 1) cs) := by
  induction hn : rounds using Nat.strong_induction_on generalizing pre cs result rounds with
  | _ n ih =>
    subst hn
    obtain ⟨rounds, rfl⟩ : ∃ m, rounds = m + 1 := ⟨rounds - 1, by omega⟩
    rw [renderAtFrom, getElem?_length_append]
    cases cs with
    | nil => simp [renderAt]
    | cons c cs =>
      rw [List.length_cons] at h
      have hpre : pre ++ c :: cs = (pre ++ [c]) ++ cs := by simp
      have hlen : pre.length + 1 = (pre ++ [c]).length := by simp
      have hstart : (pre ++ c :: cs)[pre.length + 1]? = cs.head? := by
        rw [hpre, hlen, getElem?_length_append]
      simp only [List.head?_cons, hstart]
      by_cases hat : c = '@' ∧ cs.head?.any isIdentStart = true
      · obtain ⟨rfl, hident⟩ := hat
        obtain ⟨stop, hstop, hend⟩ := Option.map_eq_some_iff.1 (pathEnd_eq pre cs)
        have hcs : cs = pathAt cs ++ cs.drop (pathAt cs).length :=
          List.prefix_append_drop (pathAt_isPrefix cs)
        have hwhole : pre ++ '@' :: cs =
            (pre ++ '@' :: pathAt cs) ++ cs.drop (pathAt cs).length := by
          rw [List.append_assoc, List.cons_append, ← hcs]
        have htake : (pre ++ '@' :: cs).take (pre ++ '@' :: pathAt cs).length =
            pre ++ '@' :: pathAt cs := by
          rw [hwhole, List.take_left]
        have hpath : (pre ++ '@' :: pathAt cs).drop (pre.length + 1) = pathAt cs := by simp
        have hne : (pathAt cs).isEmpty = false := by simpa using pathAt_ne_nil hident
        have hshort : (cs.drop (pathAt cs).length).length < rounds := by
          rw [List.length_drop]
          omega
        have hnext := fun written => ih rounds (by omega) (pre ++ '@' :: pathAt cs)
          (cs.drop (pathAt cs).length) hshort written rfl
        rw [← hwhole] at hnext
        rw [if_pos ⟨rfl, hident⟩, renderAt_reference hident]
        simp only [hstop, Option.bind_eq_bind, Option.bind_some, hend, htake, hpath, hne,
          Bool.false_eq_true, if_false, hnext, List.drop_left, List.append_assoc]
      · rw [if_neg hat, renderAt_plain hat, hpre, hlen,
          ih rounds (by omega) _ cs (by omega) _ rfl]
        simp

end At

/-- Both loops end on every template, take no slice inside a character, and write what
`renderTemplate` says. -/
theorem renderTemplateFrom_eq (env : Env) (template : String) (ctx : Json) :
    renderTemplateFrom env template ctx = some (renderTemplate env template ctx) := by
  have hsecond (braced : List Char) : renderAtFrom env ctx braced (braced.length + 1) 0 [] =
      some (renderAt env ctx (braced.length + 1) braced) :=
    renderAtFrom_eq [] braced (Nat.lt_succ_self _) []
  simp only [renderTemplateFrom, renderBracesFrom_eq (Nat.lt_succ_self _), List.nil_append,
    Option.bind_eq_bind, Option.bind_some, hsecond, renderTemplate]

/-! ## The references of a template -/

/-- The paths that the first scanner looks up. -/
def bracePaths : ℕ → List Char → List String
  | 0, _ => []
  | fuel + 1, remaining =>
      match findSub ['{', '{'] remaining with
      | none => []
      | some (_, afterOpen) =>
          match findSub ['}', '}'] afterOpen with
          | none => []
          | some (inner, rest) =>
              Text.trimStartMatches '@' (Text.trim (String.ofList inner)) :: bracePaths fuel rest

/-- The paths that the second scanner looks up in a text. -/
def atPaths : List Char → List String
  | [] => []
  | c :: cs =>
      if c = '@' ∧ cs.head?.any isIdentStart then String.ofList (pathAt cs) :: atPaths cs
      else atPaths cs

/-- The paths that rendering a template looks up. -/
def references (template : String) : List String :=
  bracePaths (template.toList.length + 1) template.toList ++ atPaths template.toList

section Unresolved

variable {env : Env} {ctx : Json} {cs : List Char}

/-- The first pass copies the placeholders that do not resolve. -/
theorem renderBraces_unresolved {fuel : ℕ}
    (h : ∀ path ∈ bracePaths fuel cs, resolveVariable path ctx = none) :
    renderBraces env ctx fuel cs = cs := by
  induction fuel generalizing cs with
  | zero => rfl
  | succ fuel ih =>
    rw [bracePaths] at h
    rw [renderBraces]
    cases hopen : findSub ['{', '{'] cs with
    | none => rfl
    | some opened =>
      obtain ⟨before, afterOpen⟩ := opened
      simp only [hopen] at h
      dsimp only
      cases hclose : findSub ['}', '}'] afterOpen with
      | none => rfl
      | some closed =>
        obtain ⟨inner, rest⟩ := closed
        simp only [hclose, List.forall_mem_cons] at h
        simp only [h.1, ih h.2]
        rw [findSub_eq_some hopen, findSub_eq_some hclose]
        simp

/-- The second pass copies a text without a reference that resolves. -/
theorem scan_unresolved (h : ∀ path ∈ atPaths cs, resolveVariable path ctx = none) :
    scan ctx 0 cs = cs.map .copied := by
  induction cs with
  | nil => rfl
  | cons c cs ih =>
    rw [atPaths] at h
    by_cases hat : c = '@' ∧ cs.head?.any isIdentStart = true
    · obtain ⟨rfl, hident⟩ := hat
      rw [if_pos ⟨rfl, hident⟩, List.forall_mem_cons] at h
      simp [scan, reference, hident, h.1, ih h.2]
    · rw [if_neg hat] at h
      have hnone : (if c = '@' then reference ctx cs else none) = none := by
        split
        next hc => rw [reference, if_neg fun hident => hat ⟨hc, hident⟩]
        next => rfl
      simp [scan, hnone, ih h]

end Unresolved

/-- **Text without resolvable references is untouched.**  The two loops end on every
template, slice between characters only and write what `renderTemplate` says; when none of
the paths that they look up has a value, that is the template, character for character. -/
theorem unresolved_template_untouched (env : Env) (template : String) (ctx : Json) :
    renderTemplateFrom env template ctx = some (renderTemplate env template ctx) ∧
      ((∀ path ∈ references template, resolveVariable path ctx = none) →
        renderTemplate env template ctx = template) := by
  refine ⟨renderTemplateFrom_eq env template ctx, fun h => ?_⟩
  rw [references] at h
  have hbraces : renderBraces env ctx (template.toList.length + 1) template.toList =
      template.toList :=
    renderBraces_unresolved fun path hpath => h path (List.mem_append_left _ hpath)
  have hat : scan ctx 0 template.toList = template.toList.map .copied :=
    scan_unresolved fun path hpath => h path (List.mem_append_right _ hpath)
  rw [renderTemplate, hbraces, renderAt_eq (Nat.lt_succ_self _), hat, flatMap_copied,
    String.ofList_toList]

/-- Braces in braces, an opening without an end, dots behind a name, an address and
characters of several bytes. -/
theorem odd_template_untouched :
    references "\x7b\x7b \x7b\x7bwho\x7d\x7d\x7d, @über @ana. me@b.org @@x. €\x7b\x7bé" =
        ["\x7b\x7bwho", "ana", "b.org", "x"] ∧
      renderTemplate textEnv
          "\x7b\x7b \x7b\x7bwho\x7d\x7d\x7d, @über @ana. me@b.org @@x. €\x7b\x7bé" sentMessage =
        "\x7b\x7b \x7b\x7bwho\x7d\x7d\x7d, @über @ana. me@b.org @@x. €\x7b\x7bé" := by
  refine ⟨by decide +kernel, (unresolved_template_untouched _ _ _).2 ?_⟩
  decide +kernel

end XpressClaw.Context
