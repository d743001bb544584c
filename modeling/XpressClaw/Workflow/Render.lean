import XpressClaw.Workflow.Binding

/-!
# What a rendering copies and what it replaces

`render_template` runs two passes over one text.  The first replaces the `{{path}}`
placeholders, the second the `@path` references, and the second no longer knows which
characters came from the template.

* `Context.Piece` — a stretch of the text between the passes: the template's own, or the
  text of a value.
* `Context.Written` — what the second pass does with a position: it copies a character, or
  it replaces a reference.
* `Context.ownWritten` — what a rendering that reads references in the template's own
  stretches only would write.
* `Context.Isolated` — the condition under which the second pass does the same.
* `Context.placeholder` — the first placeholder of a template; any template with one can be
  given a value that the second pass reads.
-/

namespace XpressClaw.Context

open Lib

/-! ## The two renderings -/

/-- A stretch of the text between the two passes. -/
inductive Piece where
  /-- Characters of the template, unresolved placeholders among them. -/
  | own (cs : List Char)
  /-- The text of the value that a placeholder was replaced by. -/
  | value (cs : List Char)

def Piece.chars : Piece → List Char
  | .own cs => cs
  | .value cs => cs

/-- The rounds of `render_brace_placeholders`, each stretch with its origin. -/
def piecesFrom (env : Env) (ctx : Json) : ℕ → List Char → List Piece
  | 0, remaining => [.own remaining]
  | fuel + 1, remaining =>
      match findSub ['{', '{'] remaining with
      | none => [.own remaining]
      | some (before, afterOpen) =>
          match findSub ['}', '}'] afterOpen with
          | none => [.own remaining]
          | some (inner, rest) =>
              let path := Text.trimStartMatches '@' (Text.trim (String.ofList inner))
              let piece := match resolveVariable path ctx with
                | some v => Piece.value (valueToString env v).toList
                | none => Piece.own (['{', '{'] ++ inner ++ ['}', '}'])
              .own before :: piece :: piecesFrom env ctx fuel rest

def pieces (env : Env) (template : String) (ctx : Json) : List Piece :=
  piecesFrom env ctx (template.toList.length + 1) template.toList

/-- What a pass over a text does at a position. -/
inductive Written where
  | copied (c : Char)
  | replaced (path : List Char) (value : Json)

def Written.chars (env : Env) : Written → List Char
  | .copied c => [c]
  | .replaced _ v => (valueToString env v).toList

/-- The identifier characters at the front of a text, less trailing dots. -/
def pathAt (cs : List Char) : List Char :=
  ((cs.takeWhile isIdentChar).reverse.dropWhile (· == '.')).reverse

/-- The reference that an `@` before `cs` stands for, with its value. -/
def reference (ctx : Json) (cs : List Char) : Option (List Char × Json) :=
  if cs.head?.any isIdentStart then
    (resolveVariable (String.ofList (pathAt cs)) ctx).map fun v => (pathAt cs, v)
  else none

/-- The second pass over a text; the first `skip` characters belong to a reference that
has been replaced. -/
def scan (ctx : Json) : ℕ → List Char → List Written
  | _, [] => []
  | skip + 1, _ :: cs => scan ctx skip cs
  | 0, c :: cs =>
      match if c = '@' then reference ctx cs else none with
      | some (path, v) => .replaced path v :: scan ctx path.length cs
      | none => .copied c :: scan ctx 0 cs

/-- What the second pass makes of the text between the passes. -/
def written (ctx : Json) (ps : List Piece) : List Written :=
  scan ctx 0 (ps.flatMap Piece.chars)

/-- What becomes of a stretch when only the template's own references are replaced. -/
def Piece.written (ctx : Json) : Piece → List Written
  | .own cs => scan ctx 0 cs
  | .value cs => cs.map .copied

/-- Each reference of the template replaced by its value, each value copied. -/
def ownWritten (ctx : Json) (ps : List Piece) : List Written := ps.flatMap (Piece.written ctx)

/-- No `@` of a value starts a reference, and no `@` of the template starts another
reference once what follows it is written behind it. -/
def Isolated (ctx : Json) : List Piece → Prop
  | [] => True
  | .own cs :: ps =>
      (∀ y, '@' :: y <:+ cs → reference ctx (y ++ ps.flatMap Piece.chars) = reference ctx y) ∧
        Isolated ctx ps
  | .value cs :: ps =>
      (∀ y, '@' :: y <:+ cs → reference ctx (y ++ ps.flatMap Piece.chars) = none) ∧
        Isolated ctx ps

/-- The text of the template with its own references replaced. -/
def ownRendering (env : Env) (template : String) (ctx : Json) : String :=
  String.ofList ((ownWritten ctx (pieces env template ctx)).flatMap (Written.chars env))

/-- The path in the first placeholder of a template. -/
def placeholder (template : String) : Option String :=
  (findSub ['{', '{'] template.toList).bind fun opened =>
    (findSub ['}', '}'] opened.2).map fun closed =>
      Text.trimStartMatches '@' (Text.trim (String.ofList closed.1))

/-! ## The passes of the code -/

section Passes

variable {env : Env} {ctx : Json} {cs : List Char}

/-- The first pass writes the stretches one after the other. -/
theorem flatMap_piecesFrom (fuel : ℕ) (cs : List Char) :
    (piecesFrom env ctx fuel cs).flatMap Piece.chars = renderBraces env ctx fuel cs := by
  induction fuel generalizing cs with
  | zero => simp [piecesFrom, renderBraces, Piece.chars]
  | succ fuel ih =>
    rw [piecesFrom, renderBraces]
    cases findSub ['{', '{'] cs with
    | none => simp [Piece.chars]
    | some opened =>
      obtain ⟨before, afterOpen⟩ := opened
      dsimp only
      cases findSub ['}', '}'] afterOpen with
      | none => simp [Piece.chars]
      | some closed =>
        obtain ⟨inner, rest⟩ := closed
        dsimp only
        generalize resolveVariable (Text.trimStartMatches '@'
          (Text.trim (String.ofList inner))) ctx = value
        cases value with
        | none => simp [Piece.chars, ih]
        | some v => simp [Piece.chars, ih]

theorem pathAt_isPrefix (cs : List Char) : pathAt cs <+: cs :=
  (List.rdropWhile_prefix _ _).trans (List.takeWhile_prefix _)

theorem isIdentChar_of_mem_pathAt {c : Char} (h : c ∈ pathAt cs) : isIdentChar c = true :=
  List.mem_takeWhile_imp ((List.rdropWhile_prefix (· == '.') _).subset h)

theorem at_notMem_pathAt : '@' ∉ pathAt cs := fun h =>
  absurd (isIdentChar_of_mem_pathAt h) (by decide)

theorem isIdentStart_ne_dot {c : Char} (h : isIdentStart c = true) : c ≠ '.' := by
  rintro rfl
  exact absurd h (by decide)

theorem pathAt_ne_nil (h : cs.head?.any isIdentStart = true) : pathAt cs ≠ [] := by
  cases cs with
  | nil => simp at h
  | cons c cs =>
    have hstart : isIdentStart c = true := by simpa using h
    have hident : isIdentChar c = true := by
      rw [isIdentChar, ← isIdentStart, hstart, Bool.true_or]
    intro hnil
    have hall := List.dropWhile_eq_nil_iff.1 (List.reverse_eq_nil_iff.1 hnil) c (by simp [hident])
    exact isIdentStart_ne_dot hstart (by simpa using hall)

theorem scan_skip (skip : ℕ) (cs : List Char) : scan ctx skip cs = scan ctx 0 (cs.drop skip) := by
  induction skip generalizing cs with
  | zero => rfl
  | succ skip ih =>
    cases cs with
    | nil => rfl
    | cons c cs => simpa [scan] using ih cs

theorem scan_plain {w : List Char} (h : '@' ∉ w) (rest : List Char) :
    scan ctx 0 (w ++ rest) = w.map .copied ++ scan ctx 0 rest := by
  induction w with
  | nil => rfl
  | cons c w ih =>
    rw [List.mem_cons, not_or] at h
    rw [List.cons_append, scan, if_neg (Ne.symm h.1)]
    simp [ih h.2]

theorem flatMap_copied (cs : List Char) :
    (cs.map Written.copied).flatMap (Written.chars env) = cs := by
  induction cs with
  | nil => rfl
  | cons c cs ih => simp [Written.chars, ih]

theorem renderAt_at (hstart : cs.head?.any isIdentStart = true) (fuel : ℕ) :
    renderAt env ctx (fuel + 1) ('@' :: cs) =
      (match resolveVariable (String.ofList (pathAt cs)) ctx with
        | some v => (valueToString env v).toList
        | none => '@' :: pathAt cs) ++ renderAt env ctx fuel (cs.drop (pathAt cs).length) := by
  have hne : (pathAt cs).isEmpty = false := by simpa using pathAt_ne_nil hstart
  have hc : '@' = '@' ∧ (cs.head?.any isIdentStart) = true := ⟨rfl, hstart⟩
  generalize hpath : pathAt cs = path at hne
  simp only [pathAt] at hpath
  cases hvalue : resolveVariable (String.ofList path) ctx <;>
    simp [renderAt, hstart, hpath, hne, hvalue]

/-- The second pass of the code writes what `scan` says, in order. -/
theorem renderAt_eq {fuel : ℕ} (hfuel : cs.length < fuel) :
    renderAt env ctx fuel cs = (scan ctx 0 cs).flatMap (Written.chars env) := by
  induction fuel generalizing cs with
  | zero => omega
  | succ fuel ih =>
    cases cs with
    | nil => rfl
    | cons c cs =>
      rw [List.length_cons] at hfuel
      by_cases hat : c = '@'
      · subst hat
        by_cases hstart : cs.head?.any isIdentStart = true
        · have hrest : renderAt env ctx fuel (cs.drop (pathAt cs).length) =
              (scan ctx 0 (cs.drop (pathAt cs).length)).flatMap (Written.chars env) := by
            apply ih
            rw [List.length_drop]
            omega
          have hcs : pathAt cs ++ cs.drop (pathAt cs).length = cs :=
            (List.prefix_append_drop (pathAt_isPrefix cs)).symm
          rw [renderAt_at hstart, hrest, scan, if_pos rfl, reference, if_pos hstart]
          cases resolveVariable (String.ofList (pathAt cs)) ctx with
          | some v => simp [scan_skip (pathAt cs).length, Written.chars]
          | none =>
            -- the name is copied as it stands, and no `@` is in it
            have hscan : scan ctx 0 cs = (pathAt cs).map .copied ++
                scan ctx 0 (cs.drop (pathAt cs).length) := by
              rw [← scan_plain at_notMem_pathAt, hcs]
            simp [hscan, Written.chars, flatMap_copied]
        · have hc : ¬ ('@' = '@' ∧ (cs.head?.any isIdentStart) = true) := fun h => hstart h.2
          rw [renderAt, if_neg hc, ih (by omega), scan, if_pos rfl, reference, if_neg hstart]
          simp [Written.chars]
      · have hc : ¬ (c = '@' ∧ (cs.head?.any isIdentStart) = true) := fun h => hat h.1
        rw [renderAt, if_neg hc, ih (by omega), scan, if_neg hat]
        simp [Written.chars]

theorem renderTemplate_eq (template : String) : renderTemplate env template ctx =
    String.ofList ((written ctx (pieces env template ctx)).flatMap (Written.chars env)) := by
  rw [renderTemplate, renderAt_eq (Nat.lt_succ_self _), written, pieces, flatMap_piecesFrom]

end Passes

/-! ## Where the second pass reads the template -/

section Agreement

variable {ctx : Json} {cs rest : List Char} {out : List Written}

/-- A stretch of the template is written as it would be on its own exactly when each `@`
in it starts the same reference there. -/
theorem scan_own_iff (skip : ℕ) (hskip : '@' ∉ cs.take skip) (hle : skip ≤ cs.length) :
    scan ctx skip (cs ++ rest) = scan ctx skip cs ++ out ↔
      (∀ y, '@' :: y <:+ cs → reference ctx (y ++ rest) = reference ctx y) ∧
        scan ctx 0 rest = out := by
  induction cs generalizing skip with
  | nil =>
    have hzero : skip = 0 := by simpa using hle
    simp [hzero, scan]
  | cons c cs ih =>
    cases skip with
    | succ skip =>
      -- inside a reference that has been replaced
      rw [List.take_succ_cons, List.mem_cons, not_or] at hskip
      rw [List.cons_append, scan, scan, ih skip hskip.2 (Nat.le_of_succ_le_succ hle)]
      simp [List.suffix_cons_iff, hskip.1]
    | zero =>
      by_cases hat : c = '@'
      · subst hat
        rw [List.cons_append, scan, scan, if_pos rfl, if_pos rfl]
        have hhere : (∀ y, '@' :: y <:+ '@' :: cs →
              reference ctx (y ++ rest) = reference ctx y) ↔
            reference ctx (cs ++ rest) = reference ctx cs ∧
              ∀ y, '@' :: y <:+ cs → reference ctx (y ++ rest) = reference ctx y := by
          simp [List.suffix_cons_iff, or_imp, forall_and]
        rw [hhere, and_assoc]
        cases hown : reference ctx cs with
        | none =>
          cases hread : reference ctx (cs ++ rest) with
          | none => simp [ih 0]
          | some r => simp
        | some r =>
          obtain ⟨path, v⟩ := r
          have hpath : path = pathAt cs := by
            rw [reference] at hown
            split at hown
            · obtain ⟨w, -, hw⟩ := Option.map_eq_some_iff.1 hown
              exact (Prod.mk.inj hw).1.symm
            · cases hown
          have htake : cs.take path.length = path := by
            rw [hpath]
            exact (List.prefix_iff_eq_take.1 (pathAt_isPrefix cs)).symm
          cases hread : reference ctx (cs ++ rest) with
          | none => simp
          | some r' =>
            obtain ⟨path', v'⟩ := r'
            by_cases hsame : path' = path ∧ v' = v
            · obtain ⟨rfl, rfl⟩ := hsame
              have hrest := ih path'.length (by rw [htake, hpath]; exact at_notMem_pathAt)
                (by rw [hpath]; exact (pathAt_isPrefix cs).length_le)
              simp [hrest]
            · simp only [List.cons_append, List.cons.injEq, Written.replaced.injEq,
                Option.some.injEq, Prod.mk.injEq, hsame, false_and]
      · rw [List.cons_append, scan, scan, if_neg hat, if_neg hat]
        simp [List.suffix_cons_iff, Ne.symm hat, ih 0]

/-- A value is copied exactly when no `@` in it starts a reference. -/
theorem scan_value_iff : scan ctx 0 (cs ++ rest) = cs.map .copied ++ out ↔
    (∀ y, '@' :: y <:+ cs → reference ctx (y ++ rest) = none) ∧ scan ctx 0 rest = out := by
  induction cs with
  | nil => simp
  | cons c cs ih =>
    by_cases hat : c = '@'
    · subst hat
      have hhere : (∀ y, '@' :: y <:+ '@' :: cs → reference ctx (y ++ rest) = none) ↔
          reference ctx (cs ++ rest) = none ∧
            ∀ y, '@' :: y <:+ cs → reference ctx (y ++ rest) = none := by
        simp [List.suffix_cons_iff, or_imp, forall_and]
      rw [List.cons_append, scan, if_pos rfl, hhere, and_assoc]
      cases hread : reference ctx (cs ++ rest) with
      | none => simp [ih]
      | some r => simp
    · rw [List.cons_append, scan, if_neg hat]
      simp [List.suffix_cons_iff, Ne.symm hat, ih]

/-- The second pass replaces the template's own references and nothing else exactly when
the stretches are isolated from each other. -/
theorem written_eq_iff (ps : List Piece) :
    written ctx ps = ownWritten ctx ps ↔ Isolated ctx ps := by
  induction ps with
  | nil => simp [written, ownWritten, scan, Isolated]
  | cons p ps ih =>
    rw [written, ownWritten] at ih ⊢
    rw [List.flatMap_cons, List.flatMap_cons]
    cases p with
    | own cs =>
      rw [Isolated, ← ih]
      exact scan_own_iff 0 (by simp) (Nat.zero_le _)
    | value cs =>
      rw [Isolated, ← ih]
      exact scan_value_iff

end Agreement

/-! ## Values as data -/

theorem pieces_of_placeholder {env : Env} {template : String} (h : placeholder template = none)
    (ctx : Json) : pieces env template ctx = [.own template.toList] := by
  rw [placeholder] at h
  rw [pieces, piecesFrom]
  cases hopen : findSub ['{', '{'] template.toList with
  | none => rfl
  | some opened =>
    obtain ⟨before, afterOpen⟩ := opened
    rw [hopen, Option.bind_some, Option.map_eq_none_iff] at h
    simp [h]

/-- The value of a placeholder is the second stretch. -/
theorem pieces_placeholder {env : Env} {template path text : String} {ctx : Json}
    (h : placeholder template = some path) (hv : resolveVariable path ctx = some (.str text)) :
    ∃ before rest, pieces env template ctx = .own before :: .value text.toList :: rest := by
  rw [placeholder] at h
  rw [pieces, piecesFrom]
  cases hopen : findSub ['{', '{'] template.toList with
  | none => simp [hopen] at h
  | some opened =>
    obtain ⟨before, afterOpen⟩ := opened
    rw [hopen, Option.bind_some] at h
    cases hclose : findSub ['}', '}'] afterOpen with
    | none => simp [hclose] at h
    | some closed =>
      obtain ⟨inner, rest⟩ := closed
      rw [hclose, Option.map_some, Option.some.injEq] at h
      simp only [hclose, h, hv]
      exact ⟨before, _, rfl⟩

theorem mem_letters {name : Char} (h : name ∈ ['a', 'b']) : name = 'a' ∨ name = 'b' := by
  simpa using h

/-- A context in which a path has a value that names another variable. -/
theorem exists_reading (path : String) : ∃ ctx name, name ∈ ['a', 'b'] ∧
    resolveVariable path ctx = some (.str (String.ofList ['@', name, ' '])) ∧
    resolveVariable (String.ofList [name]) ctx = some .null := by
  obtain ⟨p, ps, hsplit⟩ := List.exists_cons_of_ne_nil
    (splitAux_ne_nil '.' (Text.trimStartMatches '@' path).toList [])
  have hreading : ∀ name ∈ ['a', 'b'], p ≠ String.ofList [name] →
      let ctx := .obj [(p, nest ps (.str (String.ofList ['@', name, ' ']))),
        (String.ofList [name], .null)]
      resolveVariable path ctx = some (.str (String.ofList ['@', name, ' '])) ∧
        resolveVariable (String.ofList [name]) ctx = some .null := by
    intro name hname hne ctx
    have hparts : Text.splitChar '.' (Text.trimStartMatches '@' (String.ofList [name])) =
        [String.ofList [name]] := by
      rcases mem_letters hname with rfl | rfl <;> decide +kernel
    constructor
    · rw [resolveVariable, Text.splitChar, hsplit, follow]
      simp [ctx, Json.get?, follow_nest]
    · rw [resolveVariable, hparts, follow]
      simp only [ctx, Json.get?, List.find?_cons, hne, decide_false, decide_true]
      rfl
  by_cases hp : p = String.ofList ['a']
  · obtain ⟨hpath, hname⟩ := hreading 'b' (by decide) (by rw [hp]; decide)
    exact ⟨_, 'b', by decide, hpath, hname⟩
  · obtain ⟨hpath, hname⟩ := hreading 'a' (by decide) hp
    exact ⟨_, 'a', by decide, hpath, hname⟩

theorem reference_name {ctx : Json} {name : Char} (hname : name ∈ ['a', 'b'])
    (h : resolveVariable (String.ofList [name]) ctx = some .null) (rest : List Char) :
    reference ctx (name :: ' ' :: rest) = some ([name], .null) := by
  have hpath : pathAt (name :: ' ' :: rest) = [name] := by
    have hident : isIdentChar name = true ∧ name ≠ '.' := by
      rcases mem_letters hname with rfl | rfl <;> decide
    have hblank : isIdentChar ' ' = false := by decide
    simp [pathAt, hident, hblank]
  have hstart : isIdentStart name = true := by
    rcases mem_letters hname with rfl | rfl <;> decide
  rw [reference, hpath, h]
  simp [hstart]

/-- **Template values are data exactly when no `@` reads across a value.**  The code writes
what the second pass makes of the stretches; the pass replaces the template's own references
and copies the values exactly when the stretches are isolated, and then the text is the
template with its own references replaced.  The templates for which that is so in every
context are those without placeholders. -/
theorem render_template_verbatim (env : Env) (template : String) :
    (∀ ctx, renderTemplate env template ctx =
        String.ofList ((written ctx (pieces env template ctx)).flatMap (Written.chars env))) ∧
      (∀ ctx, written ctx (pieces env template ctx) = ownWritten ctx (pieces env template ctx) ↔
        Isolated ctx (pieces env template ctx)) ∧
      (∀ ctx, Isolated ctx (pieces env template ctx) →
        renderTemplate env template ctx = ownRendering env template ctx) ∧
      ((∀ ctx, Isolated ctx (pieces env template ctx)) ↔ placeholder template = none) := by
  refine ⟨fun ctx => renderTemplate_eq template, fun ctx => written_eq_iff _, fun ctx h => ?_, ?_⟩
  · rw [renderTemplate_eq, (written_eq_iff _).2 h, ownRendering]
  · constructor
    · intro hall
      by_contra hsome
      obtain ⟨path, hpath⟩ := Option.ne_none_iff_exists'.1 hsome
      obtain ⟨ctx, name, hname, hv, hread⟩ := exists_reading path
      obtain ⟨before, rest, hpieces⟩ := pieces_placeholder hpath hv
      have hisolated := hall ctx
      rw [hpieces, Isolated, Isolated] at hisolated
      have hnone := hisolated.2.1 [name, ' '] (by simp)
      rw [List.cons_append, List.cons_append, reference_name hname hread] at hnone
      cases hnone
    · intro hnone ctx
      rw [pieces_of_placeholder hnone, Isolated, Isolated]
      simp

/-- No text is read as JSON, no time has a meaning. -/
def textEnv : Env where
  parseJson := fun _ => none
  renderJson := fun _ => ""
  toF64 := id
  cronError := fun _ => none
  normalizeStartAfter := .ok
  parseRfc3339 := fun _ => none
  parseDbTimestamp := fun _ => none
  dbTimestamp := fun _ => ""
  cronDue := fun _ _ _ => false
  now := 0

/-- A message that somebody sent, beside a value it must not see. -/
def sentMessage : Json :=
  .obj [("body", .str "what is @key?"), ("key", .str "1234")]

/-- The second pass reads the reference that the message holds. -/
theorem render_template_interprets :
    renderTemplate textEnv "Reply to \x7b\x7bbody\x7d\x7d" sentMessage =
        "Reply to what is 1234?" ∧
      ownRendering textEnv "Reply to \x7b\x7bbody\x7d\x7d" sentMessage =
        "Reply to what is @key?" := by
  decide +kernel

end XpressClaw.Context
