import XpressClaw.Lib.Utf8
import XpressClaw.Workflow.Engine
import XpressClaw.Workflow.Render

/-!
# JSON in the answers of agents

`parse_task_output` guesses where in a text the JSON is: the whole of it, a stretch between
code fences, the part from the first `{` to the last `}`, and last the part from the first
`[` to the last `]`.  What `serde_json` does is a parameter, with the laws `SerdeText` about
the text of one value.

* `bracketed_eq_some_iff` — the part from the first of one character to the last of another.
* `bracketed_wrap` — prose around a text does not change that part.
* `task_output_recovered_iff` — a wrapped object or array comes back exactly when no earlier
  guess is JSON for something else.
-/

namespace XpressClaw

open Lib

/-! ## Guesses -/

/-- The stretches between code fences, without their language tags. -/
def fenced (cs : List Char) : List (List Char) :=
  (everyOther ((splitSub "```".toList (cs.length + 1) cs).drop 1)).map fun block =>
    (Text.trim (String.ofList (stripLanguage block))).toList

/-- `serde_json::from_str`. -/
def readJson (env : Env) (cs : List Char) : Option Json := env.parseJson (String.ofList cs)

/-- The first of some texts that is JSON. -/
def firstJson (env : Env) (candidates : List (List Char)) : Option Json :=
  candidates.findSome? (readJson env)

theorem parseTaskOutput_eq (env : Env) (output : String) :
    parseTaskOutput env output =
      (((readJson env (Text.trim output).toList).or
        (firstJson env (fenced (Text.trim output).toList))).or
          (((bracketed '\x7b' '\x7d' (Text.trim output).toList).bind (readJson env)).or
            ((bracketed '[' ']' (Text.trim output).toList).bind (readJson env)))).getD
        (.str output) := by
  rw [parseTaskOutput]
  generalize (Text.trim output).toList = cs
  have hread : (fun c : List Char => env.parseJson (String.ofList c)) = readJson env := rfl
  have hbrackets : (([('\x7b', '\x7d'), ('[', ']')] : List (Char × Char)).filterMap fun p =>
      bracketed p.1 p.2 cs).findSome? (readJson env) =
        ((bracketed '\x7b' '\x7d' cs).bind (readJson env)).or
          ((bracketed '[' ']' cs).bind (readJson env)) := by
    cases hbraces : bracketed '\x7b' '\x7d' cs with
    | none =>
      cases hsquare : bracketed '[' ']' cs with
      | none => simp [hbraces, hsquare]
      | some array => cases hvalue : readJson env array <;>
          simp [hbraces, hsquare, hvalue]
    | some object =>
      cases hvalue : readJson env object <;> cases hsquare : bracketed '[' ']' cs with
      | none => simp [hbraces, hsquare, hvalue]
      | some array => cases hother : readJson env array <;>
          simp [hbraces, hsquare, hvalue, hother]
  have hwhole : [cs].findSome? (readJson env) = readJson env cs := by
    cases hvalue : readJson env cs <;> simp [hvalue]
  simp only [hread, List.findSome?_append, hbrackets, hwhole, firstJson, fenced]

/-! ## Between brackets -/

section Brackets

variable {o c : Char} {cs w : List Char}

/-- The first opening character, the last closing one, and what is between them. -/
theorem bracketed_eq_some_iff : bracketed o c cs = some w ↔
    ∃ a m b, cs = a ++ (o :: (m ++ c :: b)) ∧ o ∉ a ∧ c ∉ b ∧ w = o :: (m ++ [c]) := by
  constructor
  · intro h
    rw [bracketed] at h
    simp only [Option.ite_none_right_eq_some, Option.some.injEq] at h
    obtain ⟨⟨hstart, hstop⟩, rfl⟩ := h
    rcases Utf8.eq_or_exists_sep o cs with hnone | ⟨a, r, ha, rfl⟩
    · rw [List.takeWhile_eq_self_iff.2 fun _ => Utf8.other_of_mem hnone] at hstart
      omega
    · rw [Utf8.takeWhile_sep ha] at hstop ⊢
      rcases Utf8.eq_or_exists_sep c (a ++ o :: r).reverse with hnone | ⟨b, x, hb, hx⟩
      · rw [List.takeWhile_eq_self_iff.2 fun _ => Utf8.other_of_mem hnone,
          List.length_reverse] at hstop
        omega
      · rw [hx, Utf8.takeWhile_sep hb] at hstop ⊢
        have hcs : a ++ o :: r = x.reverse ++ c :: b.reverse := by
          rw [← List.reverse_reverse (a ++ o :: r), hx]
          simp
        have hlen : (a ++ o :: r).length - b.length = x.length + 1 := by
          rw [hcs]
          simp only [List.length_append, List.length_cons, List.length_reverse]
          omega
        rw [hlen] at hstop ⊢
        -- the first opening character is before the last closing one
        obtain ⟨m, hxa, hr⟩ : ∃ m, x.reverse = a ++ o :: m ∧ r = m ++ c :: b.reverse := by
          rcases List.append_eq_append_iff.1 hcs with ⟨t, hxt, ht⟩ | ⟨t, hat, -⟩
          · cases t with
            | nil =>
              have hlength := congrArg List.length hxt
              simp only [List.length_reverse, List.append_nil] at hlength
              omega
            | cons d m =>
              obtain ⟨rfl, rfl⟩ := List.cons.inj ht
              exact ⟨m, hxt, rfl⟩
          · have hlength := congrArg List.length hat
            simp only [List.length_reverse, List.length_append] at hlength
            omega
        refine ⟨a, m, b.reverse, by rw [hr], ha, by simpa using hb, ?_⟩
        have htake : (a ++ o :: r).take (x.length + 1) = a ++ o :: (m ++ [c]) := by
          have hsplit : a ++ o :: r = (a ++ o :: (m ++ [c])) ++ b.reverse := by simp [hr]
          have hlength : x.length + 1 = (a ++ o :: (m ++ [c])).length := by
            have hlength := congrArg List.length hxa
            simp only [List.length_reverse, List.length_append, List.length_cons] at hlength
            simp only [List.length_append, List.length_cons, List.length_nil]
            omega
          rw [hsplit, hlength, List.take_left]
        rw [htake, List.drop_left]
  · rintro ⟨a, m, b, rfl, ha, hb, rfl⟩
    have hrev : (a ++ o :: (m ++ c :: b)).reverse =
        b.reverse ++ c :: (m.reverse ++ o :: a.reverse) := by simp
    have hlen : (a ++ o :: (m ++ c :: b)).length - b.reverse.length =
        (a ++ o :: (m ++ [c])).length := by
      simp only [List.length_append, List.length_cons, List.length_reverse, List.length_nil]
      omega
    have hsplit : a ++ o :: (m ++ c :: b) = (a ++ o :: (m ++ [c])) ++ b := by simp
    rw [bracketed, Utf8.takeWhile_sep ha, hrev, Utf8.takeWhile_sep (by simpa using hb), hlen,
      hsplit, List.take_left, List.drop_left, if_pos]
    simp only [List.length_append, List.length_cons, List.length_nil]
    omega

/-- Prose around a text does not change what is between its brackets. -/
theorem bracketed_wrap {p s : List Char} (hp : o ∉ p ∧ c ∉ p) (hs : o ∉ s ∧ c ∉ s) :
    bracketed o c (p ++ (cs ++ s)) = bracketed o c cs := by
  ext w
  rw [bracketed_eq_some_iff, bracketed_eq_some_iff]
  constructor
  · rintro ⟨a, m, b, h, ha, hb, rfl⟩
    obtain ⟨a', rfl, hrest⟩ : ∃ a', a = p ++ a' ∧ cs ++ s = a' ++ o :: (m ++ c :: b) := by
      rcases List.append_eq_append_iff.1 h with ⟨t, rfl, ht⟩ | ⟨t, rfl, ht⟩
      · exact ⟨t, rfl, ht⟩
      · cases t with
        | nil => exact ⟨[], by simp, by simpa using ht.symm⟩
        | cons d t =>
          obtain ⟨rfl, -⟩ := List.cons.inj ht
          exact absurd (by simp) hp.1
    have hsplit : cs ++ s = (a' ++ o :: (m ++ [c])) ++ b := by simp [hrest]
    obtain ⟨b', rfl, hcs⟩ : ∃ b', b = b' ++ s ∧ cs = a' ++ o :: (m ++ [c]) ++ b' := by
      rcases List.append_eq_append_iff.1 hsplit with ⟨t, ht, rfl⟩ | ⟨t, rfl, rfl⟩
      · rcases List.eq_nil_or_concat t with rfl | ⟨t, d, rfl⟩
        · exact ⟨[], by simp, by simpa using ht.symm⟩
        · rw [List.concat_eq_append, ← List.append_assoc, ← List.cons_append,
            ← List.append_assoc] at ht
          obtain ⟨-, hd⟩ := List.append_inj' ht rfl
          obtain rfl : c = d := by simpa using hd
          exact absurd (by simp) hs.2
      · exact ⟨t, rfl, rfl⟩
    refine ⟨a', m, b', by simp [hcs], ?_, ?_, rfl⟩
    · exact fun hmem => ha (List.mem_append_right _ hmem)
    · exact fun hmem => hb (List.mem_append_left _ hmem)
  · rintro ⟨a, m, b, rfl, ha, hb, rfl⟩
    refine ⟨p ++ a, m, b ++ s, by simp, ?_, ?_, rfl⟩
    · simp [hp.1, ha]
    · simp [hs.2, hb]

theorem bracketed_self (m : List Char) :
    bracketed o c (o :: (m ++ [c])) = some (o :: (m ++ [c])) :=
  bracketed_eq_some_iff.2 ⟨[], m, [], by simp, by simp, by simp, rfl⟩

end Brackets

/-! ## White space around a text -/

section Trim

variable {c d : Char}

theorem dropWhile_wrap (p m : List Char) (hc : Text.isWhitespace c = false) :
    (p ++ c :: m).dropWhile Text.isWhitespace = p.dropWhile Text.isWhitespace ++ c :: m := by
  induction p with
  | nil => simp [hc]
  | cons b p ih =>
    by_cases hb : Text.isWhitespace b = true
    · simpa [hb] using ih
    · simp [hb]

theorem rdropWhile_wrap (m s : List Char) (hd : Text.isWhitespace d = false) :
    (m ++ d :: s).rdropWhile Text.isWhitespace = m ++ d :: s.rdropWhile Text.isWhitespace := by
  have hrev : (m ++ d :: s).reverse = s.reverse ++ d :: m.reverse := by simp
  rw [List.rdropWhile, hrev, dropWhile_wrap _ _ hd]
  simp [List.rdropWhile]

theorem trim_wrap {text : String} {m : List Char} (htext : text.toList = c :: (m ++ [d]))
    (hc : Text.isWhitespace c = false) (hd : Text.isWhitespace d = false) (p s : String) :
    (Text.trim (p ++ text ++ s)).toList = p.toList.dropWhile Text.isWhitespace ++
      (text.toList ++ s.toList.rdropWhile Text.isWhitespace) := by
  have hwhole : (p ++ text ++ s).toList = p.toList ++ c :: (m ++ d :: s.toList) := by
    simp [String.toList_append, htext]
  rw [Text.toList_trim, hwhole, dropWhile_wrap _ _ hc, ← List.cons_append, ← List.append_assoc,
    rdropWhile_wrap _ _ hd, htext]
  simp

theorem dropWhile_eq_nil_iff_isBlank (s : String) :
    s.toList.dropWhile Text.isWhitespace = [] ↔ Text.isBlank s = true := by
  rw [List.dropWhile_eq_nil_iff, Text.isBlank, List.all_eq_true]

theorem rdropWhile_eq_nil_iff_isBlank (s : String) :
    s.toList.rdropWhile Text.isWhitespace = [] ↔ Text.isBlank s = true := by
  rw [List.rdropWhile_eq_nil_iff, Text.isBlank, List.all_eq_true]

end Trim

/-! ## Wrapped values -/

def Json.isArray : Json → Bool
  | .arr _ => true
  | _ => false

/-- The text of an object or an array, as `serde_json` writes it and reads texts like it. -/
structure SerdeText (env : Env) (v : Json) : Prop where
  round_trip : env.parseJson (env.renderJson v) = some v
  /-- An object is written in braces, an array in brackets. -/
  delimited : ∃ m, v.isObject = true ∧ (env.renderJson v).toList = '\x7b' :: (m ++ ['\x7d']) ∨
    v.isArray = true ∧ (env.renderJson v).toList = '[' :: (m ++ [']'])
  /-- Trailing characters are an error. -/
  complete : ∀ rest, (env.parseJson (env.renderJson v ++ rest)).isSome → Text.isBlank rest = true
  /-- The first character of a text tells objects and arrays from everything else. -/
  kind : ∀ c cs w, Text.isWhitespace c = false → readJson env (c :: cs) = some w →
    (w.isObject = true ↔ c = '\x7b') ∧ (w.isArray = true ↔ c = '[')

/-- Prose has no braces, no brackets and no backticks. -/
def Prose (s : String) : Prop := ∀ c ∈ ['\x7b', '\x7d', '[', ']', '\x60'], c ∉ s.toList

instance (s : String) : Decidable (Prose s) := List.decidableBAll _ _

/-- No guess before the right one is JSON for something else: the text as a whole is not
JSON, the first stretch between code fences that is JSON, if there is one, is JSON for the
value, and if there is none the value is an object or no part of an array's text from the
first `\x7b` to the last `\x7d` is JSON. -/
def Unmistaken (env : Env) (v : Json) (output : String) : Prop :=
  readJson env (Text.trim output).toList = none ∧
    (firstJson env (fenced (Text.trim output).toList) = some v ∨
      firstJson env (fenced (Text.trim output).toList) = none ∧
        (v.isArray = true → ∀ part ∈ bracketed '\x7b' '\x7d' (env.renderJson v).toList,
          readJson env part = none))

section Wrapped

variable {env : Env} {v : Json} {p s : String}

theorem not_object_and_array : ¬ (v.isObject = true ∧ v.isArray = true) := by
  cases v <;> simp [Json.isObject, Json.isArray]

theorem SerdeText.ends (h : SerdeText env v) : ∃ c m d,
    (env.renderJson v).toList = c :: (m ++ [d]) ∧ Text.isWhitespace c = false ∧
      Text.isWhitespace d = false := by
  obtain ⟨m, ⟨-, htext⟩ | ⟨-, htext⟩⟩ := h.delimited
  · exact ⟨_, m, _, htext, by decide, by decide⟩
  · exact ⟨_, m, _, htext, by decide, by decide⟩

theorem SerdeText.container (h : SerdeText env v) : v.isObject = true ∨ v.isArray = true := by
  obtain ⟨m, ⟨hobject, -⟩ | ⟨harray, -⟩⟩ := h.delimited
  · exact .inl hobject
  · exact .inr harray

theorem SerdeText.read (h : SerdeText env v) :
    readJson env (env.renderJson v).toList = some v := by
  rw [readJson, String.ofList_toList, h.round_trip]

/-- What prose and the value's text read as together is never the value. -/
theorem SerdeText.read_wrapped (h : SerdeText env v) (hp : Prose p)
    (hprose : ¬ (Text.isBlank p = true ∧ Text.isBlank s = true)) :
    readJson env (p.toList.dropWhile Text.isWhitespace ++
      ((env.renderJson v).toList ++ s.toList.rdropWhile Text.isWhitespace)) ≠ some v := by
  intro hread
  cases hbefore : p.toList.dropWhile Text.isWhitespace with
  | nil =>
    have hblank := (dropWhile_eq_nil_iff_isBlank p).1 hbefore
    rw [hbefore, List.nil_append, readJson, String.ofList_append, String.ofList_toList] at hread
    have hrest := h.complete _ (by rw [hread]; rfl)
    -- what is left of the prose behind the value does not end in white space
    rw [← rdropWhile_eq_nil_iff_isBlank, String.toList_ofList, List.rdropWhile_idempotent,
      rdropWhile_eq_nil_iff_isBlank] at hrest
    exact hprose ⟨hblank, hrest⟩
  | cons c cs =>
    have hc : Text.isWhitespace c = false := by
      have hhead := List.head?_dropWhile_not Text.isWhitespace p.toList
      rw [hbefore] at hhead
      simpa using hhead
    have hmem : c ∈ p.toList :=
      (List.dropWhile_suffix Text.isWhitespace).subset (by rw [hbefore]; simp)
    rw [hbefore, List.cons_append] at hread
    obtain ⟨hobject, harray⟩ := h.kind _ _ _ hc hread
    rcases h.container with hv | hv
    · exact hp c (by simp [hobject.1 hv]) hmem
    · exact hp c (by simp [harray.1 hv]) hmem

/-- **A wrapped object or array comes back exactly when no earlier guess is JSON.**  With
prose around its text, a value is recovered exactly when the prose is white space or no
guess of the code before the right one is JSON for something else. -/
theorem task_output_recovered_iff (env : Env) (v : Json) (p s : String)
    (hserde : SerdeText env v) (hp : Prose p) (hs : Prose s) :
    parseTaskOutput env (p ++ env.renderJson v ++ s) = v ↔
      Text.isBlank p = true ∧ Text.isBlank s = true ∨
        Unmistaken env v (p ++ env.renderJson v ++ s) := by
  obtain ⟨c, m, d, htext, hc, hd⟩ := hserde.ends
  have htrim := trim_wrap htext hc hd p s
  rw [parseTaskOutput_eq, Unmistaken]
  by_cases hblank : Text.isBlank p = true ∧ Text.isBlank s = true
  · have hbefore := (dropWhile_eq_nil_iff_isBlank p).2 hblank.1
    have hafter := (rdropWhile_eq_nil_iff_isBlank s).2 hblank.2
    rw [hbefore, hafter, List.nil_append, List.append_nil] at htrim
    simp [htrim, hserde.read, hblank]
  · have hwhole := hserde.read_wrapped (s := s) hp hblank
    rw [← htrim] at hwhole
    have hprose (o c : Char) (ho : o ∈ ['\x7b', '\x7d', '[', ']', '\x60'])
        (hc : c ∈ ['\x7b', '\x7d', '[', ']', '\x60']) :
        bracketed o c (Text.trim (p ++ env.renderJson v ++ s)).toList =
          bracketed o c (env.renderJson v).toList := by
      have hbefore := (List.dropWhile_suffix (l := p.toList) Text.isWhitespace).subset
      have hafter := (List.rdropWhile_prefix Text.isWhitespace s.toList).subset
      rw [htrim]
      exact bracketed_wrap ⟨fun h => hp o ho (hbefore h), fun h => hp c hc (hbefore h)⟩
        ⟨fun h => hs o ho (hafter h), fun h => hs c hc (hafter h)⟩
    have hbraces := hprose '\x7b' '\x7d' (by simp) (by simp)
    have hsquare := hprose '[' ']' (by simp) (by simp)
    generalize (Text.trim (p ++ env.renderJson v ++ s)).toList = cs at *
    cases hread : readJson env cs with
    | some w =>
        have hw : w ≠ v := fun heq => hwhole (by rw [hread, heq])
        simp [hw, hblank]
    | none =>
        cases hfence : firstJson env (fenced cs) with
        | some w => simp [hblank]
        | none =>
            rw [hbraces, hsquare]
            obtain ⟨m, ⟨hkind, htext⟩ | ⟨hkind, htext⟩⟩ := hserde.delimited
            · -- the braces of an object are the outermost of the text
              have hself : bracketed '\x7b' '\x7d' (env.renderJson v).toList =
                  some (env.renderJson v).toList := by
                rw [htext]
                exact bracketed_self m
              have harray : v.isArray = false := by
                rw [← Bool.not_eq_true]
                exact fun h => not_object_and_array ⟨hkind, h⟩
              simp [hself, hserde.read, harray]
            · have hself : bracketed '[' ']' (env.renderJson v).toList =
                  some (env.renderJson v).toList := by
                rw [htext]
                exact bracketed_self m
              rw [hself]
              cases hpart : bracketed '\x7b' '\x7d' (env.renderJson v).toList with
              | none => simp [hserde.read]
              | some part =>
                  cases hguess : readJson env part with
                  | none => simp [hserde.read, hguess]
                  | some w =>
                      -- what is in braces is an object, and the value is an array
                      obtain ⟨-, x, -, -, -, -, rfl⟩ := bracketed_eq_some_iff.1 hpart
                      have hobject := (hserde.kind _ _ _ (by decide) hguess).1.2 rfl
                      have hw : w ≠ v := by
                        rintro rfl
                        exact not_object_and_array ⟨hobject, hkind⟩
                      simp [hguess, hw, hblank, hkind]

end Wrapped

/-! ## An array of objects -/

/-- An object and an array that holds it. -/
def oneField : Json := .obj [("a", .num 1)]

def oneObject : Json := .arr [oneField]

/-- A reader and a writer of these two values. -/
def objectEnv : Env :=
  { Context.textEnv with
    parseJson := fun text =>
      if text = "[\x7b\"a\":1\x7d]" then some oneObject
      else if text = "\x7b\"a\":1\x7d" then some oneField else none
    renderJson := fun v => if v.isArray then "[\x7b\"a\":1\x7d]" else "\x7b\"a\":1\x7d" }

theorem objectEnv_cases {text : String} {w : Json} (h : objectEnv.parseJson text = some w) :
    text = "[\x7b\"a\":1\x7d]" ∧ w = oneObject ∨ text = "\x7b\"a\":1\x7d" ∧ w = oneField := by
  rw [objectEnv] at h
  dsimp only at h
  split at h
  next harray => exact .inl ⟨harray, (Option.some.inj h).symm⟩
  next =>
    split at h
    next hobject => exact .inr ⟨hobject, (Option.some.inj h).symm⟩
    next => cases h

theorem objectEnv_kind (c : Char) (cs : List Char) (w : Json)
    (h : readJson objectEnv (c :: cs) = some w) :
    (w.isObject = true ↔ c = '\x7b') ∧ (w.isArray = true ↔ c = '[') := by
  rcases objectEnv_cases h with ⟨htext, rfl⟩ | ⟨htext, rfl⟩
  · have hc : c = '[' := by
      have hhead := congrArg (·.toList.head?) htext
      simpa using hhead
    simp [hc, oneObject, Json.isObject, Json.isArray]
  · have hc : c = '\x7b' := by
      have hhead := congrArg (·.toList.head?) htext
      simpa using hhead
    simp [hc, oneField, Json.isObject, Json.isArray]

theorem objectEnv_complete {v : Json} (hv : v = oneObject ∨ v = oneField) (rest : String)
    (h : (objectEnv.parseJson (objectEnv.renderJson v ++ rest)).isSome = true) :
    Text.isBlank rest = true := by
  obtain ⟨w, hw⟩ := Option.isSome_iff_exists.1 h
  have hrest : rest.toList = [] := by
    rcases hv with rfl | rfl <;> rcases objectEnv_cases hw with ⟨htext, -⟩ | ⟨htext, -⟩
    all_goals
      replace htext := congrArg String.toList htext
      revert htext
      simp [String.toList_append, objectEnv, oneObject, oneField, Json.isArray]
  simp [Text.isBlank, hrest]

theorem serdeText_oneObject : SerdeText objectEnv oneObject where
  round_trip := by decide +kernel
  delimited := ⟨"\x7b\"a\":1\x7d".toList, .inr ⟨by decide, by decide⟩⟩
  complete := objectEnv_complete (.inl rfl)
  kind := fun c cs w _ => objectEnv_kind c cs w

theorem serdeText_oneField : SerdeText objectEnv oneField where
  round_trip := by decide +kernel
  delimited := ⟨"\"a\":1".toList, .inl ⟨by decide, by decide⟩⟩
  complete := objectEnv_complete (.inr rfl)
  kind := fun c cs w _ => objectEnv_kind c cs w

/-- An object behind a line of prose comes back. -/
theorem object_in_prose_recovered :
    parseTaskOutput objectEnv ("Done. " ++ objectEnv.renderJson oneField ++ "") = oneField :=
  (task_output_recovered_iff objectEnv oneField "Done. " "" serdeText_oneField
    (by decide +kernel) (by decide +kernel)).2
      (.inr ⟨by decide +kernel, .inr ⟨by decide +kernel, by decide⟩⟩)

/-- An array of one object behind a line of prose comes back as the object: the part in
braces is tried first. -/
theorem array_in_prose_lost :
    SerdeText objectEnv oneObject ∧ Prose "Result: " ∧
      parseTaskOutput objectEnv ("Result: " ++ objectEnv.renderJson oneObject ++ "") =
        oneField ∧
      parseTaskOutput objectEnv ("Result: " ++ objectEnv.renderJson oneObject ++ "") ≠
        oneObject := by
  refine ⟨serdeText_oneObject, ?_, ?_, ?_⟩ <;> decide +kernel

end XpressClaw
