import XpressClaw.Lib.Utf8
import XpressClaw.Workflow.Render

/-!
# Wait durations

`parse_wait_duration` cuts the last byte off the trimmed text and reads the rest as a number.
Here is what it accepts, and what becomes of a text whose last byte is not a character.

* `Denotes` — the texts that stand for a duration, with the number of seconds.
* `parseWaitDuration_eq_ok_iff` — the code accepts these and no others, with that number.
* `parseWaitDuration_panics_iff`, `parseWaitDuration_ne_panic_iff` — the code panics where the
  cut is inside a character, that is, when the last character takes more than one byte.
* `validate_calm` — a definition whose timeouts end in a single byte is validated without a
  panic.
* `wait_duration_exact` — the three together.
-/

namespace XpressClaw

open Lib

/-! ## What a duration is -/

/-- The number that decimal digits stand for. -/
def decimal (digits : List Char) : ℕ :=
  digits.foldl (fun acc c => acc * 10 + (c.toNat - '0'.toNat)) 0

/-- The text is a positive whole number, with or without a plus sign, and one of the units
behind it; the seconds are the number times the unit, and neither the duration nor the time
at which it ends is out of range. -/
def Denotes (env : Env) (value : String) (seconds : ℤ) : Prop :=
  ∃ sign ∈ [[], ['+']], ∃ digits, digits ≠ [] ∧ digits.all (·.isDigit) = true ∧
    0 < decimal digits ∧
    ∃ unit ∈ [('s', 1), ('m', 60), ('h', 3600), ('d', 86400), ('w', 604800)],
      (Text.trim value).toList = sign ++ digits ++ [unit.1] ∧
      seconds = decimal digits * unit.2 ∧ seconds ≤ maxDurationSeconds ∧
      env.now + seconds ≤ maxTimestampSeconds

/-- The last byte of the trimmed text, if there is one, is a character. -/
def EndsInByte (value : String) : Prop :=
  ∀ c ∈ (Text.trim value).toList.getLast?, c.utf8Size = 1

instance (value : String) : Decidable (EndsInByte value) :=
  Option.decidableForallMem _

/-! ## The cut -/

section Cut

variable {env : Env} {value : String}

/-- The last byte is cut off where it is a character. -/
theorem splitAt_last (cs : List Char) (unit : Char) :
    Utf8.splitAt (cs ++ [unit]) (Utf8.byteLen (cs ++ [unit]) - 1) =
      if unit.utf8Size = 1 then some (cs, [unit]) else none := by
  have hlen : Utf8.byteLen (cs ++ [unit]) = Utf8.byteLen cs + unit.utf8Size := by simp
  have hpos := unit.utf8Size_pos
  split
  next hone =>
    rw [Utf8.splitAt_eq_some_iff]
    refine ⟨rfl, ?_⟩
    omega
  next hmore =>
    cases hsplit : Utf8.splitAt (cs ++ [unit]) (Utf8.byteLen (cs ++ [unit]) - 1) with
    | none => rfl
    | some parts =>
      obtain ⟨a, b⟩ := parts
      obtain ⟨hab, ha⟩ := Utf8.splitAt_eq_some_iff.1 hsplit
      have hb : Utf8.byteLen b = 1 := by
        rw [hab, Utf8.byteLen_append] at ha hlen
        omega
      -- one byte is left, and the character it belongs to has more
      rcases List.eq_nil_or_concat b with rfl | ⟨w, c, rfl⟩
      · simp at hb
      · rw [List.concat_eq_append, ← List.append_assoc] at hab
        obtain ⟨-, hc⟩ := List.append_inj' hab rfl
        obtain rfl : unit = c := by simpa using hc
        simp only [List.concat_eq_append, Utf8.byteLen_append, Utf8.byteLen_cons,
          Utf8.byteLen_nil] at hb
        omega

theorem utf8Len_sum (cs : List Char) : (cs.map utf8Len).sum = Utf8.byteLen cs := rfl

/-- The code panics where the last character of the text takes more than a byte. -/
theorem parseWaitDuration_eq_panic : parseWaitDuration env value = .error .panic ↔
    ∃ unit ∈ (Text.trim value).toList.getLast?, unit.utf8Size ≠ 1 := by
  rw [parseWaitDuration, utf8Len_sum]
  generalize (Text.trim value).toList = cs
  rcases List.eq_nil_or_concat cs with rfl | ⟨w, unit, rfl⟩
  · simp
  · have hpos := unit.utf8Size_pos
    simp only [List.concat_eq_append, Utf8.byteLen_append, Utf8.byteLen_cons, Utf8.byteLen_nil,
      List.getLast?_append_cons, List.getLast?_singleton, List.dropLast_concat,
      Option.mem_some_iff, utf8Len]
    by_cases hone : unit.utf8Size = 1
    · simp only [hone, ne_eq, not_true_eq_false, if_false]
      repeat' split
      all_goals simp [hone]
    · rw [if_neg (by omega)]
      simp [hone]

/-- The code panics exactly when the cut behind all but one byte is none. -/
theorem parseWaitDuration_panics_iff : parseWaitDuration env value = .error .panic ↔
    2 ≤ Utf8.byteLen (Text.trim value).toList ∧
      Utf8.splitAt (Text.trim value).toList
        (Utf8.byteLen (Text.trim value).toList - 1) = none := by
  rw [parseWaitDuration_eq_panic]
  generalize (Text.trim value).toList = cs
  rcases List.eq_nil_or_concat cs with rfl | ⟨w, unit, rfl⟩
  · simp
  · have hpos := unit.utf8Size_pos
    rw [List.concat_eq_append, splitAt_last]
    by_cases hone : unit.utf8Size = 1
    · simp [hone]
    · have hlong : 2 ≤ Utf8.byteLen (w ++ [unit]) := by
        simp only [Utf8.byteLen_append, Utf8.byteLen_cons]
        omega
      simpa [hone] using hlong

theorem parseWaitDuration_ne_panic_iff :
    parseWaitDuration env value ≠ .error .panic ↔ EndsInByte value := by
  rw [Ne, parseWaitDuration_eq_panic]
  simp [EndsInByte]

end Cut

/-! ## The number -/

/-- `str::parse::<i64>` behind the sign. -/
def readDigits (neg : Bool) (digits : List Char) : Option ℤ :=
  if digits = [] ∨ digits.any (fun c => !c.isDigit) then none
  else
    let v : ℤ := if neg then -decimal digits else decimal digits
    if -(2 ^ 63) ≤ v ∧ v < 2 ^ 63 then some v else none

section Number

variable {env : Env} {value : String} {cs digits : List Char} {n : ℤ}

theorem foldl_decimal (digits : List Char) (a : ℕ) :
    digits.foldl (fun acc c => acc * 10 + ((c.toNat - '0'.toNat : ℕ) : ℤ)) (a : ℤ) =
      (digits.foldl (fun acc c => acc * 10 + (c.toNat - '0'.toNat)) a : ℕ) := by
  induction digits generalizing a with
  | nil => rfl
  | cons c digits ih => simpa using ih (a * 10 + (c.toNat - '0'.toNat))

theorem parseI64_minus (digits : List Char) :
    parseI64 ('-' :: digits) = readDigits true digits := by
  rw [parseI64, readDigits, decimal, ← foldl_decimal]

theorem parseI64_plus (digits : List Char) :
    parseI64 ('+' :: digits) = readDigits false digits := by
  rw [parseI64, readDigits, decimal, ← foldl_decimal]

theorem parseI64_unsigned (hminus : ∀ ds, cs ≠ '-' :: ds) (hplus : ∀ ds, cs ≠ '+' :: ds) :
    parseI64 cs = readDigits false cs := by
  unfold parseI64
  split
  next neg digits heq =>
    split at heq
    next ds => exact absurd rfl (hminus ds)
    next ds => exact absurd rfl (hplus ds)
    next =>
      obtain ⟨rfl, rfl⟩ := Prod.mk.inj heq
      rw [readDigits, decimal, ← foldl_decimal]

theorem readDigits_eq_some (h : readDigits false digits = some n) :
    digits ≠ [] ∧ digits.all (·.isDigit) = true ∧ n = decimal digits ∧ n < 2 ^ 63 := by
  rw [readDigits] at h
  split at h
  next => cases h
  next hdigits =>
    rw [not_or, Bool.not_eq_true, List.any_eq_false] at hdigits
    simp only [Bool.false_eq_true, if_false, Option.ite_none_right_eq_some, Option.some.injEq] at h
    obtain ⟨hfit, rfl⟩ := h
    exact ⟨hdigits.1, by simpa using hdigits.2, rfl, hfit.2⟩

theorem readDigits_nonpos (h : readDigits true digits = some n) : n ≤ 0 := by
  rw [readDigits] at h
  split at h
  next => cases h
  next =>
    simp only [if_true, Option.ite_none_right_eq_some, Option.some.injEq] at h
    omega

theorem readDigits_of_digits (hne : digits ≠ []) (hd : digits.all (·.isDigit) = true)
    (hfit : decimal digits < 2 ^ 63) : readDigits false digits = some (decimal digits : ℤ) := by
  have hno : ¬ (digits = [] ∨ (digits.any fun c => !c.isDigit) = true) := by
    rw [not_or, Bool.not_eq_true, List.any_eq_false]
    exact ⟨hne, by simpa using hd⟩
  have hrange : -(2 ^ 63) ≤ (decimal digits : ℤ) ∧ (decimal digits : ℤ) < 2 ^ 63 := by omega
  rw [readDigits, if_neg hno]
  exact if_pos hrange

/-- A positive number is read where digits for it stand, a plus sign before them or not. -/
theorem parseI64_pos_iff : parseI64 cs = some n ∧ 0 < n ↔
    ∃ sign ∈ [[], ['+']], ∃ digits, digits ≠ [] ∧ digits.all (·.isDigit) = true ∧
      0 < decimal digits ∧ cs = sign ++ digits ∧ n = decimal digits ∧ n < 2 ^ 63 := by
  constructor
  · rintro ⟨h, hpos⟩
    have hunsigned : ∀ sign ∈ [[], ['+']], ∀ digits, cs = sign ++ digits →
        readDigits false digits = some n → ∃ sign ∈ [[], ['+']], ∃ digits, digits ≠ [] ∧
          digits.all (·.isDigit) = true ∧ 0 < decimal digits ∧ cs = sign ++ digits ∧
          n = decimal digits ∧ n < 2 ^ 63 := by
      intro sign hsign digits hcs hread
      obtain ⟨hne, hd, hn, hfit⟩ := readDigits_eq_some hread
      exact ⟨sign, hsign, digits, hne, hd, by omega, hcs, hn, hfit⟩
    by_cases hplus : ∃ ds, cs = '+' :: ds
    · obtain ⟨ds, rfl⟩ := hplus
      exact hunsigned ['+'] (by simp) ds rfl (by rwa [parseI64_plus] at h)
    · by_cases hminus : ∃ ds, cs = '-' :: ds
      · obtain ⟨ds, rfl⟩ := hminus
        rw [parseI64_minus] at h
        have hnonpos := readDigits_nonpos h
        omega
      · rw [not_exists] at hplus hminus
        rw [parseI64_unsigned hminus hplus] at h
        exact hunsigned [] (by simp) cs rfl h
  · rintro ⟨sign, hsign, digits, hne, hd, hpos, rfl, rfl, hfit⟩
    have hread := readDigits_of_digits hne hd (by omega)
    refine ⟨?_, by omega⟩
    rcases List.mem_pair.1 hsign with rfl | rfl
    · -- a digit is no sign
      have hfirst : ∀ c ds, digits = c :: ds → c.isDigit = true := by
        rintro c ds rfl
        simpa using (List.all_eq_true.1 hd) c (List.mem_cons_self ..)
      rw [List.nil_append, parseI64_unsigned, hread]
      · exact fun ds hds => absurd (hfirst _ _ hds) (by decide)
      · exact fun ds hds => absurd (hfirst _ _ hds) (by decide)
    · rw [List.singleton_append, parseI64_plus, hread]

theorem unitSeconds_eq_some_iff {unit : Char} {k : ℤ} : unitSeconds unit = some k ↔
    (unit, k) ∈ [('s', 1), ('m', 60), ('h', 3600), ('d', 86400), ('w', 604800)] := by
  unfold unitSeconds
  split <;> simp_all [eq_comm]

/-- What the code accepts, in terms of the parts that it reads. -/
theorem parseWaitDuration_eq_ok : parseWaitDuration env value = .ok n ↔
    ∃ w unit amount k, (Text.trim value).toList = w ++ [unit] ∧
      (parseI64 w = some amount ∧ 0 < amount) ∧ unitSeconds unit = some k ∧ n = amount * k ∧
      n ≤ maxDurationSeconds ∧ env.now + n ≤ maxTimestampSeconds := by
  rw [parseWaitDuration, utf8Len_sum]
  generalize (Text.trim value).toList = cs
  constructor
  · intro h
    rcases List.eq_nil_or_concat cs with rfl | ⟨w, unit, rfl⟩
    · simp at h
    · rw [List.concat_eq_append] at h ⊢
      simp only [List.getLast?_append_cons, List.getLast?_singleton, List.dropLast_concat] at h
      split at h
      next => cases h
      next =>
        split at h
        next => cases h
        next =>
          cases hread : parseI64 w with
          | none => simp [hread] at h
          | some amount =>
            simp only [hread] at h
            split at h
            next => cases h
            next hpos =>
              cases hunit : unitSeconds unit with
              | none => simp [hunit] at h
              | some k =>
                simp only [hunit] at h
                split at h
                next => cases h
                next hduration =>
                  split at h
                  next => cases h
                  next htime =>
                    obtain rfl := Except.ok.inj h
                    exact ⟨w, unit, amount, k, rfl, ⟨hread, by omega⟩, hunit, rfl,
                      by omega, by omega⟩
  · rintro ⟨w, unit, amount, k, rfl, ⟨hread, hpos⟩, hunit, rfl, hduration, htime⟩
    have hw : w ≠ [] := by
      rintro rfl
      simp [parseI64] at hread
    have hone : unit.utf8Size = 1 := by
      rw [unitSeconds_eq_some_iff] at hunit
      simp only [List.mem_cons, Prod.mk.injEq, List.not_mem_nil, or_false] at hunit
      rcases hunit with h | h | h | h | h <;> rw [h.1] <;> decide
    have hlong : ¬ Utf8.byteLen (w ++ [unit]) < 2 := by
      have hlen := Utf8.length_le_byteLen w
      have hpos := List.length_pos_iff.2 hw
      simp only [Utf8.byteLen_append, Utf8.byteLen_cons]
      omega
    rw [if_neg hlong]
    simp only [List.getLast?_append_cons, List.getLast?_singleton, List.dropLast_concat, utf8Len,
      hone, ne_eq, not_true_eq_false, if_false, hread, hunit]
    rw [if_neg (by omega), if_neg (by omega), if_neg (by omega)]

/-- The code accepts the texts of durations and no others, with the seconds they mean. -/
theorem parseWaitDuration_eq_ok_iff :
    parseWaitDuration env value = .ok n ↔ Denotes env value n := by
  rw [parseWaitDuration_eq_ok]
  constructor
  · rintro ⟨w, unit, amount, k, hcs, hread, hunit, hn, hduration, htime⟩
    obtain ⟨sign, hsign, digits, hne, hd, hpos, rfl, rfl, -⟩ := parseI64_pos_iff.1 hread
    exact ⟨sign, hsign, digits, hne, hd, hpos, (unit, k), unitSeconds_eq_some_iff.1 hunit,
      hcs, hn, hduration, htime⟩
  · rintro ⟨sign, hsign, digits, hne, hd, hpos, ⟨unit, k⟩, hunit, hcs, hn, hduration, htime⟩
    have hk : 1 ≤ k := by
      simp only [List.mem_cons, Prod.mk.injEq, List.not_mem_nil, or_false] at hunit
      omega
    -- a number out of range of an integer is out of range of a duration
    have hfit : (decimal digits : ℤ) < 2 ^ 63 := by
      have hle := Int.mul_le_mul_of_nonneg_left hk (Int.natCast_nonneg (decimal digits))
      rw [maxDurationSeconds] at hduration
      dsimp only at hn
      omega
    exact ⟨sign ++ digits, unit, decimal digits, k, hcs,
      parseI64_pos_iff.2 ⟨sign, hsign, digits, hne, hd, hpos, rfl, rfl, hfit⟩,
      unitSeconds_eq_some_iff.2 hunit, hn, hduration, htime⟩

end Number

/-! ## Validation -/

/-- The call returns, with a value or with an error. -/
def Calm {α : Type} (r : Except Err α) : Prop := r ≠ .error .panic

section Calm

variable {α β : Type} {env : Env}

theorem calm_ok (a : α) : Calm (.ok a : Except Err α) := by simp [Calm]

theorem calm_workflow (message : String) : Calm (.error (.workflow message) : Except Err α) := by
  simp [Calm]

theorem Calm.bind {x : Except Err α} {f : α → Except Err β} (hx : Calm x)
    (hf : ∀ a, x = .ok a → Calm (f a)) : Calm (x >>= f) := by
  cases x with
  | error e =>
    intro h
    have herror : (.error e : Except Err β) = .error .panic := h
    exact hx (by rw [Except.error.inj herror])
  | ok a => exact hf a rfl

theorem calm_require (p : Prop) [Decidable p] (message : String) : Calm (require p message) := by
  rw [require]
  split
  next => exact calm_ok _
  next => exact calm_workflow _

theorem calm_checkAll {check : α → Except Err Unit} {l : List α} (h : ∀ a ∈ l, Calm (check a)) :
    Calm (checkAll check l) := by
  induction l with
  | nil => exact calm_ok _
  | cons a l ih =>
    rw [List.forall_mem_cons] at h
    exact h.1.bind fun _ _ => ih h.2

theorem calm_checkOption {check : α → Except Err Unit} {o : Option α}
    (h : ∀ a ∈ o, Calm (check a)) : Calm (checkOption check o) := by
  cases o with
  | none => exact calm_ok _
  | some a => exact h a rfl

theorem calm_validateValue (input : Input) (name : String) (value : Json) :
    Calm (input.validateValue name value) := by
  have hcalm (valid : Bool) (message : String) :
      Calm (if valid then .ok () else .error (.workflow message) : Except Err Unit) := by
    cases valid
    · exact calm_workflow _
    · exact calm_ok _
  exact hcalm _ _

theorem calm_parseWaitDuration {value : String} (h : EndsInByte value) :
    Calm (parseWaitDuration env value) :=
  parseWaitDuration_ne_panic_iff.2 h

end Calm

mutual
/-- The timeouts of a step and of what it contains. -/
def Step.timeouts : Step → List String
  | ⟨_, _, _, _, _, _, _, _, _, _, _, _, body, _, _, _, timeout, _⟩ =>
      timeout.toList ++ timeoutsIn body

/-- The timeouts of a list of steps, bodies included. -/
def timeoutsIn : List Step → List String
  | [] => []
  | s :: ss => s.timeouts ++ timeoutsIn ss
end

theorem Step.timeouts_eq (s : Step) : s.timeouts = s.timeout.toList ++ timeoutsIn s.body := by
  cases s
  rfl

namespace Definition

variable (d : Definition) {env : Env} {ids : List String} {flow : String} {s : Step}

/-- The timeouts of a definition, whatever the steps that have them. -/
def timeouts : List String := d.flows.flatMap fun f => timeoutsIn f.2.steps

theorem calm_resolveEach (provided : Vars) (inputs : List (String × Input)) (resolved : Vars) :
    Calm (resolveEach provided inputs resolved) := by
  induction inputs generalizing resolved with
  | nil => exact calm_ok _
  | cons i inputs ih =>
    obtain ⟨name, input⟩ := i
    rw [resolveEach]
    split
    next value _ => exact (calm_validateValue _ _ _).bind fun _ _ => ih _
    next =>
      split
      next => exact calm_workflow _
      next => exact ih _

theorem calm_resolveInputs (provided : Json) : Calm (d.resolveInputs provided) := by
  rw [resolveInputs]
  split
  next => exact calm_ok _
  next =>
    split
    next => exact calm_workflow _
    next fields _ =>
      split
      next => exact calm_workflow _
      next =>
        have hcalm := calm_resolveEach fields d.inputs []
        cases hread : resolveEach fields d.inputs [] with
        | error e =>
          rw [hread] at hcalm
          exact fun h => hcalm (by simpa [Except.map] using h)
        | ok vars => exact calm_ok _

theorem calm_validateAgentReference (required : Bool) :
    Calm (d.validateAgentReference s flow required) := by
  rw [validateAgentReference]
  split
  next => exact calm_require _ _
  next =>
    split
    next =>
      dsimp only
      split
      next => exact calm_workflow _
      next =>
        split
        next => exact calm_require _ _
        next => exact calm_workflow _
    next => exact calm_ok _

theorem calm_validateGotoTarget (target fromStep : String) :
    Calm (d.validateGotoTarget target ids fromStep flow) := by
  rw [validateGotoTarget]
  split
  next => exact calm_require _ _
  next => exact calm_require _ _
  next =>
    refine (calm_require _ _).bind fun _ _ => ?_
    split
    next => exact calm_require _ _
    next => exact calm_ok _
  next => exact calm_ok _
  next => exact calm_workflow _

theorem calm_validateWhen : Calm (d.validateWhen s ids flow) :=
  (calm_require _ _).bind fun _ _ => (calm_require _ _).bind fun _ _ =>
    calm_checkAll fun _ _ => calm_checkOption fun _ _ => d.calm_validateGotoTarget _ _

theorem calm_validateCommand (h : ∀ t ∈ s.timeout, EndsInByte t) :
    Calm (d.validateCommand env s flow) := by
  have htimeout : EndsInByte (s.timeout.getD "5m") := by
    cases ht : s.timeout with
    | none => decide +kernel
    | some t => exact h t ht
  refine (d.calm_validateAgentReference true).bind fun _ _ => (calm_require _ _).bind fun _ _ =>
    Calm.bind (calm_checkOption ?_) fun _ _ => (calm_parseWaitDuration htimeout).bind fun _ _ =>
      (calm_require _ _).bind fun _ _ => calm_require _ _
  intro cwd _
  rw [validateCommandCwd]
  split
  next => exact calm_workflow _
  next => exact calm_ok _

theorem calm_validateWait (h : ∀ t ∈ s.timeout, EndsInByte t) :
    Calm (d.validateWait env s ids flow) := by
  refine (d.calm_validateAgentReference true).bind fun _ _ => (calm_require _ _).bind fun _ _ =>
    (calm_require _ _).bind fun _ _ => (calm_require _ _).bind fun _ _ =>
      (calm_checkOption fun _ _ => d.calm_validateGotoTarget _ _).bind fun _ _ =>
        calm_checkOption ?_
  intro timeout ht
  have hcalm : Calm (parseWaitDuration env timeout) := calm_parseWaitDuration (h timeout ht)
  split
  next => exact calm_ok _
  next => exact calm_workflow _
  next e _ heq =>
    intro hpanic
    rw [heq] at hcalm
    exact hcalm (by simpa using hpanic)

theorem calm_validateSteps (ids : List String) (flow : String) : ∀ ss : List Step,
    (∀ t ∈ timeoutsIn ss, EndsInByte t) → Calm (d.validateSteps env ids flow ss) := by
  refine (Step.nested_induction
    (M := fun s => (∀ t ∈ s.timeouts, EndsInByte t) → Calm (d.validateStep env ids flow s))
    (L := fun ss => (∀ t ∈ timeoutsIn ss, EndsInByte t) → Calm (d.validateSteps env ids flow ss))
    ?_ (fun _ => calm_ok _) ?_).2
  · intro s ih h
    rw [Step.timeouts_eq, List.forall_mem_append] at h
    obtain ⟨hown, hbody⟩ := h
    have hown' : ∀ t ∈ s.timeout, EndsInByte t := by simpa using hown
    have hbodies := ih hbody
    obtain ⟨id, ty, a, p, c, w, af, o, sw, ar, ov, as, body, tg, ev, rs, tm, ot⟩ := s
    simp only [validateStep]
    cases ty with
    | when => exact d.calm_validateWhen
    | loop =>
      refine (calm_require _ _).bind fun _ _ => (calm_require _ _).bind fun _ _ => ?_
      split
      next => exact calm_workflow _
      next => exact hbodies
    | parallel =>
      exact (calm_require _ _).bind fun _ _ => (calm_require _ _).bind fun _ _ => hbodies
    | command => exact d.calm_validateCommand hown'
    | step => exact d.calm_validateAgentReference false
    | continue_ => exact calm_require _ _
    | wait => exact d.calm_validateWait hown'
    | jump =>
      cases tg with
      | some target => exact d.calm_validateGotoTarget _ _
      | none => exact calm_workflow _
    | sink => exact calm_ok _
    | other name => exact calm_workflow _
  · intro s ss hs hss h
    rw [timeoutsIn, List.forall_mem_append] at h
    exact (hs h.1).bind fun _ _ => hss h.2

theorem calm_validateInputs (inputs : List (String × Input)) (primary : Option String) :
    Calm (validateInputs inputs primary) := by
  induction inputs generalizing primary with
  | nil => exact calm_ok _
  | cons i inputs ih =>
    obtain ⟨name, input⟩ := i
    refine (calm_require _ _).bind fun _ _ => (calm_require _ _).bind fun _ _ =>
      (calm_require _ _).bind fun _ _ =>
        (calm_checkOption fun _ _ => calm_validateValue _ _ _).bind fun _ _ => ?_
    split
    next =>
      refine (calm_require _ _).bind fun _ _ => ?_
      split
      next => exact calm_workflow _
      next => exact ih _
    next => exact ih _

theorem calm_validateSchedule (schedule : Schedule) : Calm (d.validateSchedule env schedule) := by
  refine (calm_require _ _).bind fun _ _ => (calm_require _ _).bind fun _ _ =>
    Calm.bind ?_ fun _ _ => (d.calm_resolveInputs _).bind fun _ _ => calm_ok _
  rw [validateStart]
  split
  next =>
    split
    next => exact calm_ok _
    next => exact calm_workflow _
  next =>
    split
    next => exact calm_workflow _
    next => exact calm_ok _

theorem calm_checkIds (flow : String) (ids seen : List String) : Calm (checkIds flow ids seen) := by
  induction ids generalizing seen with
  | nil => exact calm_ok _
  | cons id ids ih => exact (calm_require _ _).bind fun _ _ => ih _

theorem validate_calm (h : ∀ t ∈ d.timeouts, EndsInByte t) : Calm (d.validate env) := by
  refine (calm_require _ _).bind fun _ _ => (calm_validateInputs _ _).bind fun _ _ =>
    (calm_checkOption fun _ _ => d.calm_validateSchedule _).bind fun _ _ => calm_checkAll ?_
  intro f hf
  refine (calm_checkIds _ _ _).bind fun _ _ => d.calm_validateSteps _ _ _ fun t ht => h t ?_
  exact List.mem_flatMap.2 ⟨f, hf, ht⟩

end Definition

/-- **Wait durations are parsed exactly, and without a panic when the last byte is a
character.**  For such a text the code returns, with a duration exactly for a positive whole
number in range and a unit behind it, the value being the number times the unit; and no
definition with that text among its timeouts, the others ending in a single byte too, makes
validation panic.  For any other text the code panics. -/
theorem wait_duration_exact (env : Env) (value : String) :
    (parseWaitDuration env value ≠ .error .panic ∧
      (∀ seconds, parseWaitDuration env value = .ok seconds ↔ Denotes env value seconds) ∧
      ∀ d : Definition, (∀ t ∈ d.timeouts, t = value ∨ EndsInByte t) →
        d.validate env ≠ .error .panic) ↔
    EndsInByte value := by
  rw [parseWaitDuration_ne_panic_iff]
  refine ⟨fun h => h.1, fun h => ⟨h, fun _ => parseWaitDuration_eq_ok_iff, ?_⟩⟩
  intro d htimeouts
  apply d.validate_calm
  intro t ht
  rcases htimeouts t ht with rfl | hother
  · exact h
  · exact hother

/-- A wait for activity on a pull request, with a timeout. -/
def reviewWait (timeout : String) : Definition where
  name := "invalid-review-wait"
  flows := [("main", ⟨[{
    id := "wait_for_review"
    stepType := .wait
    agent := some "project-a"
    event := some "github.pull_request.activity"
    resource := some "https://github.com/XpressAI/xpressclaw/pull/144"
    timeout := some timeout }]⟩)]
  flows_nodup := List.nodup_singleton _

/-- A timeout that ends in a character of three bytes takes the parser and the validation
of the definition down. -/
theorem euro_timeout_panics :
    parseWaitDuration Context.textEnv "5€" = .error .panic ∧
      (reviewWait "5€").validate Context.textEnv = .error .panic := by
  decide +kernel

end XpressClaw
