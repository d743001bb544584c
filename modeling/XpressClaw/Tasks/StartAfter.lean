import Mathlib.Order.Bounds.Basic
import Mathlib.Tactic.NormNum
import XpressClaw.Lib.Rfc3339
import XpressClaw.Tasks.Store

/-!
# The start of a task

`normalize_start_after` rounds the time before which a task does not start up to the next
millisecond, and the claim query compares the text it writes with `julianday`.

* `Chrono` and `Chrono.Documented` — what `chrono` does with a text and a time.
* `Dates` — what SQLite does with the texts that are written.
* `Ceils` — the text of an input is the least millisecond not before it, stays as it is, and is
  one that the claim query understands.
* `Rounds` — the inputs of which that is so.
-/

namespace XpressClaw.Tasks.StartAfter

open Lib

/-! ## Times -/

/-- `DateTime<Utc>`: a second, counted from the start of the year 0, and nanoseconds, which
from `10 ^ 9` on are those of the leap second behind it. -/
structure DateTime where
  second : ℤ
  nanos : ℕ
deriving DecidableEq

namespace DateTime

/-- A leap second is the last one of a minute. -/
def Valid (d : DateTime) : Prop :=
  d.nanos < 10 ^ 9 ∨ d.nanos < 2 * 10 ^ 9 ∧ d.second % 60 = 59

/-- A time plus nanoseconds, less than a second of them.  The sum leaves a leap second at its
end. -/
def later (d : DateTime) (nanos : ℕ) : DateTime :=
  let limit := if d.nanos < 10 ^ 9 then 10 ^ 9 else 2 * 10 ^ 9
  if d.nanos + nanos < limit then ⟨d.second, d.nanos + nanos⟩
  else ⟨d.second + 1, d.nanos + nanos - limit⟩

/-- What is kept of a timestamp: nine digits of the second. -/
def ofTimestamp (t : Timestamp) : DateTime :=
  ⟨t.seconds, firstDigits 9 t.fraction + if t.second = 60 then 10 ^ 9 else 0⟩

def date (d : DateTime) : Date := Date.ofNumber (d.second.toNat / 86400)

def leap (d : DateTime) : ℕ := if d.nanos < 10 ^ 9 then 0 else 1

/-- The years that have four digits. -/
def InRange (d : DateTime) : Prop := 0 ≤ d.second ∧ d.date.year < 10000

/-- The text with milliseconds; what is less than one is cut off. -/
def text (d : DateTime) : String :=
  Timestamp.printMillis d.date (d.second.toNat / 3600 % 24) (d.second.toNat / 60 % 60)
    (d.second.toNat % 60 + d.leap) (d.nanos % 10 ^ 9 / 10 ^ 6)

/-- The milliseconds of a time that is in no leap second. -/
def millis (d : DateTime) : ℤ := d.second * 1000 + (d.nanos / 10 ^ 6 : ℕ)

/-- The instant of a time. -/
def instant (d : DateTime) : ℤ ×ₗ ℚ := toLex (d.second, d.nanos / 10 ^ 9)

end DateTime

/-- The functions of `chrono` that are called: `parse_from_rfc3339` followed by
`with_timezone(&Utc)`, the sum with `Duration::nanoseconds`, `year` and
`to_rfc3339_opts(SecondsFormat::Millis, true)`. -/
structure Chrono where
  parseFromRfc3339 : String → Option DateTime
  add : DateTime → ℕ → DateTime
  year : DateTime → ℤ
  toRfc3339Millis : DateTime → String

/-- The documented behaviour of `chrono`. -/
structure Chrono.Documented (c : Chrono) : Prop where
  parse : ∀ s t, Timestamp.read s = some t → c.parseFromRfc3339 s = some (.ofTimestamp t)
  add : ∀ d nanos, d.Valid → nanos < 10 ^ 9 → c.add d nanos = d.later nanos
  year : ∀ d, 0 ≤ d.second → c.year d = d.date.year
  year_neg : ∀ d, d.second < 0 → c.year d < 0
  print : ∀ d, d.Valid → d.InRange → c.toRfc3339Millis d = d.text

/-- The documented behaviour of `julianday`: milliseconds are compared, and `NULL` is the value
of a text whose second is 60. -/
structure Dates {J : Type} [LE J] (julianday : String → Option J) : Prop where
  isSome : ∀ d : DateTime, d.InRange → d.nanos < 10 ^ 9 → (julianday d.text).isSome
  le_iff : ∀ d e : DateTime, d.InRange → e.InRange → d.nanos < 10 ^ 9 → e.nanos < 10 ^ 9 →
    ∀ x y, julianday d.text = some x → julianday e.text = some y → (x ≤ y ↔ d.millis ≤ e.millis)
  leap : ∀ d : DateTime, d.InRange → d.Valid → 10 ^ 9 ≤ d.nanos → julianday d.text = none

/-! ## The code -/

/-- `normalize_start_after`. -/
def normalizeStartAfter (c : Chrono) : Option String → Except Error (Option String)
  | none => .ok none
  | some value =>
      match c.parseFromRfc3339 value with
      | none =>
          .error (.task "Start no earlier than must be an RFC 3339 timestamp with a timezone")
      | some time =>
          let remainder := time.nanos % 1000000
          let time := if remainder = 0 then time else c.add time (1000000 - remainder)
          if ¬(1970 ≤ c.year time ∧ c.year time ≤ 9999) then
            .error (.task "Schedule year must be between 1970 and 9999")
          else .ok (some (c.toRfc3339Millis time))

/-- `t.start_after IS NULL OR julianday(t.start_after) <= julianday(?1)`; a comparison with
`NULL` does not hold. -/
def started {J : Type} [LE J] [DecidableLE J] (julianday : String → Option J)
    (startAfter : Option String) (now : String) : Bool :=
  match startAfter with
  | none => true
  | some startAfter =>
      match julianday startAfter, julianday now with
      | some start, some now => start ≤ now
      | _, _ => false

/-! ## Instants -/

/-- A whole number of milliseconds, of a second that is no leap second. -/
def IsMilli (x : ℤ ×ₗ ℚ) : Prop := ∃ s : ℤ, ∃ k < 1000, x = (DateTime.mk s (k * 10 ^ 6)).instant

section Instants

variable {d e : DateTime} {t t' : Timestamp}

theorem instant_le_iff :
    d.instant ≤ e.instant ↔ d.second < e.second ∨ d.second = e.second ∧ d.nanos ≤ e.nanos := by
  rw [DateTime.instant, DateTime.instant, Prod.Lex.toLex_le_toLex,
    div_le_div_iff_of_pos_right (by norm_num), Nat.cast_le]

theorem valid_ofTimestamp (t : Timestamp) : (DateTime.ofTimestamp t).Valid := by
  have hdigits := firstDigits_lt 9 t.fraction
  simp only [DateTime.Valid, DateTime.ofTimestamp]
  split
  · rename_i hleap
    refine Or.inr ⟨by omega, ?_⟩
    rw [Timestamp.seconds, hleap]
    omega
  · exact Or.inl (by omega)

/-- The digits of a timestamp behind the ninth. -/
def tail (t : Timestamp) : ℚ := decimalFraction (t.fraction.drop 9)

theorem part_eq (t : Timestamp) :
    t.part = ((DateTime.ofTimestamp t).nanos + tail t) / 10 ^ 9 := by
  have hdigits := decimalFraction_mul_pow 9 t.fraction
  have hdiv : decimalFraction t.fraction = (firstDigits 9 t.fraction + tail t) / 10 ^ 9 := by
    rw [tail, ← hdigits, mul_div_cancel_right₀ _ (by norm_num)]
  rw [Timestamp.part, hdiv, DateTime.ofTimestamp]
  split
  · push_cast
    ring
  · simp

/-- A timestamp is not past a time exactly when its nine digits are not, and no other digit of
it is when they are the same. -/
theorem timestamp_le_iff : t.instant ≤ e.instant ↔
    t.seconds < e.second ∨ t.seconds = e.second ∧
      ((DateTime.ofTimestamp t).nanos < e.nanos ∨
        (DateTime.ofTimestamp t).nanos = e.nanos ∧ tail t = 0) := by
  obtain ⟨hnonneg, hlt⟩ := decimalFraction_mem (t.fraction.drop 9)
  change 0 ≤ tail t at hnonneg
  change tail t < 1 at hlt
  rw [Timestamp.instant, DateTime.instant, Prod.Lex.toLex_le_toLex, part_eq,
    div_le_div_iff_of_pos_right (by norm_num)]
  refine or_congr_right (and_congr_right fun _ => ?_)
  rcases Nat.lt_trichotomy (DateTime.ofTimestamp t).nanos e.nanos with h | h | h
  · have hsucc : ((DateTime.ofTimestamp t).nanos : ℚ) + 1 ≤ e.nanos := by exact_mod_cast h
    exact iff_of_true (by linarith) (Or.inl h)
  · rw [h]
    constructor
    · intro hle
      exact Or.inr ⟨rfl, by linarith⟩
    · rintro (hlt | ⟨-, htail⟩)
      · exact absurd hlt (Nat.lt_irrefl _)
      · rw [htail, add_zero]
  · have hcast : (e.nanos : ℚ) < (DateTime.ofTimestamp t).nanos := by exact_mod_cast h
    exact iff_of_false (by linarith) (by omega)

theorem ofTimestamp_le (t : Timestamp) : (DateTime.ofTimestamp t).instant ≤ t.instant := by
  obtain ⟨hnonneg, -⟩ := decimalFraction_mem (t.fraction.drop 9)
  change 0 ≤ tail t at hnonneg
  rw [Timestamp.instant, DateTime.instant, Prod.Lex.toLex_le_toLex, part_eq,
    div_le_div_iff_of_pos_right (by norm_num)]
  exact Or.inr ⟨rfl, by linarith⟩

end Instants

/-! ## Rounding -/

/-- The next whole millisecond. -/
def ceilMillis (d : DateTime) : DateTime :=
  if d.nanos % 1000000 = 0 then d else d.later (1000000 - d.nanos % 1000000)

section Ceil

variable {d e : DateTime} {x : ℤ ×ₗ ℚ}

/-- **One rounding.**  The rest of a millisecond is filled, or the second is full. -/
theorem ceilMillis_spec (hd : d.Valid) :
    (ceilMillis d).second = d.second ∧ d.nanos ≤ (ceilMillis d).nanos ∧
        (ceilMillis d).nanos < d.nanos + 1000000 ∧ (ceilMillis d).nanos % 1000000 = 0 ∧
        (d.nanos < 10 ^ 9 → (ceilMillis d).nanos < 10 ^ 9) ∧ (ceilMillis d).nanos < 2 * 10 ^ 9 ∨
      (ceilMillis d).second = d.second + 1 ∧ (ceilMillis d).nanos = 0 ∧
        (999000000 < d.nanos ∧ d.nanos < 10 ^ 9 ∨ 1999000000 < d.nanos) := by
  unfold DateTime.Valid at hd
  by_cases hrem : d.nanos % 1000000 = 0
  · rw [ceilMillis, if_pos hrem]
    omega
  · rw [ceilMillis, if_neg hrem, DateTime.later]
    split <;> split <;> dsimp only <;> omega

theorem ceilMillis_whole (hd : d.Valid) : (ceilMillis d).nanos % 1000000 = 0 := by
  have := ceilMillis_spec hd
  omega

theorem ceilMillis_valid (hd : d.Valid) : (ceilMillis d).Valid := by
  have := ceilMillis_spec hd
  unfold DateTime.Valid at hd ⊢
  omega

theorem ceilMillis_of_whole (h : d.nanos % 1000000 = 0) : ceilMillis d = d := if_pos h

/-- A rounding that ends in no leap second is not past any millisecond that the time is not
past. -/
theorem ceilMillis_le (hd : d.Valid) (h : (ceilMillis d).nanos < 10 ^ 9) (hx : IsMilli x)
    (hle : d.instant ≤ x) : (ceilMillis d).instant ≤ x := by
  obtain ⟨s, k, hk, rfl⟩ := hx
  have hds := ceilMillis_spec hd
  unfold DateTime.Valid at hd
  rw [instant_le_iff] at hle ⊢
  dsimp only at hle ⊢
  omega

theorem isMilli_instant_iff (hwhole : d.nanos % 1000000 = 0) :
    IsMilli d.instant ↔ d.nanos < 10 ^ 9 := by
  constructor
  · rintro ⟨s, k, hk, heq⟩
    have hle := instant_le_iff.1 heq.le
    have hge := instant_le_iff.1 heq.ge
    dsimp only at hle hge
    omega
  · intro h
    have hmul : d.nanos / 10 ^ 6 * 10 ^ 6 = d.nanos :=
      Nat.div_mul_cancel (Nat.dvd_of_mod_eq_zero hwhole)
    exact ⟨d.second, d.nanos / 10 ^ 6, by omega, by rw [hmul]⟩

end Ceil

/-! ## Texts -/

section Texts

variable {d e : DateTime}

/-- A text that is written is read back, to the millisecond. -/
theorem read_text (hd : d.Valid) (hrange : d.InRange) (hwhole : d.nanos % 1000000 = 0) :
    ∃ r, Timestamp.read d.text = some r ∧ DateTime.ofTimestamp r = d ∧ r.instant = d.instant := by
  obtain ⟨hpos, hyear⟩ := hrange
  have hleap : d.leap = 0 ∧ d.nanos < 10 ^ 9 ∨
      d.leap = 1 ∧ 10 ^ 9 ≤ d.nanos ∧ d.nanos < 2 * 10 ^ 9 ∧ d.second % 60 = 59 := by
    unfold DateTime.Valid at hd
    rw [DateTime.leap]
    split <;> omega
  have hsecond : d.second.toNat % 60 + d.leap ≤ 60 := by omega
  refine ⟨_, Timestamp.read_printMillis hyear (Nat.mod_lt _ (by decide)) (Nat.mod_lt _ (by decide))
    hsecond, ?_⟩
  set r : Timestamp := ⟨d.date, _, _, _, digits 3 (d.nanos % 10 ^ 9 / 10 ^ 6), 0, _, _, _, _⟩
  have hseconds : r.seconds = d.second := by
    change ((((Date.ofNumber (d.second.toNat / 86400)).number * 24 + d.second.toNat / 3600 % 24) *
      60 + d.second.toNat / 60 % 60 : ℕ) - 0) * 60 +
        (min (d.second.toNat % 60 + d.leap) 59 : ℕ) = d.second
    rw [Date.number_ofNumber]
    omega
  have hdigits : firstDigits 9 r.fraction = d.nanos % 10 ^ 9 / 10 ^ 6 * 10 ^ 6 :=
    firstDigits_digits_add (n := 3) (by omega) 6
  have htail : tail r = 0 := by
    have hdrop : r.fraction.drop 9 = [] := List.drop_eq_nil_of_le (by simp [r, length_digits])
    rw [tail, hdrop, decimalFraction]
  have hnanos : (DateTime.ofTimestamp r).nanos = d.nanos := by
    change firstDigits 9 r.fraction + (if d.second.toNat % 60 + d.leap = 60 then 10 ^ 9 else 0) =
      d.nanos
    rw [hdigits]
    split <;> omega
  have hof : DateTime.ofTimestamp r = d := by
    calc DateTime.ofTimestamp r = ⟨r.seconds, (DateTime.ofTimestamp r).nanos⟩ := rfl
      _ = d := by rw [hseconds, hnanos]
  refine ⟨hof, ?_⟩
  rw [Timestamp.instant, part_eq, htail, add_zero, hof, DateTime.instant, hseconds]

end Texts

/-! ## What is written for an input -/

/-- What an input gets from the text that is written for it. -/
structure Ceils (c : Chrono) {J : Type} [LE J] [DecidableLE J] (julianday : String → Option J)
    (t : Timestamp) (text : String) : Prop where
  /-- It is the least millisecond that the input is not past. -/
  least : ∃ r, Timestamp.read text = some r ∧
    IsLeast {x | IsMilli x ∧ t.instant ≤ x} r.instant
  /-- It stays as it is. -/
  again : normalizeStartAfter c (some text) = .ok (some text)
  /-- The claim query understands it. -/
  accepted : (julianday text).isSome
  /-- The task is claimed from that instant on. -/
  started : ∀ r, Timestamp.read text = some r → ∀ now : DateTime, now.InRange →
    now.nanos < 10 ^ 9 →
    (started julianday (some text) (c.toRfc3339Millis now) = true ↔ r.instant ≤ now.instant)

/-- The inputs that are rounded up: a leap second whose last millisecond has begun, or no leap
second, and no digit but zeros behind the ninth where the nine are whole milliseconds. -/
def Rounds (t : Timestamp) : Prop :=
  (t.second = 60 → 999000000 < firstDigits 9 t.fraction) ∧
    (firstDigits 9 t.fraction % 1000000 = 0 → ∀ d ∈ t.fraction.drop 9, (d : ℕ) = 0)

instance (t : Timestamp) : Decidable (Rounds t) := by
  unfold Rounds
  infer_instance

section Normalize

variable {c : Chrono} {J : Type} [LE J] [DecidableLE J] {julianday : String → Option J}
  {s text : String} {t : Timestamp} {d : DateTime}

theorem inRange_of_year (hc : c.Documented) (h : 1970 ≤ c.year d ∧ c.year d ≤ 9999) :
    d.InRange := by
  rcases lt_or_ge d.second 0 with hneg | hpos
  · have := hc.year_neg d hneg
    omega
  · rw [hc.year d hpos] at h
    exact ⟨hpos, by omega⟩

/-- A time whose text is written, of a year in the range. -/
theorem normalizeStartAfter_of_parse (hc : c.Documented) (hd : d.Valid)
    (hparse : c.parseFromRfc3339 s = some d) :
    normalizeStartAfter c (some s) =
      if ¬(1970 ≤ c.year (ceilMillis d) ∧ c.year (ceilMillis d) ≤ 9999) then
        .error (.task "Schedule year must be between 1970 and 9999")
      else .ok (some (ceilMillis d).text) := by
  have htime : (if d.nanos % 1000000 = 0 then d else c.add d (1000000 - d.nanos % 1000000)) =
      ceilMillis d := by
    rw [ceilMillis, hc.add d _ hd (by omega)]
  rw [normalizeStartAfter, hparse]
  dsimp only
  rw [htime]
  split
  · rfl
  · rename_i hyear
    rw [hc.print _ (ceilMillis_valid hd) (inRange_of_year hc (not_not.1 hyear))]

theorem normalizeStartAfter_ok (hc : c.Documented) (hread : Timestamp.read s = some t)
    (hok : normalizeStartAfter c (some s) = .ok (some text)) :
    text = (ceilMillis (.ofTimestamp t)).text ∧
      1970 ≤ c.year (ceilMillis (.ofTimestamp t)) ∧
      c.year (ceilMillis (.ofTimestamp t)) ≤ 9999 := by
  rw [normalizeStartAfter_of_parse hc (valid_ofTimestamp t) (hc.parse s t hread)] at hok
  split at hok
  · cases hok
  · rename_i hyear
    cases hok
    exact ⟨rfl, not_not.1 hyear⟩

theorem normalizeStartAfter_text (hc : c.Documented) (hd : d.Valid)
    (hwhole : d.nanos % 1000000 = 0) (hyear : 1970 ≤ c.year d ∧ c.year d ≤ 9999) :
    normalizeStartAfter c (some d.text) = .ok (some d.text) := by
  obtain ⟨r, hread, hof, -⟩ := read_text hd (inRange_of_year hc hyear) hwhole
  have hparse := hc.parse _ _ hread
  rw [hof] at hparse
  rw [normalizeStartAfter_of_parse hc hd hparse, ceilMillis_of_whole hwhole,
    if_neg (not_not.2 hyear)]

theorem started_text (hc : c.Documented) (hj : Dates julianday) {now : DateTime}
    (hrange : d.InRange) (hd : d.nanos < 10 ^ 9) (hwhole : d.nanos % 1000000 = 0)
    (hnow : now.InRange) (hclock : now.nanos < 10 ^ 9) :
    started julianday (some d.text) (c.toRfc3339Millis now) = true ↔ d.instant ≤ now.instant := by
  obtain ⟨x, hx⟩ := Option.isSome_iff_exists.1 (hj.isSome d hrange hd)
  obtain ⟨y, hy⟩ := Option.isSome_iff_exists.1 (hj.isSome now hnow hclock)
  rw [hc.print now (Or.inl hclock) hnow, started, hx, hy]
  dsimp only
  rw [decide_eq_true_eq, hj.le_iff d now hrange hnow hd hclock x y hx hy, instant_le_iff]
  simp only [DateTime.millis]
  omega

/-- The next millisecond is in no leap second. -/
theorem ceilMillis_nanos_lt_iff : (ceilMillis (.ofTimestamp t)).nanos < 10 ^ 9 ↔
    (t.second = 60 → 999000000 < firstDigits 9 t.fraction) := by
  have hspec := ceilMillis_spec (valid_ofTimestamp t)
  have hdigits := firstDigits_lt 9 t.fraction
  have hnanos : (DateTime.ofTimestamp t).nanos =
      firstDigits 9 t.fraction + if t.second = 60 then 10 ^ 9 else 0 := rfl
  split at hnanos
  · rename_i hleap
    simp only [hleap, forall_const]
    omega
  · rename_i hleap
    simp only [hleap, false_imp_iff, iff_true]
    omega

/-- The input is not past the next millisecond of what is kept of it. -/
theorem timestamp_le_ceilMillis_iff : t.instant ≤ (ceilMillis (.ofTimestamp t)).instant ↔
    (firstDigits 9 t.fraction % 1000000 = 0 → ∀ d ∈ t.fraction.drop 9, (d : ℕ) = 0) := by
  have hspec := ceilMillis_spec (valid_ofTimestamp t)
  have hsecond : (DateTime.ofTimestamp t).second = t.seconds := rfl
  have hmod : (DateTime.ofTimestamp t).nanos % 1000000 = firstDigits 9 t.fraction % 1000000 := by
    rw [DateTime.ofTimestamp]
    dsimp only
    split <;> omega
  rw [timestamp_le_iff, ← decimalFraction_eq_zero_iff, ← hmod]
  change _ ↔ (_ → tail t = 0)
  by_cases hrem : (DateTime.ofTimestamp t).nanos % 1000000 = 0
  · rw [ceilMillis_of_whole hrem]
    simp [hrem, hsecond]
  · refine iff_of_true ?_ fun h => absurd h hrem
    rw [hsecond] at hspec
    omega

/-- A set of inputs for which texts are written: each gets what it should, and their order is
kept. -/
def CeilsOn (c : Chrono) (julianday : String → Option J) (inputs : Set String) : Prop :=
  (∀ s ∈ inputs, ∀ t text, Timestamp.read s = some t →
    normalizeStartAfter c (some s) = .ok (some text) → Ceils c julianday t text) ∧
  ∀ s ∈ inputs, ∀ s' ∈ inputs, ∀ t t' text text' r r', Timestamp.read s = some t →
    Timestamp.read s' = some t' → normalizeStartAfter c (some s) = .ok (some text) →
    normalizeStartAfter c (some s') = .ok (some text') → Timestamp.read text = some r →
    Timestamp.read text' = some r' → t.instant ≤ t'.instant → r.instant ≤ r'.instant

/-- **One input** is rounded up, and stays claimable, exactly under the condition. -/
theorem ceils_iff (hc : c.Documented) (hj : Dates julianday) (hread : Timestamp.read s = some t)
    (hok : normalizeStartAfter c (some s) = .ok (some text)) :
    Ceils c julianday t text ↔ Rounds t := by
  obtain ⟨rfl, hyear⟩ := normalizeStartAfter_ok hc hread hok
  have hd := valid_ofTimestamp t
  have hu := ceilMillis_valid hd
  have hwhole := ceilMillis_whole hd
  have hrange := inRange_of_year hc hyear
  obtain ⟨r, hreadr, -, hinstant⟩ := read_text hu hrange hwhole
  rw [Rounds, ← ceilMillis_nanos_lt_iff, ← timestamp_le_ceilMillis_iff]
  constructor
  · rintro ⟨⟨r', hreadr', hleast⟩, -, haccepted, -⟩
    rw [hreadr] at hreadr'
    cases hreadr'
    rw [hinstant] at hleast
    refine ⟨?_, hleast.1.2⟩
    by_contra hleap
    rw [hj.leap _ hrange hu (not_lt.1 hleap)] at haccepted
    cases haccepted
  · rintro ⟨hlt, hle⟩
    refine ⟨⟨r, hreadr, ?_⟩, normalizeStartAfter_text hc hu hwhole hyear,
      hj.isSome _ hrange hlt, ?_⟩
    · rw [hinstant]
      refine ⟨⟨(isMilli_instant_iff hwhole).2 hlt, hle⟩, ?_⟩
      rintro x ⟨hx, hxle⟩
      exact ceilMillis_le hd hlt hx ((ofTimestamp_le t).trans hxle)
    · intro r' hreadr' now hnow hclock
      rw [hreadr] at hreadr'
      cases hreadr'
      rw [hinstant]
      exact started_text hc hj hrange hlt hwhole hnow hclock

/-- **The start of a task is rounded up.**  Of a set of inputs every one gets the least
millisecond not before it, one that stays as it is and that the claim query understands, and
their order is kept, exactly when every one `Rounds`. -/
theorem normalizeStartAfter_ceils_iff (hc : c.Documented) (hj : Dates julianday)
    (inputs : Set String) : CeilsOn c julianday inputs ↔
      ∀ s ∈ inputs, ∀ t text, Timestamp.read s = some t →
        normalizeStartAfter c (some s) = .ok (some text) → Rounds t := by
  constructor
  · rintro ⟨hceils, -⟩ s hs t text hread hok
    exact (ceils_iff hc hj hread hok).1 (hceils s hs t text hread hok)
  · intro hrounds
    have hceils : ∀ s ∈ inputs, ∀ t text, Timestamp.read s = some t →
        normalizeStartAfter c (some s) = .ok (some text) → Ceils c julianday t text :=
      fun s hs t text hread hok => (ceils_iff hc hj hread hok).2 (hrounds s hs t text hread hok)
    refine ⟨hceils, ?_⟩
    intro s hs s' hs' t t' text text' r r' hread hread' hok hok' hr hr' hle
    obtain ⟨q, hq, hleast⟩ := (hceils s hs t text hread hok).least
    obtain ⟨q', hq', hleast'⟩ := (hceils s' hs' t' text' hread' hok').least
    rw [hr] at hq
    cases hq
    rw [hr'] at hq'
    cases hq'
    -- the later millisecond is one that the earlier input is not past
    exact hleast.2 ⟨hleast'.1.1, hle.trans hleast'.1.2⟩

end Normalize

/-! ## A calendar that is as documented -/

/-- The functions of `chrono` on the texts of RFC 3339. -/
def rfc3339Chrono : Chrono where
  parseFromRfc3339 s := (Timestamp.read s).map .ofTimestamp
  add := DateTime.later
  year d := if 0 ≤ d.second then d.date.year else -1
  toRfc3339Millis := DateTime.text

theorem rfc3339Chrono_documented : rfc3339Chrono.Documented where
  parse s t h := by
    change (Timestamp.read s).map _ = _
    rw [h, Option.map_some]
  add _ _ _ _ := rfl
  year d h := if_pos h
  year_neg d h := by
    rw [rfc3339Chrono]
    dsimp only
    rw [if_neg (not_le.2 h)]
    decide
  print _ _ _ := rfl

/-- `julianday`, in milliseconds. -/
def milliDay (text : String) : Option ℤ :=
  (Timestamp.read text).bind fun t =>
    if t.second = 60 then none
    else some (t.seconds * 1000 + (firstDigits 9 t.fraction / 10 ^ 6 : ℕ))

section MilliDay

variable {d : DateTime}

theorem text_whole (d : DateTime) :
    d.text = (DateTime.mk d.second (d.nanos / 10 ^ 6 * 10 ^ 6)).text := by
  have hmillis : d.nanos % 10 ^ 9 / 10 ^ 6 = d.nanos / 10 ^ 6 * 10 ^ 6 % 10 ^ 9 / 10 ^ 6 := by
    omega
  have hleap : d.leap = (DateTime.mk d.second (d.nanos / 10 ^ 6 * 10 ^ 6)).leap := by
    simp only [DateTime.leap]
    split <;> split <;> omega
  rw [DateTime.text, hmillis, hleap]
  rfl

theorem read_text_whole (hd : d.Valid) (hrange : d.InRange) :
    ∃ r, Timestamp.read d.text = some r ∧
      DateTime.ofTimestamp r = ⟨d.second, d.nanos / 10 ^ 6 * 10 ^ 6⟩ := by
  have hvalid : (DateTime.mk d.second (d.nanos / 10 ^ 6 * 10 ^ 6)).Valid := by
    unfold DateTime.Valid at hd ⊢
    dsimp only
    omega
  obtain ⟨r, hread, hof, -⟩ := read_text hvalid hrange (Nat.mul_mod_left _ _)
  exact ⟨r, (text_whole d).symm ▸ hread, hof⟩

theorem milliDay_text (hrange : d.InRange) (h : d.nanos < 10 ^ 9) :
    milliDay d.text = some d.millis := by
  obtain ⟨r, hread, hof⟩ := read_text_whole (Or.inl h) hrange
  obtain ⟨hsecond, hnanos⟩ := DateTime.mk.inj hof
  have hleap : r.second ≠ 60 := by
    intro hleap
    rw [if_pos hleap] at hnanos
    omega
  rw [if_neg hleap] at hnanos
  rw [milliDay, hread, Option.bind_some, if_neg hleap, hsecond, DateTime.millis]
  congr 3
  omega

theorem milliDay_dates : Dates milliDay where
  isSome d hrange h := by rw [milliDay_text hrange h]; rfl
  le_iff d e hd he hdn hen x y hx hy := by
    rw [milliDay_text hd hdn] at hx
    rw [milliDay_text he hen] at hy
    cases hx
    cases hy
    rfl
  leap d hrange hd h := by
    obtain ⟨r, hread, hof⟩ := read_text_whole hd hrange
    have hleap : r.second = 60 := by
      by_contra hne
      have hnanos := (DateTime.mk.inj hof).2
      have hdigits := firstDigits_lt 9 r.fraction
      rw [if_neg hne] at hnanos
      omega
    rw [milliDay, hread, Option.bind_some, if_pos hleap]

end MilliDay

theorem newCentury_ceils :
    normalizeStartAfter rfc3339Chrono (some "2100-01-01T01:00:00.0005+01:00") =
      .ok (some "2100-01-01T00:00:00.001Z") ∧
    CeilsOn rfc3339Chrono milliDay {"2100-01-01T01:00:00.0005+01:00"} := by
  refine ⟨by decide +kernel, ?_⟩
  rw [normalizeStartAfter_ceils_iff rfc3339Chrono_documented milliDay_dates]
  rintro _ rfl t text hread -
  have hrounds :
      (Timestamp.read "2100-01-01T01:00:00.0005+01:00").all (decide <| Rounds ·) = true := by
    decide
  rw [hread] at hrounds
  exact of_decide_eq_true hrounds

/-- A leap second is written with a text that the claim query does not understand, and a digit
behind the ninth is lost. -/
theorem leapSecond_not_ceiled :
    normalizeStartAfter rfc3339Chrono (some "2016-12-31T23:59:60Z") =
      .ok (some "2016-12-31T23:59:60.000Z") ∧
    ¬ CeilsOn rfc3339Chrono milliDay {"2016-12-31T23:59:60Z"} ∧
    normalizeStartAfter rfc3339Chrono (some "2100-01-01T00:00:00.0000000001Z") =
      .ok (some "2100-01-01T00:00:00.000Z") ∧
    ¬ CeilsOn rfc3339Chrono milliDay {"2100-01-01T00:00:00.0000000001Z"} := by
  have hleap : normalizeStartAfter rfc3339Chrono (some "2016-12-31T23:59:60Z") =
      .ok (some "2016-12-31T23:59:60.000Z") := by decide +kernel
  have hdigit : normalizeStartAfter rfc3339Chrono (some "2100-01-01T00:00:00.0000000001Z") =
      .ok (some "2100-01-01T00:00:00.000Z") := by decide +kernel
  refine ⟨hleap, fun h => ?_, hdigit, fun h => ?_⟩
  · have hread : (Timestamp.read "2016-12-31T23:59:60Z").isSome := by decide
    obtain ⟨t, ht⟩ := Option.isSome_iff_exists.1 hread
    have haccepted := (h.1 _ rfl t _ ht hleap).accepted
    revert haccepted
    decide
  · have hread : (Timestamp.read "2100-01-01T00:00:00.0000000001Z").isSome := by decide
    obtain ⟨t, ht⟩ := Option.isSome_iff_exists.1 hread
    obtain ⟨r, hr, hleast⟩ := (h.1 _ rfl t _ ht hdigit).least
    have hpast : (Timestamp.read "2100-01-01T00:00:00.0000000001Z").all fun t =>
        (Timestamp.read "2100-01-01T00:00:00.000Z").all fun r =>
          !decide (t.instant ≤ r.instant) := by
      decide +kernel
    rw [ht, hr] at hpast
    simp [hleast.1.2] at hpast

end XpressClaw.Tasks.StartAfter
