import Mathlib.Algebra.Order.Field.Basic
import Mathlib.Algebra.Order.Ring.Rat
import Mathlib.Data.Prod.Lex
import Mathlib.Data.Rat.Defs
import Mathlib.Tactic.Linarith
import Mathlib.Tactic.Ring
import XpressClaw.Lib.Calendar

/-!
# RFC 3339 timestamps

A timestamp is read from `yyyy-MM-ddTHH:mm:ss`, a fraction of any length and an offset.

* `Timestamp` — the fields of a timestamp, each in its range; the second may be 60.
* `Timestamp.read` — the grammar.
* `Timestamp.instant` — the instant, a second and a part of it; a leap second is the part of the
  second before it that is past 1.
* `read_printMillis` — a time of UTC written with three digits of the second is read back.
-/

namespace Lib

/-! ## Digits -/

/-- The number that the first digits of a list make up, with zeros behind a shorter list. -/
def firstDigits : ℕ → List (Fin 10) → ℕ
  | 0, _ => 0
  | _ + 1, [] => 0
  | n + 1, d :: ds => d * 10 ^ n + firstDigits n ds

/-- The last digits of a number. -/
def digits : ℕ → ℕ → List (Fin 10)
  | 0, _ => []
  | n + 1, k => digits n (k / 10) ++ [Fin.ofNat 10 k]

/-- The fraction that is written with a list of digits. -/
def decimalFraction : List (Fin 10) → ℚ
  | [] => 0
  | d :: ds => (d + decimalFraction ds) / 10

section Digits

variable {n k : ℕ} {ds : List (Fin 10)}

theorem firstDigits_nil (n : ℕ) : firstDigits n [] = 0 := by
  cases n <;> rfl

theorem firstDigits_lt (n : ℕ) (ds : List (Fin 10)) : firstDigits n ds < 10 ^ n := by
  induction n generalizing ds with
  | zero => exact Nat.one_pos
  | succ n ih =>
    cases ds with
    | nil => exact Nat.pow_pos (by decide)
    | cons d ds =>
      have hd : (d : ℕ) * 10 ^ n ≤ 9 * 10 ^ n :=
        Nat.mul_le_mul_right _ (Nat.le_of_lt_succ d.isLt)
      have := ih ds
      rw [firstDigits, Nat.pow_succ]
      omega

theorem firstDigits_append (ds es : List (Fin 10)) (n : ℕ) :
    firstDigits (ds.length + n) (ds ++ es) =
      firstDigits ds.length ds * 10 ^ n + firstDigits n es := by
  induction ds with
  | nil => simp [firstDigits]
  | cons d ds ih =>
    rw [List.length_cons, Nat.add_right_comm, List.cons_append, firstDigits, firstDigits, ih,
      Nat.pow_add]
    ring

theorem length_digits (n k : ℕ) : (digits n k).length = n := by
  induction n generalizing k with
  | zero => rfl
  | succ n ih => rw [digits, List.length_append, ih, List.length_singleton]

theorem firstDigits_digits (h : k < 10 ^ n) : firstDigits n (digits n k) = k := by
  induction n generalizing k with
  | zero => rw [digits, firstDigits]; omega
  | succ n ih =>
    have hk : k / 10 < 10 ^ n := by rw [Nat.pow_succ] at h; omega
    have happend := firstDigits_append (digits n (k / 10)) [Fin.ofNat 10 k] 1
    rw [length_digits, ih hk] at happend
    rw [digits, happend]
    simp only [firstDigits, Fin.val_ofNat, Nat.pow_zero, Nat.pow_one]
    omega

/-- More digits are asked for than there are. -/
theorem firstDigits_digits_add (h : k < 10 ^ n) (m : ℕ) :
    firstDigits (n + m) (digits n k) = k * 10 ^ m := by
  have happend := firstDigits_append (digits n k) [] m
  rwa [length_digits, firstDigits_digits h, List.append_nil, firstDigits_nil, Nat.add_zero]
    at happend

theorem decimalFraction_mem (ds : List (Fin 10)) :
    0 ≤ decimalFraction ds ∧ decimalFraction ds < 1 := by
  induction ds with
  | nil => simp [decimalFraction]
  | cons d ds ih =>
    have hd : ((d : ℕ) : ℚ) ≤ 9 := by exact_mod_cast Nat.le_of_lt_succ d.isLt
    have hpos : (0 : ℚ) ≤ ((d : ℕ) : ℚ) := Nat.cast_nonneg _
    rw [decimalFraction]
    constructor <;> linarith [ih.1, ih.2]

/-- The first digits of a fraction, and the rest of it. -/
theorem decimalFraction_mul_pow (n : ℕ) (ds : List (Fin 10)) :
    decimalFraction ds * 10 ^ n = firstDigits n ds + decimalFraction (ds.drop n) := by
  induction n generalizing ds with
  | zero => simp [firstDigits]
  | succ n ih =>
    cases ds with
    | nil => simp [firstDigits, decimalFraction]
    | cons d ds =>
      rw [List.drop_succ_cons, firstDigits, Nat.cast_add, add_assoc, ← ih, decimalFraction,
        pow_succ]
      push_cast
      ring

theorem decimalFraction_eq_zero_iff : decimalFraction ds = 0 ↔ ∀ d ∈ ds, (d : ℕ) = 0 := by
  induction ds with
  | nil => simp [decimalFraction]
  | cons d ds ih =>
    have hd : (0 : ℚ) ≤ ((d : ℕ) : ℚ) := Nat.cast_nonneg _
    have hds := (decimalFraction_mem ds).1
    have hzero : ((d : ℕ) : ℚ) = 0 ↔ (d : ℕ) = 0 := Nat.cast_eq_zero
    rw [List.forall_mem_cons, ← ih, decimalFraction, div_eq_zero_iff,
      add_eq_zero_iff_of_nonneg hd hds, hzero]
    exact or_iff_left (by norm_num)

end Digits

/-! ## Timestamps -/

/-- A date and a time of day, with the minutes its clock is ahead of UTC. -/
structure Timestamp where
  date : Date
  hour : ℕ
  minute : ℕ
  second : ℕ
  fraction : List (Fin 10)
  offset : ℤ
  hour_lt : hour < 24
  minute_lt : minute < 60
  second_le : second ≤ 60
  offset_lt : offset.natAbs < 24 * 60
deriving DecidableEq

namespace Timestamp

/-- The second of UTC, counted from the start of the year 0; a leap second counts as the second
before it. -/
def seconds (t : Timestamp) : ℤ :=
  (((t.date.number * 24 + t.hour) * 60 + t.minute : ℕ) - t.offset) * 60 + (min t.second 59 : ℕ)

/-- The part of the second that has passed. -/
def part (t : Timestamp) : ℚ := decimalFraction t.fraction + if t.second = 60 then 1 else 0

/-- The instant of a timestamp. -/
def instant (t : Timestamp) : ℤ ×ₗ ℚ := toLex (t.seconds, t.part)

/-- The timestamp of these fields, if each is in its range. -/
def make (year month day hour minute second : ℕ) (fraction : List (Fin 10)) (offset : ℤ) :
    Option Timestamp :=
  if h : (1 ≤ month ∧ month ≤ 12) ∧ (1 ≤ day ∧ day ≤ monthLength year month) ∧ hour < 24 ∧
      minute < 60 ∧ second ≤ 60 ∧ offset.natAbs < 24 * 60 then
    some
      { date := ⟨year, month, day, h.1, h.2.1⟩
        hour, minute, second, fraction, offset
        hour_lt := h.2.2.1
        minute_lt := h.2.2.2.1
        second_le := h.2.2.2.2.1
        offset_lt := h.2.2.2.2.2 }
  else none

/-! ### Reading -/

def digitVal (c : Char) : Fin 10 := Fin.ofNat 10 (c.toNat - '0'.toNat)

def digitChar (d : Fin 10) : Char := Char.ofNat ('0'.toNat + d)

/-- A number of a given number of digits. -/
def readNumber (n : ℕ) (cs : List Char) : Option (ℕ × List Char) :=
  if (cs.take n).length = n ∧ (cs.take n).all (·.isDigit) then
    some (firstDigits n ((cs.take n).map digitVal), cs.drop n)
  else none

def readChar (p : Char → Bool) : List Char → Option (List Char)
  | c :: cs => if p c then some cs else none
  | [] => none

/-- `time-secfrac`, which may be missing. -/
def readFraction : List Char → Option (List (Fin 10) × List Char)
  | '.' :: cs =>
      if cs.takeWhile (·.isDigit) = [] then none
      else some ((cs.takeWhile (·.isDigit)).map digitVal, cs.dropWhile (·.isDigit))
  | cs => some ([], cs)

/-- `time-offset`, to the end of the text. -/
def readOffset : List Char → Option ℤ
  | ['Z'] | ['z'] => some 0
  | sign :: cs => do
      let (hours, cs) ← readNumber 2 cs
      let cs ← readChar (· = ':') cs
      let (minutes, cs) ← readNumber 2 cs
      if cs = [] ∧ hours < 24 ∧ minutes < 60 then
        match sign with
        | '+' => some (hours * 60 + minutes)
        | '-' => some (-(hours * 60 + minutes))
        | _ => none
      else none
  | [] => none

/-- `date-time` of RFC 3339, with a space for the `T` allowed. -/
def read (text : String) : Option Timestamp := do
  let (year, cs) ← readNumber 4 text.toList
  let cs ← readChar (· = '-') cs
  let (month, cs) ← readNumber 2 cs
  let cs ← readChar (· = '-') cs
  let (day, cs) ← readNumber 2 cs
  let cs ← readChar (fun c => c = 'T' || c = 't' || c = ' ') cs
  let (hour, cs) ← readNumber 2 cs
  let cs ← readChar (· = ':') cs
  let (minute, cs) ← readNumber 2 cs
  let cs ← readChar (· = ':') cs
  let (second, cs) ← readNumber 2 cs
  let (fraction, cs) ← readFraction cs
  let offset ← readOffset cs
  make year month day hour minute second fraction offset

/-! ### Writing -/

/-- A number in a given number of digits. -/
def writeNumber (n k : ℕ) : List Char := (digits n k).map digitChar

/-- A time of UTC in the form `yyyy-MM-ddTHH:mm:ss.fffZ`. -/
def printMillis (date : Date) (hour minute second millis : ℕ) : String :=
  String.ofList (writeNumber 4 date.year ++ '-' :: (writeNumber 2 date.month ++ '-' ::
    (writeNumber 2 date.day ++ 'T' :: (writeNumber 2 hour ++ ':' ::
      (writeNumber 2 minute ++ ':' :: (writeNumber 2 second ++ '.' ::
        (writeNumber 3 millis ++ ['Z'])))))))

section RoundTrip

variable {n k : ℕ}

theorem digitVal_digitChar (d : Fin 10) : digitVal (digitChar d) = d := by
  revert d
  decide

theorem isDigit_digitChar (d : Fin 10) : (digitChar d).isDigit = true := by
  revert d
  decide

theorem length_writeNumber (n k : ℕ) : (writeNumber n k).length = n := by
  rw [writeNumber, List.length_map, length_digits]

theorem map_digitVal_writeNumber (n k : ℕ) : (writeNumber n k).map digitVal = digits n k := by
  rw [writeNumber, List.map_map]
  exact (List.map_congr_left fun d _ => digitVal_digitChar d).trans (List.map_id _)

theorem isDigit_of_mem_writeNumber {c : Char} (h : c ∈ writeNumber n k) : c.isDigit = true := by
  obtain ⟨d, -, rfl⟩ := List.mem_map.1 h
  exact isDigit_digitChar d

theorem readNumber_writeNumber (h : k < 10 ^ n) (cs : List Char) :
    readNumber n (writeNumber n k ++ cs) = some (k, cs) := by
  have htake : (writeNumber n k ++ cs).take n = writeNumber n k :=
    List.take_left' (length_writeNumber n k)
  have hdrop : (writeNumber n k ++ cs).drop n = cs := List.drop_left' (length_writeNumber n k)
  rw [readNumber, htake, hdrop, map_digitVal_writeNumber, firstDigits_digits h, if_pos]
  exact ⟨length_writeNumber n k, List.all_eq_true.2 fun c hc => isDigit_of_mem_writeNumber hc⟩

theorem readFraction_writeNumber (h : 0 < n) {c : Char} (hc : c.isDigit = false)
    (cs : List Char) :
    readFraction ('.' :: (writeNumber n k ++ c :: cs)) = some (digits n k, c :: cs) := by
  have hall : ∀ c ∈ writeNumber n k, c.isDigit = true := fun c hc => isDigit_of_mem_writeNumber hc
  have htake : (writeNumber n k ++ c :: cs).takeWhile (·.isDigit) = writeNumber n k := by
    rw [List.takeWhile_append_of_pos hall, List.takeWhile_cons_of_neg (by simp [hc]),
      List.append_nil]
  have hdrop : (writeNumber n k ++ c :: cs).dropWhile (·.isDigit) = c :: cs := by
    rw [List.dropWhile_append_of_pos hall, List.dropWhile_cons_of_neg (by simp [hc])]
  have hne : writeNumber n k ≠ [] := by
    rw [← List.length_pos_iff, length_writeNumber]
    exact h
  rw [readFraction, htake, hdrop, if_neg hne, map_digitVal_writeNumber]

/-- What is written is read back. -/
theorem read_printMillis {date : Date} {hour minute second millis : ℕ}
    (hyear : date.year < 10000) (hhour : hour < 24) (hminute : minute < 60)
    (hsecond : second ≤ 60) :
    read (printMillis date hour minute second millis) =
      some ⟨date, hour, minute, second, digits 3 millis, 0, hhour, hminute, hsecond,
        by decide⟩ := by
  have hmonth := date.month_mem
  have hday := date.day_mem
  have hdays : monthLength date.year date.month ≤ 31 := monthLength_le _ _
  have hZ : 'Z'.isDigit = false := by decide
  rw [read, printMillis, String.toList_ofList, readNumber_writeNumber (by omega)]
  simp only [Option.bind_eq_bind, Option.bind_some, readChar, decide_true, if_true,
    readNumber_writeNumber (n := 2) (k := date.month) (by omega),
    readNumber_writeNumber (n := 2) (k := date.day) (by omega),
    readNumber_writeNumber (n := 2) (k := hour) (by omega),
    readNumber_writeNumber (n := 2) (k := minute) (by omega),
    readNumber_writeNumber (n := 2) (k := second) (by omega),
    readFraction_writeNumber (n := 3) (k := millis) (by decide) hZ, readOffset, Bool.true_or]
  rw [make, dif_pos]
  exact ⟨hmonth, hday, hhour, hminute, hsecond, by decide⟩

end RoundTrip

end Timestamp

end Lib
