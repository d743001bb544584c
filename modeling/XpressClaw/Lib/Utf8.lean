import Mathlib.Algebra.BigOperators.Group.List.Basic
import Mathlib.Algebra.GroupWithZero.Nat
import Mathlib.Data.List.DropRight
import Mathlib.Data.List.Infix

/-!
# Text addressed by byte offsets

A `str` is a list of characters that is indexed by bytes: searching it gives the number of
bytes before the match, and cutting it anywhere but between two characters panics.

* `splitAt` — a cut, which gives nothing where the code would panic; `splitAt_eq_some_iff`
  says that the offsets it accepts are the ones between characters.
* `find` — the byte offset of the first occurrence, with `find_eq_some` and `find_eq_none`.
* `Starts` — the first occurrence, as a statement about the text before it.
-/

namespace Lib.Utf8

/-- `str::len`: the number of bytes of a text. -/
def byteLen (cs : List Char) : ℕ := (cs.map Char.utf8Size).sum

/-- `str::split_at`: nothing beyond the end of the text or inside a character. -/
def splitAt : List Char → ℕ → Option (List Char × List Char)
  | cs, 0 => some ([], cs)
  | [], _ + 1 => none
  | c :: cs, n + 1 =>
      if c.utf8Size ≤ n + 1 then
        (splitAt cs (n + 1 - c.utf8Size)).map fun r => (c :: r.1, r.2)
      else none

/-- `&text[n..]`. -/
def sliceFrom (cs : List Char) (n : ℕ) : Option (List Char) := (splitAt cs n).map (·.2)

/-- `&text[..n]`. -/
def sliceTo (cs : List Char) (n : ℕ) : Option (List Char) := (splitAt cs n).map (·.1)

/-- `&text[m..n]`. -/
def slice (cs : List Char) (m n : ℕ) : Option (List Char) :=
  if m ≤ n then (sliceTo cs n).bind (sliceFrom · m) else none

/-- `str::find` with a string pattern. -/
def find (p : List Char) : List Char → Option ℕ
  | [] => if p.isEmpty then some 0 else none
  | c :: cs =>
      if p.isPrefixOf (c :: cs) then some 0 else (find p cs).map (c.utf8Size + ·)

/-- `str::splitn` on a character: at most `n` pieces, the last of them uncut. -/
def splitn (sep : Char) : ℕ → List Char → List (List Char)
  | 0, _ => []
  | 1, cs => [cs]
  | n + 2, cs =>
      match cs.dropWhile (· ≠ sep) with
      | [] => [cs]
      | _ :: rest => cs.takeWhile (· ≠ sep) :: splitn sep (n + 1) rest

/-! ## Lengths -/

section Length

variable (a b : List Char)

@[simp] theorem byteLen_nil : byteLen [] = 0 := rfl

@[simp] theorem byteLen_cons (c : Char) (cs : List Char) :
    byteLen (c :: cs) = c.utf8Size + byteLen cs := by
  simp [byteLen]

@[simp] theorem byteLen_append : byteLen (a ++ b) = byteLen a + byteLen b := by
  simp [byteLen]

theorem length_le_byteLen : a.length ≤ byteLen a := by
  induction a with
  | nil => simp
  | cons c a ih =>
    have hc := c.utf8Size_pos
    simp only [List.length_cons, byteLen_cons]
    omega

theorem byteLen_eq_zero {a : List Char} : byteLen a = 0 ↔ a = [] := by
  constructor
  · intro h
    have hle := length_le_byteLen a
    exact List.length_eq_zero_iff.1 (by omega)
  · rintro rfl
    rfl

end Length

/-! ## Cuts -/

section Cuts

variable {cs a b : List Char} {n : ℕ}

theorem splitAt_append (a b : List Char) : splitAt (a ++ b) (byteLen a) = some (a, b) := by
  induction a with
  | nil => cases b <;> rfl
  | cons c a ih =>
    obtain ⟨k, hk⟩ := Nat.exists_eq_add_of_lt c.utf8Size_pos
    have hlen : byteLen (c :: a) = (k + byteLen a) + 1 := by
      rw [byteLen_cons]
      omega
    have hrest : k + byteLen a + 1 - c.utf8Size = byteLen a := by omega
    rw [hlen, List.cons_append, splitAt, if_pos (by omega), hrest, ih]
    rfl

/-- A text can be cut at an offset exactly when some characters of it take that many
bytes. -/
theorem splitAt_eq_some_iff : splitAt cs n = some (a, b) ↔ cs = a ++ b ∧ byteLen a = n := by
  constructor
  · induction cs generalizing n a with
    | nil =>
      cases n with
      | zero =>
        intro h
        simp only [splitAt, Option.some.injEq, Prod.mk.injEq] at h
        obtain ⟨rfl, rfl⟩ := h
        simp
      | succ n => simp [splitAt]
    | cons c cs ih =>
      cases n with
      | zero =>
        intro h
        simp only [splitAt, Option.some.injEq, Prod.mk.injEq] at h
        obtain ⟨rfl, rfl⟩ := h
        simp
      | succ n =>
        rw [splitAt]
        split
        next hle =>
          intro h
          obtain ⟨r, hr, heq⟩ := Option.map_eq_some_iff.1 h
          simp only [Prod.mk.injEq] at heq
          obtain ⟨rfl, rfl⟩ := heq
          obtain ⟨rfl, hlen⟩ := ih hr
          refine ⟨rfl, ?_⟩
          rw [byteLen_cons, hlen]
          omega
        next => simp
  · rintro ⟨rfl, rfl⟩
    exact splitAt_append a b

@[simp] theorem sliceFrom_append (a b : List Char) : sliceFrom (a ++ b) (byteLen a) = some b := by
  rw [sliceFrom, splitAt_append, Option.map_some]

@[simp] theorem sliceTo_append (a b : List Char) : sliceTo (a ++ b) (byteLen a) = some a := by
  rw [sliceTo, splitAt_append, Option.map_some]

/-- The text between two cuts. -/
theorem slice_append (a b c : List Char) :
    slice (a ++ (b ++ c)) (byteLen a) (byteLen a + byteLen b) = some b := by
  rw [slice, if_pos (Nat.le_add_right _ _), ← byteLen_append, ← List.append_assoc,
    sliceTo_append, Option.bind_some, sliceFrom_append]

end Cuts

/-! ## Searching -/

/-- The pattern stands behind `a`, and nowhere before it. -/
def Starts (p a b : List Char) : Prop :=
  ∀ x y, a ++ (p ++ b) = x ++ (p ++ y) → a.length ≤ x.length

section Search

variable {p cs : List Char} {n : ℕ}

theorem isPrefixOf_eq_true : p.isPrefixOf cs = true ↔ ∃ b, cs = p ++ b := by
  rw [List.isPrefixOf_iff_prefix]
  exact ⟨fun ⟨b, hb⟩ => ⟨b, hb.symm⟩, fun ⟨b, hb⟩ => ⟨b, hb.symm⟩⟩

/-- What a search finds is the first occurrence, with the bytes before it counted. -/
theorem find_eq_some (h : find p cs = some n) :
    ∃ a b, cs = a ++ (p ++ b) ∧ byteLen a = n ∧ Starts p a b := by
  induction cs generalizing n with
  | nil =>
    rw [find] at h
    split at h
    next hp =>
      rw [List.isEmpty_iff] at hp
      cases h
      exact ⟨[], [], by simp [hp], rfl, fun x y _ => Nat.zero_le _⟩
    next => cases h
  | cons c cs ih =>
    rw [find] at h
    split at h
    next hp =>
      cases h
      obtain ⟨b, hb⟩ := isPrefixOf_eq_true.1 hp
      exact ⟨[], b, hb, rfl, fun x y _ => Nat.zero_le _⟩
    next hp =>
      obtain ⟨m, hm, rfl⟩ := Option.map_eq_some_iff.1 h
      obtain ⟨a, b, rfl, rfl, hfirst⟩ := ih hm
      refine ⟨c :: a, b, rfl, byteLen_cons c a, ?_⟩
      intro x y hxy
      cases x with
      | nil => exact absurd (isPrefixOf_eq_true.2 ⟨y, hxy⟩) hp
      | cons d x =>
        rw [List.cons_append, List.cons_append, List.cons.injEq] at hxy
        simpa using hfirst x y hxy.2

theorem find_eq_none (h : find p cs = none) (a b : List Char) : cs ≠ a ++ (p ++ b) := by
  induction cs generalizing a with
  | nil =>
    intro heq
    rw [find] at h
    have hp : p = [] := by
      have hlen := congrArg List.length heq
      simp only [List.length_nil, List.length_append] at hlen
      exact List.length_eq_zero_iff.1 (by omega)
    simp [hp] at h
  | cons c cs ih =>
    intro heq
    rw [find] at h
    split at h
    next => cases h
    next hp =>
      cases a with
      | nil => exact hp (isPrefixOf_eq_true.2 ⟨b, heq⟩)
      | cons d a =>
        rw [List.cons_append, List.cons.injEq] at heq
        exact ih (Option.map_eq_none_iff.1 h) a heq.2

theorem Starts.notMem {c : Char} {a b : List Char} (h : Starts [c] a b) : c ∉ a := by
  intro hc
  obtain ⟨u, v, rfl⟩ := List.append_of_mem hc
  have hle := h u (v ++ c :: b) (by simp)
  simp only [List.length_append, List.length_cons] at hle
  omega

/-- A second occurrence of the pattern is not before the first one. -/
theorem Starts.after {a b x y : List Char} (h : Starts p a b)
    (heq : a ++ (p ++ b) = x ++ (p ++ y)) : ∃ z, p ++ b = z ++ (p ++ y) := by
  have hpre : a <+: x :=
    List.prefix_of_prefix_length_le ⟨p ++ b, heq⟩ ⟨p ++ y, rfl⟩ (h x y heq)
  obtain ⟨z, rfl⟩ := hpre
  rw [List.append_assoc, List.append_cancel_left_eq] at heq
  exact ⟨z, heq⟩

theorem find_singleton {c : Char} {w : List Char} (h : c ∉ w) (rest : List Char) :
    find [c] (w ++ c :: rest) = some (byteLen w) := by
  induction w with
  | nil => simp [find]
  | cons d w ih =>
    rw [List.mem_cons, not_or] at h
    simp [find, h.1, ih h.2]

theorem find_singleton_of_notMem {c : Char} {w : List Char} (h : c ∉ w) : find [c] w = none := by
  induction w with
  | nil => rfl
  | cons d w ih =>
    rw [List.mem_cons, not_or] at h
    simp [find, h.1, ih h.2]

end Search

/-! ## Pieces -/

section Pieces

variable {sep : Char} {w : List Char}

theorem other_of_mem (h : sep ∉ w) {c : Char} (hc : c ∈ w) : decide (c ≠ sep) = true := by
  rw [decide_eq_true_eq]
  rintro rfl
  exact h hc

theorem dropWhile_of_notMem (h : sep ∉ w) : w.dropWhile (· ≠ sep) = [] :=
  List.dropWhile_eq_nil_iff.2 fun _ => other_of_mem h

theorem takeWhile_sep (h : sep ∉ w) (rest : List Char) :
    (w ++ sep :: rest).takeWhile (· ≠ sep) = w := by
  rw [List.takeWhile_append_of_pos fun _ => other_of_mem h]
  simp

theorem dropWhile_sep (h : sep ∉ w) (rest : List Char) :
    (w ++ sep :: rest).dropWhile (· ≠ sep) = sep :: rest := by
  rw [List.dropWhile_append_of_pos fun _ => other_of_mem h]
  simp

theorem splitn_of_notMem (n : ℕ) (h : sep ∉ w) : splitn sep (n + 1) w = [w] := by
  cases n with
  | zero => rfl
  | succ n => rw [splitn, dropWhile_of_notMem h]

theorem splitn_sep (n : ℕ) (h : sep ∉ w) (rest : List Char) :
    splitn sep (n + 2) (w ++ sep :: rest) = w :: splitn sep (n + 1) rest := by
  rw [splitn, dropWhile_sep h, takeWhile_sep h]

/-- A text either lacks the separator or is cut at the first one. -/
theorem eq_or_exists_sep (sep : Char) (cs : List Char) :
    sep ∉ cs ∨ ∃ w rest, sep ∉ w ∧ cs = w ++ sep :: rest := by
  induction cs with
  | nil => simp
  | cons c cs ih =>
    by_cases hc : c = sep
    · exact .inr ⟨[], cs, by simp, by rw [hc]; rfl⟩
    · rcases ih with h | ⟨w, rest, hw, rfl⟩
      · exact .inl (by simp [Ne.symm hc, h])
      · exact .inr ⟨c :: w, rest, by simp [Ne.symm hc, hw], rfl⟩

end Pieces

example : splitAt "a€b".toList 2 = none := by decide

example : find "€".toList "ab€".toList = some 2 := by decide

end Lib.Utf8
