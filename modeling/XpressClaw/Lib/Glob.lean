import Mathlib.Data.List.Infix

/-!
# The language of a wildcard pattern

* `Token` — what a place of a pattern stands for: any sequence, any one symbol, or a symbol.
* `Matches` — the language of a pattern.
* `matches_any_iff` — a star takes nothing, or one symbol and then again.
* `skip_of_matches` — if a star followed by a part without stars matches, what comes after
  that part matches a suffix of what is left behind it.  It is why a matcher has to come back
  to its last star only.
-/

namespace Lib.Glob

universe u

/-- A place of a pattern. -/
inductive Token (α : Type u) where
  | any
  | one
  | lit (a : α)
  deriving DecidableEq

variable {α : Type u}

/-- The symbols that a place other than a star stands for. -/
def Token.Accepts : Token α → α → Prop
  | .any, _ => False
  | .one, _ => True
  | .lit a, b => a = b

/-- The language of a pattern. -/
def Matches : List (Token α) → List α → Prop
  | [], xs => xs = []
  | .any :: p, xs => ∃ v, v <:+ xs ∧ Matches p v
  | t :: p, xs => ∃ a v, xs = a :: v ∧ t.Accepts a ∧ Matches p v

/-- A part of a pattern that takes one symbol a place. -/
def StarFree (m : List (Token α)) : Prop := ∀ t ∈ m, t ≠ .any

section Rules

variable {p m : List (Token α)} {t : Token α} {a : α} {xs ys : List α}

theorem Token.one_ne_any : (one : Token α) ≠ any := fun h => by cases h

theorem Token.lit_ne_any : lit a ≠ any := fun h => by cases h

@[simp] theorem matches_nil : Matches ([] : List (Token α)) xs ↔ xs = [] := Iff.rfl

theorem matches_any : Matches (.any :: p) xs ↔ ∃ v, v <:+ xs ∧ Matches p v := Iff.rfl

theorem matches_cons (ht : t ≠ .any) :
    Matches (t :: p) xs ↔ ∃ a v, xs = a :: v ∧ t.Accepts a ∧ Matches p v := by
  cases t with
  | any => exact absurd rfl ht
  | one => rfl
  | lit b => rfl

/-- A place that is no star takes the first symbol. -/
theorem matches_cons_cons (ht : t ≠ .any) :
    Matches (t :: p) (a :: xs) ↔ t.Accepts a ∧ Matches p xs := by
  rw [matches_cons ht]
  constructor
  · rintro ⟨b, v, heq, hacc, hv⟩
    obtain ⟨rfl, rfl⟩ := List.cons.inj heq
    exact ⟨hacc, hv⟩
  · rintro ⟨hacc, hv⟩
    exact ⟨a, xs, rfl, hacc, hv⟩

theorem not_matches_cons_nil (ht : t ≠ .any) : ¬ Matches (t :: p) ([] : List α) := by
  rw [matches_cons ht]
  rintro ⟨a, v, heq, -⟩
  cases heq

theorem matches_any_of_suffix (h : Matches (.any :: p) ys) (hs : ys <:+ xs) :
    Matches (.any :: p) xs := by
  obtain ⟨v, hv, hp⟩ := h
  exact ⟨v, hv.trans hs, hp⟩

variable (p xs) in
/-- A star takes nothing, or a symbol and then again. -/
theorem matches_any_iff : Matches (.any :: p) xs ↔ Matches p xs ∨ Matches (.any :: p) xs.tail := by
  constructor
  · rintro ⟨v, hv, hp⟩
    cases xs with
    | nil =>
      rw [List.suffix_nil] at hv
      exact .inl (hv ▸ hp)
    | cons a xs =>
      rcases List.suffix_cons_iff.1 hv with rfl | hv
      · exact .inl hp
      · exact .inr ⟨v, hv, hp⟩
  · rintro (h | h)
    · exact ⟨xs, List.suffix_rfl, h⟩
    · exact matches_any_of_suffix h (List.tail_suffix xs)

/-- The empty sequence is only in the language of stars. -/
theorem matches_empty_iff : Matches p [] ↔ ∀ t ∈ p, t = .any := by
  induction p with
  | nil => simp
  | cons t p ih =>
    rw [List.forall_mem_cons]
    by_cases ht : t = .any
    · subst ht
      rw [matches_any_iff, List.tail_nil, ← ih]
      constructor
      · rintro (h | ⟨v, hv, h⟩)
        · exact ⟨rfl, h⟩
        · rw [List.suffix_nil] at hv
          exact ⟨rfl, hv ▸ h⟩
      · exact fun h => .inl h.2
    · exact iff_of_false (not_matches_cons_nil ht) fun h => ht h.1

theorem starFree_cons : StarFree (t :: m) ↔ t ≠ .any ∧ StarFree m := List.forall_mem_cons

/-- A part without stars takes as many symbols as it has places. -/
theorem StarFree.matches_append (hm : StarFree m) (h : Matches (m ++ p) xs) :
    m.length ≤ xs.length ∧ Matches p (xs.drop m.length) := by
  induction m generalizing xs with
  | nil => exact ⟨Nat.zero_le _, h⟩
  | cons t m ih =>
    rw [starFree_cons] at hm
    obtain ⟨a, v, rfl, -, hv⟩ := (matches_cons hm.1).1 h
    obtain ⟨hle, hp⟩ := ih hm.2 hv
    exact ⟨Nat.succ_le_succ hle, hp⟩

theorem StarFree.length_eq (hm : StarFree m) (h : Matches m xs) : m.length = xs.length := by
  rw [← List.append_nil m] at h
  obtain ⟨hle, hrest⟩ := hm.matches_append h
  rw [matches_nil, List.drop_eq_nil_iff] at hrest
  omega

/-- What follows a star and a part without stars matches some suffix of what that part leaves. -/
theorem skip_of_matches (hm : StarFree m) (h : Matches (.any :: (m ++ p)) xs) :
    ∃ v, v <:+ xs.drop m.length ∧ Matches p v := by
  obtain ⟨v, hv, hp⟩ := h
  obtain ⟨hle, hrest⟩ := hm.matches_append hp
  refine ⟨v.drop m.length, ?_, hrest⟩
  refine List.suffix_of_suffix_length_le ((List.drop_suffix _ _).trans hv)
    (List.drop_suffix _ _) ?_
  have hlen := hv.length_le
  rw [List.length_drop, List.length_drop]
  omega

end Rules

end Lib.Glob
