import XpressClaw.Lib.Text

/-!
# Every occurrence of a pattern

`match_indices` searches a text from the left and goes on behind each occurrence that it finds.
It misses an occurrence only where two of them overlap, which takes a pattern with a border: a
part of it, not all, that it both starts and ends with.
-/

namespace Lib.Text

variable {p a b cs before : List Char} {k : ℕ}

/-- `match_indices` behind `before`, which is read backwards, with `k` characters to skip. -/
def matchesAux (p : List Char) : ℕ → List Char → List Char → List (List Char × List Char)
  | _, _, [] => []
  | k + 1, before, c :: cs => matchesAux p k (c :: before) cs
  | 0, before, c :: cs =>
      if p.isPrefixOf (c :: cs) then
        (before, (c :: cs).drop p.length) :: matchesAux p (p.length - 1) (c :: before) cs
      else matchesAux p 0 (c :: before) cs

/-- `str::match_indices`: what stands before each occurrence, read backwards, and behind it. -/
def matchIndices (p cs : List Char) : List (List Char × List Char) := matchesAux p 0 [] cs

/-- No part of the pattern that it ends with is one that it starts with. -/
def Borderless (p : List Char) : Prop :=
  p ≠ [] ∧ ∀ n ∈ List.range p.length, 0 < n → ¬ (p.drop n).isPrefixOf p

instance (p : List Char) : Decidable (Borderless p) :=
  inferInstanceAs
    (Decidable (p ≠ [] ∧ ∀ n ∈ List.range p.length, 0 < n → ¬ (p.drop n).isPrefixOf p))

/-- Two occurrences of a pattern without borders do not overlap. -/
theorem Borderless.no_overlap (hp : Borderless p) {n : ℕ} (hn : 0 < n) (hlt : n < p.length)
    (h : p <+: cs) : ¬ p <+: cs.drop n := by
  intro hlater
  refine hp.2 n (List.mem_range.2 hlt) hn (List.isPrefixOf_iff_prefix.2 ?_)
  have hdrop : p.drop n <+: cs.drop n := List.IsPrefix.drop h n
  refine List.prefix_of_prefix_length_le hdrop hlater ?_
  rw [List.length_drop]
  omega

theorem mem_matchesAux (hp : Borderless p) (hskip : ∀ i < k, ¬ p <+: cs.drop i) :
    (a, b) ∈ matchesAux p k before cs ↔ ∃ x, cs = x ++ (p ++ b) ∧ a = x.reverse ++ before := by
  induction cs generalizing k before with
  | nil =>
    have hne : ∀ x : List Char, ([] : List Char) ≠ x ++ (p ++ b) := by
      intro x hx
      have hnil := (List.append_eq_nil_iff.1 hx.symm).2
      exact hp.1 (List.append_eq_nil_iff.1 hnil).1
    cases k <;> simp [matchesAux, hne]
  | cons c cs ih =>
    -- an occurrence that is not the first thing in the text is one in the rest of it
    have hlater : ¬ p <+: c :: cs →
        ((∃ x, cs = x ++ (p ++ b) ∧ a = x.reverse ++ c :: before) ↔
          ∃ x, c :: cs = x ++ (p ++ b) ∧ a = x.reverse ++ before) := by
      intro hnot
      constructor
      · rintro ⟨x, rfl, rfl⟩
        exact ⟨c :: x, by simp, by simp⟩
      · rintro ⟨x, hx, rfl⟩
        cases x with
        | nil => exact absurd ⟨b, hx.symm⟩ hnot
        | cons d x =>
          rw [List.cons_append, List.cons.injEq] at hx
          obtain ⟨rfl, rfl⟩ := hx
          exact ⟨x, rfl, by simp⟩
    cases k with
    | succ k =>
      have hnot : ¬ p <+: c :: cs := by simpa using hskip 0 (Nat.succ_pos k)
      have hrest : ∀ i < k, ¬ p <+: cs.drop i := fun i hi => by
        simpa using hskip (i + 1) (Nat.succ_lt_succ hi)
      rw [matchesAux, ih hrest, hlater hnot]
    | zero =>
      rw [matchesAux]
      by_cases hmatch : p.isPrefixOf (c :: cs)
      · have hpre := List.isPrefixOf_iff_prefix.1 hmatch
        obtain ⟨rest, hrest⟩ := hpre
        have hnone : ∀ i < p.length - 1, ¬ p <+: cs.drop i := fun i hi => by
          simpa using hp.no_overlap (Nat.succ_pos i) (by omega) ⟨rest, hrest⟩
        have hdrop : (c :: cs).drop p.length = rest := by
          rw [← hrest, List.drop_left]
        rw [if_pos hmatch, List.mem_cons, ih hnone, hdrop, Prod.mk.injEq]
        constructor
        · rintro (⟨rfl, rfl⟩ | ⟨x, rfl, rfl⟩)
          · exact ⟨[], hrest.symm, rfl⟩
          · exact ⟨c :: x, by simp, by simp⟩
        · rintro ⟨x, hx, rfl⟩
          cases x with
          | nil =>
            rw [← hrest, List.nil_append, List.append_cancel_left_eq] at hx
            exact Or.inl ⟨rfl, hx.symm⟩
          | cons d x =>
            rw [List.cons_append, List.cons.injEq] at hx
            obtain ⟨rfl, rfl⟩ := hx
            exact Or.inr ⟨x, rfl, by simp⟩
      · have hnot : ¬ p <+: c :: cs := fun h => hmatch (List.isPrefixOf_iff_prefix.2 h)
        have hnone : ∀ i < 0, ¬ p <+: cs.drop i := fun i hi => absurd hi (Nat.not_lt_zero i)
        rw [if_neg hmatch, ih hnone, hlater hnot]

/-- A pattern without borders is found wherever it occurs. -/
theorem mem_matchIndices (hp : Borderless p) :
    (a, b) ∈ matchIndices p cs ↔ cs = a.reverse ++ (p ++ b) := by
  rw [matchIndices, mem_matchesAux hp fun i hi => absurd hi (Nat.not_lt_zero i)]
  constructor
  · rintro ⟨x, rfl, rfl⟩
    simp
  · rintro rfl
    exact ⟨a.reverse, by simp, by simp⟩

theorem containsList_iff : containsList p cs = true ↔ p <:+: cs := by
  induction cs with
  | nil => cases p <;> simp [containsList]
  | cons c cs ih =>
    rw [containsList, Bool.or_eq_true, ih, List.infix_cons_iff, List.isPrefixOf_iff_prefix]

end Lib.Text
