import XpressClaw.Lib.Bytes
import XpressClaw.Lib.Utf8

/-!
# Text between markers

A text is read for stretches that begin with an opening marker, a word, and end at the next
closing one, a single character.  The reader takes the first opening marker, goes on to the first
closing one behind it, and begins again after that.

* `Pair`, `Paired` — the stretches a reader finds, each with the text before it.
* `Closed` — every opening marker of a text has a closing one behind it.
* `Paired.found_iff` — a stretch of a text is found exactly when the text before it is closed and
  no closing marker is inside.
-/

namespace Lib.Markers

open Utf8

/-- A stretch between markers, and the text before it. -/
structure Pair where
  gap : List Char
  payload : List Char
  deriving DecidableEq

section Reader

variable (o : List Char) (e : Char)

def Pair.raw (p : Pair) : List Char := p.gap ++ (o ++ (p.payload ++ [e]))

/-- The text of some stretches, with the text before each. -/
def rawAll (pairs : List Pair) : List Char := pairs.flatMap (Pair.raw o e)

/-- What is found in a text, and what is left at its end. -/
inductive Paired : List Char → List Pair → List Char → Prop
  /-- No opening marker has a closing one behind it. -/
  | stop {rest : List Char} (h : ∀ a q b, rest ≠ a ++ (o ++ (q ++ e :: b))) : Paired rest [] rest
  | pair {gap q rest tail : List Char} {pairs : List Pair}
      (first : Starts o gap (q ++ e :: rest)) (he : e ∉ q) (h : Paired rest pairs tail) :
      Paired (gap ++ (o ++ (q ++ e :: rest))) (⟨gap, q⟩ :: pairs) tail

/-- Every opening marker has a closing one behind it. -/
def Closed (front : List Char) : Prop := ∀ a b, front = a ++ (o ++ b) → e ∈ b

/-- The stretch behind `front` is one of those that were found. -/
def Found (pairs : List Pair) (front payload : List Char) : Prop :=
  ∃ xs x ys, pairs = xs ++ x :: ys ∧ rawAll o e xs ++ x.gap = front ∧ x.payload = payload

end Reader

variable {o : List Char} {e : Char}

@[simp] theorem rawAll_nil : rawAll o e [] = [] := rfl

@[simp] theorem rawAll_cons (p : Pair) (pairs : List Pair) :
    rawAll o e (p :: pairs) = p.raw o e ++ rawAll o e pairs := by
  simp [rawAll]

@[simp] theorem rawAll_append (xs ys : List Pair) :
    rawAll o e (xs ++ ys) = rawAll o e xs ++ rawAll o e ys := by
  simp [rawAll]

theorem found_cons {p : Pair} {pairs : List Pair} {front payload : List Char} :
    Found o e (p :: pairs) front payload ↔
      p.gap = front ∧ p.payload = payload ∨
        ∃ later, front = p.raw o e ++ later ∧ Found o e pairs later payload := by
  constructor
  · rintro ⟨xs, x, ys, heq, hfront, hpayload⟩
    cases xs with
    | nil =>
      obtain ⟨rfl, -⟩ := List.cons.inj heq
      exact Or.inl ⟨hfront, hpayload⟩
    | cons x' xs =>
      obtain ⟨rfl, rfl⟩ := List.cons.inj heq
      rw [rawAll_cons, List.append_assoc] at hfront
      exact Or.inr ⟨_, hfront.symm, xs, x, ys, rfl, rfl, hpayload⟩
  · rintro (⟨hgap, hpayload⟩ | ⟨later, rfl, xs, x, ys, rfl, rfl, hpayload⟩)
    · exact ⟨[], p, pairs, rfl, hgap, hpayload⟩
    · exact ⟨p :: xs, x, ys, rfl, by rw [rawAll_cons, List.append_assoc], hpayload⟩

section Search

variable {c : Char} {w : List Char}

/-- What is before a closing marker does not matter. -/
theorem closed_append_sep (he : e ∉ c :: w) (front later : List Char) :
    Closed (c :: w) e (front ++ e :: later) ↔ Closed (c :: w) e later := by
  constructor
  · intro h a b hab
    refine h (front ++ e :: a) b ?_
    rw [hab]
    simp
  · intro h a b hab
    rcases List.append_eq_append_iff.1 hab with ⟨x, -, hx⟩ | ⟨x, -, hx⟩
    · cases x with
      | nil =>
        rw [List.nil_append, List.cons_append, List.cons.injEq] at hx
        simp [hx.1] at he
      | cons d x =>
        rw [List.cons_append, List.cons.injEq] at hx
        exact h x b hx.2
    · rcases List.append_eq_append_iff.1 hx with ⟨y, -, rfl⟩ | ⟨y, hy, hb⟩
      · simp
      · cases y with
        | nil =>
          rw [List.nil_append] at hb
          rw [← hb]
          exact List.mem_cons_self
        | cons d y =>
          rw [List.cons_append, List.cons.injEq] at hb
          rw [hy, hb.1] at he
          simp at he

/-- An opening marker whose first character occurs nowhere else in it does not overlap itself. -/
theorem no_overlap (hc : c ∉ w) {gap front r r' : List Char}
    (h : gap ++ ((c :: w) ++ r) = front ++ ((c :: w) ++ r')) (hlt : gap.length < front.length) :
    ∃ b, front = gap ++ ((c :: w) ++ b) ∧ r = b ++ ((c :: w) ++ r') := by
  rcases List.append_eq_append_iff.1 h with ⟨x, rfl, hx⟩ | ⟨x, rfl, -⟩
  · rcases List.append_eq_append_iff.1 hx with ⟨b, rfl, hb⟩ | ⟨y, hy, hr⟩
    · exact ⟨b, rfl, hb⟩
    · -- The marker would begin again inside itself.
      cases x with
      | nil => simp at hlt
      | cons d x =>
        rw [List.cons_append, List.cons.injEq] at hy
        cases y with
        | nil =>
          refine ⟨[], ?_, ?_⟩
          · rw [hy.1, hy.2, List.append_nil, List.append_nil]
          · simpa using hr.symm
        | cons d' y =>
          rw [List.cons_append, List.cons_append, List.cons.injEq] at hr
          rw [hy.2, ← hr.1] at hc
          simp at hc
  · simp only [List.length_append] at hlt
    omega

/-- **What is found.**  A stretch is found exactly when every opening marker before it has a
closing one before it, and there is no closing marker inside. -/
theorem Paired.found_iff (hc : c ∉ w) (he : e ∉ c :: w) {content tail : List Char}
    {pairs : List Pair} (h : Paired (c :: w) e content pairs tail) :
    ∀ front payload suffix, content = front ++ ((c :: w) ++ (payload ++ e :: suffix)) →
      (Found (c :: w) e pairs front payload ↔ Closed (c :: w) e front ∧ e ∉ payload) := by
  induction h with
  | stop hstop => exact fun front payload suffix heq => absurd heq (hstop front payload suffix)
  | @pair gap q rest tail pairs first hq hrest ih =>
    intro front payload suffix heq
    have hle : gap.length ≤ front.length := first front _ heq
    rcases hle.eq_or_lt with hlen | hlt
    · obtain ⟨rfl, heq'⟩ := List.append_inj heq hlen
      have hstretch : q ++ e :: rest = payload ++ e :: suffix := List.append_cancel_left heq'
      rw [found_cons]
      constructor
      · rintro (⟨-, rfl⟩ | ⟨later, hlater, -⟩)
        · refine ⟨fun a b hab => ?_, hq⟩
          have hfirst := first a (b ++ ((c :: w) ++ (q ++ e :: rest))) (by rw [hab]; simp)
          rw [hab] at hfirst
          simp only [List.length_append, List.length_cons] at hfirst
          omega
        · have hlength := congrArg List.length hlater
          simp only [Pair.raw, List.length_append, List.length_cons] at hlength
          omega
      · rintro ⟨-, hnot⟩
        exact Or.inl ⟨rfl, ((append_sep_inj hq hnot).1 hstretch).1⟩
    · obtain ⟨b, rfl, hb⟩ := no_overlap hc heq hlt
      have hne : gap ≠ gap ++ ((c :: w) ++ b) := by simp
      rcases eq_or_exists_sep e b with hmem | ⟨b₁, b₂, hb₁, rfl⟩
      · -- The opening marker in `gap` is still open, and takes the closing one of the stretch.
        refine ⟨fun hfound => ?_, fun h => absurd (h.1 gap b rfl) hmem⟩
        rcases found_cons.1 hfound with ⟨hgap, -⟩ | ⟨later, hlater, -⟩
        · exact absurd hgap hne
        · rw [Pair.raw, List.append_assoc, List.append_cancel_left_eq, List.append_assoc,
            List.append_cancel_left_eq] at hlater
          rw [hlater] at hmem
          simp at hmem
      · rw [List.append_assoc, List.cons_append] at hb
        obtain ⟨rfl, hrest'⟩ := (append_sep_inj hq hb₁).1 hb
        have hclosed : Closed (c :: w) e (gap ++ ((c :: w) ++ (q ++ e :: b₂))) ↔
            Closed (c :: w) e b₂ := by
          have h := closed_append_sep he (gap ++ ((c :: w) ++ q)) b₂
          rwa [List.append_assoc, List.append_assoc] at h
        rw [hclosed, ← ih b₂ payload suffix hrest', found_cons]
        constructor
        · rintro (⟨hgap, -⟩ | ⟨later, hlater, hfound⟩)
          · exact absurd hgap hne
          · have hb₂ : b₂ = later := by simpa [Pair.raw] using hlater
            rwa [hb₂]
        · exact fun hfound => Or.inr ⟨b₂, by simp [Pair.raw], hfound⟩

end Search

end Lib.Markers
