import Mathlib.Logic.Basic

/-!
# Partial updates

A record has a value for every field, and a partial update a new value for some of them.

* `Patch.apply` — a record with the new values.
* `Patch.apply_comm` — updates of different fields may be applied in any order.
* `Patch.apply_stale_iff` — an update that is applied to an old copy loses nothing exactly when the
  other one sets nothing new.
-/

namespace Lib

/-- New values for some of the fields. -/
def Patch {ι : Type} (V : ι → Type) := ∀ f, Option (V f)

namespace Patch

variable {ι : Type} {V : ι → Type} {p q : Patch V} {c : ∀ f, V f}

def apply (p : Patch V) (c : ∀ f, V f) : ∀ f, V f := fun f => (p f).getD (c f)

/-- No field is in both. -/
def Disjoint (p q : Patch V) : Prop := ∀ f, p f = none ∨ q f = none

/-- Every new value is the old one. -/
def Idle (p : Patch V) (c : ∀ f, V f) : Prop := ∀ f y, p f = some y → y = c f

theorem Disjoint.symm (h : p.Disjoint q) : q.Disjoint p := fun f => (h f).symm

theorem apply_eq_self_iff : p.apply c = c ↔ p.Idle c := by
  constructor
  · intro h f y hy
    have hf := congrFun h f
    rwa [apply, hy, Option.getD_some] at hf
  · intro h
    funext f
    cases hy : p f with
    | none => rw [apply, hy, Option.getD_none]
    | some y => rw [apply, hy, Option.getD_some, h f y hy]

theorem apply_comm (h : p.Disjoint q) (c : ∀ f, V f) :
    p.apply (q.apply c) = q.apply (p.apply c) := by
  funext f
  simp only [apply]
  rcases h f with hp | hq
  · rw [hp, Option.getD_none, Option.getD_none]
  · rw [hq, Option.getD_none, Option.getD_none]

/-- The update that comes second is applied to the record as it was before the first. -/
theorem apply_stale_iff (h : p.Disjoint q) :
    q.apply c = q.apply (p.apply c) ↔ p.Idle c := by
  rw [← apply_eq_self_iff]
  constructor
  · intro heq
    funext f
    have hf := congrFun heq f
    simp only [apply] at hf ⊢
    rcases h f with hp | hq
    · rw [hp, Option.getD_none]
    · rw [hq, Option.getD_none, Option.getD_none] at hf
      exact hf.symm
  · intro heq
    rw [heq]

end Patch

end Lib
