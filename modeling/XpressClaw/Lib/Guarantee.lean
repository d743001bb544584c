import Mathlib.Logic.Relation
import XpressClaw.Lib.Prog

/-!
# Guarantees of a program that may stop anywhere

A program over a transactional store can be cut off between any two of its transactions, so
what matters is what every transaction does, not only what the program returns.  `Safe G Q`
says both at once: every transaction changes the store as the relation `G` allows, and what is
returned and left is as `Q` says.

* `Safe.bind`, `Safe.attempt` — the rules for programs put together.
* `Safe.steps` — every transaction of the program is as `G` allows.
* `Safe.trace` — every store at which the program may be cut off is reached by such
  transactions.
* `Safe.result` — what a program that returned leaves.
-/

namespace Lib.Prog

variable {σ ε α β : Type} {G : σ → σ → Prop}

/-- Every transaction is as `G` allows, and the end is as `Q` says. -/
def Safe (G : σ → σ → Prop) (Q : Except ε α → σ → Prop) : Prog σ ε α → σ → Prop
  | ret r, s => Q r s
  | stall, _ => True
  | act f k, s => G s (f s) ∧ (k s).Safe G Q (f s)

theorem Safe.mono {Q Q' : Except ε α → σ → Prop} {p : Prog σ ε α} {s : σ}
    (h : p.Safe G Q s) (hQ : ∀ r s', Q r s' → Q' r s') : p.Safe G Q' s := by
  induction p generalizing s with
  | ret r => exact hQ r s h
  | stall => trivial
  | act f k ih => exact ⟨h.1, ih s h.2⟩

/-- The rule for a sequence: an error of the first part is the error of the whole. -/
theorem Safe.bind {Q : Except ε β → σ → Prop} {p : Prog σ ε α} {g : α → Prog σ ε β} {s : σ}
    (h : p.Safe G (fun r s' => match r with
      | .ok a => (g a).Safe G Q s'
      | .error e => Q (.error e) s') s) : (p >>= g).Safe G Q s := by
  rw [bind_eq]
  induction p generalizing s with
  | ret r =>
    cases r with
    | ok a => exact h
    | error e => exact h
  | stall => trivial
  | act f k ih => exact ⟨h.1, ih s h.2⟩

/-- The rule for a program whose outcome is handed on, good or bad. -/
theorem Safe.attempt {Q : Except ε (Except ε α) → σ → Prop} {p : Prog σ ε α} {s : σ}
    (h : p.Safe G (fun r s' => Q (.ok r) s') s) : p.attempt.Safe G Q s := by
  induction p generalizing s with
  | ret r => exact h
  | stall => trivial
  | act f k ih => exact ⟨h.1, ih s h.2⟩

/-- The transactions of a program: the stores before and after each. -/
def steps : Prog σ ε α → σ → List (σ × σ)
  | ret _, _ => []
  | stall, _ => []
  | act f k, s => (s, f s) :: (k s).steps (f s)

theorem Safe.steps {Q : Except ε α → σ → Prop} {p : Prog σ ε α} {s : σ} (h : p.Safe G Q s) :
    ∀ t ∈ p.steps s, G t.1 t.2 := by
  induction p generalizing s with
  | ret r => simp [Prog.steps]
  | stall => simp [Prog.steps]
  | act f k ih =>
    intro t ht
    rcases List.mem_cons.1 ht with rfl | ht
    · exact h.1
    · exact ih s h.2 t ht

/-- Every store at which the program may be cut off is reached by transactions that `G`
allows. -/
theorem Safe.trace {Q : Except ε α → σ → Prop} {p : Prog σ ε α} {s : σ} (h : p.Safe G Q s) :
    ∀ t ∈ p.trace s, Relation.ReflTransGen G s t := by
  induction p generalizing s with
  | ret r =>
    intro t ht
    obtain rfl := List.mem_singleton.1 ht
    exact .refl
  | stall =>
    intro t ht
    obtain rfl := List.mem_singleton.1 ht
    exact .refl
  | act f k ih =>
    intro t ht
    rcases List.mem_cons.1 ht with rfl | ht
    · exact .refl
    · exact (ih s h.2 t ht).head h.1

/-- What a program leaves is the last store of its trace. -/
theorem final_mem_trace (p : Prog σ ε α) (s : σ) : p.final s ∈ p.trace s := by
  induction p generalizing s with
  | ret r => exact List.mem_singleton_self s
  | stall => exact List.mem_singleton_self s
  | act f k ih => exact List.mem_cons_of_mem s (ih s (f s))

/-- What a program that returned leaves. -/
theorem Safe.result {Q : Except ε α → σ → Prop} {p : Prog σ ε α} {s s' : σ} {r : Except ε α}
    (h : p.Safe G Q s) (hr : p.run s = (some r, s')) : Q r s' := by
  induction p generalizing s with
  | ret r₀ =>
    cases hr
    exact h
  | stall => cases hr
  | act f k ih => exact ih s h.2 hr

/-- What every allowed transaction keeps, a run of them keeps. -/
theorem reflTransGen_keeps {I : σ → Prop} (hG : ∀ s t, G s t → I s → I t) {s t : σ}
    (h : Relation.ReflTransGen G s t) (hs : I s) : I t := by
  induction h with
  | refl => exact hs
  | tail _ hstep ih => exact hG _ _ hstep ih

end Lib.Prog
