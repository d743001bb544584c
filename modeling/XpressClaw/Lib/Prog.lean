import Mathlib.Logic.Relation
import Mathlib.Tactic.Common

/-!
# Programs over a transactional store

A program that talks to a database is, for everything that can be observed from
outside, a sequence of committed transactions: each one maps the store to a new
store and hands what it read to the rest of the program.  `Prog σ ε α` is that
shape and nothing more.  The three leaves are a result, an error, and `stall`,
which stands for a recursion cut off before it returned; `stall` is kept apart
from the errors so that no handler can catch it.

One definition of a program gives three ways of running it.

* `Prog.run` — alone, to the end.
* `Prog.trace` — alone, as the list of stores it commits: the points at which a
  crash can leave the store.
* `Step` — as one of several threads, any of which may commit next.
-/

namespace Lib

/-- A program over a store `σ` with errors `ε` and result `α`.  `act f k` is one
committed transaction: it turns the store `s` into `f s` and continues with
`k s`, that is, with whatever it read from the store it found. -/
inductive Prog (σ ε α : Type) where
  | ret (r : Except ε α)
  | stall
  | act (f : σ → σ) (k : σ → Prog σ ε α)

/-- A chain that succeeds succeeds link by link. -/
theorem bind_ok {ε α β : Type} {x : Except ε α} {g : α → Except ε β} {b : β}
    (h : x >>= g = .ok b) : ∃ a, x = .ok a ∧ g a = .ok b := by
  cases x with
  | error e => cases h
  | ok a => exact ⟨a, rfl, h⟩

namespace Prog

variable {σ ε α β γ : Type}

/-- Sequencing: errors and cut-off recursions end the whole program. -/
def bind : Prog σ ε α → (α → Prog σ ε β) → Prog σ ε β
  | ret (.ok a), g => g a
  | ret (.error e), _ => ret (.error e)
  | stall, _ => stall
  | act f k, g => act f fun s => (k s).bind g

instance : Monad (Prog σ ε) where
  pure a := ret (.ok a)
  bind := bind

/-- Fail without touching the store. -/
def fail (e : ε) : Prog σ ε α := ret (.error e)

/-- Run a program and hand its outcome, good or bad, to the caller. -/
def attempt : Prog σ ε α → Prog σ ε (Except ε α)
  | ret r => ret (.ok r)
  | stall => stall
  | act f k => act f fun s => (k s).attempt

/-- One transaction.  When it fails it is rolled back, so the store stays as it
was found. -/
def tx (t : σ → Except ε (α × σ)) : Prog σ ε α :=
  act (fun s => match t s with
      | .ok r => r.2
      | .error _ => s)
    fun s => ret ((t s).map Prod.fst)

/-- One query. -/
def read (q : σ → α) : Prog σ ε α := act id fun s => ret (.ok (q s))

/-- One statement that only writes. -/
def write (u : σ → σ) : Prog σ ε Unit := act u fun _ => ret (.ok ())

/-- Turn an optional result into a program, with an error for `none`. -/
def orFail (e : ε) : Option α → Prog σ ε α
  | some a => ret (.ok a)
  | none => fail e

/-- Run `g` on every element, in order. -/
def forEach : List α → (α → Prog σ ε Unit) → Prog σ ε Unit
  | [], _ => ret (.ok ())
  | a :: as, g => (g a).bind fun _ => forEach as g

/-- Run `g` on every element, in order, and collect the results. -/
def collect : List α → (α → Prog σ ε β) → Prog σ ε (List β)
  | [], _ => ret (.ok [])
  | a :: as, g => (g a).bind fun b => (collect as g).bind fun bs => ret (.ok (b :: bs))

@[simp] theorem pure_eq (a : α) : (pure a : Prog σ ε α) = ret (.ok a) := rfl

@[simp] theorem bind_eq (p : Prog σ ε α) (g : α → Prog σ ε β) : p >>= g = p.bind g := rfl

@[simp] theorem ret_ok_bind (a : α) (g : α → Prog σ ε β) :
    (ret (.ok a) : Prog σ ε α).bind g = g a := rfl

@[simp] theorem ret_error_bind (e : ε) (g : α → Prog σ ε β) :
    (ret (.error e) : Prog σ ε α).bind g = ret (.error e) := rfl

@[simp] theorem fail_bind (e : ε) (g : α → Prog σ ε β) :
    (fail e : Prog σ ε α).bind g = fail e := rfl

@[simp] theorem stall_bind (g : α → Prog σ ε β) : (stall : Prog σ ε α).bind g = stall := rfl

@[simp] theorem act_bind (f : σ → σ) (k : σ → Prog σ ε α) (g : α → Prog σ ε β) :
    (act f k).bind g = act f fun s => (k s).bind g := rfl

theorem bind_assoc (p : Prog σ ε α) (g : α → Prog σ ε β) (h : β → Prog σ ε γ) :
    (p.bind g).bind h = p.bind fun a => (g a).bind h := by
  induction p with
  | ret r => cases r <;> rfl
  | stall => rfl
  | act f k ih =>
    simp only [act_bind]
    congr 1
    funext s
    exact ih s

/-! ## Running alone -/

/-- Run a program to its end: what it returned (`none` for a cut-off recursion)
and the store it left. -/
def run : Prog σ ε α → σ → Option (Except ε α) × σ
  | ret r, s => (some r, s)
  | stall, s => (none, s)
  | act f k, s => (k s).run (f s)

/-- The store a program leaves. -/
def final (p : Prog σ ε α) (s : σ) : σ := (p.run s).2

/-- The stores a program commits, from the one it starts on to the one it
leaves.  A process that stops at an arbitrary moment leaves one of these. -/
def trace : Prog σ ε α → σ → List σ
  | ret _, s => [s]
  | stall, s => [s]
  | act f k, s => s :: (k s).trace (f s)

@[simp] theorem run_ret (r : Except ε α) (s : σ) : (ret r : Prog σ ε α).run s = (some r, s) := rfl

@[simp] theorem run_fail (e : ε) (s : σ) :
    (fail e : Prog σ ε α).run s = (some (.error e), s) := rfl

@[simp] theorem run_stall (s : σ) : (stall : Prog σ ε α).run s = (none, s) := rfl

@[simp] theorem run_act (f : σ → σ) (k : σ → Prog σ ε α) (s : σ) :
    (act f k).run s = (k s).run (f s) := rfl

@[simp] theorem run_read (q : σ → α) (s : σ) :
    (read q : Prog σ ε α).run s = (some (.ok (q s)), s) := rfl

@[simp] theorem run_write (u : σ → σ) (s : σ) :
    (write u : Prog σ ε Unit).run s = (some (.ok ()), u s) := rfl

theorem run_tx_ok {t : σ → Except ε (α × σ)} {s s' : σ} {a : α} (h : t s = .ok (a, s')) :
    (tx t).run s = (some (.ok a), s') := by
  simp [tx, h, Except.map]

theorem run_tx_error {t : σ → Except ε (α × σ)} {s : σ} {e : ε} (h : t s = .error e) :
    (tx t).run s = (some (.error e), s) := by
  simp [tx, h, Except.map]

/-- A program that goes on after another one has returned. -/
theorem run_bind_ok {p : Prog σ ε α} {g : α → Prog σ ε β} {s s' : σ} {a : α}
    (h : p.run s = (some (.ok a), s')) : (p.bind g).run s = (g a).run s' := by
  induction p generalizing s with
  | ret r =>
    cases h
    rfl
  | stall => cases h
  | act f k ih => exact ih s h

/-- A program that ends where another one has failed. -/
theorem run_bind_error {p : Prog σ ε α} {g : α → Prog σ ε β} {s s' : σ} {e : ε}
    (h : p.run s = (some (.error e), s')) : (p.bind g).run s = (some (.error e), s') := by
  induction p generalizing s with
  | ret r =>
    cases h
    rfl
  | stall => cases h
  | act f k ih => exact ih s h

/-- A transaction commits, or fails and leaves the store alone. -/
theorem run_tx_cases (t : σ → Except ε (α × σ)) (s : σ) :
    (∃ e, t s = .error e ∧ (tx t).run s = (some (.error e), s)) ∨
    ∃ a s', t s = .ok (a, s') ∧ (tx t).run s = (some (.ok a), s') := by
  cases h : t s with
  | ok r => exact .inr ⟨r.1, r.2, rfl, run_tx_ok h⟩
  | error e => exact .inl ⟨e, rfl, run_tx_error h⟩

end Prog
end Lib
